import PocketLisp.Proofs.Layout.Erasure
import PocketLisp.Proofs.Layout.Fitting
import PocketLisp.Proofs.Reading.Readable

/-!
# Reading what was written

A readable tree is read back from its written text, whatever the width of a line and
the indentation. With colours the same holds of the text without its control
sequences. No other tree is ever read back, for whatever is read is readable.
-/

namespace PocketLisp

namespace Layout

open Reading
open Text (Unescaped)

section Readable

variable {layout : Layout} {erase : List Char → List Char}

/-- Under an erasure a written text stands for a tree. -/
def Shows (erase : List Char → List Char) (tree : Datum) (text : String) : Prop :=
  ∃ spelling, Spells WithinLimit tree spelling
    ∧ ∀ rest, erase (text.toList ++ rest) = spelling ++ erase rest

/-- Under an erasure the parts behind a spelling of an item stand for further items. -/
def ShowsTail (erase : List Char → List Char) (items : List Datum) (texts : List String) : Prop :=
  ∀ (gap : List Char) (item : Datum) (spelling : List Char), Gap gap → gap ≠ [] →
    Spells WithinLimit item spelling →
    ∃ whole, SpellsItems WithinLimit item items whole
      ∧ ∀ rest, spelling ++ erase (tail gap texts ++ rest) = whole ++ erase rest

/-- Names have no escapes. -/
theorem unescaped_of_isName {name : String} (isName : IsName name) : Unescaped name.toList := by
  rintro char member rfl
  have := isName.continues _ member
  contradiction

/-- Digits are no escapes. -/
theorem unescaped_of_numeral {digits : List Char} {value : Int}
    (numeral : Numeral WithinLimit digits value) : Unescaped digits := by
  rintro char member rfl
  have := numeral.decimal _ member
  contradiction

/-- An atom of a readable tree is written as a spelling of it. -/
theorem shows_writeAtom (erasure : layout.Erasure erase) {value : Atom} {text : String}
    (readable : (Datum.constant (.atom value)).Readable) (inRange : value.InRange)
    (written : layout.writeAtom value = .ok text) : Shows erase (.constant (.atom value)) text := by
  cases value with
  | int number =>
      simp only [Datum.Readable] at readable
      have numeral := numeral_toString readable inRange.2
      exact ⟨_, .integer numeral, erasure.painted (unescaped_of_numeral numeral) written⟩
  | key name =>
      simp only [Datum.Readable] at readable
      exact ⟨_, .key readable, erasure.painted (unescaped_of_isName readable) written⟩
  | bool truth =>
      have letters : (if truth then "t" else "f").toList = [letter truth] := by
        cases truth <;> rfl
      have plain : Unescaped (if truth then "t" else "f").toList := by
        cases truth <;> decide
      refine ⟨_, .boolean truth, fun rest => ?_⟩
      rw [erasure.painted plain written, letters]
  | instruction tag =>
      have plain : Unescaped tag.token.toList := by cases tag <;> decide
      exact ⟨_, .instruction tag, erasure.painted plain written⟩

/-- A form is written as a spelling of the application of its parts. -/
theorem shows_assemble (erasure : layout.Erasure erase) {operator : Datum} {operands : List Datum}
    {first : String} {rest : List String} (width indent : Int) (head : Shows erase operator first)
    (behind : ShowsTail erase operands rest) :
    Shows erase (.application operator operands) (assemble width indent (first :: rest)) := by
  obtain ⟨gap, isGap, written, shape⟩ := exists_gap_assemble width indent first rest
  obtain ⟨spelling, spelled, shown⟩ := head
  obtain ⟨whole, spelledAll, shownAll⟩ := behind gap operator spelling isGap written spelled
  have none : Gap [] := by simp [Gap]
  refine ⟨_, .application none spelledAll, fun text => ?_⟩
  have opening : '(' ≠ Text.escape := by decide
  have closing : ')' ≠ Text.escape := by decide
  calc
    erase ((assemble width indent (first :: rest)).toList ++ text) =
        erase ('(' :: (first.toList ++ (tail gap rest ++ ')' :: text))) := by
      rw [shape]
      simp
    _ = '(' :: (spelling ++ erase (tail gap rest ++ ')' :: text)) := by
      rw [erasure.cons opening, shown]
    _ = '(' :: (whole ++ ')' :: erase text) := by
      rw [shownAll, erasure.cons closing]
    _ = '(' :: ([] ++ whole ++ [')']) ++ erase text := by simp

mutual

/-- A readable tree is written as a spelling of it. -/
theorem shows_write (erasure : layout.Erasure erase) :
    (tree : Datum) → (indent : Int) → (text : String) → tree.Readable → tree.WellFormed →
      layout.write indent tree = .ok text → Shows erase tree text
  | .constant (.atom value), _, _, readable, wellFormed, written => by
      simp only [write, writeHeld] at written
      exact shows_writeAtom erasure readable (by simpa only [Datum.WellFormed] using wellFormed)
        written
  | .application operator operands, indent, _, readable, wellFormed, written => by
      simp only [Datum.Readable] at readable
      simp only [Datum.WellFormed] at wellFormed
      obtain ⟨first, rest, head, behind, rfl⟩ := write_application_eq_ok_iff.1 written
      exact shows_assemble erasure layout.width indent
        (shows_write erasure operator _ _ readable.1 wellFormed.1 head)
        (shows_writeAll erasure operands _ _ readable.2 wellFormed.2 behind)
  | .plain _, _, _, readable, _, _ | .atom _, _, _, readable, _, _
  | .ifThen _ _, _, _, readable, _, _ | .ifElse _ _ _, _, _, readable, _, _
  | .quote _, _, _, readable, _, _
  | .constant (.plain _), _, _, readable, _, _ | .constant (.constant _), _, _, readable, _, _
  | .constant (.application _ _), _, _, readable, _, _
  | .constant (.ifThen _ _), _, _, readable, _, _
  | .constant (.ifElse _ _ _), _, _, readable, _, _
  | .constant (.quote _), _, _, readable, _, _ => by
      simp [Datum.Readable] at readable

/-- Readable trees are written as spellings of them. -/
theorem shows_writeAll (erasure : layout.Erasure erase) :
    (items : List Datum) → (indent : Int) → (texts : List String) → Datum.AllReadable items →
      Datum.AllWellFormed items → layout.writeAll indent items = .ok texts →
        ShowsTail erase items texts
  | [], _, texts, _, _, written => by
      intro gap item spelling isGap blank spelled
      simp only [writeAll, Except.ok.injEq] at written
      subst written
      exact ⟨spelling ++ [], .last spelled (by simp [Gap]), fun rest => by simp [tail]⟩
  | next :: items, indent, _, readable, wellFormed, written => by
      intro gap item spelling isGap blank spelled
      simp only [Datum.AllReadable] at readable
      simp only [Datum.AllWellFormed] at wellFormed
      obtain ⟨first, texts, head, behind, rfl⟩ := writeAll_cons_eq_ok_iff.1 written
      obtain ⟨nextSpelling, nextSpelled, shown⟩ :=
        shows_write erasure next _ _ readable.1 wellFormed.1 head
      obtain ⟨whole, spelledAll, shownAll⟩ :=
        shows_writeAll erasure items _ _ readable.2 wellFormed.2 behind gap next nextSpelling
          isGap blank nextSpelled
      refine ⟨_, .more spelled isGap (fun _ => blank) spelledAll, fun rest => ?_⟩
      calc
        spelling ++ erase (tail gap (first :: texts) ++ rest) =
            spelling ++ erase (gap ++ (first.toList ++ (tail gap texts ++ rest))) := by
          simp [tail]
        _ = spelling ++ (gap ++ (nextSpelling ++ erase (tail gap texts ++ rest))) := by
          rw [erasure.append (unescaped_of_gap isGap), shown]
        _ = spelling ++ gap ++ whole ++ erase rest := by
          rw [shownAll]
          simp

end

/-- A readable tree is read back from what is left of its written text under an
erasure. -/
theorem read_erased_eq_ok (erasure : layout.Erasure erase) {tree : Datum} {indent : Int}
    {text : String} (readable : tree.Readable) (wellFormed : tree.WellFormed)
    (written : layout.write indent tree = .ok text) :
    read true (String.ofList (erase text.toList)) = .ok tree := by
  obtain ⟨spelling, spelled, shown⟩ :=
    shows_write erasure tree indent text readable wellFormed written
  have whole := shown []
  rw [List.append_nil, erasure.nil] at whole
  refine read_complete_eq_ok_iff_withinLimit.2 ⟨spelling, [], ?_, spelled, by simp [Gap], nofun⟩
  rw [String.toList_ofList, whole]

/-- Whatever is read as a whole is readable. -/
theorem readable_of_read {tree : Datum} {text : String} (ok : read true text = .ok tree) :
    tree.Readable := by
  obtain ⟨spelling, gap, -, spelled, -⟩ := read_complete_eq_ok_iff_withinLimit.1 ok
  exact spelled.readable

/-- Every well-formed tree is written, and it is read back exactly when it is readable.
When there are colours a readable tree is read back from the text without its control
sequences. -/
theorem read_write_eq_ok_iff_readable (tree : Datum) (wellFormed : tree.WellFormed)
    (width indent : Int) :
    (∃ text, (plain width).write indent tree = .ok text
      ∧ (read true text = .ok tree ↔ tree.Readable))
    ∧ ∃ text, (colored width).write indent tree = .ok text
      ∧ (tree.Readable → read true (String.ofList (Text.bare text.toList)) = .ok tree) := by
  have without : (plain width).color = .ok false := rfl
  have colours : (colored width).color = .ok true := rfl
  obtain ⟨text, written⟩ := exists_write without tree indent wellFormed
  obtain ⟨painted, colours⟩ := exists_write colours tree indent wellFormed
  refine ⟨⟨text, written, readable_of_read, fun readable => ?_⟩, painted, colours,
    fun readable => ?_⟩
  · have back := read_erased_eq_ok (erasure_plain width) readable wellFormed written
    rwa [id, String.ofList_toList] at back
  · exact read_erased_eq_ok (erasure_colored width) readable wellFormed colours

/-- A sum is read back from a layout with no room at all. -/
theorem read_write_sum :
    Datum.WellFormed (.application (.instruction .add) [.key "x", .int 1])
      ∧ ∃ text,
        (plain 0).write (-1) (.application (.instruction .add) [.key "x", .int 1]) = .ok text
        ∧ read true text = .ok (.application (.instruction .add) [.key "x", .int 1]) := by
  have wellFormed : Datum.WellFormed (.application (.instruction .add) [.key "x", .int 1]) := by
    decide
  have isName : IsName "x" := by decide
  have readable : Datum.Readable (.application (.instruction .add) [.key "x", .int 1]) := by
    simp [Datum.instruction, Datum.key, Datum.int, Datum.Readable, Datum.AllReadable, isName]
  obtain ⟨text, written, back⟩ := (read_write_eq_ok_iff_readable _ wellFormed 0 (-1)).1
  exact ⟨wellFormed, text, written, back.2 readable⟩

end Readable

end Layout

end PocketLisp
