import PocketLisp.Text.CodePoint

/-!
# Legible text

Text is legible when every character of it is printable. Such text stands on one line and
sends nothing but itself to a terminal. Quoted text is legible whatever it quotes, and so are
numbers; text that is put together from legible parts is legible.
-/

namespace PocketLisp.Text

section Characters

/-- Characters of a stretch inside the printable ASCII block are printable. -/
theorem isPrintable_of_between {char first last : Char} (after : first ≤ char)
    (before : char ≤ last) (above : 0x20 ≤ first.toNat) (below : last.toNat < 0x7f) :
    isPrintable char = true :=
  isPrintable_of_ascii (Nat.le_trans above after) (Nat.lt_of_le_of_lt before below)

/-- Decimal digits are printable. -/
theorem isPrintable_of_isDigit {char : Char} (digit : char.isDigit = true) :
    isPrintable char = true := by
  obtain ⟨after, before⟩ := Bool.and_eq_true_iff.1 digit
  exact isPrintable_of_between (of_decide_eq_true after) (of_decide_eq_true before) (by decide)
    (by decide)

/-- Letters and decimal digits are printable. -/
theorem isPrintable_of_isAlphanum {char : Char} (letter : char.isAlphanum = true) :
    isPrintable char = true := by
  have parts : (char.isUpper || char.isLower || char.isDigit) = true := letter
  simp only [Bool.or_eq_true] at parts
  rcases parts with (upper | lower) | digit
  · obtain ⟨after, before⟩ := of_decide_eq_true upper
    exact isPrintable_of_between after before (by decide) (by decide)
  · obtain ⟨after, before⟩ := Bool.and_eq_true_iff.1 lower
    exact isPrintable_of_between (of_decide_eq_true after) (of_decide_eq_true before) (by decide)
      (by decide)
  · exact isPrintable_of_isDigit digit

/-- Hexadecimal digits are printable. -/
theorem isPrintable_of_mem_hexDigits {char : Char} {width number : Nat}
    (member : char ∈ hexDigits width number) : isPrintable char = true := by
  induction width generalizing number with
  | zero => contradiction
  | succ width inductionHypothesis =>
      rw [hexDigits] at member
      rcases List.mem_append.1 member with before | last
      · exact inductionHypothesis before
      · have digits : ∀ digit < 16, isPrintable (Nat.digitChar digit) = true := by decide
        obtain rfl := List.mem_singleton.1 last
        exact digits _ (Nat.mod_lt number (by decide))

/-- Behind a backslash and a letter, the digits of a code point are all that is written. -/
theorem forall_mem_escape {letter : Char} {digits : List Char}
    (printable : isPrintable letter = true)
    (all : ∀ char ∈ digits, isPrintable char = true) :
    ∀ char ∈ '\\' :: letter :: digits, isPrintable char = true :=
  List.forall_mem_cons.2 ⟨by decide, List.forall_mem_cons.2 ⟨printable, all⟩⟩

/-- A code point is written in printable characters. -/
theorem isPrintable_of_mem_codePointEscape {written char : Char}
    (member : written ∈ codePointEscape char) : isPrintable written = true := by
  have digits : ∀ width, ∀ digit ∈ hexDigits width char.toNat, isPrintable digit = true :=
    fun width digit => isPrintable_of_mem_hexDigits
  unfold codePointEscape at member
  split at member
  · exact forall_mem_escape (by decide) (digits 2) written member
  split at member
  · exact forall_mem_escape (by decide) (digits 4) written member
  · exact forall_mem_escape (by decide) (digits 8) written member

/-- A character between two marks is written in printable characters. -/
theorem isPrintable_of_mem_escapeChar {mark written char : Char}
    (printable : isPrintable mark = true)
    (member : written ∈ escapeChar mark char) : isPrintable written = true := by
  unfold escapeChar at member
  split at member
  · next marked =>
      have itself : isPrintable char = true := by
        rcases marked with rfl | rfl
        · exact printable
        · decide
      exact forall_mem_escape itself (List.forall_mem_nil _) written member
  split at member
  · exact forall_mem_escape (by decide) (List.forall_mem_nil _) written member
  split at member
  · exact forall_mem_escape (by decide) (List.forall_mem_nil _) written member
  split at member
  · exact forall_mem_escape (by decide) (List.forall_mem_nil _) written member
  split at member
  · next itself =>
      obtain rfl := List.mem_singleton.1 member
      exact itself
  · exact isPrintable_of_mem_codePointEscape member

/-- Quote marks are printable. -/
theorem isPrintable_quoteMark (chars : List Char) : isPrintable (quoteMark chars) = true := by
  unfold quoteMark
  split <;> decide

end Characters

/-- Text of printable characters. -/
def Legible (text : String) : Prop :=
  ∀ char ∈ text.toList, isPrintable char = true

/-- Text that is given by its characters is legible when all of them are printable. The
characters of a literal are those that it is written with. -/
theorem legible_ofList {chars : List Char} (all : chars.all isPrintable = true) :
    Legible (String.ofList chars) := by
  intro char member
  rw [String.toList_ofList] at member
  exact List.all_eq_true.1 all char member

/-- Legible text has no line feed. -/
theorem Legible.oneLine {text : String} (legible : Legible text) : '\n' ∉ text.toList :=
  fun member => absurd (legible '\n' member) (by decide)

/-- Text is legible when its two parts are. -/
@[simp] theorem legible_append_iff {first second : String} :
    Legible (first ++ second) ↔ Legible first ∧ Legible second := by
  simp only [Legible, String.toList_append, List.forall_mem_append]

/-- Legible text between two legible texts is legible. -/
theorem Legible.between {front text behind : String} (legible : Legible text)
    (opening : Legible front) (closing : Legible behind) : Legible (front ++ text ++ behind) :=
  legible_append_iff.2 ⟨legible_append_iff.2 ⟨opening, legible⟩, closing⟩

/-- Printable characters between two printable marks are legible. -/
theorem legible_marked {mark : Char} {inner : List Char} (printable : isPrintable mark = true)
    (all : ∀ char ∈ inner, isPrintable char = true) :
    Legible (String.ofList (mark :: inner ++ [mark])) := by
  intro char member
  rw [String.toList_ofList] at member
  rcases List.mem_append.1 member with front | last
  · rcases List.mem_cons.1 front with rfl | inside
    · exact printable
    · exact all char inside
  · obtain rfl := List.mem_singleton.1 last
    exact printable

/-- Quoted text is legible, whatever it quotes. -/
@[simp] theorem legible_quoted (text : String) : Legible (quoted text) := by
  refine legible_marked (isPrintable_quoteMark _) fun written member => ?_
  obtain ⟨char, -, escaped⟩ := List.mem_flatMap.1 member
  exact isPrintable_of_mem_escapeChar (isPrintable_quoteMark _) escaped

/-- Quoted code points are legible, surrogates included. -/
@[simp] theorem CodePoint.legible_quoted (points : List CodePoint) :
    Legible (CodePoint.quoted points) := by
  refine legible_marked (isPrintable_quoteMark _) fun written member => ?_
  obtain ⟨point, -, escaped⟩ := List.mem_flatMap.1 member
  cases point with
  | character char => exact isPrintable_of_mem_escapeChar (isPrintable_quoteMark _) escaped
  | surrogate index =>
      exact forall_mem_escape (by decide) (fun _ => isPrintable_of_mem_hexDigits) written escaped

/-- Numbers are written in digits. -/
@[simp] theorem legible_toString_nat (number : Nat) : Legible (toString number) := by
  intro char member
  have digit : char ∈ Nat.toDigits 10 number := Nat.toList_repr ▸ member
  exact isPrintable_of_isDigit (Nat.isDigit_of_mem_toDigits (by decide) (by decide) digit)

/-- Numbers are written in digits, behind a sign where there is one. -/
@[simp] theorem legible_toString_int (number : Int) : Legible (toString number) := by
  cases number with
  | ofNat number => exact legible_toString_nat number
  | negSucc number =>
      have sign : Legible "-" := legible_ofList rfl
      exact legible_append_iff.2 ⟨sign, legible_toString_nat (number + 1)⟩

/-- Legible texts with a legible text between them are legible. -/
theorem legible_intercalate {between : String} {texts : List String} (legible : Legible between)
    (all : ∀ text ∈ texts, Legible text) : Legible (between.intercalate texts) := by
  induction texts with
  | nil => exact nofun
  | cons text texts inductionHypothesis =>
      obtain ⟨here, others⟩ := List.forall_mem_cons.1 all
      cases texts with
      | nil => simpa using here
      | cons next texts =>
          rw [String.intercalate_cons_cons, legible_append_iff, legible_append_iff]
          exact ⟨⟨here, legible⟩, inductionHypothesis others⟩

end PocketLisp.Text
