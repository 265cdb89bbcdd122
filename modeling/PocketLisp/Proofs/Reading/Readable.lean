import PocketLisp.Proofs.Reading.Language

/-!
# Readable trees

Which trees have a spelling. The grammar has no sign and no way to write a
conditional or a quotation, so every tree that is read is of the kind described
here, and its integers fit.
-/

namespace PocketLisp

open Reading

namespace Datum

mutual

/-- A tree of constants and applications whose integers have no sign and whose keys are
names of the grammar. -/
def Readable : Datum → Prop
  | .constant (.atom (.int value)) => 0 ≤ value
  | .constant (.atom (.key name)) => IsName name
  | .constant (.atom (.bool _)) | .constant (.atom (.instruction _)) => True
  | .application operator operands => operator.Readable ∧ AllReadable operands
  | _ => False

/-- Every tree of a list is readable. -/
def AllReadable : List Datum → Prop
  | [] => True
  | item :: items => item.Readable ∧ AllReadable items

end

end Datum

namespace Reading

mutual

/-- What has a spelling is readable. -/
theorem Spells.readable {admitted : Nat → Prop} {tree : Datum} {spelling : List Char} :
    Spells admitted tree spelling → tree.Readable
  | .integer numeral => by
      simp only [Datum.Readable, numeral.worth]
      exact Int.natCast_nonneg _
  | .key isName => by simpa only [Datum.Readable] using isName
  | .boolean _ => by simp only [Datum.Readable]
  | .instruction _ => by simp only [Datum.Readable]
  | .application _ spelled => by simpa only [Datum.Readable] using spelled.readable
  | .definition _ isName _ spelled _ => by
      simp only [Datum.Readable, Datum.AllReadable]
      exact ⟨isName, spelled.readable, trivial⟩

/-- The trees that are spelled one behind the other are readable. -/
theorem SpellsItems.readable {admitted : Nat → Prop} {item : Datum} {others : List Datum}
    {spelling : List Char} :
    SpellsItems admitted item others spelling → item.Readable ∧ Datum.AllReadable others
  | .last spelled _ => ⟨spelled.readable, by simp only [Datum.AllReadable]⟩
  | .more spelled _ _ others =>
      ⟨spelled.readable, by simpa only [Datum.AllReadable] using others.readable⟩

end

mutual

/-- What has a spelling is well-formed: its numerals fit. -/
theorem Spells.wellFormed {admitted : Nat → Prop} {tree : Datum} {spelling : List Char} :
    Spells admitted tree spelling → tree.WellFormed
  | .integer numeral => by
      simp only [Datum.WellFormed]
      refine ⟨?_, numeral.fits⟩
      rw [numeral.worth]
      exact Int.le_trans (by decide) (Int.natCast_nonneg _)
  | .key _ | .boolean _ | .instruction _ => by simp only [Datum.WellFormed, Atom.InRange]
  | .application _ spelled => by simpa only [Datum.WellFormed] using spelled.wellFormed
  | .definition _ _ _ spelled _ => by
      simp only [Datum.WellFormed, Datum.AllWellFormed, Atom.InRange]
      exact ⟨trivial, spelled.wellFormed, trivial⟩

/-- The trees that are spelled one behind the other are well-formed. -/
theorem SpellsItems.wellFormed {admitted : Nat → Prop} {item : Datum} {others : List Datum}
    {spelling : List Char} :
    SpellsItems admitted item others spelling → item.WellFormed ∧ Datum.AllWellFormed others
  | .last spelled _ => ⟨spelled.wellFormed, by simp only [Datum.AllWellFormed]⟩
  | .more spelled _ _ others =>
      ⟨spelled.wellFormed, by simpa only [Datum.AllWellFormed] using others.wellFormed⟩

end

/-- The digits of a number that fits are a numeral of it. -/
theorem numeral_toString {value : Int} (unsigned : 0 ≤ value) (fits : value ≤ Atom.maxInt) :
    Numeral WithinLimit (toString value).toList value := by
  obtain ⟨number, rfl⟩ := Int.eq_ofNat_of_zero_le unsigned
  have digits : (toString (number : Int)).toList = Nat.toDigits 10 number := Nat.toList_repr
  rw [digits]
  have short : (Nat.toDigits 10 number).length ≤ 10 := by
    rw [Nat.length_toDigits_le_iff (by decide) (by decide)]
    simp only [Atom.maxInt] at fits
    omega
  refine ⟨Nat.toDigits_ne_nil, ?_, ?_, fits, Nat.le_trans short (by decide)⟩
  · exact fun char written => Nat.isDigit_of_mem_toDigits (by decide) (by decide) written
  · rw [Nat.ofDigitChars_ten_toDigits]

end Reading

end PocketLisp
