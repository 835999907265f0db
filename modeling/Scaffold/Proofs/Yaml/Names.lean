import Scaffold.Proofs.Yaml.Words
import Scaffold.Yaml.Document

/-!
# Names

The words that are read as texts.

A plain text can spell a truth value, a number or nothing at all, and then it is read
as that. There are not many ways to spell a truth value or nothing, and all of them
are short. Numbers are not, but they begin with a digit, a sign, a point or an
underscore, and those that begin with a point and letters are short again. So a long
word that begins with a letter is on the safe side (`plainValue_of_isName`).

## Main definitions

* `IsName`: Long words that begin with a small letter.

## Theorems

* `contains_ofList_of_long`: A long text is not one of some short ones.
* `plainValue_of_isName`: A name is read as a text.
-/

namespace Scaffold.Yaml

/-- A word that begins with a small letter and is too long to spell anything but a
    text. -/
structure IsName (cs : List Char) : Prop extends IsWord cs where
  letter : ∀ c ∈ cs.head?, c.isLower
  long : 5 < cs.length

instance (cs : List Char) : Decidable (IsName cs) :=
  decidable_of_iff (IsWord cs ∧ cs.head?.all Char.isLower ∧ 5 < cs.length) <| by
    rw [Option.all_eq_true]
    exact ⟨fun h => ⟨h.1, h.2.1, h.2.2⟩, fun h => ⟨h.toIsWord, h.letter, h.long⟩⟩

section Letters

/-- A long text is not one of some short ones. -/
theorem contains_ofList_of_long {cs : List Char} (hlong : 5 < cs.length) {texts : List String}
    (htexts : ∀ s ∈ texts, s.length ≤ 5) : texts.contains (String.ofList cs) = false := by
  rw [List.contains_eq_mem, decide_eq_false_iff_not]
  intro hmem
  have hlength := htexts _ hmem
  rw [String.length_ofList] at hlength
  omega

theorem le_toNat_of_isLower {c : Char} (h : c.isLower) : 97 ≤ c.toNat := by
  change (decide ('a'.val ≤ c.val) && decide (c.val ≤ 'z'.val)) = true at h
  rw [Bool.and_eq_true, decide_eq_true_iff] at h
  exact UInt32.le_iff_toNat_le.mp h.1

theorem not_isDigit_of_isLower {c : Char} (h : c.isLower) : c.isDigit = false := by
  have hcode := le_toNat_of_isLower h
  rw [Char.isDigit, Bool.and_eq_false_iff]
  refine .inr (decide_eq_false fun hdigit => ?_)
  have hnine : c.toNat ≤ 57 := UInt32.le_iff_toNat_le.mp hdigit
  omega

theorem ne_of_isLower {c d : Char} (h : c.isLower) (hd : d.isLower = false) : c ≠ d := by
  rintro rfl
  rw [h] at hd
  exact absurd hd nofun

/-- A small letter is no decimal digit. -/
theorem isDigitIn_ten_of_isLower {c : Char} (h : c.isLower) : isDigitIn 10 c = false := by
  have hcode := le_toNat_of_isLower h
  have hupper : ¬c ≤ 'F' := fun hle => by
    have hlower : c.toNat ≤ 70 := UInt32.le_iff_toNat_le.mp hle
    omega
  unfold isDigitIn hexValue?
  rw [beq_eq_false_iff_ne.mpr (ne_of_isLower h (by decide)), not_isDigit_of_isLower h]
  simp only [hupper, decide_false, Bool.and_false, Bool.false_eq_true, if_false, Bool.false_or]
  split
  · rw [Option.any_some, decide_eq_false_iff_not]
    omega
  · rfl

/-- A text that begins with a small letter has no sign. -/
theorem splitSign_of_isLower {c : Char} (h : c.isLower) (cs : List Char) :
    Decimal.splitSign (c :: cs) = (false, c :: cs) := by
  unfold Decimal.splitSign
  split
  · next heq => exact absurd (List.cons.inj heq).1 (ne_of_isLower h (by decide))
  · next heq => exact absurd (List.cons.inj heq).1 (ne_of_isLower h (by decide))
  · rfl

/-- Nor is it a whole number, in whatever base. -/
theorem unsigned?_of_isLower {c : Char} (h : c.isLower) (cs : List Char) :
    unsigned? (c :: cs) = none := by
  have hten : natIn? 10 (c :: cs) = none := by
    rw [natIn?, List.all_cons, isDigitIn_ten_of_isLower h, Bool.false_and, Bool.and_false]
    rfl
  have hzero : c ≠ '0' := ne_of_isLower h (by decide)
  unfold unsigned?
  split
  · next heq => exact absurd (List.cons.inj heq).1 hzero
  · next heq => exact absurd (List.cons.inj heq).1 hzero
  · next heq => exact absurd (List.cons.inj heq).1 hzero
  · -- Other bases begin with a zero, and decimal digits are no letters.
    exact hten

/-- Nor is it a fraction. -/
theorem isFraction_of_isLower {c : Char} (h : c.isLower) (cs : List Char) :
    isFraction (c :: cs) = false := by
  unfold isFraction
  split
  · next heq => exact absurd (List.cons.inj heq).1 (ne_of_isLower h (by decide))
  · next heq =>
      rw [← (List.cons.inj heq).1, not_isDigit_of_isLower h, Bool.false_and]
  · rfl

/-- A name is read as a text, which is that name. -/
theorem plainValue_of_isName {cs : List Char} (h : IsName cs) :
    plainValue false cs = .ok (.str (String.ofList cs)) := by
  rcases exists_cons_of_isWord h.toIsWord with ⟨c, ds, rfl, _⟩
  have hc := h.letter c rfl
  -- Each of the other readings is excluded by the length or by the first letter.
  have hnull : isNull (String.ofList (c :: ds)) = false :=
    contains_ofList_of_long h.long (by decide)
  have hbool : bool? (String.ofList (c :: ds)) = none := by
    unfold bool?
    rw [contains_ofList_of_long h.long (by decide), contains_ofList_of_long h.long (by decide)]
    rfl
  have hint : int? (c :: ds) = none := by
    unfold int?
    rw [splitSign_of_isLower hc]
    simp only [unsigned?_of_isLower hc, Option.map_none, ite_self]
  have hfloat : float? (c :: ds) = none := by
    unfold float?
    rw [splitSign_of_isLower hc]
    simp only [
      contains_ofList_of_long h.long (by decide : ∀ s ∈ [".inf", ".Inf", ".INF"], s.length ≤ 5),
      contains_ofList_of_long h.long (by decide : ∀ s ∈ [".nan", ".NaN", ".NAN"], s.length ≤ 5),
      isFraction_of_isLower hc, Bool.false_eq_true, if_false]
  unfold plainValue
  simp only [hnull, hbool, hint, hfloat, Bool.false_eq_true, if_false]

end Letters

end Scaffold.Yaml
