import Mathlib.Data.List.Basic
import Scaffold.ComponentName

/-!
# Normal Forms of Component Names

What is left of a name once it has been brought into Pascal case: letters and
digits, and nothing that could mean something in a path.

The grammar of names allows two characters besides, and a line feed at the end,
but all of these end a word and leave no trace.

## Theorems

* `isAlphanum_of_mem_pascalCase`: Words are joined without what is between them.
* `isAlphanum_of_normalizeName`: A normal form has letters and digits only.
-/

namespace Scaffold

/-- Letters and digits by their ranges. -/
theorem isAlphanum_eq (c : Char) :
    c.isAlphanum = ((decide ('A'.val ≤ c.val ∧ c.val ≤ 'Z'.val)
      || decide ('a'.val ≤ c.val) && decide (c.val ≤ 'z'.val)) || c.isDigit) := rfl

/-- Capitals are thirty-two places before the small letters. -/
theorem isAlphanum_toUpper {c : Char} (h : c.isAlphanum) : c.toUpper.isAlphanum := by
  unfold Char.toUpper
  split
  · next hlower =>
      -- The difference is negative, and so it wraps around.
      have hshift : ('A'.val - 'a'.val).toNat = 4294967264 := rfl
      have hbounds : 'a'.val.toNat = 97 ∧ 'z'.val.toNat = 122 ∧ 'A'.val.toNat = 65
          ∧ 'Z'.val.toNat = 90 := ⟨rfl, rfl, rfl, rfl⟩
      simp only [isAlphanum_eq, Bool.or_eq_true, Bool.and_eq_true, decide_eq_true_eq,
        UInt32.le_iff_toNat_le, UInt32.toNat_add] at hlower ⊢
      refine .inl (.inl ?_)
      omega
  · exact h

theorem isAlphanum_toLower {c : Char} (h : c.isAlphanum) : c.toLower.isAlphanum := by
  unfold Char.toLower
  split
  · next hupper =>
      have hshift : ('a'.val - 'A'.val).toNat = 32 := rfl
      have hbounds : 'a'.val.toNat = 97 ∧ 'z'.val.toNat = 122 ∧ 'A'.val.toNat = 65
          ∧ 'Z'.val.toNat = 90 := ⟨rfl, rfl, rfl, rfl⟩
      simp only [isAlphanum_eq, Bool.or_eq_true, Bool.and_eq_true, decide_eq_true_eq,
        UInt32.le_iff_toNat_le, UInt32.toNat_add] at hupper ⊢
      refine .inl (.inr ?_)
      omega
  · exact h

/-- The characters of a name, a line feed at its end included. -/
theorem isNameChar_of_mem_isNameTail {cs : List Char} (h : isNameText.isNameTail cs) {c : Char}
    (hc : c ∈ cs) : isNameChar c ∨ c = '\n' := by
  fun_induction isNameText.isNameTail cs with
  | case1 => exact absurd hc List.not_mem_nil
  | case2 => exact .inr (List.mem_singleton.mp hc)
  | case3 d ds _ ih =>
      rw [Bool.and_eq_true] at h
      rcases List.mem_cons.mp hc with rfl | hlater
      · exact .inl h.1
      · exact ih h.2 hlater

/-- A name begins with a letter, which is one of its characters too. -/
theorem isNameChar_of_mem_isNameText {cs : List Char} (h : isNameText cs) {c : Char}
    (hc : c ∈ cs) : isNameChar c ∨ c = '\n' := by
  cases cs with
  | nil => exact absurd hc List.not_mem_nil
  | cons d ds =>
      rw [isNameText, Bool.and_eq_true] at h
      rcases List.mem_cons.mp hc with rfl | hlater
      · have halnum : c.isAlphanum = true := by
          rw [Char.isAlphanum, Bool.or_eq_true]
          exact .inl h.1
        exact .inl (by rw [isNameChar, halnum]; rfl)
      · exact isNameChar_of_mem_isNameTail h.2 hlater

/-- What does not end a word is a letter or a digit. -/
theorem isAlphanum_of_not_isWordBreak {c : Char} (h : isNameChar c ∨ c = '\n')
    (hbreak : ¬isWordBreak c) : c.isAlphanum := by
  rcases h with hname | rfl
  · simp only [isWordBreak, isNameChar, Bool.or_eq_true, not_or] at hbreak hname
    rcases hname with (halnum | hhyphen) | hunderscore
    · exact halnum
    · exact absurd hhyphen hbreak.1.1
    · exact absurd hunderscore hbreak.1.2
  · exact absurd (by decide) hbreak

/-- Words are joined without what is between them. -/
theorem isAlphanum_of_mem_pascalCase {cs : List Char}
    (h : ∀ c ∈ cs, isNameChar c ∨ c = '\n') {begins : Bool} {c : Char}
    (hc : c ∈ pascalCase begins cs) : c.isAlphanum := by
  induction cs generalizing begins with
  | nil => exact absurd hc List.not_mem_nil
  | cons d ds ih =>
      have hlater : ∀ c ∈ ds, isNameChar c ∨ c = '\n' := fun c hc =>
        h c (List.mem_cons_of_mem d hc)
      rw [pascalCase] at hc
      by_cases hbreak : isWordBreak d = true
      · rw [if_pos hbreak] at hc
        -- What ends a word is dropped.
        exact ih hlater hc
      · rw [if_neg hbreak, List.mem_cons] at hc
        have halnum := isAlphanum_of_not_isWordBreak (h d List.mem_cons_self) hbreak
        rcases hc with rfl | hc
        · split
          · exact isAlphanum_toUpper halnum
          · exact isAlphanum_toLower halnum
        · exact ih hlater hc

/-- The normal form of a name has letters and digits only. -/
theorem isAlphanum_of_normalizeName {name normal : String} (h : normalizeName name = .ok normal)
    {c : Char} (hc : c ∈ normal.toList) : c.isAlphanum := by
  unfold normalizeName at h
  split at h
  · exact absurd h nofun
  · next hproblem =>
      rw [← Except.ok.inj h, String.toList_ofList] at hc
      refine isAlphanum_of_mem_pascalCase (fun d hd => ?_) hc
      refine isNameChar_of_mem_isNameText ?_ hd
      unfold nameProblem? at hproblem
      simp only at hproblem
      split at hproblem
      · exact absurd hproblem nofun
      · split at hproblem
        · -- Only a text that passes the check raises no problem.
          next htext => exact htext
        · exact absurd hproblem nofun

end Scaffold
