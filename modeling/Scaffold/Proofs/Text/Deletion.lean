import Mathlib.Data.List.Basic
import Scaffold.Proofs.Text.Occurrence

/-!
# Deleting a Phrase

Taking every occurrence of a phrase out of a text, as it is done by one pass
from left to right: where the phrase begins it is skipped as a whole, and
anything else is kept. What comes together only by a deletion is not looked at
again.

In general such a pass cannot be taken apart, because an occurrence that is
skipped decides over the ones that overlap it. At a character that the phrase
lacks it can (`deleteAll_append_cons`), and in front of a part that the phrase
cannot begin in. This is enough for phrases that stand inside of one line. A
phrase that is a whole line, with its line feed, is met at the end of a line or
not at all, so it is deleted where a line ends with it and nowhere else.

## Main definitions

* `deleteAll`: A text without the occurrences of a phrase.
* `deleteEach`: The same for some phrases, one after the other.

## Theorems

* `deleteAll_append`: A phrase in front is deleted.
* `deleteAll_append_cons`: A character that the phrase lacks cuts the text.
* `deleteAll_of_not_infix`: Without an occurrence nothing is deleted.
* `not_infix_of_deleteAll_eq`: Where nothing is deleted there is no occurrence.
* `deleteAll_line_of_not_suffix`: A line that ends otherwise is kept.
-/

namespace Scaffold.Text

/-- A text without its first characters, of the given number, and without the
    occurrences of a phrase after them. -/
def deleteAfter (p : List Char) : Nat → List Char → List Char
  | _, [] => []
  | n + 1, _ :: cs => deleteAfter p n cs
  | 0, c :: cs =>
    if p.isPrefixOf (c :: cs) then deleteAfter p (p.length - 1) cs else c :: deleteAfter p 0 cs

/-- A text without the occurrences of a phrase, from left to right. -/
def deleteAll (p s : List Char) : List Char := deleteAfter p 0 s

/-- A text without the occurrences of some phrases, one phrase after the other. -/
def deleteEach (ps : List (List Char)) (s : List Char) : List Char :=
  ps.foldl (fun s p => deleteAll p s) s

section Phrase

variable {p : List Char}

theorem deleteAfter_append (p xs ys : List Char) :
    deleteAfter p xs.length (xs ++ ys) = deleteAll p ys := by
  induction xs with
  | nil => rfl
  | cons c xs ih => exact ih

/-- A phrase in front of a text is deleted. -/
theorem deleteAll_append (hp : p ≠ []) (ys : List Char) :
    deleteAll p (p ++ ys) = deleteAll p ys := by
  cases p with
  | nil => exact absurd rfl hp
  | cons c cs =>
      have hpre : (c :: cs).isPrefixOf (c :: (cs ++ ys)) = true :=
        List.isPrefixOf_iff_prefix.mpr (List.prefix_append (c :: cs) ys)
      rw [List.cons_append, deleteAll, deleteAfter, if_pos hpre, List.length_cons,
        Nat.add_sub_cancel, deleteAfter_append]

theorem deleteAll_cons {c : Char} {cs : List Char} (h : ¬ p <+: c :: cs) :
    deleteAll p (c :: cs) = c :: deleteAll p cs := by
  rw [deleteAll, deleteAfter, if_neg (by rwa [List.isPrefixOf_iff_prefix])]
  rfl

/-- What the phrase cannot begin in is kept. -/
theorem deleteAll_append_of_notMem {q : Char} {qs : List Char} {xs : List Char} (h : q ∉ xs)
    (ys : List Char) : deleteAll (q :: qs) (xs ++ ys) = xs ++ deleteAll (q :: qs) ys := by
  induction xs with
  | nil => rfl
  | cons c xs ih =>
      rw [List.mem_cons, not_or] at h
      have hpre : ¬ q :: qs <+: c :: (xs ++ ys) := fun hpre =>
        h.1 (List.cons_prefix_cons.mp hpre).1
      rw [List.cons_append, deleteAll_cons hpre, ih h.2]
      rfl

/-- A character that the phrase lacks cuts the text, also while a phrase is skipped. -/
theorem deleteAfter_append_cons {c : Char} (hp : p ≠ []) (hc : c ∉ p) {n : Nat}
    {xs : List Char} (hn : n ≤ xs.length) (ys : List Char) :
    deleteAfter p n (xs ++ c :: ys) = deleteAfter p n xs ++ c :: deleteAll p ys := by
  induction xs generalizing n with
  | nil =>
      have hpre : ¬ p <+: c :: ys := by
        rw [← List.nil_append (c :: ys), prefix_append_cons_iff hc, List.prefix_nil]
        exact hp
      rw [Nat.le_zero.mp hn]
      exact deleteAll_cons hpre
  | cons d xs ih =>
      cases n with
      | succ n => exact ih (Nat.le_of_succ_le_succ hn)
      | zero =>
          -- What begins before the character also ends before it.
          have hiff : p.isPrefixOf (d :: (xs ++ c :: ys)) = p.isPrefixOf (d :: xs) := by
            rw [Bool.eq_iff_iff, List.isPrefixOf_iff_prefix, List.isPrefixOf_iff_prefix,
              ← List.cons_append, prefix_append_cons_iff hc]
          rw [List.cons_append, deleteAfter, deleteAfter, hiff]
          split
          · next hpre =>
              -- The phrase fits before the character, so all of it can be skipped
              -- there.
              have hle := (List.isPrefixOf_iff_prefix.mp hpre).length_le
              rw [List.length_cons] at hle
              exact ih (Nat.sub_le_of_le_add hle)
          · rw [ih (Nat.zero_le _), List.cons_append]

/-- A character that the phrase lacks cuts the text. -/
theorem deleteAll_append_cons {c : Char} (hp : p ≠ []) (hc : c ∉ p) (xs ys : List Char) :
    deleteAll p (xs ++ c :: ys) = deleteAll p xs ++ c :: deleteAll p ys :=
  deleteAfter_append_cons hp hc (Nat.zero_le _) ys

/-- Without an occurrence nothing is deleted. -/
theorem deleteAll_of_not_infix {s : List Char} (h : ¬ p <:+: s) : deleteAll p s = s := by
  induction s with
  | nil => rfl
  | cons c cs ih =>
      rw [deleteAll_cons fun hpre => h hpre.isInfix,
        ih fun hcs => h (hcs.trans (List.suffix_cons c cs).isInfix)]

theorem length_deleteAfter_le (p : List Char) (n : Nat) (s : List Char) :
    (deleteAfter p n s).length ≤ s.length := by
  induction s generalizing n with
  | nil => exact Nat.le_refl 0
  | cons c cs ih =>
      cases n with
      | succ n => exact (ih n).trans (Nat.le_succ _)
      | zero =>
          rw [deleteAfter]
          split
          · exact (ih _).trans (Nat.le_succ _)
          · exact Nat.succ_le_succ (ih 0)

/-- A text with an occurrence gets shorter. -/
theorem length_deleteAll_lt (hp : p ≠ []) {s : List Char} (h : p <:+: s) :
    (deleteAll p s).length < s.length := by
  induction s with
  | nil => exact absurd (List.infix_nil.mp h) hp
  | cons c cs ih =>
      by_cases hpre : p <+: c :: cs
      · rw [deleteAll, deleteAfter, if_pos (List.isPrefixOf_iff_prefix.mpr hpre)]
        exact Nat.lt_succ_of_le (length_deleteAfter_le p _ cs)
      · -- What does not begin here begins later.
        have hcs : p <:+: cs := (List.infix_cons_iff.mp h).resolve_left hpre
        rw [deleteAll_cons hpre]
        exact Nat.succ_lt_succ (ih hcs)

/-- Where nothing is deleted there is no occurrence. -/
theorem not_infix_of_deleteAll_eq (hp : p ≠ []) {s : List Char} (h : deleteAll p s = s) :
    ¬ p <:+: s := fun hinfix =>
  Nat.lt_irrefl _ (h ▸ length_deleteAll_lt hp hinfix)

end Phrase

section Line

variable {w u : List Char}

/-- A phrase that is a whole line does not begin in a line that ends otherwise. -/
theorem not_prefix_of_not_suffix (hw : '\n' ∉ w) (hu : '\n' ∉ u) (h : ¬ w <:+ u) (s : List Char) :
    ¬ w ++ ['\n'] <+: u ++ '\n' :: s := by
  rintro ⟨t, ht⟩
  rw [List.append_assoc, List.singleton_append] at ht
  rw [line_eq_of_append_newline_eq hw hu ht] at h
  exact h (List.suffix_refl u)

/-- A line that does not end with the given one is kept. -/
theorem deleteAll_line_of_not_suffix (hw : '\n' ∉ w) (hu : '\n' ∉ u) (h : ¬ w <:+ u)
    (s : List Char) :
    deleteAll (w ++ ['\n']) (u ++ '\n' :: s) = u ++ '\n' :: deleteAll (w ++ ['\n']) s := by
  induction u with
  | nil => exact deleteAll_cons (not_prefix_of_not_suffix hw hu h s)
  | cons d u ih =>
      have hrest := ih (fun hmem => hu (List.mem_cons_of_mem d hmem))
        (fun hsuffix => h (hsuffix.trans (List.suffix_cons d u)))
      -- Neither this line nor what is left of it ends with the given one.
      have hpre := not_prefix_of_not_suffix hw hu h s
      rw [List.cons_append] at hpre ⊢
      rw [deleteAll_cons hpre, hrest, List.cons_append]

end Line

-- What a deletion brings together is kept.
example : deleteAll "ab".toList "aabb ab".toList = "ab ".toList := by decide

end Scaffold.Text
