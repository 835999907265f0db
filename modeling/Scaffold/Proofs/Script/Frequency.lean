import Mathlib.Algebra.BigOperators.Group.List.Basic
import Mathlib.Algebra.GroupWithZero.Nat
import Scaffold.Proofs.Script.Rendering
import Scaffold.Proofs.Script.Spelling
import Scaffold.Proofs.Text.Places

/-!
# Frequencies in Renderings

How often a phrase occurs in generated code. A phrase that stands inside of
one line is counted line by line, whatever the lines are indented by, so its
frequency in a text that is made of parts is the sum over the parts that are
there.

## Main definitions

* `total`: How often a phrase occurs in some lines.

## Theorems

* `frequency_render`: A phrase is counted line by line.
* `total_parts`, `frequency_render_parts`: It is counted part by part.
* `sum_map_filter`: Parts that add nothing can be left out.
-/

namespace Scaffold.Script

open Text

/-- How often a phrase occurs in some lines, as they are spelled. -/
def total (p : List Char) (lines : List (List Char)) : Nat := (lines.map (frequency p)).sum

theorem total_append (p : List Char) (xs ys : List (List Char)) :
    total p (xs ++ ys) = total p xs + total p ys := by
  rw [total, List.map_append, List.sum_append]
  rfl

variable (ind : Indentation) {p : List Char}

/-- A phrase that stands inside of one line is counted line by line. -/
theorem frequency_render (hp : isInline p) (ls : List Line) :
    frequency p (render ind ls).toList = total p (spelled ls) := by
  -- The line feed cuts the first line off, and its indentation adds nothing to the
  -- count.
  induction ls with
  | nil => rfl
  | cons l ls ih =>
      have hindent : frequency p ((ind.text l.level).toList ++ l.text.toList)
          = frequency p l.text.toList := by
        rw [frequency_eq_length, frequency_eq_length,
          occurrences_indent_append (fun _ _ => by rwa [String.toList_ofList])
            fun _ hc => isIndent_of_mem_text ind hc]
      rw [toList_render_cons, frequency_append_cons (ne_nil_of_isInline hp)
        (newline_notMem_of_isInline hp), hindent, ih]
      rfl

theorem total_parts (p : List Char) {α : Type} (parts : List α) (isThere : α → Bool)
    (lines : α → List Line) :
    total p (spelled (parts.flatMap fun a => linesIf (isThere a) (lines a)))
      = (parts.map fun a => (isThere a).toNat * total p (spelled (lines a))).sum := by
  induction parts with
  | nil => rfl
  | cons a as ih =>
      have hpart : total p (spelled (linesIf (isThere a) (lines a)))
          = (isThere a).toNat * total p (spelled (lines a)) := by
        cases isThere a
        · exact (Nat.zero_mul _).symm
        · exact (Nat.one_mul _).symm
      rw [List.flatMap_cons, spelled_append, total_append, hpart, ih, List.map_cons,
        List.sum_cons]

/-- A phrase is counted part by part. -/
theorem frequency_render_parts (hp : isInline p) {α : Type} (parts : List α)
    (isThere : α → Bool) (lines : α → List Line) :
    frequency p (render ind (parts.flatMap fun a => linesIf (isThere a) (lines a))).toList
      = (parts.map fun a => (isThere a).toNat * total p (spelled (lines a))).sum := by
  rw [frequency_render ind hp, total_parts]

theorem infix_render_of_total_pos (hp : isInline p) {ls : List Line}
    (h : 0 < total p (spelled ls)) : p <:+: (render ind ls).toList := by
  rwa [← frequency_pos_iff (ne_nil_of_isInline hp), frequency_render ind hp]

/-- Parts that add nothing can be left out of a sum. -/
theorem sum_map_filter {α : Type} {f : α → Nat} (keep : α → Bool) {parts : List α}
    (h : ∀ a ∈ parts, keep a = false → f a = 0) :
    (parts.map f).sum = ((parts.filter keep).map f).sum := by
  induction parts with
  | nil => rfl
  | cons a as ih =>
      rw [List.forall_mem_cons] at h
      rw [List.map_cons, List.sum_cons, ih h.2]
      cases hkeep : keep a with
      | true => rw [List.filter_cons_of_pos hkeep, List.map_cons, List.sum_cons]
      | false => rw [List.filter_cons_of_neg (by rw [hkeep]; decide), h.1 hkeep, Nat.zero_add]

end Scaffold.Script
