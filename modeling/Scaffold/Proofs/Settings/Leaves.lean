import Scaffold.Proofs.OrderedMap
import Scaffold.Settings.Flat

/-!
# Leaves of Settings

What nested settings say, without regard to how they are flattened.

A leaf is a value that is not a mapping, with the keys that lead to it, and the
leaves of a mapping come in the order in which one reads it. Two leaves can have
the same dotted key, if one is written flat and the other nested, or if two keys
have the same text. Flattening merges partial results at every depth, but all of
that comes to writing the leaves one after the other (`flatten_eq_writeAll`). So a
dotted key holds the value of its last leaf (`get?_flatten`).

## Main definitions

* `Leaf`: A value and the keys that lead to it.
* `Leaf.key`: The dotted key of a leaf.
* `entryLeaves`: The leaves of a mapping, in order.
* `lastLeaf?`: The value of the last leaf with a dotted key.
* `writesOf`: What leaves write, each under its dotted key.

## Theorems

* `exists_cons_of_mem_entryLeaves`: Some key leads to every leaf of a mapping.
* `flatten_eq_writeAll`: Flattening is one pass over the leaves.
* `get?_flatten`: A dotted key holds the value of its last leaf.
-/

namespace Scaffold.Settings

/-- A value that is not a mapping, with the keys that lead to it. -/
abbrev Leaf : Type := List Key × Value

/-- What keys add to a dotted key that they come after. -/
def dottedTail : List Key → String
  | [] => ""
  | k :: ks => "." ++ k.text ++ dottedTail ks

/-- Keys joined by dots. -/
def dottedKey : List Key → String
  | [] => ""
  | k :: ks => k.text ++ dottedTail ks

/-- The dotted key of a leaf. -/
def Leaf.key (l : Leaf) : String := dottedKey l.1

/-- A leaf that one more key leads to. -/
def Leaf.below (k : Key) (l : Leaf) : Leaf := (k :: l.1, l.2)

mutual

/-- The leaves of a value, in order. A value that is not a mapping is one itself. -/
def valueLeaves : Value → List Leaf
  | .map entries => entryLeaves entries
  | v => [([], v)]

/-- The leaves of a mapping, in order. -/
def entryLeaves : List (Key × Value) → List Leaf
  | [] => []
  | (k, v) :: es => (valueLeaves v).map (Leaf.below k) ++ entryLeaves es

end

/-- The value of the last leaf for which something holds. -/
def lastOf? (holds : Leaf → Bool) (leaves : List Leaf) : Option Value :=
  ((leaves.filter holds).getLast?).map Prod.snd

/-- The value of the last leaf with a dotted key. -/
def lastLeaf? (leaves : List Leaf) (key : String) : Option Value :=
  lastOf? (fun l => l.key == key) leaves

theorem entryLeaves_eq_flatMap (es : List (Key × Value)) :
    entryLeaves es = es.flatMap fun e => (valueLeaves e.2).map (Leaf.below e.1) := by
  induction es with
  | nil => rfl
  | cons e es ih => rw [entryLeaves, List.flatMap_cons, ih]

theorem mem_entryLeaves_iff {es : List (Key × Value)} {l : Leaf} :
    l ∈ entryLeaves es ↔ ∃ e ∈ es, ∃ m ∈ valueLeaves e.2, m.below e.1 = l := by
  rw [entryLeaves_eq_flatMap]
  simp only [List.mem_flatMap, List.mem_map]

/-- Some key leads to every leaf of a mapping. -/
theorem exists_cons_of_mem_entryLeaves {es : List (Key × Value)} {l : Leaf}
    (h : l ∈ entryLeaves es) : ∃ k ks, l.1 = k :: ks := by
  rcases mem_entryLeaves_iff.mp h with ⟨e, _, m, _, rfl⟩
  exact ⟨e.1, m.1, rfl⟩

theorem valueLeaves_of_kind {v : Value} (h : v.kind ≠ .mapping) : valueLeaves v = [([], v)] := by
  cases v with
  | map es => exact absurd rfl h
  | _ => rfl

/-- The keys of a mapping come after the key of the mapping and a dot. -/
theorem dottedTail_eq {es : List (Key × Value)} {l : Leaf} (h : l ∈ entryLeaves es) :
    dottedTail l.1 = "." ++ l.key := by
  rcases exists_cons_of_mem_entryLeaves h with ⟨k, ks, hl⟩
  rw [Leaf.key, hl, dottedTail, dottedKey, String.append_assoc]

theorem key_below (k : Key) (l : Leaf) : (l.below k).key = k.text ++ dottedTail l.1 := rfl

/-- What leaves write, each under its dotted key after a common beginning. -/
def writesOf (start : String) (leaves : List Leaf) : List (String × Value) :=
  leaves.map fun l => (start ++ l.key, l.2)

mutual

theorem flattenValue_eq_writeAll (flat : FlatSettings) (key : String) (v : Value) :
    flattenValue flat key v
      = flat.writeAll ((valueLeaves v).map fun l => (key ++ dottedTail l.1, l.2)) := by
  cases v with
  | map es =>
      rw [flattenValue, flattenEntries_eq_writeAll, OrderedMap.update_writeAll, valueLeaves,
        writesOf]
      -- Within a mapping the keys come after its own key and a dot.
      congr 1
      refine List.map_congr_left fun l hl => ?_
      rw [dottedTail_eq hl, String.append_assoc]
  | _ =>
      rw [flattenValue, valueLeaves]
      · exact congrArg (flat.insert · _) String.append_empty.symm
      · nofun
      · nofun

/-- Entries are flattened by writing their leaves, one after the other. -/
theorem flattenEntries_eq_writeAll (flat : FlatSettings) (start : String)
    (es : List (Key × Value)) :
    flattenEntries flat start es = flat.writeAll (writesOf start (entryLeaves es)) := by
  cases es with
  | nil => rfl
  | cons e es =>
      -- The entry in front is written first, and the rest into what it leaves.
      rw [flattenEntries, flattenEntries_eq_writeAll, flattenValue_eq_writeAll, entryLeaves,
        ← OrderedMap.writeAll_append, writesOf, writesOf, List.map_append, List.map_map]
      simp only [Function.comp_def, key_below, String.append_assoc]
      rfl

end

/-- Flattening is one pass over the leaves. -/
theorem flatten_eq_writeAll (entries : Mapping) (start : String) :
    flatten entries start = OrderedMap.empty.writeAll (writesOf start (entryLeaves entries)) :=
  flattenEntries_eq_writeAll .empty start entries

/-- What is written last to a key is the value of its last leaf. -/
theorem lastWrite?_writesOf (start key : String) (leaves : List Leaf) :
    OrderedMap.lastWrite? (writesOf start leaves) key
      = lastOf? (fun l => start ++ l.key == key) leaves := by
  rw [OrderedMap.lastWrite?, writesOf, List.filter_map, List.getLast?_map, Option.map_map]
  rfl

/-- A dotted key holds the value of its last leaf. -/
theorem get?_flatten (entries : Mapping) (key : String) :
    (flatten entries).get? key = lastLeaf? (entryLeaves entries) key := by
  rw [flatten_eq_writeAll, OrderedMap.get?_writeAll, OrderedMap.get?_empty, Option.or_none,
    lastWrite?_writesOf, lastLeaf?]
  simp only [String.empty_append]

end Scaffold.Settings
