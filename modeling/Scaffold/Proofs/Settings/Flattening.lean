import Mathlib.Data.List.Basic
import Scaffold.Proofs.Settings.Leaves

/-!
# Flat Settings and their Leaves

The flat form of settings, determined by their leaves alone.

Flattening fills a map for every mapping on its way and merges it into the map
around it. Of colliding spellings the later one wins and the earlier one gives the
place, at every depth and across depths, and nothing else is left of the nesting.
So the flat form has one description that does not speak of merging: its keys are
the dotted keys of the leaves, in the order in which these first come, and each
holds the value of its last leaf.

No value of the flat form is a mapping, and no key of it comes twice. Settings
that are flat already are their own leaves, which is why flattening once more
changes nothing, whatever dots the keys have in them.

## Main definitions

* `FlatSettings.toMapping`: Flat settings, written as a mapping.

## Theorems

* `kind_of_mem_entryLeaves`: No leaf is a mapping.
* `flatten_toMapping`: Flat settings are their own flat form.
* `flatten_describes_leaves`: The flat form is what the leaves say.
-/

namespace Scaffold.Settings

/-- Flat settings, written as a mapping with one entry for each dotted key. -/
def FlatSettings.toMapping (s : FlatSettings) : Mapping :=
  s.entries.map fun e => (.str e.1, e.2)

mutual

theorem kind_of_mem_valueLeaves {v : Value} {l : Leaf} (h : l ∈ valueLeaves v) :
    l.2.kind ≠ .mapping := by
  cases v with
  | map es => exact kind_of_mem_entryLeaves h
  | _ =>
      rw [valueLeaves, List.mem_singleton] at h
      · rw [h]
        exact nofun
      · nofun

/-- No leaf is a mapping. -/
theorem kind_of_mem_entryLeaves {es : List (Key × Value)} {l : Leaf} (h : l ∈ entryLeaves es) :
    l.2.kind ≠ .mapping := by
  cases es with
  | nil => exact absurd h List.not_mem_nil
  | cons e es =>
      rw [entryLeaves, List.mem_append, List.mem_map] at h
      rcases h with ⟨m, hm, rfl⟩ | hlater
      · have hkind : m.2.kind ≠ .mapping := kind_of_mem_valueLeaves hm
        exact hkind
      · exact kind_of_mem_entryLeaves hlater

end

/-- Every value of the flat form is that of a leaf. -/
theorem kind_of_mem_flatten {entries : Mapping} {start : String} {e : String × Value}
    (h : e ∈ (flatten entries start).entries) : e.2.kind ≠ .mapping := by
  rw [flatten_eq_writeAll] at h
  rcases OrderedMap.mem_entries_writeAll h with hempty | hwritten
  · exact absurd hempty List.not_mem_nil
  · rcases List.mem_map.mp hwritten with ⟨l, hl, rfl⟩
    exact kind_of_mem_entryLeaves hl

/-- Flat settings write what they hold. -/
theorem writesOf_toMapping {s : FlatSettings} (h : ∀ e ∈ s.entries, e.2.kind ≠ .mapping) :
    writesOf "" (entryLeaves s.toMapping) = s.entries := by
  rw [FlatSettings.toMapping, entryLeaves_eq_flatMap, List.flatMap_map, writesOf, List.map_flatMap]
  refine (List.flatMap_congr fun e he => ?_).trans (List.flatMap_singleton' s.entries)
  -- An entry is one leaf, and a single key has no dots put into it.
  rw [valueLeaves_of_kind (h e he), List.map_singleton, List.map_singleton, key_below, dottedTail,
    String.append_empty, String.empty_append]
  rfl

/-- Flat settings are their own flat form. -/
theorem flatten_toMapping {s : FlatSettings} (h : ∀ e ∈ s.entries, e.2.kind ≠ .mapping) :
    flatten s.toMapping = s := by
  rw [flatten_eq_writeAll, writesOf_toMapping h]
  exact OrderedMap.update_empty s

/-- The flat form of settings comes from one pass over their leaves. It is the one
    map whose keys are the dotted keys of the leaves, in the order in which these
    first come, where each key holds the value of its last leaf. Flattening it once
    more changes nothing. -/
theorem flatten_describes_leaves (entries : Mapping) (start : String) :
    flatten entries start = OrderedMap.empty.writeAll (writesOf start (entryLeaves entries))
    ∧ (∀ flat : FlatSettings, flat = flatten entries start ↔
      flat.keys = ((entryLeaves entries).map fun l => start ++ l.key).eraseDups
        ∧ ∀ key, flat.get? key = lastOf? (fun l => start ++ l.key == key) (entryLeaves entries))
    ∧ flatten (flatten entries start).toMapping = flatten entries start := by
  have hkeys : (flatten entries start).keys
      = ((entryLeaves entries).map fun l => start ++ l.key).eraseDups := by
    rw [flatten_eq_writeAll, OrderedMap.keys_writeAll, writesOf, List.map_map]
    rfl
  have hvalues (key : String) : (flatten entries start).get? key
      = lastOf? (fun l => start ++ l.key == key) (entryLeaves entries) := by
    rw [flatten_eq_writeAll, OrderedMap.get?_writeAll, OrderedMap.get?_empty, Option.or_none,
      lastWrite?_writesOf]
  refine ⟨flatten_eq_writeAll entries start, fun flat => ?_, ?_⟩
  · constructor
    · rintro rfl
      exact ⟨hkeys, hvalues⟩
    · rintro ⟨hflat, hget⟩
      -- A map is told by its keys and what they hold, so no other map fits.
      exact OrderedMap.ext_get? (hflat.trans hkeys.symm) fun key =>
        (hget key).trans (hvalues key).symm
  · exact flatten_toMapping fun e he => kind_of_mem_flatten he

-- Later spellings win, in the places of the earlier ones, and an empty mapping has no leaf.
example : (flatten [(.str "a.b", .bool true), (.int 1, .null),
      (.str "a", .map [(.str "b", .list [.map []]), (.str "c", .map [])]), (.str "1", .int 2)]
    "x.").entries.map (fun e => (e.1, e.2.literal)) = [("x.a.b", "[\x7b\x7d]"), ("x.1", "2")] := by
  decide +kernel

end Scaffold.Settings
