/-!
# Ordered Maps

Finite maps that remember the order in which their keys first came. Giving a
key a new value leaves it where it is. No key occurs twice; the type says so.

## Main definitions

* `OrderedMap`: Entries without a repeated key.
* `OrderedMap.get?`, `OrderedMap.keys`: The views of a map.
* `OrderedMap.insert`, `OrderedMap.update`: Writing one entry, or many.
* `OrderedMap.erase`: Taking an entry out.

## Theorems

* `OrderedMap.keys_insert`: A new key goes to the end; a known one stays.
* `OrderedMap.get?_insert`: What a key holds after a write.
* `OrderedMap.get?_erase`: What a key holds after another is taken out.
* `OrderedMap.get?_update`: What a key holds after many writes.
-/

namespace Scaffold

variable {κ β : Type} [DecidableEq κ]

namespace OrderedMap

/-- Entries with the value of a key replaced, or with the key put at the end. -/
def insertEntry (k : κ) (v : β) : List (κ × β) → List (κ × β)
  | [] => [(k, v)]
  | (k', v') :: r => if k' = k then (k, v) :: r else (k', v') :: insertEntry k v r

/-- A new key goes to the end; a known one stays where it is. -/
theorem keys_insertEntry (k : κ) (v : β) (es : List (κ × β)) :
    (insertEntry k v es).map Prod.fst
      = if k ∈ es.map Prod.fst then es.map Prod.fst else es.map Prod.fst ++ [k] := by
  induction es with
  | nil => rfl
  | cons e es ih =>
    obtain ⟨k', v'⟩ := e
    rw [insertEntry]
    by_cases hk : k' = k
    · simp [hk]
    · rw [if_neg hk, List.map_cons, ih]
      have hk' : ¬k = k' := fun h => hk h.symm
      by_cases hm : k ∈ es.map Prod.fst <;> simp [hk', hm]

/-- A key holds what was last written to it, and no write touches another. -/
theorem lookup_insertEntry (k k' : κ) (v : β) (es : List (κ × β)) :
    (insertEntry k v es).lookup k' = if k' = k then some v else es.lookup k' := by
  induction es with
  | nil =>
    by_cases h : k' = k
    · simp [insertEntry, h]
    · simp [insertEntry, List.lookup_cons, h, beq_eq_false_iff_ne.2 h]
  | cons e es ih =>
    obtain ⟨k₀, v₀⟩ := e
    by_cases hk : k₀ = k
    · subst hk
      by_cases h : k' = k₀
      · simp [insertEntry, h]
      · simp [insertEntry, List.lookup_cons, h, beq_eq_false_iff_ne.2 h]
    · by_cases h0 : k' = k₀
      · subst h0
        simp [insertEntry, hk]
      · simp only [insertEntry, if_neg hk, List.lookup_cons, beq_eq_false_iff_ne.2 h0]
        exact ih

/-- A key that no entry has is not found. -/
theorem lookup_eq_none_of_notMem {k : κ} {es : List (κ × β)} (h : k ∉ es.map Prod.fst) :
    es.lookup k = none := by
  rw [List.lookup_eq_none_iff]
  intro e he
  rw [bne_iff_ne]
  exact fun heq => h (List.mem_map.2 ⟨e, he, heq.symm⟩)

/-- Taking a key out leaves the others as they are. -/
theorem lookup_filter_ne (k k' : κ) (es : List (κ × β)) :
    (es.filter fun e => e.1 ≠ k).lookup k' = if k' = k then none else es.lookup k' := by
  induction es with
  | nil => simp
  | cons e es ih =>
    obtain ⟨k₀, v₀⟩ := e
    by_cases hk : k₀ = k
    · subst hk
      rw [List.filter_cons_of_neg (by simp), ih]
      by_cases h : k' = k₀
      · simp [h]
      · simp [List.lookup_cons, h, beq_eq_false_iff_ne.2 h]
    · rw [List.filter_cons_of_pos (by simpa using hk)]
      by_cases h0 : k' = k₀
      · subst h0
        simp [hk]
      · simp only [List.lookup_cons, beq_eq_false_iff_ne.2 h0]
        exact ih

end OrderedMap

/-- Entries in order, without a repeated key. -/
structure OrderedMap (κ β : Type) where
  entries : List (κ × β)
  nodup : (entries.map Prod.fst).Nodup

namespace OrderedMap

/-- The map without entries. -/
def empty : OrderedMap κ β := ⟨[], List.nodup_nil⟩

instance : Inhabited (OrderedMap κ β) := ⟨empty⟩

/-- The keys, in the order in which they first came. -/
def keys (m : OrderedMap κ β) : List κ := m.entries.map Prod.fst

/-- The value of a key, if it has one. -/
def get? (m : OrderedMap κ β) (k : κ) : Option β := m.entries.lookup k

/-- The map with a key given a value. -/
def insert (m : OrderedMap κ β) (k : κ) (v : β) : OrderedMap κ β where
  entries := insertEntry k v m.entries
  nodup := by
    rw [keys_insertEntry]
    split
    · exact m.nodup
    · next h =>
      rw [List.nodup_append]
      refine ⟨m.nodup, by simp, fun a ha b hb hab => ?_⟩
      rw [List.mem_singleton] at hb
      exact h (hb ▸ hab ▸ ha)

/-- The map with every entry of another written into it, in order. -/
def update (m other : OrderedMap κ β) : OrderedMap κ β :=
  other.entries.foldl (fun acc e => acc.insert e.1 e.2) m

/-- The map without a key. -/
def erase (m : OrderedMap κ β) (k : κ) : OrderedMap κ β where
  entries := m.entries.filter fun e => e.1 ≠ k
  nodup := m.nodup.sublist (List.filter_sublist.map _)

/-- A new key goes to the end; a known one stays where it is. -/
theorem keys_insert (m : OrderedMap κ β) (k : κ) (v : β) :
    (m.insert k v).keys = if k ∈ m.keys then m.keys else m.keys ++ [k] :=
  keys_insertEntry k v m.entries

/-- A key holds what was last written to it, and no write touches another. -/
theorem get?_insert (m : OrderedMap κ β) (k k' : κ) (v : β) :
    (m.insert k v).get? k' = if k' = k then some v else m.get? k' :=
  lookup_insertEntry k k' v m.entries

/-- A key that is taken out holds nothing, and no other is touched. -/
theorem get?_erase (m : OrderedMap κ β) (k k' : κ) :
    (m.erase k).get? k' = if k' = k then none else m.get? k' :=
  lookup_filter_ne k k' m.entries

/-- The empty map holds nothing. -/
theorem get?_empty (k : κ) : (empty : OrderedMap κ β).get? k = none := rfl

/-- Many writes, to one key each. -/
theorem get?_foldl_insert (es : List (κ × β)) (h : (es.map Prod.fst).Nodup)
    (m : OrderedMap κ β) (k : κ) :
    (es.foldl (fun acc e => acc.insert e.1 e.2) m).get? k = (es.lookup k).or (m.get? k) := by
  induction es generalizing m with
  | nil => rfl
  | cons e es ih =>
    rw [List.map_cons, List.nodup_cons] at h
    rw [List.foldl_cons, ih h.2, get?_insert]
    obtain ⟨k₀, v₀⟩ := e
    by_cases hk : k = k₀
    · -- No later write is to the same key.
      subst hk
      have hlater : es.lookup k = none := lookup_eq_none_of_notMem h.1
      simp [hlater]
    · simp [List.lookup_cons, hk, beq_eq_false_iff_ne.2 hk]

/-- A key holds what another map has written to it, or what it held before. -/
theorem get?_update (m other : OrderedMap κ β) (k : κ) :
    (m.update other).get? k = (other.get? k).or (m.get? k) :=
  get?_foldl_insert other.entries other.nodup m k

end OrderedMap

end Scaffold
