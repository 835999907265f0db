import Scaffold.OrderedMap

/-!
# File Trees

Files and directories by location. Whatever is in a tree is in a directory of
the tree, and the root is always a directory; the type says so, and the two
changes that a tree allows keep it so. A directory is never replaced, since what
is in it would be left without one.

## Main definitions

* `Content`, `Entry`: What a location can hold.
* `FileTree`: A tree.
* `FileTree.get?`: What a location holds.
* `FileTree.put`, `FileTree.remove`: An entry put in, and a file taken out.

## Theorems

* `FileTree.get?_put`, `FileTree.get?_remove`: What the changes change.
* `FileTree.get?_dropLast`: Above everything there is a directory.
-/

namespace Scaffold

/-- What a file holds: a text, or bytes that are no text. -/
inductive Content where
  | text (s : String)
  | bytes (b : List UInt8)
  deriving DecidableEq, Repr

/-- What a file with some bytes holds. -/
def Content.ofBytes (b : List UInt8) : Content :=
  match String.fromUTF8? ⟨b.toArray⟩ with
  | some s => .text s
  | none => .bytes b

/-- What a location can hold. -/
inductive Entry where
  | directory
  | file (content : Content)
  deriving DecidableEq, Repr

/-- The parts of a location, from the root on. -/
abbrev Location : Type := List String

/-- What a location holds, given the entries of all locations but the root. -/
def entryIn (table : OrderedMap Location Entry) (l : Location) : Option Entry :=
  if l = [] then some .directory else table.get? l

/-- The entries of all locations but the root, each in a directory. -/
structure FileTree where
  table : OrderedMap Location Entry
  /-- What is in the tree is in a directory of the tree, and is not the root. -/
  housed : ∀ l e, table.get? l = some e → l ≠ [] ∧ entryIn table l.dropLast = some .directory

namespace FileTree

/-- The tree that has only a root. -/
def empty : FileTree where
  table := .empty
  housed := fun l e h => by simp [OrderedMap.get?_empty] at h

/-- What a location holds. The root is always a directory. -/
def get? (t : FileTree) (l : Location) : Option Entry := entryIn t.table l

/-- Whether an entry can be put at a location: it has to be in a directory, and must
    not be a directory already. -/
def Accepts (t : FileTree) (l : Location) : Prop :=
  l ≠ [] ∧ t.get? l.dropLast = some .directory ∧ t.get? l ≠ some .directory

instance (t : FileTree) (l : Location) : Decidable (t.Accepts l) :=
  inferInstanceAs (Decidable (_ ∧ _ ∧ _))

/-- What locations hold after an entry has been put at one of them. -/
theorem entryIn_insert (table : OrderedMap Location Entry) {l : Location} (hl : l ≠ [])
    (e : Entry) (l' : Location) :
    entryIn (table.insert l e) l' = if l' = l then some e else entryIn table l' := by
  unfold entryIn
  by_cases h : l' = []
  · subst h
    rw [if_pos rfl, if_pos rfl, if_neg fun h => hl h.symm]
  · rw [if_neg h, if_neg h, OrderedMap.get?_insert]

/-- What locations hold after one of them has been emptied. -/
theorem entryIn_erase (table : OrderedMap Location Entry) {l : Location} (hl : l ≠ [])
    (l' : Location) :
    entryIn (table.erase l) l' = if l' = l then none else entryIn table l' := by
  unfold entryIn
  by_cases h : l' = []
  · subst h
    rw [if_pos rfl, if_pos rfl, if_neg fun h => hl h.symm]
  · rw [if_neg h, if_neg h, OrderedMap.get?_erase]

/-- No location is in itself. -/
theorem dropLast_ne {l : Location} (hl : l ≠ []) : l.dropLast ≠ l := fun h => by
  have := congrArg List.length h
  rw [List.length_dropLast] at this
  have := List.length_pos_iff.2 hl
  omega

/-- Everything is still in a directory after an entry has been put where the tree
    accepts one. -/
theorem housed_insert (t : FileTree) {l : Location} (h : t.Accepts l) (e : Entry)
    (l' : Location) (e' : Entry) (hl' : (t.table.insert l e).get? l' = some e') :
    l' ≠ [] ∧ entryIn (t.table.insert l e) l'.dropLast = some .directory := by
  obtain ⟨hl, hparent, hfree⟩ := h
  rw [OrderedMap.get?_insert] at hl'
  by_cases hll : l' = l
  · subst hll
    refine ⟨hl, ?_⟩
    rw [entryIn_insert _ hl, if_neg (dropLast_ne hl)]
    exact hparent
  · rw [if_neg hll] at hl'
    obtain ⟨hne, hdir⟩ := t.housed l' e' hl'
    refine ⟨hne, ?_⟩
    -- What is put in is not the parent: that was a directory already.
    rw [entryIn_insert _ hl, if_neg fun (heq : l'.dropLast = l) => hfree (heq ▸ hdir)]
    exact hdir

/-- The tree with an entry put at a location, where it accepts one. -/
def put (t : FileTree) (l : Location) (e : Entry) : FileTree :=
  if h : t.Accepts l then ⟨t.table.insert l e, t.housed_insert h e⟩ else t

/-- A location holds what is put there, and no other is touched. -/
theorem get?_put (t : FileTree) (l l' : Location) (e : Entry) :
    (t.put l e).get? l' = if t.Accepts l ∧ l' = l then some e else t.get? l' := by
  unfold put
  split
  · next h =>
    rw [get?, entryIn_insert _ h.1]
    simp [h, get?]
  · next h => simp [h]

/-- Everything is still in a directory after a file has been taken out. -/
theorem housed_erase (t : FileTree) {l : Location} (hl : l ≠ [])
    (h : t.get? l ≠ some .directory) (l' : Location) (e' : Entry)
    (hl' : (t.table.erase l).get? l' = some e') :
    l' ≠ [] ∧ entryIn (t.table.erase l) l'.dropLast = some .directory := by
  rw [OrderedMap.get?_erase] at hl'
  by_cases hll : l' = l
  · simp [hll] at hl'
  · rw [if_neg hll] at hl'
    obtain ⟨hne, hdir⟩ := t.housed l' e' hl'
    refine ⟨hne, ?_⟩
    rw [entryIn_erase _ hl, if_neg fun (heq : l'.dropLast = l) => h (heq ▸ hdir)]
    exact hdir

/-- The tree with a location emptied, unless it is a directory. -/
def remove (t : FileTree) (l : Location) : FileTree :=
  if h : l ≠ [] ∧ t.get? l ≠ some .directory then
    ⟨t.table.erase l, t.housed_erase h.1 h.2⟩
  else t

/-- A location that is emptied holds nothing, and no other is touched. -/
theorem get?_remove (t : FileTree) (l l' : Location) :
    (t.remove l).get? l'
      = if t.get? l ≠ some .directory ∧ l' = l then none else t.get? l' := by
  unfold remove
  split
  · next h =>
    rw [get?, entryIn_erase _ h.1]
    by_cases hll : l' = l
    · rw [if_pos hll, if_pos ⟨h.2, hll⟩]
    · rw [if_neg hll, if_neg fun hand => hll hand.2]
      rfl
  · next h =>
    have hdir : t.get? l = some .directory := by
      by_cases hl : l = []
      · simp [hl, get?, entryIn]
      · exact Classical.byContradiction fun hd => h ⟨hl, hd⟩
    simp [hdir]

/-- Above everything there is a directory. -/
theorem get?_dropLast (t : FileTree) {l : Location} {e : Entry}
    (h : t.get? l = some e) : t.get? l.dropLast = some .directory := by
  by_cases hl : l = []
  · simp [hl, get?, entryIn]
  · rw [get?, entryIn, if_neg hl] at h
    exact (t.housed l e h).2

end FileTree

end Scaffold
