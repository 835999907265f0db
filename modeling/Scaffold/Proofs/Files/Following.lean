import Mathlib.Data.List.Basic
import Mathlib.Data.List.Induction
import Scaffold.Files.Workspace

/-!
# Following Paths

Where a path leads, and what has to be there for it to lead anywhere.

A path is followed from its first part on, but what is said about it is mostly
said about its end, so it is taken apart at the end here. The part that is
added last starts from a directory, and in that directory an entry can be put
at the place that the part leads to (`accepts_of_resolve`).

Without looking at anything one can still say where a path would lead
(`Workspace.destination`), and if it leads anywhere that is where
(`eq_destination_of_resolve`). The converse needs some care. A double point leads
back from whatever is before it, and if that is missing the path leads nowhere,
although its destination may be there. `Workspace.Grounded` excludes just that, and
then a path leads to its destination wherever that is a directory
(`resolve_of_grounded`).

## Main definitions

* `Workspace.destination`: Where a path would lead.
* `Workspace.Grounded`: A path whose double points lead back from directories.

## Theorems

* `mem_selfAndParents`: What is above a path are its beginnings.
* `child_of_isNamed`: What has a name in a directory is one part further.
* `entry_eq_ok_iff`: What a path leads to.
* `eq_destination_of_resolve`: A path leads to its destination or nowhere.
* `resolve_mono`: More directories lead to no other places.
* `accepts_of_resolve`: Where a path leads an entry can be put.
* `resolve_of_grounded`, `resolve_concat_of_grounded`: Grounded paths lead to
  their destinations.
* `destination_prefix_of_grounded`: They do not turn back where there is nothing.
* `destination_append`, `grounded_append`: Names lead further in.
-/

namespace Scaffold

namespace Path

theorem mem_beginnings {xs ys : List String} : ys ∈ beginnings xs ↔ ys <+: xs := by
  induction xs generalizing ys with
  | nil => rw [beginnings, List.mem_singleton, List.prefix_nil]
  | cons x xs ih =>
      rw [beginnings, List.mem_append, List.mem_map, List.mem_singleton, List.prefix_cons_iff]
      constructor
      · -- A beginning has the first part or is empty.
        rintro (⟨zs, hzs, rfl⟩ | rfl)
        · exact Or.inr ⟨zs, rfl, ih.mp hzs⟩
        · exact Or.inl rfl
      · rintro (rfl | ⟨zs, rfl, hzs⟩)
        · exact Or.inr rfl
        · exact Or.inl ⟨zs, ih.mpr hzs, rfl⟩

/-- What is above a path are its beginnings. -/
theorem mem_selfAndParents {p q : Path} :
    q ∈ p.selfAndParents ↔ q.anchor = p.anchor ∧ q.parts <+: p.parts := by
  rw [selfAndParents, List.mem_map]
  constructor
  · rintro ⟨parts, hparts, rfl⟩
    exact ⟨rfl, mem_beginnings.mp hparts⟩
  · rintro ⟨hanchor, hparts⟩
    refine ⟨q.parts, mem_beginnings.mpr hparts, ?_⟩
    rw [← hanchor]

theorem splitSlashes_of_notMem {cs : List Char} (h : '/' ∉ cs) : splitSlashes cs = [cs] := by
  induction cs with
  | nil => rfl
  | cons c cs ih =>
      rw [List.mem_cons, not_or] at h
      rw [splitSlashes, if_neg (by rw [beq_iff_eq]; exact Ne.symm h.1), ih h.2]

/-- A name is a path of one part. -/
theorem ofString_of_isNamed {s : String} (hslash : '/' ∉ s.toList) (hs : Location.IsNamed [s]) :
    ofString s = { parts := [s] } := by
  have hanchor : anchorOf s.toList = .relative := by
    unfold anchorOf
    split
    · -- Only a path that begins with a slash has an anchor.
      next heq => exact absurd (heq ▸ List.mem_cons_self) hslash
    · next heq => exact absurd (heq ▸ List.mem_cons_self) hslash
    · next heq => exact absurd (heq ▸ List.mem_cons_self) hslash
    · rfl
  rcases hs s (List.mem_singleton_self s) with ⟨hempty, hpoint, _⟩
  rw [ofString, hanchor, splitSlashes_of_notMem hslash, List.map_singleton, String.ofList_toList,
    List.filter_cons_of_pos (by simp [hempty, hpoint])]
  rfl

/-- What has a name in a directory is one part further. -/
theorem child_of_isNamed (p : Path) {s : String} (hslash : '/' ∉ s.toList)
    (hs : Location.IsNamed [s]) : p.child s = { p with parts := p.parts ++ [s] } := by
  rw [child, ofString_of_isNamed hslash hs, join, if_pos rfl]

end Path

namespace Workspace

/-- The location that a path would lead to. Nothing is looked up. -/
def destination (w : Workspace) (p : Path) : Location := p.parts.foldl stepTo (w.startOf p.anchor)

/-- Every double point of a path leads back from a directory that is there. -/
def Grounded (w : Workspace) (p : Path) : Prop :=
  ∀ q ∈ p.selfAndParents, q.name = ".." → w.isDirectory q.parent

instance (w : Workspace) (p : Path) : Decidable (w.Grounded p) :=
  inferInstanceAs (Decidable (∀ q ∈ p.selfAndParents, _))

variable (w : Workspace)

theorem get?_startOf (anchor : Anchor) : w.tree.get? (w.startOf anchor) = some .directory := by
  unfold startOf
  split
  · exact w.home_isDirectory
  · rfl

/-- What a path leads to is what is at the location that it leads to. -/
theorem entry_eq_ok_iff {p : Path} {e : Entry} :
    w.entry p = .ok e ↔ ∃ l, w.resolve p = .ok l ∧ w.tree.get? l = some e := by
  unfold entry entryAt
  cases hl : w.resolve p with
  | error o => simp [bind, Except.bind]
  | ok l => cases hentry : w.tree.get? l <;> simp [bind, Except.bind, hentry]

/-- Only a directory that a path leads to counts. -/
theorem isDirectory_iff {p : Path} :
    w.isDirectory p ↔ ∃ l, w.resolve p = .ok l ∧ w.tree.get? l = some .directory := by
  rw [← entry_eq_ok_iff]
  unfold isDirectory
  split
  · next heq => simp [heq]
  · next hother => simpa using hother

theorem isFile_iff {p : Path} :
    w.isFile p ↔ ∃ l c, w.resolve p = .ok l ∧ w.tree.get? l = some (.file c) := by
  have hentry : w.isFile p ↔ ∃ c, w.entry p = .ok (.file c) := by
    unfold isFile
    split
    · next c heq => simp [heq]
    · next hother => simpa using hother
  simp only [hentry, entry_eq_ok_iff]
  exact exists_comm

theorem pathExists_iff {p : Path} :
    w.pathExists p ↔ ∃ l e, w.resolve p = .ok l ∧ w.tree.get? l = some e := by
  have hentry : w.pathExists p ↔ ∃ e, w.entry p = .ok e := by
    unfold pathExists
    cases w.entry p <;> simp [Except.toOption]
  simp only [hentry, entry_eq_ok_iff]
  exact exists_comm

section Following

variable {w} {l m : Location} {parts : List String} {part : String}

theorem eq_foldl_of_follow (h : w.follow l parts = .ok m) : m = parts.foldl stepTo l := by
  induction parts generalizing l with
  | nil => exact (Except.ok.inj h).symm
  | cons part parts ih =>
      rw [follow] at h
      split at h
      · cases h
      · cases h
      · exact ih h

/-- More directories lead to no other places. -/
theorem follow_mono {w' : Workspace}
    (hmore : ∀ l, w.tree.get? l = some .directory → w'.tree.get? l = some .directory)
    (h : w.follow l parts = .ok m) : w'.follow l parts = .ok m := by
  induction parts generalizing l with
  | nil => exact h
  | cons part parts ih =>
      rw [follow] at h ⊢
      cases hentry : w.tree.get? l with
      | none => simp only [hentry, reduceCtorEq] at h
      | some e =>
          cases e with
          | file c => simp only [hentry, reduceCtorEq] at h
          | directory =>
              simp only [hentry] at h
              simp only [hmore l hentry]
              exact ih h

/-- From a directory, a path leads one part further. -/
theorem follow_concat (h : w.follow l parts = .ok m) (hm : w.tree.get? m = some .directory) :
    w.follow l (parts ++ [part]) = .ok (stepTo m part) := by
  induction parts generalizing l with
  | nil =>
      rw [Except.ok.inj h, List.nil_append, follow, hm]
      rfl
  | cons first parts ih =>
      rw [List.cons_append, follow]
      rw [follow] at h
      split at h
      · cases h
      · cases h
      · exact ih h

/-- The last part of a path starts from a directory. -/
theorem exists_directory_of_follow_concat (h : w.follow l (parts ++ [part]) = .ok m) :
    ∃ k, w.follow l parts = .ok k ∧ w.tree.get? k = some .directory ∧ m = stepTo k part := by
  induction parts generalizing l with
  | nil =>
      rw [List.nil_append, follow] at h
      split at h
      · cases h
      · cases h
      · next hl => exact ⟨l, rfl, hl, (Except.ok.inj h).symm⟩
  | cons first parts ih =>
      rw [List.cons_append, follow] at h
      rw [follow]
      split at h
      · cases h
      · cases h
      · exact ih h

end Following

section Resolving

variable {w} {p : Path} {l : Location}

/-- A path leads to its destination or nowhere. -/
theorem eq_destination_of_resolve (h : w.resolve p = .ok l) : l = w.destination p :=
  eq_foldl_of_follow h

theorem destination_congr {w' : Workspace} (hhome : w'.home = w.home) (p : Path) :
    w'.destination p = w.destination p := by
  rw [destination, destination, startOf, startOf, hhome]

/-- More directories lead to no other places, as long as paths start where they did. -/
theorem resolve_mono {w' : Workspace} (hhome : w'.home = w.home)
    (hmore : ∀ l, w.tree.get? l = some .directory → w'.tree.get? l = some .directory)
    (h : w.resolve p = .ok l) : w'.resolve p = .ok l := by
  have hstart : w'.startOf p.anchor = w.startOf p.anchor := by rw [startOf, startOf, hhome]
  rw [resolve, hstart]
  exact follow_mono hmore h

/-- Where a path leads an entry can be put, unless a directory is there. -/
theorem accepts_of_resolve (h : w.resolve p = .ok l) (hl : w.tree.get? l ≠ some .directory) :
    w.tree.Accepts l := by
  rw [resolve] at h
  rcases p.parts.eq_nil_or_concat' with hnil | ⟨parts, part, hconcat⟩
  · rw [hnil] at h
    exact absurd (Except.ok.inj h ▸ w.get?_startOf p.anchor) hl
  · rw [hconcat] at h
    rcases exists_directory_of_follow_concat h with ⟨k, _, hk, rfl⟩
    -- What does not lead further in leads to a directory.
    unfold stepTo at hl ⊢
    split
    · next hup =>
        rw [if_pos hup] at hl
        exact absurd (w.tree.get?_dropLast hk) hl
    · next hup =>
        rw [if_neg hup] at hl
        split
        · next hstay =>
            rw [if_pos hstay] at hl
            exact absurd hk hl
        · next hstay =>
            rw [if_neg hstay] at hl
            refine ⟨List.append_ne_nil_of_right_ne_nil k (List.cons_ne_nil _ _), ?_, hl⟩
            rw [List.dropLast_concat]
            exact hk

end Resolving

section Grounded

variable {w} {anchor : Anchor} {parts : List String} {part : String}

theorem destination_concat :
    w.destination { anchor, parts := parts ++ [part] }
      = stepTo (w.destination { anchor, parts }) part := by
  rw [destination, List.foldl_append]
  rfl

theorem resolve_concat (hdir : w.isDirectory { anchor, parts }) :
    w.resolve { anchor, parts := parts ++ [part] }
      = .ok (w.destination { anchor, parts := parts ++ [part] }) := by
  rcases w.isDirectory_iff.mp hdir with ⟨l, hl, hentry⟩
  rw [destination_concat, ← eq_destination_of_resolve hl]
  exact follow_concat hl hentry

/-- A path from a directory leads somewhere. -/
theorem exists_resolve_of_parent {p : Path} (hdir : w.isDirectory p.parent) :
    ∃ l, w.resolve p = .ok l := by
  rcases p with ⟨anchor, parts⟩
  rcases parts.eq_nil_or_concat' with rfl | ⟨parts, part, rfl⟩
  · exact ⟨_, rfl⟩
  · rw [Path.parent, List.dropLast_concat] at hdir
    exact ⟨_, resolve_concat hdir⟩

theorem grounded_of_concat (h : w.Grounded { anchor, parts := parts ++ [part] }) :
    w.Grounded { anchor, parts } := by
  intro q hq
  rw [Path.mem_selfAndParents] at hq
  exact h q (Path.mem_selfAndParents.mpr ⟨hq.1, hq.2.trans (List.prefix_append parts [part])⟩)

/-- A double point at the end of a grounded path leads back from a directory. -/
theorem isDirectory_of_grounded_concat (h : w.Grounded { anchor, parts := parts ++ [part] })
    (hup : part = "..") : w.isDirectory { anchor, parts } := by
  -- The path is one of its own beginnings.
  have hself := h _ (Path.mem_selfAndParents.mpr ⟨rfl, List.prefix_rfl⟩)
    (by rw [Path.name, List.getLast?_concat, hup]; rfl)
  rwa [Path.parent, List.dropLast_concat] at hself

/-- A grounded path leads to its destination if that is a directory. -/
theorem resolve_of_grounded (hgrounded : w.Grounded { anchor, parts })
    (hdir : w.tree.get? (w.destination { anchor, parts }) = some .directory) :
    w.resolve { anchor, parts } = .ok (w.destination { anchor, parts }) := by
  -- By induction from the end, since what is asked of a part is about the path before
  -- it.
  induction parts using List.reverseRecOn with
  | nil => rfl
  | append_singleton parts part ih =>
      refine resolve_concat ?_
      by_cases hup : part = ".."
      · exact isDirectory_of_grounded_concat hgrounded hup
      · -- Any other part leads nowhere, or further in from a directory.
        have hbefore : w.tree.get? (w.destination { anchor, parts }) = some .directory := by
          rw [destination_concat, stepTo, if_neg hup] at hdir
          split at hdir
          · exact hdir
          · have hparent := w.tree.get?_dropLast hdir
            rwa [List.dropLast_concat] at hparent
        exact w.isDirectory_iff.mpr ⟨_, ih (grounded_of_concat hgrounded) hbefore, hbefore⟩

/-- What is in a directory is found there by its name. -/
theorem resolve_concat_of_grounded (hgrounded : w.Grounded { anchor, parts })
    (hpart : Location.IsNamed [part]) {e : Entry}
    (hentry : w.tree.get? (w.destination { anchor, parts := parts ++ [part] }) = some e) :
    w.resolve { anchor, parts := parts ++ [part] }
      = .ok (w.destination { anchor, parts := parts ++ [part] }) := by
  rcases hpart part (List.mem_singleton_self part) with ⟨hempty, hpoint, hup⟩
  -- What is in a tree has a directory above it.
  have hbefore : w.tree.get? (w.destination { anchor, parts }) = some .directory := by
    have hparent := w.tree.get?_dropLast hentry
    rw [destination_concat, stepTo, if_neg hup, if_neg (by simp [hempty, hpoint]),
      List.dropLast_concat] at hparent
    exact hparent
  exact resolve_concat (w.isDirectory_iff.mpr
    ⟨_, resolve_of_grounded hgrounded hbefore, hbefore⟩)

/-- Where there is nothing, a grounded path does not turn back. -/
theorem destination_prefix_of_grounded {rest : List String}
    (hgrounded : w.Grounded { anchor, parts := parts ++ rest })
    (hnone : w.tree.get? (w.destination { anchor, parts }) = none) :
    w.destination { anchor, parts } <+: w.destination { anchor, parts := parts ++ rest }
      ∧ w.tree.get? (w.destination { anchor, parts := parts ++ rest }) = none := by
  induction rest using List.reverseRecOn with
  | nil =>
      rw [List.append_nil]
      exact ⟨List.prefix_rfl, hnone⟩
  | append_singleton rest part ih =>
      rw [← List.append_assoc] at hgrounded ⊢
      rcases ih (grounded_of_concat hgrounded) with ⟨hbelow, hmissing⟩
      rw [destination_concat, stepTo]
      by_cases hup : part = ".."
      · -- Nothing is there, so there is no directory to lead back from.
        rcases w.isDirectory_iff.mp (isDirectory_of_grounded_concat hgrounded hup) with
          ⟨l, hl, hdir⟩
        rw [eq_destination_of_resolve hl, hmissing] at hdir
        exact absurd hdir nofun
      · rw [if_neg hup]
        split
        · exact ⟨hbelow, hmissing⟩
        · refine ⟨hbelow.trans (List.prefix_append _ _), ?_⟩
          -- Nothing is in what is not there.
          by_contra hthere
          rcases Option.ne_none_iff_exists'.mp hthere with ⟨e, he⟩
          have hparent := w.tree.get?_dropLast he
          rw [List.dropLast_concat, hmissing] at hparent
          exact absurd hparent nofun

/-- A name leads further in, so there is nothing more to lead back from. -/
theorem grounded_concat (h : w.Grounded { anchor, parts }) (hup : part ≠ "..") :
    w.Grounded { anchor, parts := parts ++ [part] } := by
  intro q hq hname
  rw [Path.mem_selfAndParents] at hq
  -- A double point is in the new part, which has a name of its own, or was there
  -- before.
  rcases List.prefix_concat_iff.mp hq.2 with hself | hbefore
  · rw [Path.name, hself, List.getLast?_concat] at hname
    exact absurd hname hup
  · exact h q (Path.mem_selfAndParents.mpr ⟨hq.1, hbefore⟩) hname

theorem grounded_append {names : List String} (h : w.Grounded { anchor, parts })
    (hnames : Location.IsNamed names) : w.Grounded { anchor, parts := parts ++ names } := by
  induction names using List.reverseRecOn with
  | nil => rwa [List.append_nil]
  | append_singleton names name ih =>
      rw [← List.append_assoc]
      refine grounded_concat (ih fun part hpart => hnames part (List.mem_append_left _ hpart)) ?_
      exact (hnames name (List.mem_append_right _ List.mem_cons_self)).2.2

theorem grounded_of_isNamed (h : Location.IsNamed parts) : w.Grounded { anchor, parts } := by
  have hstart : w.Grounded { anchor, parts := [] } := fun q hq hname => by
    rw [Path.mem_selfAndParents, List.prefix_nil] at hq
    rw [Path.name, hq.2] at hname
    exact absurd hname (by decide)
  exact grounded_append hstart h

/-- Names lead one part further each. -/
theorem destination_append {names : List String} (hnames : Location.IsNamed names) :
    w.destination { anchor, parts := parts ++ names }
      = w.destination { anchor, parts } ++ names := by
  induction names using List.reverseRecOn with
  | nil => rw [List.append_nil, List.append_nil]
  | append_singleton names name ih =>
      rcases hnames name (List.mem_append_right _ List.mem_cons_self) with ⟨hempty, hpoint, hup⟩
      rw [← List.append_assoc, destination_concat, ih fun part hpart =>
        hnames part (List.mem_append_left _ hpart), stepTo, if_neg hup,
        if_neg (by simp [hempty, hpoint]), List.append_assoc]

end Grounded

end Workspace

end Scaffold
