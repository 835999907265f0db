import Scaffold.Proofs.Files.Additions

/-!
# Series of Files

What is in a workspace after several files have been written one after the
other.

What one file does to a workspace is known, and so is what an attempt does that
fails. The two are brought into one form here, which says what has been written
and what has been made for the files that were to be written, and in that form
one series after another is a series again (`WritesAll.trans`). The files have
to be apart from each other for that. Otherwise a later one would take the place
of an earlier one.

It does not matter that the directories of a later file are made when earlier
files are there already: a directory is only made where there is nothing.

## Main definitions

* `WritesAll`: Some files written, and directories made for these or others.

## Theorems

* `writesAll_of_writesAt`, `writesAll_of_growsAlong`: One file, and none.
* `WritesAll.trans`: Files that are apart from each other are written in turn.
* `WritesAll.prefix_of_ne`: On grounded paths all changes are above the files.
-/

namespace Scaffold

namespace Workspace

/-- A workspace with some files written, each where its path leads, and with
    directories made where there was nothing, which something above one of the
    paths leads to. -/
structure WritesAll (paths : List Path) (files : List (Path × Content)) (w w' : Workspace) :
    Prop where
  home_eq : w'.home = w.home
  resolve_eq : ∀ f ∈ files, w'.resolve f.1 = .ok (w.destination f.1)
  get?_file : ∀ f ∈ files, w'.tree.get? (w.destination f.1) = some (.file f.2)
  not_directory : ∀ f ∈ files, w.tree.get? (w.destination f.1) ≠ some .directory
  get?_eq : ∀ m, (∀ f ∈ files, m ≠ w.destination f.1) → w'.tree.get? m = w.tree.get? m
    ∨ w.tree.get? m = none ∧ w'.tree.get? m = some .directory
      ∧ ∃ p ∈ paths, ∃ q ∈ p.parent.selfAndParents, w'.resolve q = .ok m

section Series

variable {w w' w'' : Workspace} {paths : List Path} {files files' : List (Path × Content)}

theorem WritesAll.refl (paths : List Path) (w : Workspace) : WritesAll paths [] w w :=
  ⟨rfl, nofun, nofun, nofun, fun _ _ => .inl rfl⟩

theorem writesAll_of_writesAt {p : Path} {c : Content} {l : Location}
    (h : WritesAt p c w w' l) (hp : p ∈ paths) : WritesAll paths [(p, c)] w w' := by
  have hl := h.eq_destination
  refine ⟨h.home_eq, fun f hf => ?_, fun f hf => ?_, fun f hf => ?_, fun m hm => ?_⟩
  · rw [List.mem_singleton.mp hf, ← hl]
    exact h.resolve_eq
  · rw [List.mem_singleton.mp hf, ← hl]
    exact h.get?_self
  · rw [List.mem_singleton.mp hf, ← hl]
    exact h.not_directory
  · have hne : m ≠ l := hl ▸ hm (p, c) (List.mem_singleton_self _)
    exact (h.get?_eq m hne).imp_right fun ⟨hnone, hdir, hmade⟩ => ⟨hnone, hdir, p, hp, hmade⟩

/-- Where a file could not be written, there may be directories for it all the same. -/
theorem writesAll_of_growsAlong {p : Path} (h : GrowsAlong p.parent w w') (hp : p ∈ paths) :
    WritesAll paths [] w w' := by
  refine ⟨h.home_eq, nofun, nofun, nofun, fun m _ => ?_⟩
  exact (h.get?_eq m).imp_right fun ⟨hnone, hdir, hmade⟩ => ⟨hnone, hdir, p, hp, hmade⟩

/-- What is there stays, unless it is where a file is written. -/
theorem WritesAll.get?_of_some (h : WritesAll paths files w w') {m : Location} {e : Entry}
    (hm : ∀ f ∈ files, m ≠ w.destination f.1) (hentry : w.tree.get? m = some e) :
    w'.tree.get? m = some e :=
  eq_some_of_unchanged_or_new (h.get?_eq m hm) hentry

theorem WritesAll.get?_directory (h : WritesAll paths files w w') {m : Location}
    (hdir : w.tree.get? m = some .directory) : w'.tree.get? m = some .directory := by
  refine h.get?_of_some (fun f hf heq => h.not_directory f hf ?_) hdir
  rw [← heq, hdir]

/-- Files that are apart from each other are written in turn. -/
theorem WritesAll.trans (h : WritesAll paths files w w') (h' : WritesAll paths files' w' w'')
    (hapart : ∀ f ∈ files, ∀ f' ∈ files', w.destination f.1 ≠ w.destination f'.1) :
    WritesAll paths (files ++ files') w w'' := by
  have hdest : ∀ p, w'.destination p = w.destination p := destination_congr h.home_eq
  have hlater : ∀ {q : Path} {m : Location}, w'.resolve q = .ok m → w''.resolve q = .ok m :=
    resolve_mono h'.home_eq fun _ hdir => h'.get?_directory hdir
  refine ⟨h'.home_eq.trans h.home_eq, fun f hf => ?_, fun f hf => ?_, fun f hf => ?_,
    fun m hm => ?_⟩
  · rcases List.mem_append.mp hf with hf | hf
    · exact hlater (h.resolve_eq f hf)
    · rw [h'.resolve_eq f hf, hdest]
  · rcases List.mem_append.mp hf with hf | hf
    · -- An earlier file is still there, since no later one is written in its place.
      refine h'.get?_of_some (fun f' hf' => ?_) (h.get?_file f hf)
      rw [hdest]
      exact hapart f hf f' hf'
    · rw [← hdest, h'.get?_file f hf]
  · rcases List.mem_append.mp hf with hf | hf
    · exact h.not_directory f hf
    · intro hdir
      -- A directory would have been there for the later part as well.
      refine h'.not_directory f hf ?_
      rw [hdest]
      exact h.get?_directory hdir
  · have hbefore : ∀ f ∈ files, m ≠ w.destination f.1 := fun f hf =>
      hm f (List.mem_append_left _ hf)
    have hafter : ∀ f ∈ files', m ≠ w'.destination f.1 := fun f hf => by
      rw [hdest]
      exact hm f (List.mem_append_right _ hf)
    -- A directory is made in one of the two at most, since it is there from then on.
    rcases h'.get?_eq m hafter with heq | ⟨hnone, hdir, hmade⟩
    · rcases h.get?_eq m hbefore with hsame | ⟨hnone, hdir, p, hp, q, hq, hmade⟩
      · exact .inl (heq.trans hsame)
      · exact .inr ⟨hnone, heq.trans hdir, p, hp, q, hq, hlater hmade⟩
    · rcases h.get?_eq m hbefore with hsame | ⟨_, hthere, _⟩
      · exact .inr ⟨hsame ▸ hnone, hdir, hmade⟩
      · exact absurd (hnone.symm.trans hthere) nofun

/-- On grounded paths all changes are above the files. -/
theorem WritesAll.prefix_of_ne (h : WritesAll paths files w w')
    (hfiles : ∀ f ∈ files, f.1 ∈ paths) (hgrounded : ∀ p ∈ paths, w.Grounded p) {m : Location}
    (hm : w'.tree.get? m ≠ w.tree.get? m) : ∃ p ∈ paths, m <+: w.destination p := by
  by_cases hfile : ∃ f ∈ files, m = w.destination f.1
  · rcases hfile with ⟨f, hf, rfl⟩
    exact ⟨f.1, hfiles f hf, List.prefix_rfl⟩
  · rcases h.get?_eq m fun f hf heq => hfile ⟨f, hf, heq⟩ with
      hsame | ⟨hnone, _, p, hp, q, hq, hmade⟩
    · exact absurd hsame hm
    · rw [eq_destination_of_resolve hmade, destination_congr h.home_eq] at hnone ⊢
      -- What has been made was missing, so the path goes on below it.
      rcases Path.mem_selfAndParents.mp hq with ⟨hanchor, hparts⟩
      rcases hparts.trans (List.dropLast_prefix p.parts) with ⟨rest, hrest⟩
      have hpath : p = { anchor := q.anchor, parts := q.parts ++ rest } := by
        rw [hrest, hanchor]
        rfl
      have hp' := hgrounded p hp
      rw [hpath] at hp'
      refine ⟨p, hp, ?_⟩
      rw [hpath]
      exact (destination_prefix_of_grounded hp' hnone).1

end Series

end Workspace

end Scaffold
