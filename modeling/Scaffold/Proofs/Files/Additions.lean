import Scaffold.Proofs.Files.Following

/-!
# Additions to Workspaces

What is in a workspace after directories have been made and a file has been
written, whether or not that succeeds.

Making directories only ever adds to a workspace. What is added are directories
that the path or something above it leads to, and nothing that was there before
is touched (`GrowsAlong`). This also holds where the making is given up halfway.
Writing a file makes the directories above it first, and then puts the file
where its path leads (`WritesAt`); what else was there is still there.

The file is put where the path leads after directories have been made. That the
path leads nowhere before is no guarantee that there is nothing, unless the path
is grounded (`get?_writeFile_of_grounded`): making what a double point leads
back from can open a way to a file that is there already.

## Main definitions

* `GrowsAlong`: Directories added along a path.
* `MakesAlong`: What making a directory and everything above it does.
* `WritesAt`: What writing a file does.

## Theorems

* `makesAlong_makeDirectories`: Directories are made along their path.
* `writesAt_of_writeFile`: A file is written, and nothing else but directories.
* `growsAlong_of_writeFile`: Or only directories are made, and none is missing.
* `get?_writeFile_of_grounded`: No file is overwritten by a new one.
-/

namespace Scaffold

namespace Workspace

/-- A workspace with directories added, which a path or something above it leads
    to. -/
structure GrowsAlong (p : Path) (w w' : Workspace) : Prop where
  home_eq : w'.home = w.home
  get?_eq : ∀ l, w'.tree.get? l = w.tree.get? l
    ∨ w.tree.get? l = none ∧ w'.tree.get? l = some .directory
      ∧ ∃ q ∈ p.selfAndParents, w'.resolve q = .ok l

/-- What making a directory and everything above it leaves: directories along
    the path, the one that was asked for unless something is in the way, and
    nothing that is missing. -/
structure MakesAlong (p : Path) (w : Workspace) (made : Workspace × Option Obstacle) :
    Prop where
  grows : GrowsAlong p w made.1
  isDirectory : made.2 = none → made.1.isDirectory p
  ne_missing : made.2 ≠ some .missing

/-- A workspace with a file written where a path leads, and with directories
    added above it. -/
structure WritesAt (p : Path) (c : Content) (w w' : Workspace) (l : Location) : Prop where
  home_eq : w'.home = w.home
  resolve_eq : w'.resolve p = .ok l
  get?_self : w'.tree.get? l = some (.file c)
  not_directory : w.tree.get? l ≠ some .directory
  get?_eq : ∀ m, m ≠ l → w'.tree.get? m = w.tree.get? m
    ∨ w.tree.get? m = none ∧ w'.tree.get? m = some .directory
      ∧ ∃ q ∈ p.parent.selfAndParents, w'.resolve q = .ok m

section Growing

variable {w w' w'' : Workspace} {p q : Path}

/-- What was there stays, as long as things are only added where there was nothing. -/
theorem eq_some_of_unchanged_or_new {before? after? : Option Entry} {Added : Prop}
    (h : after? = before? ∨ before? = none ∧ Added) {e : Entry} (hentry : before? = some e) :
    after? = some e := by
  rcases h with hsame | ⟨hnone, _⟩
  · rw [hsame, hentry]
  · exact absurd (hnone.symm.trans hentry) nofun

theorem GrowsAlong.refl (p : Path) (w : Workspace) : GrowsAlong p w w := ⟨rfl, fun _ => .inl rfl⟩

theorem GrowsAlong.get?_of_some (h : GrowsAlong p w w') {l : Location} {e : Entry}
    (hl : w.tree.get? l = some e) : w'.tree.get? l = some e :=
  eq_some_of_unchanged_or_new (h.get?_eq l) hl

theorem GrowsAlong.resolve_eq (h : GrowsAlong p w w') {l : Location}
    (hl : w.resolve q = .ok l) : w'.resolve q = .ok l :=
  resolve_mono h.home_eq (fun _ hdir => h.get?_of_some hdir) hl

/-- Directories along one path and then along another below it are directories along the
    second. -/
theorem GrowsAlong.trans (h : GrowsAlong p w w') (h' : GrowsAlong q w' w'')
    (hp : p ∈ q.selfAndParents) : GrowsAlong q w w'' where
  home_eq := h'.home_eq.trans h.home_eq
  get?_eq l := by
    have habove : p.selfAndParents ⊆ q.selfAndParents := by
      intro r hr
      rw [Path.mem_selfAndParents] at hr hp ⊢
      exact ⟨hr.1.trans hp.1, hr.2.trans hp.2⟩
    -- An entry is of the second step, of the first or of neither.
    rcases h'.get?_eq l with heq | ⟨hnone, hdir, hlater⟩
    · rcases h.get?_eq l with hsame | ⟨hnone, hdir, r, hr, hl⟩
      · exact .inl (heq.trans hsame)
      · exact .inr ⟨hnone, heq.trans hdir, r, habove hr, h'.resolve_eq hl⟩
    · rcases h.get?_eq l with hsame | ⟨_, hmade, _⟩
      · exact .inr ⟨hsame ▸ hnone, hdir, hlater⟩
      · exact absurd (hnone.symm.trans hmade) nofun

end Growing

section Making

variable (w : Workspace) {w' : Workspace} {p : Path} {l : Location}

theorem self_mem_selfAndParents (p : Path) : p ∈ p.selfAndParents :=
  Path.mem_selfAndParents.mpr ⟨rfl, List.prefix_rfl⟩

theorem get?_put (h : w.tree.Accepts l) (e : Entry) (m : Location) :
    (w.put l e).tree.get? m = if m = l then some e else w.tree.get? m := by
  unfold put
  simp only [FileTree.get?_put, h, true_and]

/-- An entry that is put in does not change where paths lead. -/
theorem resolve_put (h : w.tree.Accepts l) (e : Entry) {m : Location}
    (hm : w.resolve p = .ok m) : (w.put l e).resolve p = .ok m := by
  refine resolve_mono (w := w) rfl (fun k hk => ?_) hm
  rw [w.get?_put h, if_neg]
  · exact hk
  · rintro rfl
    exact h.2.2 hk

/-- A single directory is made where its path leads. -/
theorem growsAlong_of_makeDirectory (h : w.makeDirectory p = .ok w') :
    GrowsAlong p w w' ∧ w'.isDirectory p := by
  unfold makeDirectory at h
  cases hl : w.resolve p with
  | error e =>
      rw [hl] at h
      exact absurd h nofun
  | ok l =>
      simp only [hl, bind, Except.bind] at h
      split at h
      · exact absurd h nofun
      · next hnone =>
          -- Everything above is a directory, for otherwise the path would not lead
          -- here.
          have haccepts := accepts_of_resolve hl (by rw [hnone]; nofun)
          have hself := w.resolve_put haccepts .directory hl
          rw [← Except.ok.inj h]
          refine ⟨⟨rfl, fun m => ?_⟩, ?_⟩
          · rw [w.get?_put haccepts]
            by_cases hm : m = l
            · rw [if_pos hm, hm]
              exact .inr ⟨hnone, rfl, p, self_mem_selfAndParents p, hself⟩
            · rw [if_neg hm]
              exact .inl rfl
          · rw [isDirectory_iff]
            exact ⟨l, hself, by rw [w.get?_put haccepts, if_pos rfl]⟩

/-- Where a path leads nothing above is missing. -/
theorem makeDirectory_ne_missing (h : w.resolve p = .ok l) :
    w.makeDirectory p ≠ .error .missing := by
  unfold makeDirectory
  rw [h]
  simp only [bind, Except.bind]
  split <;> nofun

/-- What is not made because it is there already counts as made. -/
theorem makesAlong_ensureDirectory (h : w.makeDirectory p ≠ .error .missing) :
    MakesAlong p w (w.ensureDirectory p) := by
  unfold ensureDirectory
  cases hmade : w.makeDirectory p with
  | ok w' =>
      rcases w.growsAlong_of_makeDirectory hmade with ⟨hgrows, hdir⟩
      exact ⟨hgrows, fun _ => hdir, nofun⟩
  | error e =>
      by_cases hdir : w.isDirectory p = true
      · simp only [hdir, if_true]
        exact ⟨GrowsAlong.refl p w, fun _ => hdir, nofun⟩
      · -- The making is given up, and the workspace is as it was.
        simp only [hdir, Bool.false_eq_true, if_false]
        refine ⟨GrowsAlong.refl p w, nofun, fun heq => h ?_⟩
        rw [hmade, Option.some.inj heq]

/-- Directories are made along their path, from the top down. -/
theorem makesAlong_makeAlong (anchor : Anchor) (above : List String) :
    MakesAlong { anchor, parts := above.reverse } w (w.makeAlong anchor above) := by
  induction above with
  | nil => exact w.makesAlong_ensureDirectory (w.makeDirectory_ne_missing rfl)
  | cons part above ih =>
      rw [makeAlong]
      split
      · -- With everything above in place the path leads somewhere.
        rw [List.reverse_cons]
        have habove : ({ anchor, parts := above.reverse } : Path)
            ∈ Path.selfAndParents { anchor, parts := above.reverse ++ [part] } :=
          Path.mem_selfAndParents.mpr ⟨rfl, List.prefix_append _ _⟩
        rcases hmade : w.makeAlong anchor above with ⟨w', o⟩
        rw [hmade] at ih
        -- Once something is in the way, nothing below it is tried.
        cases o with
        | none =>
            have hleads : w'.resolve { anchor, parts := above.reverse ++ [part] } = .ok _ :=
              resolve_concat (ih.isDirectory rfl)
            have hself := w'.makesAlong_ensureDirectory (w'.makeDirectory_ne_missing hleads)
            exact ⟨ih.grows.trans hself.grows habove, hself.isDirectory, hself.ne_missing⟩
        | some e =>
            refine ⟨ih.grows.trans (GrowsAlong.refl _ _) habove, nofun, ih.ne_missing⟩
      · next hother => exact w.makesAlong_ensureDirectory hother

/-- Directories are made along their path. -/
theorem makesAlong_makeDirectories (p : Path) : MakesAlong p w (w.makeDirectories p) := by
  have hmade := w.makesAlong_makeAlong p.anchor p.parts.reverse
  rwa [List.reverse_reverse] at hmade

end Making

section Writing

variable {w w' : Workspace} {p : Path} {c : Content}

/-- A file is put where its path leads, unless there is a directory. -/
theorem eq_put_of_writeContent (h : w.writeContent p c = .ok w') :
    ∃ l, w.resolve p = .ok l ∧ w.tree.get? l ≠ some .directory ∧ w' = w.put l (.file c) := by
  unfold writeContent at h
  cases hl : w.resolve p with
  | error e =>
      rw [hl] at h
      exact absurd h nofun
  | ok l =>
      simp only [hl, bind, Except.bind] at h
      split at h
      · exact absurd h nofun
      · next hfree => exact ⟨l, rfl, hfree, (Except.ok.inj h).symm⟩

/-- Where a path leads, only a directory can be in the way. -/
theorem writeContent_ne_missing {l : Location} (h : w.resolve p = .ok l) :
    w.writeContent p c ≠ .error .missing := by
  unfold writeContent
  rw [h]
  simp only [bind, Except.bind]
  split <;> nofun

/-- A file is written where its path leads, and nothing else but directories
    above it is added. -/
theorem writesAt_of_writeFile (h : w.writeFile p c = (w', none)) :
    ∃ l, WritesAt p c w w' l := by
  have hmakes := w.makesAlong_makeDirectories p.parent
  rw [writeFile] at h
  rcases hmade : w.makeDirectories p.parent with ⟨v, o⟩
  rw [hmade] at h hmakes
  have hgrows : GrowsAlong p.parent w v := hmakes.grows
  cases o with
  | some e => exact absurd (congrArg Prod.snd h) nofun
  | none =>
      cases hwrite : v.writeContent p c with
      | error e =>
          simp only [hwrite] at h
          exact absurd (congrArg Prod.snd h) nofun
      | ok v' =>
          simp only [hwrite] at h
          -- The directories above are in place, and the file is put among what they
          -- hold.
          rcases eq_put_of_writeContent hwrite with ⟨l, hl, hfree, rfl⟩
          rcases Prod.mk.inj h with ⟨rfl, _⟩
          have haccepts := accepts_of_resolve hl hfree
          refine ⟨l, hgrows.home_eq, v.resolve_put haccepts _ hl, ?_, ?_, fun m hm => ?_⟩
          · rw [v.get?_put haccepts, if_pos rfl]
          · exact fun hdir => hfree (hgrows.get?_of_some hdir)
          · rw [v.get?_put haccepts, if_neg hm]
            refine (hgrows.get?_eq m).imp_right fun ⟨hnone, hdir, q, hq, hlead⟩ => ?_
            exact ⟨hnone, hdir, q, hq, v.resolve_put haccepts _ hlead⟩

/-- Where a file cannot be written there are directories at the most, and
    nothing is missing. -/
theorem growsAlong_of_writeFile {e : Obstacle} (h : w.writeFile p c = (w', some e)) :
    GrowsAlong p.parent w w' ∧ e ≠ .missing := by
  have hmakes := w.makesAlong_makeDirectories p.parent
  rw [writeFile] at h
  rcases hmade : w.makeDirectories p.parent with ⟨v, o⟩
  rw [hmade] at h hmakes
  cases o with
  | some e' =>
      rcases Prod.mk.inj h with ⟨rfl, ho⟩
      exact ⟨hmakes.grows, fun he => hmakes.ne_missing (ho.trans (congrArg some he))⟩
  | none =>
      cases hwrite : v.writeContent p c with
      | ok v' =>
          simp only [hwrite] at h
          exact absurd (congrArg Prod.snd h) nofun
      | error e' =>
          simp only [hwrite] at h
          rcases Prod.mk.inj h with ⟨rfl, ho⟩
          -- With everything above in place the path leads somewhere.
          rcases exists_resolve_of_parent (hmakes.isDirectory rfl) with ⟨l, hl⟩
          rw [← Option.some.inj ho]
          exact ⟨hmakes.grows, fun he => writeContent_ne_missing hl (hwrite.trans (he ▸ rfl))⟩

/-- Where a path leads can be told without the tree. -/
theorem WritesAt.eq_destination {l : Location} (h : WritesAt p c w w' l) :
    l = w.destination p := by
  rw [eq_destination_of_resolve h.resolve_eq, destination_congr h.home_eq]

/-- What is there stays, unless it is where the file is written. -/
theorem WritesAt.get?_of_some {l m : Location} (h : WritesAt p c w w' l) (hm : m ≠ l) {e : Entry}
    (hentry : w.tree.get? m = some e) : w'.tree.get? m = some e :=
  eq_some_of_unchanged_or_new (h.get?_eq m hm) hentry

/-- A file that is new on a grounded path takes the place of nothing. -/
theorem get?_writeFile_of_grounded {anchor : Anchor} {parts : List String} {name : String}
    {o : Option Obstacle} (hgrounded : w.Grounded { anchor, parts })
    (hname : Location.IsNamed [name])
    (hnew : w.pathExists { anchor, parts := parts ++ [name] } = false)
    (hwrite : w.writeFile { anchor, parts := parts ++ [name] } c = (w', o)) {l : Location}
    {e : Entry} (hl : w.tree.get? l = some e) : w'.tree.get? l = some e := by
  cases o with
  | some e' => exact (growsAlong_of_writeFile hwrite).1.get?_of_some hl
  | none =>
      rcases writesAt_of_writeFile hwrite with ⟨m, hwrites⟩
      refine hwrites.get?_of_some ?_ hl
      -- Otherwise the path would have led to what is there.
      rintro rfl
      rw [hwrites.eq_destination] at hl
      have hexists := w.pathExists_iff.mpr
        ⟨_, e, resolve_concat_of_grounded hgrounded hname hl, hl⟩
      rw [hnew] at hexists
      exact absurd hexists (by decide)

end Writing

end Workspace

end Scaffold
