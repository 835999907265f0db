import Scaffold.Proofs.Command.Creation
import Scaffold.Proofs.Files.Series
import Scaffold.Proofs.Settings.Resolution

/-!
# Fixtures

What becomes of fixtures, compared with components that are generated one by one.

A fixture is generated and written before the next one is looked at, so what
happens to all of them depends on an order in two ways. Settings are no
difficulty, since they fail for every component or for none, and what has been
written is not read again. What is in the way of a file is one: it is found when
the turn of that file comes, and nothing is taken back. So fixtures are all
written, or none because of the settings, or, where something is in the way,
those before it (`FixturesEnd`). `unfinished_and_astray` has a case of the last
kind.

The fixtures are in one directory, under names that differ, so none is written
over another. What is made on the way to them is above them, except where the
directory leads back out of what is missing. Then what it leads back from is
made, although it is above none of the files. `unfinished_and_astray` has a
case of that, too.

## Main definitions

* `fixturesFrom`, `contentFrom`: Fixtures and single components from a mapping.
* `fixtureNames`, `fixtureFiles`: What is written, and where.
* `FixturesWritten`: All or some of the fixtures, and nothing else.
* `FixturesEnd`, `FixturesRun`: The ways in which the writing of fixtures ends, and
  a command for them.

## Theorems

* `pathOfKind_eq`, `destination_pathOfKind_inj`: Every fixture has its own place.
* `ends_writeFixturesOf`: Fixtures are written in order as far as one gets.
* `runs_runFixtures`: Every command for fixtures ends in one of the ways.
* `fixtures_as_single_components`: What commands and mappings come to.
* `unfinished_and_astray`: Two ways in which more or less is written.
-/

namespace Scaffold.Command

open Settings Terminal

/-- One style and one language. -/
abbrev FixtureKind : Type := Api × ScriptLang

/-- All fixtures written from the settings in a mapping. -/
def fixturesFrom (w : Workspace) (base : Path) (data : Mapping) :
    Workspace × Except Fault (List Path) :=
  match flattenSections data with
  | .error e => (w, .error (.settings e))
  | .ok s => writeFixtures w base s

/-- The content of a single component under the settings in a mapping. -/
def contentFrom (data : Mapping) (c : Component) : Except SettingsError String := do
  let s ← flattenSections data
  c.generate s.get

/-- What a fixture adds to the directory that was asked for. -/
def fixtureNames (k : FixtureKind) : List String :=
  ["test-output", "components", k.1.folder, k.1.word ++ "-" ++ k.2.word ++ ".vue"]

/-- The path of a fixture. -/
abbrev pathOfKind (base : Path) (k : FixtureKind) : Path := fixturePath base k.1 k.2

/-- Some fixtures with their contents. -/
def fixtureFiles (base : Path) (text : FixtureKind → String) (kinds : List FixtureKind) :
    List (Path × Content) :=
  kinds.map fun k => (pathOfKind base k, .text (text k))

/-- Some fixtures written, and besides only directories made on the way to these
    or others. If the directory that was asked for is grounded, whatever has
    changed is above a fixture. -/
structure FixturesWritten (base : Path) (text : FixtureKind → String) (kinds : List FixtureKind)
    (w w' : Workspace) : Prop where
  writes : Workspace.WritesAll (fixtureKinds.map (pathOfKind base)) (fixtureFiles base text kinds)
    w w'
  apart : ∀ k k', w.destination (pathOfKind base k) = w.destination (pathOfKind base k') → k = k'
  above : w.Grounded base → ∀ m, w'.tree.get? m ≠ w.tree.get? m →
    ∃ k, m <+: w.destination (pathOfKind base k)

/-- The ways in which the writing of fixtures ends, given what each of them would
    be by itself. -/
inductive FixturesEnd (w : Workspace) (base : Path)
    (content : FixtureKind → Except SettingsError String) :
    Workspace × Except Fault (List Path) → Prop
  | refused {e : SettingsError} (hcontent : ∀ k, content k = .error e) :
      FixturesEnd w base content (w, .error (.settings e))
  | finished {text : FixtureKind → String} {w' : Workspace}
      (hcontent : ∀ k, content k = .ok (text k))
      (hwritten : FixturesWritten base text fixtureKinds w w') :
      FixturesEnd w base content (w', .ok (fixtureKinds.map (pathOfKind base)))
  | obstructed {text : FixtureKind → String} {v w' : Workspace} {o : Obstacle}
      {before after : List FixtureKind} {kind : FixtureKind}
      (hcontent : ∀ k, content k = .ok (text k))
      (hkinds : fixtureKinds = before ++ kind :: after)
      (hbefore : FixturesWritten base text before w v)
      (hstop : v.writeFile (pathOfKind base kind) (.text (text kind)) = (w', some o))
      (hwritten : FixturesWritten base text before w w') (hfound : o ≠ .missing) :
      FixturesEnd w base content (w', .error (.obstacle o))

section Places

variable (w : Workspace) (base : Path)

theorem mem_fixtureKinds (k : FixtureKind) : k ∈ fixtureKinds := by
  rcases k with ⟨api, lang⟩
  cases api <;> cases lang <;> decide

theorem nodup_fixtureKinds : fixtureKinds.Nodup := by decide

theorem isNamed_fixtureNames (k : FixtureKind) : Location.IsNamed (fixtureNames k) := by
  rcases k with ⟨api, lang⟩
  cases api <;> cases lang <;> decide

/-- No two fixtures have the same names, so they never share a file. -/
theorem fixtureNames_inj {k k' : FixtureKind} (h : fixtureNames k = fixtureNames k') : k = k' := by
  have hall : ∀ k ∈ fixtureKinds, ∀ k' ∈ fixtureKinds,
      fixtureNames k = fixtureNames k' → k = k' := by decide
  exact hall k (mem_fixtureKinds k) k' (mem_fixtureKinds k') h

/-- None of the names is cut when it is added to a path. -/
theorem slash_not_mem_fixtureNames (k : FixtureKind) :
    ∀ name ∈ fixtureNames k, '/' ∉ name.toList := by
  rcases k with ⟨api, lang⟩
  cases api <;> cases lang <;> decide

/-- A fixture is below the directory that was asked for. -/
theorem pathOfKind_eq (k : FixtureKind) :
    pathOfKind base k = { base with parts := base.parts ++ fixtureNames k } := by
  have hchild : ∀ p : Path, ∀ name ∈ fixtureNames k,
      p.child name = { p with parts := p.parts ++ [name] } := fun p name hname =>
    Path.child_of_isNamed p (slash_not_mem_fixtureNames k name hname) fun part hpart =>
      isNamed_fixtureNames k part (List.mem_singleton.mp hpart ▸ hname)
  rw [pathOfKind, fixturePath, hchild _ _ (by simp [fixtureNames]),
    hchild _ _ (by simp [fixtureNames]), Path.join,
    if_pos (show fixtureRoot.anchor = .relative from rfl)]
  simp [fixtureRoot, fixtureNames]

/-- A fixture leads to where the directory leads, and then to its own names. The names
    never lead back, so this holds although the directory may. -/
theorem destination_pathOfKind (k : FixtureKind) :
    w.destination (pathOfKind base k) = w.destination base ++ fixtureNames k := by
  rw [pathOfKind_eq, Workspace.destination_append (isNamed_fixtureNames k)]

/-- Every fixture has its own place. -/
theorem destination_pathOfKind_inj {k k' : FixtureKind}
    (h : w.destination (pathOfKind base k) = w.destination (pathOfKind base k')) : k = k' := by
  rw [destination_pathOfKind, destination_pathOfKind] at h
  exact fixtureNames_inj (List.append_cancel_left h)

variable {w base} {text : FixtureKind → String}

theorem grounded_pathOfKind (h : w.Grounded base) (k : FixtureKind) :
    w.Grounded (pathOfKind base k) := by
  rw [pathOfKind_eq]
  exact Workspace.grounded_append h (isNamed_fixtureNames k)

/-- Different fixtures are written to different places. -/
theorem apart_fixtureFiles {kinds kinds' : List FixtureKind} (h : kinds.Disjoint kinds') :
    ∀ f ∈ fixtureFiles base text kinds, ∀ f' ∈ fixtureFiles base text kinds',
      w.destination f.1 ≠ w.destination f'.1 := by
  intro f hf f' hf' heq
  rcases List.mem_map.mp hf with ⟨k, hk, rfl⟩
  rcases List.mem_map.mp hf' with ⟨k', hk', rfl⟩
  rw [← destination_pathOfKind_inj w base heq] at hk'
  exact h hk hk'

/-- What the writing of files says, in terms of fixtures. -/
theorem fixturesWritten_of_writesAll {kinds : List FixtureKind} {w' : Workspace}
    (h : Workspace.WritesAll (fixtureKinds.map (pathOfKind base)) (fixtureFiles base text kinds)
      w w') : FixturesWritten base text kinds w w' where
  writes := h
  apart _ _ := destination_pathOfKind_inj w base
  above hgrounded m hm := by
    have hfiles : ∀ f ∈ fixtureFiles base text kinds, f.1 ∈ fixtureKinds.map (pathOfKind base) := by
      intro f hf
      rcases List.mem_map.mp hf with ⟨k, _, rfl⟩
      exact List.mem_map_of_mem (mem_fixtureKinds k)
    have hpaths : ∀ p ∈ fixtureKinds.map (pathOfKind base), w.Grounded p := by
      intro p hp
      rcases List.mem_map.mp hp with ⟨k, _, rfl⟩
      exact grounded_pathOfKind hgrounded k
    rcases h.prefix_of_ne hfiles hpaths hm with ⟨p, hp, hprefix⟩
    rcases List.mem_map.mp hp with ⟨k, _, rfl⟩
    exact ⟨k, hprefix⟩

end Places

section Writing

variable {base : Path} {settings : FlatSettings} {text : FixtureKind → String}

/-- Fixtures are written in order, all of them or those before one that cannot be. -/
theorem ends_writeFixturesOf
    (hcontent : ∀ k, (fixtureComponent k).generate settings.get = .ok (text k))
    {kinds : List FixtureKind} (hnodup : kinds.Nodup) (w : Workspace) :
    (∃ w', writeFixturesOf w base settings kinds = (w', .ok (kinds.map (pathOfKind base)))
        ∧ FixturesWritten base text kinds w w')
      ∨ ∃ before kind after v w' o, kinds = before ++ kind :: after
        ∧ writeFixturesOf w base settings kinds = (w', .error (.obstacle o))
        ∧ FixturesWritten base text before w v
        ∧ v.writeFile (pathOfKind base kind) (.text (text kind)) = (w', some o)
        ∧ FixturesWritten base text before w w' ∧ o ≠ .missing := by
  -- The induction is on the fixtures that are left, and the workspace is what the
  -- earlier ones have made of it.
  induction kinds generalizing w with
  | nil => exact .inl ⟨w, rfl, fixturesWritten_of_writesAll (.refl _ w)⟩
  | cons kind kinds ih =>
      rw [List.nodup_cons] at hnodup
      have hpath : pathOfKind base kind ∈ fixtureKinds.map (pathOfKind base) :=
        List.mem_map_of_mem (mem_fixtureKinds kind)
      rw [writeFixturesOf, hcontent kind]
      rcases hwrite : w.writeFile (pathOfKind base kind) (.text (text kind)) with ⟨u, _ | o⟩
      · simp only [hwrite]
        rcases Workspace.writesAt_of_writeFile hwrite with ⟨l, hwrites⟩
        have hfirst := Workspace.writesAll_of_writesAt hwrites hpath
        -- What is written later is apart from the first one.
        have hboth : ∀ {kinds' : List FixtureKind} {w' : Workspace}, kind ∉ kinds' →
            FixturesWritten base text kinds' u w' →
            FixturesWritten base text (kind :: kinds') w w' := fun {kinds'} _ hnew hrest => by
          have hdisjoint : [kind].Disjoint kinds' := List.singleton_disjoint.mpr hnew
          exact fixturesWritten_of_writesAll
            (hfirst.trans hrest.writes (apart_fixtureFiles hdisjoint))
        rcases ih hnodup.2 u with ⟨w', hrun, hrest⟩
          | ⟨before, next, after, v, w', o, hsplit, hrun, hbefore, hstop, hrest, hfound⟩
        · rw [hrun]
          exact .inl ⟨w', rfl, hboth hnodup.1 hrest⟩
        · have hnew : kind ∉ before := fun hmem =>
            hnodup.1 (hsplit ▸ List.mem_append_left _ hmem)
          rw [hrun]
          refine .inr ⟨kind :: before, next, after, v, w', o, ?_, rfl, hboth hnew hbefore,
            hstop, hboth hnew hrest, hfound⟩
          rw [hsplit, List.cons_append]
      · -- The first fixture is the one that cannot be written. Only directories were
        -- made for it.
        simp only [hwrite]
        rcases Workspace.growsAlong_of_writeFile hwrite with ⟨hgrows, hfound⟩
        exact .inr ⟨[], kind, kinds, w, u, o, rfl, rfl,
          fixturesWritten_of_writesAll (.refl _ w), hwrite,
          fixturesWritten_of_writesAll (Workspace.writesAll_of_growsAlong hgrows hpath), hfound⟩

/-- All fixtures are made from the same settings, so a fault in these stops the first one
    or none. -/
theorem ends_writeFixtures (w : Workspace) (base : Path) (settings : FlatSettings) :
    FixturesEnd w base (fun k => (fixtureComponent k).generate settings.get)
      (writeFixtures w base settings) := by
  cases hcontext : settings.get.context true with
  | error e =>
      have hcontent : ∀ k, (fixtureComponent k).generate settings.get = .error e := fun k =>
        (generate_error_iff _ _ e).mpr hcontext
      -- The first fixture fails already, and it comes before anything is written.
      have hrun : writeFixtures w base settings = (w, .error (.settings e)) := by
        rw [writeFixtures, show fixtureKinds = (.setup, .ts) :: fixtureKinds.tail from rfl,
          writeFixturesOf, hcontent]
      rw [hrun]
      exact .refused hcontent
  | ok ctx =>
      -- Where there is a context, every fixture has a content.
      have hcontent : ∀ k, ∃ content, (fixtureComponent k).generate settings.get = .ok content :=
        fun k => ⟨_, by rw [generate_eq_map, hcontext]; rfl⟩
      rcases Classical.skolem.mp hcontent with ⟨text, htext⟩
      rw [writeFixtures]
      rcases ends_writeFixturesOf htext nodup_fixtureKinds w with ⟨w', hrun, hwritten⟩
        | ⟨before, kind, after, v, w', o, hkinds, hrun, hbefore, hstop, hwritten, hfound⟩
      · rw [hrun]
        exact .finished htext hwritten
      · rw [hrun]
        exact .obstructed htext hkinds hbefore hstop hwritten hfound

end Writing

section Commands

variable {w : Workspace} {base out : Path} {config? : Option Path}

/-- The same, from a mapping. -/
theorem ends_fixturesFrom (w : Workspace) (base : Path) (data : Mapping) :
    FixturesEnd w base (fun k => contentFrom data (fixtureComponent k))
      (fixturesFrom w base data) := by
  unfold fixturesFrom contentFrom
  cases flattenSections data with
  | error e => exact .refused fun _ => rfl
  | ok s => exact ends_writeFixtures w base s

/-- The ways in which a command for fixtures ends, with what has been established on
    the way. -/
inductive FixturesRun (w : Workspace) (out : Path) (config? : Option Path) : Outcome → Prop
  | notLoaded {e : Fault} (hload : load w config? = .error e) :
      FixturesRun w out config? (.ofFault w "" e)
  | refused {l : Loaded} {e : SettingsError} (hload : load w config? = .ok l) :
      FixturesRun w out config? (.ofFault w (messageText l.warnings) (.settings e))
  | obstructed {l : Loaded} {w' : Workspace} {o : Obstacle} (hload : load w config? = .ok l)
      (hfound : o ≠ .missing) :
      FixturesRun w out config? (.ofFault w' (messageText l.warnings) (.obstacle o))
  | finished {l : Loaded} {text : FixtureKind → String} {w' : Workspace} {stdout : String}
      (hload : load w config? = .ok l)
      (hcontent : ∀ k, (fixtureComponent k).generate l.settings.get = .ok (text k))
      (hwritten : FixturesWritten out text fixtureKinds w w') :
      FixturesRun w out config? { workspace := w', stdout }

/-- Every command for fixtures ends in one of the ways. -/
theorem runs_runFixtures (w : Workspace) (out : Path) (config? : Option Path) :
    FixturesRun w out config? (runFixtures w out config?) := by
  unfold runFixtures
  split
  · next e hload => exact .notLoaded hload
  · next l hload =>
      have hends := ends_writeFixtures w out l.settings
      simp only
      generalize writeFixtures w out l.settings = r at hends ⊢
      cases hends with
      | refused _ => exact .refused hload
      | finished hcontent hwritten => exact .finished hload hcontent hwritten
      | obstructed _ _ _ _ _ hfound => exact .obstructed hload hfound

/-- A command that fails has written no fixture. -/
theorem workspace_of_runFixtures (h : (runFixtures w out config?).result = .ok 1) :
    (runFixtures w out config?).workspace = w := by
  have hruns := runs_runFixtures w out config?
  generalize runFixtures w out config? = o at hruns h ⊢
  cases hruns with
  | notLoaded _ => exact workspace_ofFault _ _ _
  | refused _ => exact workspace_ofFault _ _ _
  -- What is in the way is no fault of the user's, so this command has no exit code.
  | obstructed _ _ => cases h
  | finished _ _ _ => exact absurd (Except.ok.inj h) (by decide)

/-- Fixtures that a command has made are what it would have made one by one. -/
theorem fixturesWritten_of_runFixtures (h : (runFixtures w out config?).result = .ok 0) :
    ∃ text, (∀ k, ((fixtureComponent k).generateIn w config?).result = .ok (text k))
      ∧ FixturesWritten out text fixtureKinds w (runFixtures w out config?).workspace := by
  have hruns := runs_runFixtures w out config?
  generalize runFixtures w out config? = o at hruns h ⊢
  cases hruns with
  | notLoaded _ => exact absurd h (result_ofFault_ne _ _ _)
  | refused _ => exact absurd h (result_ofFault_ne _ _ _)
  | obstructed _ _ => exact absurd h (result_ofFault_ne _ _ _)
  | finished hload hcontent hwritten =>
      refine ⟨_, fun k => ?_, hwritten⟩
      -- A single component would load the same settings, from the workspace as it was.
      rw [Component.generateIn, hload]
      simp only [hcontent k]
      rfl

end Commands

/-- Fixtures are what single components are. A command that succeeds has written all
    of them, one that fails none. From a mapping either all are written, or none
    because of the settings, or those before one that something is in the way of. -/
theorem fixtures_as_single_components (w : Workspace) :
    (∀ args out config?, Request.ofArguments w args = .ok (.fixtures out config?) →
        ((run w args).result = .ok 1 → (run w args).workspace = w)
        ∧ ((run w args).result = .ok 0 →
          ∃ text, (∀ k, ((fixtureComponent k).generateIn w config?).result = .ok (text k))
            ∧ FixturesWritten out text fixtureKinds w (run w args).workspace))
      ∧ ∀ base data, FixturesEnd w base (fun k => contentFrom data (fixtureComponent k))
          (fixturesFrom w base data) := by
  refine ⟨fun args out config? hread => ?_, fun base data => ends_fixturesFrom w base data⟩
  have hrun : run w args = runFixtures w out config? := by
    unfold run
    rw [hread]
    rfl
  rw [hrun]
  exact ⟨workspace_of_runFixtures, fixturesWritten_of_runFixtures⟩

/-- A workspace with a file where fixtures need a directory. -/
def blocked : Workspace :=
  (Workspace.empty.writeFile { parts := ["test-output", "components", "options-api"] }
    (.text "x")).1

theorem fixtures_as_single_components_blocked :
    Request.ofArguments Workspace.empty ["fixtures"] = .ok (.fixtures .here none)
      ∧ (run Workspace.empty ["fixtures"]).result = .ok 0
      ∧ (∃ text, (∀ k, ((fixtureComponent k).generateIn .empty none).result = .ok (text k))
        ∧ FixturesWritten .here text fixtureKinds .empty (run .empty ["fixtures"]).workspace)
      ∧ FixturesEnd blocked .here (fun k => contentFrom [] (fixtureComponent k))
        (fixturesFrom blocked .here []) :=
  ⟨rfl, rfl, ((fixtures_as_single_components .empty).1 ["fixtures"] .here none rfl).2 rfl,
    (fixtures_as_single_components blocked).2 .here []⟩

/-- Two fixtures are written and two are not, since something is in the way of these.
    And a directory is made that is above none of the fixtures, since the way leads
    back out of it. -/
theorem unfinished_and_astray :
    (fixturesFrom blocked .here []).2 = .error (.obstacle .alreadyExists)
      ∧ (∀ lang, blocked.tree.get? (fixtureNames (.setup, lang)) = none
        ∧ (fixturesFrom blocked .here []).1.tree.get? (fixtureNames (.setup, lang)) ≠ none
        ∧ (fixturesFrom blocked .here []).1.tree.get? (fixtureNames (.options, lang)) = none)
      ∧ (run .empty ["fixtures", "--out", "missing/.."]).result = .ok 0
      ∧ Workspace.empty.tree.get? ["missing"] = none
      ∧ (run .empty ["fixtures", "--out", "missing/.."]).workspace.tree.get? ["missing"]
        = some .directory
      ∧ ∀ k, ¬["missing"] <+:
        Workspace.empty.destination (pathOfKind { parts := ["missing", ".."] } k) := by
  refine ⟨rfl, fun lang => ?_, rfl, rfl, by decide +kernel, fun k hk => ?_⟩
  · cases lang <;> decide +kernel
  · rw [destination_pathOfKind] at hk
    exact absurd (List.cons_prefix_cons.mp hk).1 (by decide)

end Scaffold.Command
