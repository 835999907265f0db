import Scaffold.Proofs.Command.Safety

/-!
# Protection of Existing Files

What a new component does to the files, and what whole sessions leave alone.

A request for a component that succeeds writes one file, makes directories that
were missing above it, and touches nothing else (`Creates`). Without force it
first looks whether its path leads to anything. That is enough to spare what is
there, as long as the path leads to the same place before and after the
directories are made, which is what `Workspace.Grounded` is about. The settings
that a session can begin with are written next to the working directory's own
name, so there the question does not come up.

It does come up with a directory such as `missing/..`, where the path leads
nowhere until `missing` has been made, and from then on to a file that may have
been there all along. `overwritten_without_force` is such a case.

## Main definitions

* `Creates`: What a new component's file changes.
* `Request.Spares`: The requests that write over nothing.
* `Session`: Command lines of such requests, one after the other.

## Theorems

* `creates_of_run`: A component is created, and nothing else is changed.
* `get?_run_of_spares`: One command line keeps every file.
* `get?_of_session`: So does a session of any length.
* `new_exact_and_files_kept`: What creation changes, and what sessions keep.
* `overwritten_without_force`: A file that was there is overwritten.
-/

namespace Scaffold.Command

open Settings

/-- What the file of a new component changes: the component has the normal form
    of the name and what else was asked for, its file holds what is generated
    for it in the workspace as it was before, and besides there are only new
    directories, where the directory that was asked for or something above it
    leads. If that directory is grounded, the new ones are above the file, and
    the file itself was only there before if force was used. -/
structure Creates (r : NewRequest) (w w' : Workspace) (c : Component) (content : String)
    (l : Location) : Prop where
  name : normalizeName r.name = .ok c.name
  api : c.api = r.api
  lang : c.lang = r.lang
  generated : (c.generateIn w r.config?).result = .ok content
  leads : w'.resolve (r.out.child c.fileName) = .ok l
  holds : w'.tree.get? l = some (.file (.text content))
  home_eq : w'.home = w.home
  others : ∀ m, m ≠ l → w'.tree.get? m = w.tree.get? m
    ∨ w.tree.get? m = none ∧ w'.tree.get? m = some .directory
      ∧ ∃ q ∈ r.out.selfAndParents, w'.resolve q = .ok m
  above : w.Grounded r.out → ∀ m, w'.tree.get? m ≠ w.tree.get? m → m <+: l
  forced : w.Grounded r.out → w.tree.get? l ≠ none → r.force

/-- The requests that write over nothing: they do without force, and they do not
    lead back from what is missing. Fixtures ask for no force. -/
def Request.Spares (w : Workspace) : Request → Prop
  | new r => r.force = false ∧ (r.toStdout ∨ w.Grounded r.out)
  | initSettings force => force = false
  | fixtures _ _ => False
  | listSettings _ | version | help _ | guidance => True

/-- Command lines one after the other, none of which asks for more. -/
inductive Session : Workspace → Workspace → Prop
  | start (w : Workspace) : Session w w
  | command {w w' : Workspace} (args : List String)
      (hspares : ∀ r, Request.ofArguments w args = .ok r → r.Spares w)
      (hrest : Session (run w args).workspace w') : Session w w'

/-- What is made on the way to a file in a grounded directory is above it. -/
theorem prefix_of_made {w : Workspace} {out q : Path} {name : String}
    (hgrounded : w.Grounded out) (hq : q ∈ out.selfAndParents)
    (hnone : w.tree.get? (w.destination q) = none) (hname : Location.IsNamed [name]) :
    w.destination q <+: w.destination { out with parts := out.parts ++ [name] } := by
  rcases hname name (List.mem_singleton_self name) with ⟨hempty, hpoint, hup⟩
  rcases out with ⟨anchor, parts⟩
  rcases Path.mem_selfAndParents.mp hq with ⟨rfl, rest, rfl⟩
  rw [Workspace.destination_concat, Workspace.stepTo, if_neg hup, if_neg (by simp [hempty, hpoint])]
  exact (Workspace.destination_prefix_of_grounded hgrounded hnone).1.trans
    (List.prefix_append _ _)

/-- A request that succeeds has made what was asked for. Of the ways in which a request
    ends, only one is a success without printing. -/
theorem creates_of_run {r : NewRequest} {w : Workspace} (hstdout : r.toStdout = false)
    (hresult : (r.run w).result = .ok 0) :
    ∃ c content l, Creates r w (r.run w).workspace c content l := by
  have hruns := r.runs_run w
  generalize r.run w = o at hruns hresult ⊢
  cases hruns with
  | badName _ => exact absurd hresult (result_ofFault_ne _ _ _)
  | badSettings _ _ => exact absurd hresult (result_ofFault_ne _ _ _)
  | prints _ _ htrue => exact absurd (hstdout.symm.trans htrue) (by decide)
  | refuses _ _ _ _ _ => exact absurd (Except.ok.inj hresult) (by decide)
  | obstructed _ _ _ _ _ => exact absurd hresult (result_ofFault_ne _ _ _)
  | @writes c content w' hname hcontent _ hforce hwrite =>
      rcases NewRequest.normalizeName_of_component? hname with ⟨hnormal, hapi, hlang⟩
      rcases Workspace.writesAt_of_writeFile hwrite with ⟨l, hwrites⟩
      have hnamed := (NewRequest.isNamed_fileName hname).2
      have hl := hwrites.eq_destination
      have hothers := hwrites.get?_eq
      rw [NewRequest.parent_target hname] at hothers
      rw [NewRequest.target_eq hname] at hl
      refine ⟨c, content, l, hnormal, hapi, hlang, hcontent, hwrites.resolve_eq,
        hwrites.get?_self, hwrites.home_eq, hothers, fun hgrounded m hm => ?_,
        fun hgrounded hthere => hforce ?_⟩
      · -- What has changed besides the file was made for it, as a directory on the way.
        by_cases heq : m = l
        · exact heq ▸ List.prefix_rfl
        · rcases hothers m heq with hsame | ⟨hnone, _, q, hq, hmade⟩
          · exact absurd hsame hm
          · rw [Workspace.eq_destination_of_resolve hmade,
              Workspace.destination_congr hwrites.home_eq] at hnone ⊢
            rw [hl]
            exact prefix_of_made hgrounded hq hnone hnamed
      · -- A grounded path has led to what was there before.
        rcases Option.ne_none_iff_exists'.mp hthere with ⟨e, he⟩
        rw [hl] at he
        rw [NewRequest.target_eq hname]
        exact w.pathExists_iff.mpr
          ⟨_, e, Workspace.resolve_concat_of_grounded hgrounded hnamed he, he⟩

/-- Only one component has the name and what else was asked for. -/
theorem component?_of_creates {r : NewRequest} {w w' : Workspace} {c : Component}
    {content : String} {l : Location} (h : Creates r w w' c content l) :
    r.component? = .ok c := by
  rw [NewRequest.component?, h.name]
  simp only [← h.api, ← h.lang]

/-- Its file is where the request says. -/
theorem leads_of_creates {r : NewRequest} {w w' : Workspace} {c : Component}
    {content : String} {l : Location} {p : Path} (h : Creates r w w' c content l)
    (hpath : r.component?.map r.target = .ok p) : w'.resolve p = .ok l := by
  rw [component?_of_creates h] at hpath
  rw [← Except.ok.inj hpath]
  exact h.leads

section Keeping

variable {w : Workspace} {l : Location} {e : Entry}

/-- What is written without force takes the place of nothing, unless its
    directory leads back from what is missing. -/
theorem get?_target_of_grounded {r : NewRequest} {c : Component} {content : Content}
    {w' : Workspace} {o : Option Obstacle} (hname : r.component? = .ok c)
    (hforce : r.force = false) (hgrounded : w.Grounded r.out)
    (hthere : w.pathExists (r.target c) → r.force)
    (hwrite : w.writeFile (r.target c) content = (w', o)) (hl : w.tree.get? l = some e) :
    w'.tree.get? l = some e := by
  have hnew : w.pathExists (r.target c) = false := by
    rw [← Bool.not_eq_true]
    exact fun hexists => absurd (hforce.symm.trans (hthere hexists)) (by decide)
  rw [NewRequest.target_eq hname] at hnew hwrite
  exact Workspace.get?_writeFile_of_grounded hgrounded (NewRequest.isNamed_fileName hname).2 hnew
    hwrite hl

/-- A request for a component that asks for no force keeps everything. -/
theorem get?_new_of_spares {r : NewRequest} (hforce : r.force = false)
    (hspares : r.toStdout ∨ w.Grounded r.out) (hl : w.tree.get? l = some e) :
    (r.run w).workspace.tree.get? l = some e := by
  -- What is not printed is written to a grounded directory.
  have hgrounded (hstdout : r.toStdout = false) : w.Grounded r.out :=
    hspares.resolve_left (by rw [hstdout]; decide)
  have hruns := r.runs_run w
  generalize r.run w = o at hruns ⊢
  cases hruns with
  | badName _ => rwa [workspace_ofFault]
  | badSettings _ _ => rwa [workspace_ofFault]
  | prints _ _ _ => exact hl
  | refuses _ _ _ _ _ => exact hl
  | obstructed hname _ hstdout hthere hwrite =>
      rw [workspace_ofFault]
      exact get?_target_of_grounded hname hforce (hgrounded hstdout) hthere hwrite hl
  | writes hname _ hstdout hthere hwrite =>
      exact get?_target_of_grounded hname hforce (hgrounded hstdout) hthere hwrite hl

/-- The initial settings are written in the working directory, which is there. -/
theorem get?_init (hl : w.tree.get? l = some e) :
    (runInit w false).workspace.tree.get? l = some e := by
  have hgrounded : w.Grounded { anchor := .root, parts := w.home } :=
    Workspace.grounded_of_isNamed w.home_named
  have hname : Location.IsNamed [fileName] := by decide
  unfold runInit
  simp only
  split
  · exact hl
  · next hthere =>
      rw [Bool.not_false, Bool.and_true, Bool.not_eq_true] at hthere
      split
      · next hwrite =>
          rw [workspace_ofFault]
          exact Workspace.get?_writeFile_of_grounded hgrounded hname hthere hwrite hl
      · next hwrite =>
          exact Workspace.get?_writeFile_of_grounded hgrounded hname hthere hwrite hl

/-- A command line that writes over nothing keeps everything. -/
theorem get?_run_of_spares {args : List String}
    (hspares : ∀ r, Request.ofArguments w args = .ok r → r.Spares w)
    (hl : w.tree.get? l = some e) : (run w args).workspace.tree.get? l = some e := by
  unfold run
  cases hread : Request.ofArguments w args with
  | error fault => exact hl
  | ok r =>
      have hr := hspares r hread
      simp only
      -- Of the requests that change anything, the component and the initial settings
      -- have been settled, and fixtures ask for more.
      cases r with
      | new r => exact get?_new_of_spares hr.1 hr.2 hl
      | initSettings force =>
          have hforce : force = false := hr
          rw [Request.run, hforce]
          exact get?_init hl
      | fixtures out config? => exact absurd hr id
      | listSettings config? => rwa [workspace_of_onlyShows w rfl]
      | version => exact hl
      | help scope => exact hl
      | guidance => exact hl

/-- So does a session of any length. -/
theorem get?_of_session {w' : Workspace} (h : Session w w') (hl : w.tree.get? l = some e) :
    w'.tree.get? l = some e := by
  -- The induction is on the session. What one command keeps, the rest of them keep.
  induction h with
  | start w => exact hl
  | command args hspares _ ih => exact ih (get?_run_of_spares hspares hl)

end Keeping

/-- What creation changes, and what sessions keep: a request for a component that
    succeeds creates it and changes nothing else, and a session that writes over
    nothing keeps every file as it is. -/
theorem new_exact_and_files_kept (w : Workspace) :
    (∀ args r, Request.ofArguments w args = .ok (.new r) → r.toStdout = false →
        (run w args).result = .ok 0 →
        ∃ c content l, Creates r w (run w args).workspace c content l)
      ∧ ∀ w', Session w w' → ∀ l content, w.tree.get? l = some (.file content) →
        w'.tree.get? l = some (.file content) := by
  refine ⟨fun args r hread hstdout hresult => ?_, fun w' h l content hl => ?_⟩
  · rw [run_new hread] at hresult ⊢
    exact creates_of_run hstdout hresult
  · exact get?_of_session h hl

/-- A workspace with one file. -/
def keepsake : Workspace := (Workspace.empty.writeFile { parts := ["A.vue"] } (.text "old")).1

/-- A second component is made beside a file, and asking for the file's own name
    leaves it as it is. -/
theorem new_exact_and_files_kept_keepsake :
    keepsake.tree.get? ["A.vue"] = some (.file (.text "old"))
      ∧ (∃ c content l, Creates { name := "b" } keepsake (run keepsake ["new", "b"]).workspace
          c content l)
      ∧ (run (run keepsake ["new", "b"]).workspace ["new", "a"]).workspace.tree.get? ["A.vue"]
        = some (.file (.text "old")) := by
  have hread (w : Workspace) (name : String) (hname : name = "a" ∨ name = "b") :
      Request.ofArguments w ["new", name] = .ok (.new { name }) := by
    rcases hname with rfl | rfl <;> rfl
  have hspares (w : Workspace) (name : String) (hname : name = "a" ∨ name = "b") :
      ∀ r, Request.ofArguments w ["new", name] = .ok r → r.Spares w := by
    intro r hr
    rw [hread w name hname] at hr
    rw [← Except.ok.inj hr]
    exact ⟨rfl, .inr (Workspace.grounded_of_isNamed (by decide))⟩
  -- Two commands, one after the other.
  have hsession :
      Session keepsake (run (run keepsake ["new", "b"]).workspace ["new", "a"]).workspace :=
    .command ["new", "b"] (hspares _ "b" (.inr rfl))
      (.command ["new", "a"] (hspares _ "a" (.inl rfl)) (.start _))
  have hthere : keepsake.tree.get? ["A.vue"] = some (.file (.text "old")) := by decide +kernel
  refine ⟨hthere, ?_, ?_⟩
  · exact (new_exact_and_files_kept keepsake).1 ["new", "b"] _ (hread _ "b" (.inr rfl)) rfl rfl
  · exact (new_exact_and_files_kept keepsake).2 _ hsession _ _ hthere

/-- Without force a file that was there is overwritten, through a directory that
    was not. -/
theorem overwritten_without_force :
    keepsake.tree.get? ["A.vue"] = some (.file (.text "old"))
      ∧ Request.ofArguments keepsake ["new", "A", "--out", "missing/.."]
        = .ok (.new { name := "A", out := { parts := ["missing", ".."] } })
      ∧ (run keepsake ["new", "A", "--out", "missing/.."]).result = .ok 0
      ∧ (run keepsake ["new", "A", "--out", "missing/.."]).workspace.tree.get? ["A.vue"]
        ≠ some (.file (.text "old")) := by
  refine ⟨by decide +kernel, rfl, rfl, by decide +kernel⟩

end Scaffold.Command
