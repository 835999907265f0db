import Scaffold.Proofs.Command.Fixtures

/-!
# Safety of Failing Commands

A command line that comes to a failure with an exit code has changed nothing.

Every check that a command makes is made before anything is written, except for
one: fixtures are generated and written one after the other, and each of them
asks the settings anew. But settings fail for every fixture or for none, so they
fail before the first one is written (`ends_writeFixtures`). What can still go
wrong after that are obstacles in the files themselves, and those end the program
without an exit code. None of them is something missing, since
everything above a file is made before the file is, so nothing of this kind can
be taken for a missing settings file and reported.

## Main definitions

* `Safe`: An outcome with an exit code that says whether anything was changed.
* `Request.onlyShows`: The requests that write nothing.

## Theorems

* `safe_ofFault`: Faults that are reported have to come before any change.
* `run_safe`: Every command line has a safe outcome.
-/

namespace Scaffold.Command

open Settings Terminal

/-- An outcome from which one can tell whether anything was changed. -/
structure Safe (before : Workspace) (o : Outcome) : Prop where
  code_le : ∀ n, o.result = .ok n → n ≤ 2
  /-- A failure has changed nothing. -/
  unchanged : ∀ n, o.result = .ok n → n ≠ 0 → o.workspace = before
  /-- Wrong usage is all that the error output is for. -/
  usage : o.result = .ok 2 → o.stdout = "" ∧ o.stderr ≠ ""
  quiet : ∀ n, o.result = .ok n → n ≠ 2 → o.stderr = ""
  /-- What leaves no exit code is not that something is missing. -/
  found : o.result ≠ .error (.obstacle .missing)

/-- The requests that only have something shown. -/
def Request.onlyShows : Request → Bool
  | new r => r.toStdout
  | fixtures _ _ => false
  | initSettings _ => false
  | listSettings _ => true
  | version => true
  | help _ => true
  | guidance => true

section Outcomes

variable {before : Workspace}

/-- Success is safe, whatever was changed and printed. -/
theorem safe_success (w : Workspace) (stdout : String) :
    Safe before { workspace := w, stdout } :=
  ⟨fun _ h => Except.ok.inj h ▸ Nat.zero_le 2, fun _ h hne => absurd (Except.ok.inj h).symm hne,
    fun h => absurd (Except.ok.inj h) (by decide), fun _ _ _ => rfl, nofun⟩

/-- So is a failure that has changed nothing. -/
theorem safe_failure (stdout : String) :
    Safe before { workspace := before, stdout, result := .ok 1 } :=
  ⟨fun _ h => Except.ok.inj h ▸ by decide, fun _ _ _ => rfl,
    fun h => absurd (Except.ok.inj h) (by decide), fun _ _ _ => rfl, nofun⟩

/-- Wrong usage is safe if anything is said about it. -/
theorem safe_usage {stderr : String} (hne : stderr ≠ "") :
    Safe before { workspace := before, stderr, result := .ok 2 } :=
  ⟨fun _ h => Except.ok.inj h ▸ Nat.le_refl 2, fun _ _ _ => rfl, fun _ => ⟨rfl, hne⟩,
    fun _ h hnot => absurd (Except.ok.inj h).symm hnot, nofun⟩

/-- A fault that is reported has to come before any change. -/
theorem safe_ofFault {w : Workspace} {e : Fault} (stdout : String)
    (hreport : e.report?.isSome → w = before) (hfound : e ≠ .obstacle .missing) :
    Safe before (.ofFault w stdout e) := by
  unfold Outcome.ofFault
  cases htext : e.report? with
  | some text =>
      rw [hreport (by rw [htext]; rfl)]
      exact safe_failure _
  | none =>
      exact ⟨nofun, nofun, nofun, nofun, fun h => hfound (Except.error.inj h)⟩

end Outcomes

section Faults

variable {w : Workspace}

/-- That a settings file is missing is reported as such, and not as a missing file. -/
theorem readDocument_error {p : Path} {e : Fault} (h : readDocument w p = .error e) :
    e ≠ .obstacle .missing := by
  unfold readDocument at h
  split at h
  · exact Except.error.inj h ▸ nofun
  · exact Except.error.inj h ▸ nofun
  · split at h
    · exact Except.error.inj h ▸ nofun
    · exact Except.error.inj h ▸ nofun
  · split at h
    · exact Except.error.inj h ▸ nofun
    · exact absurd h nofun
    · exact absurd h nofun

/-- A settings file that is missing is told from anything else that is. -/
theorem load_error {config? : Option Path} {e : Fault} (h : load w config? = .error e) :
    e ≠ .obstacle .missing := by
  unfold load at h
  split at h
  · next p _ =>
      unfold loadFile at h
      cases hread : readDocument w p with
      | error e' =>
          rw [hread] at h
          exact Except.error.inj h ▸ readDocument_error hread
      | ok v =>
          simp only [hread, bind, Except.bind] at h
          rintro rfl
          split at h
          · split at h
            · cases h
            · cases h
          · cases h
  · cases h

/-- The same holds for what is generated from it, since settings and names have faults of
    their own. -/
theorem generateIn_error {c : Component} {config? : Option Path} {e : Fault}
    (h : (c.generateIn w config?).result = .error e) : e ≠ .obstacle .missing := by
  unfold Component.generateIn at h
  split at h
  · next hload => exact Except.error.inj h ▸ load_error hload
  · next l _ =>
      simp only at h
      cases hgenerate : c.generate l.settings.get with
      | error e' =>
          rw [hgenerate] at h
          exact Except.error.inj h ▸ nofun
      | ok content =>
          rw [hgenerate] at h
          exact absurd h nofun

end Faults

section Requests

variable (w : Workspace)

/-- A request for a component is safe, whichever way it ends. -/
theorem safe_new (r : NewRequest) : Safe w (r.run w) := by
  have hruns := r.runs_run w
  generalize r.run w = o at hruns ⊢
  cases hruns with
  | badName hname =>
      refine safe_ofFault "" (fun _ => rfl) ?_
      unfold NewRequest.component? at hname
      split at hname
      · exact absurd hname nofun
      · exact Except.error.inj hname ▸ nofun
  | badSettings _ hcontent => exact safe_ofFault _ (fun _ => rfl) (generateIn_error hcontent)
  | prints _ _ _ => exact safe_success _ _
  | refuses _ _ _ _ _ => exact safe_failure _
  | obstructed _ _ _ _ hwrite =>
      -- Something may have been made on the way, but the fault is not reported, so this
      -- is no failure with an exit code.
      refine safe_ofFault _ nofun fun heq => ?_
      exact (Workspace.growsAlong_of_writeFile hwrite).2 (Fault.obstacle.inj heq)
  | writes _ _ _ _ _ => exact safe_success _ _

/-- So are fixtures. -/
theorem safe_fixtures (out : Path) (config? : Option Path) :
    Safe w (runFixtures w out config?) := by
  have hruns := runs_runFixtures w out config?
  generalize runFixtures w out config? = o at hruns ⊢
  cases hruns with
  | notLoaded hload => exact safe_ofFault "" (fun _ => rfl) (load_error hload)
  | refused _ => exact safe_ofFault _ (fun _ => rfl) nofun
  | obstructed _ hfound =>
      exact safe_ofFault _ nofun fun heq => hfound (Fault.obstacle.inj heq)
  | finished _ _ _ => exact safe_success _ _

/-- So is a listing of settings. -/
theorem safe_listing (config? : Option Path) : Safe w (runListing w config?) := by
  unfold runListing
  split
  · next e hload => exact safe_ofFault "" (fun _ => rfl) (load_error hload)
  · simp only
    split
    · exact safe_ofFault _ (fun _ => rfl) nofun
    · exact safe_success _ _

/-- So are initial settings. -/
theorem safe_init (force : Bool) : Safe w (runInit w force) := by
  unfold runInit
  simp only
  split
  · exact safe_failure _
  · split
    · next o hwrite =>
        refine safe_ofFault "" nofun fun heq => ?_
        exact (Workspace.growsAlong_of_writeFile hwrite).2 (Fault.obstacle.inj heq)
    · exact safe_success _ _

/-- Every request is safe. -/
theorem safe_request (r : Request) : Safe w (r.run w) := by
  cases r with
  | new r => exact safe_new w r
  | fixtures out config? => exact safe_fixtures w out config?
  | listSettings config? => exact safe_listing w config?
  | initSettings force => exact safe_init w force
  | version => exact safe_success _ _
  | help scope => exact safe_success _ _
  | guidance => exact safe_usage (by decide)

/-- What only has something shown changes nothing, whatever comes of it. -/
theorem workspace_of_onlyShows {r : Request} (h : r.onlyShows) : (r.run w).workspace = w := by
  cases r with
  | new r =>
      replace h : r.toStdout = true := h
      have hruns := r.runs_run w
      rw [Request.run]
      generalize r.run w = o at hruns ⊢
      -- A component is only written where printing was not asked for.
      cases hruns with
      | badName hname => exact workspace_ofFault _ _ _
      | badSettings _ _ => exact workspace_ofFault _ _ _
      | prints _ _ _ => rfl
      | refuses _ _ hstdout _ _ => exact absurd (hstdout.symm.trans h) (by decide)
      | obstructed _ _ hstdout _ _ => exact absurd (hstdout.symm.trans h) (by decide)
      | writes _ _ hstdout _ _ => exact absurd (hstdout.symm.trans h) (by decide)
  | listSettings config? =>
      rw [Request.run, runListing]
      split
      · exact workspace_ofFault _ _ _
      · simp only
        split
        · exact workspace_ofFault _ _ _
        · rfl
  | fixtures _ _ => exact absurd h Bool.false_ne_true
  | initSettings _ => exact absurd h Bool.false_ne_true
  | version => rfl
  | help scope => rfl
  | guidance => rfl

end Requests

theorem text_ne_empty (e : UsageError) : e.text ≠ "" := by
  intro h
  -- The message ends with a literal, whatever it is about.
  have hend := congrArg String.toList h
  rw [UsageError.text, String.toList_append] at hend
  exact absurd (List.append_eq_nil_iff.mp hend).2 (by decide)

/-- Every command line has a safe outcome, and changes nothing if it only has
    something shown. -/
theorem run_safe (w : Workspace) (args : List String) :
    Safe w (run w args)
      ∧ ∀ r, Request.ofArguments w args = .ok r → r.onlyShows → (run w args).workspace = w := by
  unfold run
  cases hread : Request.ofArguments w args with
  | ok r =>
      refine ⟨safe_request w r, fun r' hr' hshows => ?_⟩
      rw [← Except.ok.inj hr'] at hshows
      exact workspace_of_onlyShows w hshows
  | error e => exact ⟨safe_usage (text_ne_empty e), nofun⟩

end Scaffold.Command
