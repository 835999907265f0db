import Scaffold.Command.Run
import Scaffold.Proofs.ComponentName
import Scaffold.Proofs.Files.Additions

/-!
# Creation of Components

What can become of a request for a new component, said once.

The name is checked before the settings, the settings before the output, and
what is at the target before anything is written. Where a check fails the
request has ended, so there are six ways in which it can end, each with all
that has been established on the way (`NewRequest.Runs`). What is said about
new components elsewhere is said by going through the six.

The name of a component's file has nothing in it that a path could be made of,
so the file is in the directory that was asked for, and what is above the file
is that directory and what is above it.

## Main definitions

* `NewRequest.Runs`: The ways in which a request for a component ends.

## Theorems

* `workspace_ofFault`, `result_ofFault_ne`: What a fault leaves.
* `runs_run`: Every request for a component ends in one of them.
* `target_eq`: The file is in the directory that was asked for.
-/

namespace Scaffold.Command

open Settings Terminal

/-- A fault as such changes nothing. What was changed before it stays changed. -/
@[simp]
theorem workspace_ofFault (w : Workspace) (stdout : String) (e : Fault) :
    (Outcome.ofFault w stdout e).workspace = w := by
  unfold Outcome.ofFault
  split <;> rfl

/-- No fault is a success. -/
theorem result_ofFault_ne (w : Workspace) (stdout : String) (e : Fault) :
    (Outcome.ofFault w stdout e).result ≠ .ok 0 := by
  unfold Outcome.ofFault
  split <;> nofun

theorem run_new {w : Workspace} {args : List String} {r : NewRequest}
    (h : Request.ofArguments w args = .ok (.new r)) : run w args = r.run w := by
  unfold run
  rw [h]
  rfl

namespace NewRequest

/-- The ways in which a request for a component ends, with what has been
    established on the way. -/
inductive Runs (r : NewRequest) (w : Workspace) : Outcome → Prop
  | badName {e : Fault} (hname : r.component? = .error e) : r.Runs w (.ofFault w "" e)
  | badSettings {c : Component} {e : Fault} (hname : r.component? = .ok c)
      (hcontent : (r.generate w c).result = .error e) :
      r.Runs w (.ofFault w (messageText (r.generate w c).warnings) e)
  | prints {c : Component} {content : String} (hname : r.component? = .ok c)
      (hcontent : (r.generate w c).result = .ok content) (hstdout : r.toStdout = true) :
      r.Runs w
        { workspace := w, stdout := messageText (r.generate w c).warnings ++ content }
  | refuses {c : Component} {content : String} (hname : r.component? = .ok c)
      (hcontent : (r.generate w c).result = .ok content) (hstdout : r.toStdout = false)
      (hthere : w.pathExists (r.target c)) (hforce : r.force = false) :
      r.Runs w
        { workspace := w
          stdout := messageText (r.generate w c).warnings ++ (fileExists (r.target c)).line
          result := .ok 1 }
  | obstructed {c : Component} {content : String} {w' : Workspace} {o : Obstacle}
      (hname : r.component? = .ok c) (hcontent : (r.generate w c).result = .ok content)
      (hstdout : r.toStdout = false) (hforce : w.pathExists (r.target c) → r.force)
      (hwrite : w.writeFile (r.target c) (.text content) = (w', some o)) :
      r.Runs w (.ofFault w' (messageText (r.generate w c).warnings) (.obstacle o))
  | writes {c : Component} {content : String} {w' : Workspace}
      (hname : r.component? = .ok c) (hcontent : (r.generate w c).result = .ok content)
      (hstdout : r.toStdout = false) (hforce : w.pathExists (r.target c) → r.force)
      (hwrite : w.writeFile (r.target c) (.text content) = (w', none)) :
      r.Runs w
        { workspace := w'
          stdout := messageText (r.generate w c).warnings
            ++ messageText [created (r.target c),
              .info ("  " ++ c.api.word ++ " API, lang=" ++ c.lang.word)] }

/-- Every request for a component ends in one of the ways. -/
theorem runs_run (r : NewRequest) (w : Workspace) : r.Runs w (r.run w) := by
  unfold run
  split
  · next e hname => exact .badName hname
  · next c hname =>
      simp only
      split
      · next e hcontent => exact .badSettings hname hcontent
      · next content hcontent =>
          by_cases hstdout : r.toStdout = true
          · rw [if_pos hstdout]
            exact .prints hname hcontent hstdout
          · rw [if_neg hstdout]
            rw [Bool.not_eq_true] at hstdout
            unfold write writeComponent
            -- This is the one place where force is asked for, and it is asked before
            -- anything is made.
            by_cases hthere : (w.pathExists (r.target c) && !r.force) = true
            · simp only [hthere, if_true]
              rw [Bool.and_eq_true, Bool.not_eq_true'] at hthere
              exact .refuses hname hcontent hstdout hthere.1 hthere.2
            · simp only [hthere, Bool.false_eq_true, if_false]
              have hforce : w.pathExists (r.target c) → r.force := by
                intro hexists
                rwa [hexists, Bool.true_and, Bool.not_eq_true, Bool.not_eq_false'] at hthere
              rcases hwrite : w.writeFile (r.target c) (.text content) with ⟨w', _ | o⟩
              · exact .writes hname hcontent hstdout hforce hwrite
              · exact .obstructed hname hcontent hstdout hforce hwrite

/-- A component has the normal form of the name, and what else was asked for. -/
theorem normalizeName_of_component? {r : NewRequest} {c : Component} (h : r.component? = .ok c) :
    normalizeName r.name = .ok c.name ∧ c.api = r.api ∧ c.lang = r.lang := by
  unfold component? at h
  split at h
  · next name hname => exact Except.ok.inj h ▸ ⟨hname, rfl, rfl⟩
  · exact absurd h nofun

/-- The name of a component's file is a name in every path. -/
theorem isNamed_fileName {r : NewRequest} {c : Component} (h : r.component? = .ok c) :
    '/' ∉ c.fileName.toList ∧ Location.IsNamed [c.fileName] := by
  have hname := (normalizeName_of_component? h).1
  have htext : c.fileName.toList = c.name.toList ++ ".vue".toList := String.toList_append
  refine ⟨fun hslash => ?_, ?_⟩
  · -- The name itself has letters and digits only, and the ending is known.
    rw [htext, List.mem_append] at hslash
    rcases hslash with hslash | hslash
    · exact absurd (isAlphanum_of_normalizeName hname hslash) (by decide)
    · exact absurd hslash (by decide)
  · intro part hpart
    rw [List.mem_singleton.mp hpart]
    -- What means something in a path is shorter.
    have hshort : ∀ s ∈ ["", ".", ".."], s.toList.length < 4 := by decide
    have hother : ∀ s ∈ ["", ".", ".."], c.fileName ≠ s := by
      intro s hs heq
      have hlength := hshort s hs
      rw [← heq, htext, List.length_append] at hlength
      exact absurd hlength (Nat.not_lt.mpr (Nat.le_add_left _ _))
    exact ⟨hother _ (by decide), hother _ (by decide), hother _ (by decide)⟩

/-- The file is in the directory that was asked for. -/
theorem target_eq {r : NewRequest} {c : Component} (h : r.component? = .ok c) :
    r.target c = { r.out with parts := r.out.parts ++ [c.fileName] } := by
  rcases isNamed_fileName h with ⟨hslash, hnamed⟩
  exact Path.child_of_isNamed r.out hslash hnamed

theorem parent_target {r : NewRequest} {c : Component} (h : r.component? = .ok c) :
    (r.target c).parent = r.out := by
  rw [target_eq h, Path.parent, List.dropLast_concat]

end NewRequest

end Scaffold.Command
