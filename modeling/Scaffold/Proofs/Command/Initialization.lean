import Scaffold.Proofs.Command.Printing
import Scaffold.Proofs.Settings.Initial
import Scaffold.Proofs.Settings.Nearest

/-!
# Initialization of Settings

What a settings file that has just been initialized changes: nothing.

The file is written where the search for a settings file begins, so it hides every
other one, in the working directory as well as above it. It is loaded as settings
that come to the same as none, and of those there is nothing to warn about. So
components are printed as they would be without any settings file, and the listing
shows every setting with its default. Only the header of the listing tells that
there is a file.

The content of the file is never evaluated here. What is needed of it is that it is
read as the initial mapping and that this is neutral. Loading is stated for any text
of which the same is known (`load_of_homeFile`).

## Main definitions

* `AsksToPrint`: The command lines for a component to be printed.
* `NewRequest.bare`: What is printed without settings.
* `SeenAlike`: Outcomes of which the same is seen.
* `homeFile`: The path of the settings file in the working directory.
* `Unaffected`: What follows once a settings file has been initialized.

## Theorems

* `request_of_asksToPrint`: What these command lines ask for.
* `load_of_homeFile`: The file in the working directory is the one that is loaded.
* `run_of_neutral`: Under neutral settings, a component is printed as without any.
* `runListing_of_neutral`: All settings are listed with their defaults.
* `exists_write_of_runInit`: If a settings file could be initialized, it was written.
* `unaffected_of_initSettings`: Such a file makes no difference.
-/

namespace Scaffold.Command

open Settings Terminal

/-- A command line for a component to be printed. Where the name looks like an option it
    has to come last, after two hyphens. -/
inductive AsksToPrint (name : String) (api : Api) (lang : ScriptLang) : List String → Prop
  | name_first (h : Arguments.isOption name = false) :
      AsksToPrint name api lang ["new", name, "--api", api.word, "--lang", lang.word, "--stdout"]
  | name_last :
      AsksToPrint name api lang
        ["new", "--api", api.word, "--lang", lang.word, "--stdout", "--", name]

/-- What is seen of a component that is made without settings: its content, or what is
    wrong with its name. -/
def NewRequest.bare (r : NewRequest) (w : Workspace) : Outcome :=
  match r.component? with
  | .error e => .ofFault w "" e
  | .ok c => { workspace := w, stdout := c.render { typed := c.lang.isTyped, name := c.name } }

/-- What can be seen of an outcome is the same. -/
structure SeenAlike (o o' : Outcome) : Prop where
  result : o.result = o'.result
  stdout : o.stdout = o'.stdout
  stderr : o.stderr = o'.stderr

section Requests

variable {name : String} {api : Api} {lang : ScriptLang} {line : List String}

/-- What does not look like an option is put with the other arguments. -/
theorem read_of_not_isOption {a : String} (h : Arguments.isOption a = false) (table : OptionTable)
    (rest : List String) :
    Arguments.read table true (a :: rest)
      = (Arguments.read table true rest).map (Arguments.withOther a) := by
  -- The two hyphens look like an option.
  have hhyphens : a ≠ "--" := by
    rintro rfl
    exact absurd h (by decide)
  rw [Arguments.read, if_neg hhyphens, h]
  rfl

/-- These command lines ask for a component to be printed. -/
theorem request_of_asksToPrint (h : AsksToPrint name api lang line) (w : Workspace) :
    Request.ofArguments w line = .ok (.new { name, api, lang, toStdout := true }) := by
  cases h with
  | name_last => cases api <;> cases lang <;> rfl
  | name_first hname =>
      refine read_new_iff.mpr
        ⟨{ options := [("--api", api.word), ("--lang", lang.word), ("--stdout", "")]
           others := [name] }, ?_, rfl, ?_, ?_⟩
      · -- The name is not known, so the reading is done in two steps.
        rw [read_of_not_isOption hname]
        cases api <;> cases lang <;> rfl
      · cases api <;> cases lang <;> rfl
      · cases api <;> cases lang <;> rfl

end Requests

section Loading

variable {w : Workspace} {r : NewRequest}

/-- Where there is no settings file, the settings are neutral. -/
theorem exists_load_of_findFile_eq_none (h : findFile w none = none) :
    ∃ l, load w none = .ok l ∧ Neutral l.settings := by
  refine ⟨{ settings := .empty, path? := none }, ?_, neutral_empty⟩
  unfold load
  rw [h]
  rfl

/-- The path of the settings file in the working directory. -/
def homeFile (w : Workspace) : Path := { anchor := .root, parts := w.home ++ [fileName] }

/-- A settings file in the working directory is found first. -/
theorem findFile_of_isFile (h : w.isFile (homeFile w)) : findFile w none = some (homeFile w) := by
  have hchild : Path.child { anchor := .root, parts := w.home } fileName = homeFile w :=
    Path.child_of_isNamed _ (by decide) (by decide)
  refine ((endsAtNearest_findFile w none).found_iff _).mpr ⟨0, Nat.zero_le _, hchild.symm, ?_, ?_⟩
  · exact w.isFile_iff.mp h
  · exact fun j hj => absurd hj (Nat.not_lt_zero j)

/-- The settings file in the working directory is the one that is loaded. -/
theorem load_of_homeFile {text : String} {entries : Mapping} {settings : FlatSettings}
    (hentry : w.entry (homeFile w) = .ok (.file (.text text)))
    (hparse : Yaml.parse text.toList = .ok (.map entries))
    (hflat : flattenSections entries = .ok settings) :
    load w none = .ok { settings, path? := some (homeFile w) } := by
  -- The search begins here, so no other file is looked at.
  have hisFile : w.isFile (homeFile w) = true := by
    rw [Workspace.isFile, hentry]
  exact load_of_readDocument (findFile_of_isFile hisFile) (readDocument_of_parse hentry hparse)
    hflat

/-- The initial file is loaded, and comes to the same as no file. -/
theorem exists_load_of_initial (h : w.entry (homeFile w) = .ok (.file (.text initialText))) :
    ∃ l, load w none = .ok l ∧ l.path? = some (homeFile w) ∧ Neutral l.settings := by
  rcases neutral_initialMapping with ⟨s, hs, hneutral⟩
  have hparse : Yaml.parse initialText.toList = .ok (.map initialMapping) := by
    rw [initialText, String.toList_ofList]
    exact parse_initialChars
  exact ⟨_, load_of_homeFile h hparse hs, rfl, hneutral⟩

end Loading

section Showing

variable {w w' : Workspace} {r : NewRequest} {l : Loaded}

/-- Neutral settings give no warnings. -/
theorem warnings_of_neutral (hload : load w none = .ok l) (hneutral : Neutral l.settings) :
    l.warnings = [] :=
  (warnings_eq_nil_iff hload).mpr hneutral.nothing_unknown

/-- Under neutral settings, a component is printed as without any. -/
theorem run_of_neutral (hload : load w none = .ok l) (hneutral : Neutral l.settings)
    (hconfig : r.config? = none) (hstdout : r.toStdout = true) : r.run w = r.bare w := by
  -- The warnings are gone, and the context is the one without settings.
  have hgenerated : ∀ c, r.generate w c
      = ⟨[], .ok (c.render { typed := c.lang.isTyped, name := c.name })⟩ := by
    intro c
    unfold NewRequest.generate Component.generateIn
    rw [hconfig, hload]
    simp only [warnings_of_neutral hload hneutral, Component.generate, hneutral.context]
    rfl
  unfold NewRequest.run NewRequest.bare
  cases r.component? with
  | error e => rfl
  | ok c =>
      simp only [hgenerated, hstdout, if_true]
      rfl

/-- A fault looks the same in any workspace. -/
theorem seenAlike_ofFault (stdout : String) (e : Fault) :
    SeenAlike (.ofFault w stdout e) (.ofFault w' stdout e) := by
  unfold Outcome.ofFault
  cases e.report? with
  | none => exact ⟨rfl, rfl, rfl⟩
  | some text => exact ⟨rfl, rfl, rfl⟩

theorem seenAlike_bare : SeenAlike (r.bare w) (r.bare w') := by
  unfold NewRequest.bare
  cases r.component? with
  | error e => exact seenAlike_ofFault "" e
  | ok c => exact ⟨rfl, rfl, rfl⟩

/-- Under neutral settings, all settings are listed with their defaults. -/
theorem runListing_of_neutral (hload : load w none = .ok l) (hneutral : Neutral l.settings) :
    runListing w none = { workspace := w, stdout := printed (plainLines l.origin) } := by
  have hlisting : l.listing = ⟨plainLines l.origin, none⟩ := listing_of_neutral hneutral l.origin
  have hnone : messageText [] = "" := rfl
  unfold runListing
  rw [hload]
  simp only [hlisting, warnings_of_neutral hload hneutral, hnone, String.empty_append,
    text_eq_printed]

end Showing

/-- What follows once a settings file has been initialized. -/
structure Unaffected (w : Workspace) : Prop where
  /-- Components are printed as where there is no settings file. -/
  prints_alike : ∀ w₀, findFile w₀ none = none → ∀ name api lang line,
    AsksToPrint name api lang line → SeenAlike (run w line) (run w₀ line)
  /-- That is, without warnings, and with what is on by default. -/
  prints : ∀ name api lang line, AsksToPrint name api lang line →
    ∀ normal, normalizeName name = .ok normal →
      (run w line).result = .ok 0 ∧ (run w line).stdout
        = Component.render { name := normal, api, lang } { typed := lang.isTyped, name := normal }
  /-- All settings are listed with their defaults, each on a line of its own. -/
  lists : run w ["settings"]
    = { workspace := w, stdout := printed (plainLines (homeFile w).text) }

/-- If a settings file could be initialized, it was written. -/
theorem exists_write_of_runInit {w : Workspace} {force : Bool}
    (h : (runInit w force).result = .ok 0) :
    ∃ w', w.writeFile (homeFile w) (.text initialText) = (w', none)
      ∧ (runInit w force).workspace = w' := by
  unfold runInit at h ⊢
  simp only at h ⊢
  split at h
  · exact absurd (Except.ok.inj h) (by decide)
  · next hfree =>
      rw [if_neg hfree]
      split at h
      · exact absurd h (result_ofFault_ne _ _ _)
      · next w' hwrite => exact ⟨w', hwrite, rfl⟩

/-- Where the settings file has the initial content, it makes no difference. -/
theorem unaffected_of_initial {w : Workspace}
    (h : w.entry (homeFile w) = .ok (.file (.text initialText))) : Unaffected w := by
  rcases exists_load_of_initial h with ⟨l, hload, hpath, hneutral⟩
  refine ⟨fun w₀ hnone name api lang line hline => ?_,
    fun name api lang line hline normal hname => ?_, ?_⟩
  · rcases exists_load_of_findFile_eq_none hnone with ⟨l₀, hload₀, hneutral₀⟩
    rw [run_new (request_of_asksToPrint hline w), run_new (request_of_asksToPrint hline w₀),
      run_of_neutral hload hneutral rfl rfl, run_of_neutral hload₀ hneutral₀ rfl rfl]
    exact seenAlike_bare
  · rw [run_new (request_of_asksToPrint hline w), run_of_neutral hload hneutral rfl rfl,
      NewRequest.bare, NewRequest.component?, hname]
    exact ⟨rfl, rfl⟩
  · have horigin : l.origin = (homeFile w).text := by
      rw [Loaded.origin, hpath]
    rw [← horigin]
    exact runListing_of_neutral hload hneutral

/-- A settings file that has just been initialized makes no difference, whatever there
    was before. -/
theorem unaffected_of_initSettings {w : Workspace} {args : List String} {force : Bool}
    (hrequest : Request.ofArguments w args = .ok (.initSettings force))
    (hresult : (run w args).result = .ok 0) :
    (run w args).workspace.home = w.home ∧ Unaffected (run w args).workspace := by
  have hrun : run w args = runInit w force := by
    rw [run, hrequest]
    rfl
  rw [hrun] at hresult ⊢
  rcases exists_write_of_runInit hresult with ⟨w', hwrite, hworkspace⟩
  rcases Workspace.writesAt_of_writeFile hwrite with ⟨l, hwrites⟩
  -- The path leads where it led before the file was written, and that is where the
  -- file is.
  rw [hworkspace]
  refine ⟨hwrites.home_eq, unaffected_of_initial ?_⟩
  have hpath : homeFile w' = homeFile w := by
    rw [homeFile, homeFile, hwrites.home_eq]
  rw [hpath]
  exact (w'.entry_eq_ok_iff).mpr ⟨l, hwrites.resolve_eq, hwrites.get?_self⟩

/-- What the settings file held before makes no difference either. -/
theorem unaffected_strayed :
    Request.ofArguments strayed ["settings", "--init", "--force"] = .ok (.initSettings true)
      ∧ (run strayed ["settings", "--init", "--force"]).result = .ok 0
      ∧ findFile Workspace.empty none = none
      ∧ AsksToPrint "card" .options .js
        ["new", "card", "--api", "options", "--lang", "js", "--stdout"]
      ∧ normalizeName "card" = .ok "Card"
      ∧ SeenAlike
        (run (run strayed ["settings", "--init", "--force"]).workspace
          ["new", "card", "--api", "options", "--lang", "js", "--stdout"])
        (run Workspace.empty ["new", "card", "--api", "options", "--lang", "js", "--stdout"])
      ∧ (run (run strayed ["settings", "--init", "--force"]).workspace
          ["new", "card", "--api", "options", "--lang", "js", "--stdout"]).stdout
        = Component.render { name := "Card", api := .options, lang := .js }
          { typed := false, name := "Card" } := by
  have hrequest : Request.ofArguments strayed ["settings", "--init", "--force"]
      = .ok (.initSettings true) := rfl
  have hresult : (run strayed ["settings", "--init", "--force"]).result = .ok 0 := rfl
  have hnone : findFile Workspace.empty none = none := rfl
  have hline : AsksToPrint "card" .options .js
      ["new", "card", "--api", "options", "--lang", "js", "--stdout"] := .name_first (by decide)
  have hname : normalizeName "card" = .ok "Card" := by decide
  have hunaffected := (unaffected_of_initSettings hrequest hresult).2
  exact ⟨hrequest, hresult, hnone, hline, hname, hunaffected.prints_alike _ hnone _ _ _ _ hline,
    (hunaffected.prints _ _ _ _ hline _ hname).2⟩

end Scaffold.Command
