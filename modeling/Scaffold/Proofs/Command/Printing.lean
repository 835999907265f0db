import Mathlib
import Scaffold.Proofs.Command.Protection

/-!
# Printing Instead of Writing

What is printed of a component, compared with what is written to its file.

A command line that asks for a component can ask as well for printing, or for
force, by one more flag. The flag changes nothing else about the request
(`read_withFlag`), so both command lines make the same component of the same
settings. What is printed is what would have been written, after the warnings
that reading the settings gives. They go to the same output, so the two texts
are the same only where the settings hold nothing unknown. An unknown setting
is enough to tell them apart, as `warned_before_content` shows.

## Main definitions

* `NewRequest.withFlag`: A request with one more flag.
* `Companions`: Two command lines, one that prints a component and one that
  writes it.
* `Shown`: What is printed of a component, compared with its content.

## Theorems

* `read_new_iff`: What it takes for arguments to ask for a component.
* `read_withFlag`: A flag in front changes nothing else.
* `companions_of_read`: A command line with the one flag or the other.
* `messageText_eq_empty_iff`: Only no messages leave no text.
* `shown_of_creates`: What is printed is what is written, after the warnings.
* `printed_as_written`: The same, of command lines.
* `warned_before_content`: What is printed is not what is written.
-/

namespace Scaffold.Command

open Settings Terminal

namespace Arguments

variable {as : Arguments} {name other value : String}

theorem value?_withOption (hne : other ≠ name) :
    (as.withOption name value).value? other = as.value? other := by
  have hfirst : ([(name, value)] : List (String × String)).lookup other = none := by
    rw [List.lookup_cons, beq_false_of_ne hne, List.lookup_nil]
  rw [value?, withOption, List.reverse_cons, List.lookup_append, hfirst, Option.or_none, value?]

theorem has_withOption (hne : name ≠ other) :
    (as.withOption name value).has other = as.has other := by
  rw [has, withOption, List.any_cons, beq_false_of_ne hne, Bool.false_or, has]

theorem mem_names_withOption :
    other ∈ (as.withOption name value).names ↔ other = name ∨ other ∈ as.names := by
  rw [names, withOption, List.mem_eraseDups, List.map_cons, List.mem_cons, names,
    List.mem_eraseDups]

end Arguments

namespace NewRequest

/-- The flags of a request for a component. -/
def flags : List String := ["--stdout", "--force"]

/-- A request with one more flag. -/
def withFlag (flag : String) (r : NewRequest) : NewRequest :=
  { r with
    toStdout := flag == "--stdout" || r.toStdout
    force := flag == "--force" || r.force }

/-- The same request, with the component printed. -/
def printing (r : NewRequest) : NewRequest := { r with toStdout := true }

/-- The same request, with the component written, whatever is there. -/
def writing (r : NewRequest) : NewRequest := { r with toStdout := false, force := true }

end NewRequest

section Flags

variable {w : Workspace} {flag : String} {as : Arguments}

/-- A flag has no value, and so nothing can be wrong with it. -/
theorem optionFault?_flag (hflag : flag ∈ NewRequest.flags) (value : String) :
    optionFault? w flag value = none := by
  rw [NewRequest.flags, List.mem_pair] at hflag
  rcases hflag with rfl | rfl <;> rfl

/-- A flag brings no fault to arguments that have none. -/
theorem argumentFault?_withFlag (hflag : flag ∈ NewRequest.flags)
    (h : argumentFault? w .new as = none) :
    argumentFault? w .new (as.withOption flag "") = none := by
  unfold argumentFault? at h ⊢
  simp only [Option.orElse_eq_orElse, Option.orElse_eq_or, Option.or_eq_none_iff] at h ⊢
  rcases h with ⟨hoptions, hothers⟩
  -- Flags have no faults of their own, and other options keep their values.
  refine ⟨List.findSome?_eq_none_iff.mpr fun other hother => ?_, hothers⟩
  by_cases heq : other = flag
  · rw [heq]
    exact optionFault?_flag hflag _
  · rw [Arguments.value?_withOption heq]
    exact List.findSome?_eq_none_iff.mp hoptions other
      ((Arguments.mem_names_withOption.mp hother).resolve_left heq)

/-- A flag changes what is asked for only in what the flag says. -/
theorem request_withFlag {r : NewRequest} (hflag : flag ∈ NewRequest.flags)
    (h : Verb.new.request as = .new r) :
    Verb.new.request (as.withOption flag "") = .new (r.withFlag flag) := by
  rw [NewRequest.flags, List.mem_pair] at hflag
  -- All that a request takes from its values is four options, and none of them is a
  -- flag.
  have hvalue : ∀ other ∈ ["--api", "--lang", "--config", "--out"],
      (as.withOption flag "").value? other = as.value? other := by
    intro other hother
    refine Arguments.value?_withOption fun heq => ?_
    rw [heq] at hother
    rcases hflag with rfl | rfl <;> exact absurd hother (by decide)
  rw [← Request.new.inj h, Verb.request, hvalue "--api" (by decide), hvalue "--lang" (by decide),
    hvalue "--config" (by decide), hvalue "--out" (by decide)]
  rfl

theorem arguments_withFlag {rest : List String} (hflag : flag ∈ NewRequest.flags) :
    Arguments.read Verb.new.options true (flag :: rest)
      = (Arguments.read Verb.new.options true rest).map (Arguments.withOption flag "") := by
  rw [NewRequest.flags, List.mem_pair] at hflag
  rcases hflag with rfl | rfl <;> rfl

/-- What it takes for arguments to ask for a component. -/
theorem read_new_iff {rest : List String} {r : NewRequest} :
    Verb.new.read w rest = .ok (.new r)
      ↔ ∃ as, Arguments.read Verb.new.options true rest = .ok as ∧ as.has "--help" = false
        ∧ argumentFault? w .new as = none ∧ Verb.new.request as = .new r := by
  unfold Verb.read
  cases Arguments.read Verb.new.options true rest with
  | error refusal => exact ⟨nofun, nofun⟩
  | ok as =>
      simp only [Except.ok.injEq, exists_eq_left']
      -- Help comes before everything else, and then the faults are looked for.
      cases as.has "--help" with
      | true => exact ⟨fun h => absurd (Except.ok.inj h) nofun, fun h => absurd h.1 nofun⟩
      | false =>
          cases argumentFault? w .new as with
          | some fault => exact ⟨nofun, fun h => absurd h.2.1 nofun⟩
          | none => exact ⟨fun h => ⟨rfl, rfl, Except.ok.inj h⟩, fun h => congrArg Except.ok h.2.2⟩

/-- A flag in front changes nothing else about a request. -/
theorem read_withFlag {rest : List String} {r : NewRequest} (hflag : flag ∈ NewRequest.flags)
    (h : Verb.new.read w rest = .ok (.new r)) :
    Verb.new.read w (flag :: rest) = .ok (.new (r.withFlag flag)) := by
  rcases read_new_iff.mp h with ⟨as, hread, hhelp, hfault, hrequest⟩
  have hnohelp : flag ≠ "--help" := by
    intro heq
    rw [heq] at hflag
    exact absurd hflag (by decide)
  refine read_new_iff.mpr ⟨as.withOption flag "", ?_, ?_, argumentFault?_withFlag hflag hfault,
    request_withFlag hflag hrequest⟩
  · rw [arguments_withFlag hflag, hread]
    rfl
  · rw [Arguments.has_withOption hnohelp, hhelp]

end Flags

/-- Two command lines for the same component: one to have it printed, and one to
    have it written, whatever is there. -/
structure Companions (w : Workspace) (r : NewRequest) (printing writing : List String) :
    Prop where
  prints : Request.ofArguments w printing = .ok (.new r.printing)
  writes : Request.ofArguments w writing = .ok (.new r.writing)

/-- A command line for a component, with the one flag or the other. -/
theorem companions_of_read {w : Workspace} {r : NewRequest} {rest : List String}
    (hread : Request.ofArguments w ("new" :: rest) = .ok (.new r)) (hstdout : r.toStdout = false) :
    Companions w r ("new" :: "--stdout" :: rest) ("new" :: "--force" :: rest) := by
  have hprint := read_withFlag (by decide : "--stdout" ∈ NewRequest.flags) hread
  have hwrite := read_withFlag (by decide : "--force" ∈ NewRequest.flags) hread
  -- To force is the same as to write whatever is there, since printing was not asked
  -- for.
  have hforced : r.withFlag "--force" = r.writing := by
    rw [NewRequest.withFlag, hstdout]
    rfl
  rw [hforced] at hwrite
  exact ⟨hprint, hwrite⟩

/-- No message is empty, so nothing is printed only where there are none. -/
theorem messageText_eq_empty_iff {ms : List Message} : messageText ms = "" ↔ ms = [] := by
  refine ⟨fun h => ?_, fun h => h ▸ rfl⟩
  cases ms with
  | nil => rfl
  | cons m ms =>
      rw [messageText, List.map_cons, String.join_cons, String.append_eq_empty_iff] at h
      cases m <;> exact absurd (String.append_eq_empty_iff.mp h.1).2 (by decide)

/-- What is printed of a component, compared with its content. -/
structure Shown (w : Workspace) (r : NewRequest) (printed : Outcome) (content : String)
    (l : Loaded) : Prop where
  settings : load w r.config? = .ok l
  result : printed.result = .ok 0
  /-- The warnings go to the same output, in front of the content. -/
  stdout : printed.stdout = messageText l.warnings ++ content
  /-- So only settings that are all known leave the content alone. -/
  same_iff : printed.stdout = content ↔ l.settings.unknownKeys = []

/-- What is printed is what is written, after the warnings. -/
theorem shown_of_creates {r : NewRequest} {w w' : Workspace} {c : Component}
    {content : String} {l : Location} (h : Creates r.writing w w' c content l) :
    ∃ loaded, Shown w r (r.printing.run w) content loaded := by
  have hname : r.writing.component? = .ok c := component?_of_creates h
  rcases load_of_generateIn h.generated with ⟨loaded, hload, hwarnings⟩
  -- Printing generates the same content, and says the same warnings.
  have hrun : r.printing.run w
      = { workspace := w, stdout := messageText loaded.warnings ++ content } := by
    have hresult : (r.printing.generate w c).result = .ok content := h.generated
    have hmessages : (r.printing.generate w c).warnings = loaded.warnings := hwarnings
    unfold NewRequest.run
    rw [show r.printing.component? = .ok c from hname]
    simp only [hresult, hmessages]
    exact if_pos rfl
  refine ⟨loaded, hload, ?_, ?_, ?_⟩
  · rw [hrun]
  · rw [hrun]
  · rw [hrun, String.append_eq_right_iff, messageText_eq_empty_iff]
    exact warnings_eq_nil_iff hload

/-- What is printed of a component, and what is written to its file: the content
    of the file is printed after the warnings, and alone if there is nothing
    unknown in the settings. A flag is all that it takes to ask for the one or
    for the other. -/
theorem printed_as_written (w : Workspace) :
    (∀ rest r, Request.ofArguments w ("new" :: rest) = .ok (.new r) → r.toStdout = false →
        Companions w r ("new" :: "--stdout" :: rest) ("new" :: "--force" :: rest))
      ∧ ∀ r printing writing, Companions w r printing writing →
        (run w writing).result = .ok 0 →
        ∃ c content l loaded, Creates r.writing w (run w writing).workspace c content l
          ∧ Shown w r (run w printing) content loaded := by
  refine ⟨fun rest r => companions_of_read, fun r printing writing h hresult => ?_⟩
  rw [run_new h.writes] at hresult ⊢
  rw [run_new h.prints]
  rcases creates_of_run rfl hresult with ⟨c, content, l, hcreates⟩
  rcases shown_of_creates hcreates with ⟨loaded, hshown⟩
  exact ⟨c, content, l, loaded, hcreates, hshown⟩

/-- Without a settings file, what is printed of a component is what its file holds. -/
theorem printed_as_written_keepsake :
    ∃ l content,
      (run keepsake ["new", "--force", "b"]).workspace.resolve { parts := ["B.vue"] } = .ok l
        ∧ (run keepsake ["new", "--force", "b"]).workspace.tree.get? l
          = some (.file (.text content))
        ∧ (run keepsake ["new", "--stdout", "b"]).stdout = content := by
  have hread : Request.ofArguments keepsake ["new", "b"] = .ok (.new { name := "b" }) := rfl
  rcases printed_as_written keepsake with ⟨hflags, hprinted⟩
  rcases hprinted _ _ _ (hflags ["b"] _ hread rfl) rfl with
    ⟨c, content, l, loaded, hcreates, hshown⟩
  have hloaded : load keepsake none = .ok { settings := .empty, path? := none } := rfl
  have hknown : loaded.settings.unknownKeys = [] := by
    rw [← Except.ok.inj (hloaded.symm.trans hshown.settings)]
    exact List.mergeSort_nil
  exact ⟨l, content, leads_of_creates hcreates rfl, hcreates.holds, hshown.same_iff.mpr hknown⟩

/-- A settings file with an entry that nothing reads. -/
def strayText : String := "option:\n  unknownThing: true\n"

/-- What the entry comes to. -/
def strayEntries : Mapping := [(.str "option", .map [(.str "unknownThing", .bool true)])]

/-- A workspace with that settings file. -/
def strayed : Workspace := (Workspace.empty.writeFile { parts := [fileName] } (.text strayText)).1

theorem parse_strayText : Yaml.parse strayText.toList = .ok (.map strayEntries) := by
  cbv

/-- The settings file is loaded, although there is something in it that nothing reads. -/
theorem load_strayed :
    load strayed none
      = .ok { settings := flatten strayEntries
              path? := some { anchor := .root, parts := [fileName] } } := by
  have hfind : findFile strayed none = some { anchor := .root, parts := [fileName] } := rfl
  have hentry : strayed.entry { anchor := .root, parts := [fileName] }
      = .ok (.file (.text strayText)) := rfl
  -- The document is not evaluated again.
  exact load_of_readDocument hfind (readDocument_of_parse hentry parse_strayText) rfl

/-- With such a settings file, what is printed is not what is written. -/
theorem warned_before_content :
    Request.ofArguments strayed ["new", "A"] = .ok (.new { name := "A" })
      ∧ (run strayed ["new", "--stdout", "A"]).result = .ok 0
      ∧ (run strayed ["new", "--force", "A"]).result = .ok 0
      ∧ ∃ l content,
        (run strayed ["new", "--force", "A"]).workspace.resolve { parts := ["A.vue"] } = .ok l
          ∧ (run strayed ["new", "--force", "A"]).workspace.tree.get? l
            = some (.file (.text content))
          ∧ (run strayed ["new", "--stdout", "A"]).stdout ≠ content := by
  have hread : Request.ofArguments strayed ["new", "A"] = .ok (.new { name := "A" }) := rfl
  -- The content is never computed: it is enough that there is one.
  have hresult : (NewRequest.run (NewRequest.writing { name := "A" }) strayed).result = .ok 0 := by
    unfold NewRequest.run NewRequest.generate Component.generateIn
    simp only [NewRequest.writing, load_strayed]
    rfl
  have hcompanions := companions_of_read hread rfl
  rw [run_new hcompanions.prints, run_new hcompanions.writes]
  rcases creates_of_run rfl hresult with ⟨c, content, l, hcreates⟩
  rcases shown_of_creates hcreates with ⟨loaded, hshown⟩
  refine ⟨hread, hshown.result, hresult, l, content, leads_of_creates hcreates rfl,
    hcreates.holds, fun hsame => ?_⟩
  have hknown := hshown.same_iff.mp hsame
  rw [← Except.ok.inj (load_strayed.symm.trans hshown.settings)] at hknown
  -- The list is sorted, so all that can be told at once is how long it is.
  have hlength := congrArg List.length hknown
  rw [FlatSettings.unknownKeys, List.length_mergeSort] at hlength
  exact absurd hlength (by decide)

end Scaffold.Command
