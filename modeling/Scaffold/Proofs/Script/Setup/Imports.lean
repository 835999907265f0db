import Scaffold.Proofs.Script.Setup.Outline

/-!
# Imports of Setup Scripts

The import line names exactly the functions that the rest of the script calls.

The line and the sections are generated apart from each other, each from the
switches. Here they are compared in the text: the first line is read back as
the list of names between its braces, and the calls are looked for in
everything below it. The only calls of importable functions are the openings
of the sections that call them, and each of these stands there once. A name
that is a part of another name, and the handle of the watcher, are no calls.

## Main definitions

* `callers`: The sections that call an imported function.
* `Section.callee`: The function that such a section calls.
* `callOf`: How a call of a function begins.
* `firstLine`, `belowFirstLine`: A text, cut at the end of its first line.
* `macros`: The functions that are known without an import.

## Theorems

* `toList_script`: A setup script is the import line and the other sections.
* `occurrences_callOf`: The calls in the other sections, in order.
* `importedNames_eq_filter`: The imported names are those that are called.
* `imports_exact`: What the import line says about the rest of the script.
-/

namespace Scaffold.Script.Setup

open Text

/-- The sections that call an imported function. -/
def callers : List Section :=
  [.computed, .watch] ++ Hook.inSetup.map .hook

/-- The sections before them, which use macros alone. -/
def macroSections : List Section :=
  [.defineOptions, .props, .emits, .defineModel, .defineSlots, .defineExpose]

/-- The function that a section calls, if it calls an imported one. -/
def Section.callee : Section → String
  | computed => "computed"
  | watch => "watch"
  | hook h => h.setupName?.getD ""
  | _ => ""

/-- How a call of a function begins. -/
def callOf (name : String) : String := name ++ "("

/-- A text up to the end of its first line. -/
def firstLine (s : List Char) : List Char := s.takeWhile (· != '\n')

/-- A text from the end of its first line on. -/
def belowFirstLine (s : List Char) : List Char := s.dropWhile (· != '\n')

/-- The functions that are known without an import. -/
def macros : List String :=
  ["defineOptions", "defineProps", "withDefaults", "defineEmits", "defineModel", "defineSlots",
    "defineExpose"]

/-- The opening of a section that calls a function. -/
def opensCaller : Phrase → Bool
  | .opens s => callers.contains s
  | _ => false

theorem laterSections_eq : laterSections = macroSections ++ callers := rfl

/-- The names that can be imported are those of the functions that sections call, in the same
    order. -/
theorem importableNames_eq_map : importableNames = callers.map Section.callee := rfl

theorem opening_eq_callOf {s : Section} (hs : s ∈ callers) : s.opening = callOf s.callee := by
  simp only [callers, List.mem_append, List.mem_cons, List.not_mem_nil, or_false,
    List.mem_map] at hs
  -- The two functions have literal names, while that of a hook is looked up on both sides.
  rcases hs with (rfl | rfl) | ⟨h, _, rfl⟩
  · decide
  · decide
  · rfl

/-- The text of the sections after the imports. -/
def laterText (ctx : Context) : List Char :=
  (render ctx.indentation (laterSections.flatMap (Section.lines ctx (.setup ctx)))).toList

/-- A setup script is the import line, an empty line and the other sections. The import section is
    never switched off, so there is always a first line to read. -/
theorem toList_script (ctx : Context) :
    (script ctx).toList = (importLine ctx).toList ++ '\n' :: '\n' :: laterText ctx := by
  have himports : Section.imports.lines ctx (.setup ctx) = [⟨0, importLine ctx⟩, Line.blank] :=
    rfl
  rw [script_eq_render, sections_eq, List.flatMap_cons, himports, List.cons_append,
    List.singleton_append, toList_render_cons, toList_render_cons, Line.blank]
  simp only [Int.ofNat_zero, Indentation.text_zero]
  rfl

theorem newline_notMem_importLine (ctx : Context) : '\n' ∉ (importLine ctx).toList :=
  fun h => absurd (mem_importCharacters h) (by decide +kernel)

theorem ne_newline_of_mem_importLine {ctx : Context} {c : Char}
    (h : c ∈ (importLine ctx).toList) : (c != '\n') = true := by
  rw [bne_iff_ne]
  rintro rfl
  exact newline_notMem_importLine ctx h

theorem firstLine_script (ctx : Context) :
    firstLine (script ctx).toList = (importLine ctx).toList := by
  rw [firstLine, toList_script,
    List.takeWhile_append_of_pos fun c hc => ne_newline_of_mem_importLine hc,
    List.takeWhile_cons_of_neg (by decide), List.append_nil]

theorem belowFirstLine_script (ctx : Context) :
    belowFirstLine (script ctx).toList = '\n' :: '\n' :: laterText ctx := by
  rw [belowFirstLine, toList_script,
    List.dropWhile_append_of_pos fun c hc => ne_newline_of_mem_importLine hc,
    List.dropWhile_cons_of_neg (by decide)]

/-- What is looked for within lines is not in the line feeds, so it is the same to look below the
    first line as to look into the sections. -/
theorem occurrences_belowFirstLine {α : Type} {spell : α → String} {phrases : List α}
    (h : ∀ a ∈ phrases, isInline (spell a).toList) (ctx : Context) :
    occurrences spell phrases (belowFirstLine (script ctx).toList)
      = occurrences spell phrases (laterText ctx) := by
  rw [belowFirstLine_script, ← List.nil_append ('\n' :: _), occurrences_append_newline h,
    ← List.nil_append ('\n' :: _), occurrences_append_newline h]
  rfl

/-- A section that calls a function opens with the call, and calls no other. -/
theorem filter_opensCaller_outline {s : Section} (hs : s ∈ callers) (ctx : Context)
    (policy : BindingPolicy) :
    (s.outline ctx policy).filter opensCaller = [.opens s] := by
  have hopens : opensCaller (.opens s) = true := List.contains_iff_mem.mpr hs
  -- The other phrases of a section are none of those that open one, under any of the switches.
  have hvalue : (valuePhrases ctx policy).filter opensCaller = [] := by
    unfold valuePhrases
    cases policy.pairsPropEmit <;> cases ctx.isOn .emits <;> rfl
  have hsource : (sourcePhrases ctx policy).filter opensCaller = [] := by
    unfold sourcePhrases
    cases policy.definesModel <;> cases policy.pairsPropEmit <;> cases ctx.isOn .props <;> rfl
  cases s with
  | computed => rw [Section.outline, List.filter_cons_of_pos hopens, hvalue]
  | watch =>
      rw [Section.outline, List.filter_append, hsource, List.append_nil]
      rfl
  | hook h =>
      rw [Section.outline, List.filter_cons_of_pos hopens]
      split <;> rfl
  | _ => exact absurd hs (by decide)

/-- A section with macros opens no call, and has no phrase of a calling section. -/
theorem filter_opensCaller_macroSections {s : Section} (hs : s ∈ macroSections)
    (ctx : Context) (policy : BindingPolicy) :
    (s.outline ctx policy).filter opensCaller = [] := by
  have hbound : (boundPhrases policy).filter opensCaller = [] := by
    unfold boundPhrases
    cases policy.pairsPropEmit <;> rfl
  cases s with
  | defineOptions | defineModel | defineSlots | defineExpose => rfl
  | props =>
      rw [Section.outline]
      split
      · simp only [List.filter_append, hbound]
        rfl
      · simp only [List.filter_append, hbound]
        rfl
  | emits => rw [Section.outline, List.filter_cons_of_neg (by decide), hbound]
  | imports | computed | watch => exact absurd hs (by decide)
  | hook h => exact absurd hs (by simp [macroSections])

/-- Of the openings in the sections after the imports, those that call a function are the ones of
    the calling sections that are on, in order. -/
theorem filter_opensCaller_laterText (ctx : Context) :
    (occurrences Phrase.text Phrase.all (laterText ctx)).filter opensCaller
      = (callers.filter (Section.isOn ctx (.setup ctx))).map .opens := by
  -- The sections with macros come first and open no calling section.
  have hmacros : (macroSections.filter (Section.isOn ctx (.setup ctx))).flatMap
      (fun s => (s.outline ctx (.setup ctx)).filter opensCaller) = [] :=
    List.flatMap_eq_nil_iff.mpr fun s hs =>
      filter_opensCaller_macroSections (List.mem_of_mem_filter hs) ctx (.setup ctx)
  rw [laterText, occurrences_render_sections _ _ _ laterSections_subset,
    List.filter_flatMap, laterSections_eq, List.filter_append, List.flatMap_append, hmacros,
    List.nil_append, List.map_eq_flatMap]
  exact List.flatMap_congr fun s hs =>
    filter_opensCaller_outline (List.mem_of_mem_filter hs) ctx (.setup ctx)

/-- The functions that are called below the first line, in order. -/
theorem occurrences_callOf (ctx : Context) :
    occurrences callOf importableNames (belowFirstLine (script ctx).toList)
      = (callers.filter (Section.isOn ctx (.setup ctx))).map Section.callee := by
  -- Looking for calls is looking for those phrases that open a calling section.
  have hcallers : Phrase.all.filter opensCaller = callers.map .opens := by decide +kernel
  have hinline : ∀ s ∈ callers, isInline (Phrase.opens s).text.toList := by
    intro s hs
    refine Phrase.isInline_text (List.mem_of_mem_filter (p := opensCaller) ?_)
    rw [hcallers]
    exact List.mem_map_of_mem hs
  have hopens := filter_opensCaller_laterText ctx
  rw [← occurrences_filter, hcallers, occurrences_map] at hopens
  have hinjective : Function.Injective Phrase.opens := fun _ _ h => Phrase.opens.inj h
  have hspell : occurrences (fun s : Section => callOf s.callee) callers
        (belowFirstLine (script ctx).toList)
      = occurrences (fun s => (Phrase.opens s).text) callers
        (belowFirstLine (script ctx).toList) :=
    occurrences_congr (fun s hs => (opening_eq_callOf hs).symm) _
  -- Two sections never share an opening, so the list of phrases determines that of sections.
  rw [importableNames_eq_map, occurrences_map, hspell, occurrences_belowFirstLine hinline,
    List.map_injective_iff.mpr hinjective hopens]

/-- The imported names are the functions of the calling sections that are on. Line and sections ask
    for the same switches, but each in a way of its own. -/
theorem importedNames_eq_map (ctx : Context) :
    importedNames ctx = (callers.filter (Section.isOn ctx (.setup ctx))).map Section.callee := by
  -- A hook is imported by its name, if it has one, and its section is on under the same condition.
  have hhooks : (Hook.inSetup.filter ctx.isHookOn).filterMap Hook.setupName?
      = ((Hook.inSetup.map .hook).filter (Section.isOn ctx (.setup ctx))).map Section.callee := by
    rw [List.filter_map, List.map_map]
    have hon : Hook.inSetup.filter (Section.isOn ctx (.setup ctx) ∘ .hook)
        = Hook.inSetup.filter ctx.isHookOn := by
      refine List.filter_congr fun h hh => ?_
      rw [Function.comp_apply, Section.isOn, (List.mem_filter.mp hh).2, Bool.true_and]
    rw [hon, List.filterMap_eq_map_iff_forall_eq_some]
    intro h hh
    have hsome := (List.mem_filter.mp (List.mem_of_mem_filter hh)).2
    rcases Option.isSome_iff_exists.mp hsome with ⟨n, hn⟩
    rw [Function.comp_apply, Section.callee, hn]
    rfl
  -- For the two functions the line asks for the switches one by one.
  have hfunctions : (if ctx.isOn .computed then ["computed"] else [])
        ++ (if ctx.isOn .watch then ["watch"] else [])
      = ([Section.computed, .watch].filter (Section.isOn ctx (.setup ctx))).map
        Section.callee := by
    rw [List.filter_cons, List.filter_cons, List.filter_nil, Section.isOn, Section.isOn]
    cases ctx.isOn .computed <;> cases ctx.isOn .watch <;> rfl
  rw [importedNames, callers, List.filter_append, List.map_append, hfunctions, hhooks]

/-- A section's opening is below the first line where the section is on. -/
theorem opening_infix_belowFirstLine {s : Section} (hs : s ∈ laterSections) (ctx : Context) :
    s.opening.toList <:+: belowFirstLine (script ctx).toList ↔ s.isOn ctx (.setup ctx) := by
  have hall : .opens s ∈ Phrase.all := List.mem_append_right _ (List.mem_map_of_mem hs)
  have hmem : .opens s ∈ occurrences Phrase.text Phrase.all (belowFirstLine (script ctx).toList)
      ↔ .opens s ∈ Phrase.all ∧ s.opening.toList <:+: belowFirstLine (script ctx).toList :=
    mem_occurrences (ne_nil_of_isInline (Phrase.isInline_text hall)) _
  rw [occurrences_belowFirstLine fun p hp => Phrase.isInline_text hp, laterText,
    opens_mem_occurrences_render _ _ _ laterSections_subset hs] at hmem
  simp only [hs, hall, true_and] at hmem
  exact hmem.symm

/-- The imported names are those that are called below the first line. -/
theorem importedNames_eq_filter (ctx : Context) :
    importedNames ctx = importableNames.filter fun n =>
      (callOf n).toList <:+: belowFirstLine (script ctx).toList := by
  rw [importedNames_eq_map, importableNames_eq_map, List.filter_map]
  refine congrArg (List.map Section.callee) (List.filter_congr fun s hs => ?_)
  have hlater : s ∈ laterSections := List.mem_append_right macroSections hs
  rw [Function.comp_apply, Bool.eq_iff_iff, decide_eq_true_iff, ← opening_eq_callOf hs]
  exact (opening_infix_belowFirstLine hlater ctx).symm

theorem nodup_importedNames (ctx : Context) : (importedNames ctx).Nodup :=
  (importedNames_sublist ctx).nodup (by decide)

/-- What the import line says about the rest of the script. It imports the
    importable names that are called there, in the canonical order; each of
    them is called once, in the same order; and none of them is a macro. -/
theorem imports_exact (ctx : Context) :
    ∃ names, readImport? (firstLine (script ctx).toList) = some names
      ∧ names = importableNames.filter (fun n =>
          (callOf n).toList <:+: belowFirstLine (script ctx).toList)
      ∧ occurrences callOf importableNames (belowFirstLine (script ctx).toList) = names
      ∧ (∀ n ∈ names,
          (occurrences callOf importableNames (belowFirstLine (script ctx).toList)).count n = 1)
      ∧ ∀ m ∈ macros, m ∉ names := by
  have hcalls : occurrences callOf importableNames (belowFirstLine (script ctx).toList)
      = importedNames ctx := by
    rw [occurrences_callOf, importedNames_eq_map]
  refine ⟨importedNames ctx, ?_, importedNames_eq_filter ctx, hcalls, ?_, ?_⟩
  · rw [firstLine_script, readImport?_importLine]
  · intro n hn
    rw [hcalls]
    rw [(nodup_importedNames ctx).count, if_pos hn]
  · intro m hm hmem
    have hnone : ∀ m ∈ macros, m ∉ importableNames := by decide
    exact hnone m hm ((importedNames_sublist ctx).subset hmem)

end Scaffold.Script.Setup
