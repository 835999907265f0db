import Scaffold.Proofs.Script.Marker
import Scaffold.Proofs.Script.Setup.Imports

/-!
# Layout of Setup Scripts

Which sections a reader finds in a setup script, and in which order.

Every section has a mark, a phrase or the beginning of a line by which it is
told from the others. A mark stands in a script once if its section is
switched on and not at all if it is not; those that are there follow each
other in the canonical order. This holds of the text as it is, at every
indentation, so no line of one section can be taken for the mark of another.

## Main definitions

* `canonical`: The sections in the order in which a reader expects them.
* `Section.gate`: Whether a section is switched on.
* `Section.mark`: The mark of a section.

## Theorems

* `marked_body`: The text of a section has its own mark and no other.
* `sections_inOrder_script`: The sections of a script are in order.
-/

namespace Scaffold.Script.Setup

open Text

/-- The sections in the order in which a reader expects them. -/
def canonical : List Section :=
  [.imports, .defineOptions, .props, .emits, .defineModel, .defineSlots, .defineExpose,
    .computed, .watch, .hook .beforeMount, .hook .mounted, .hook .beforeUpdate,
    .hook .updated, .hook .activated, .hook .deactivated, .hook .beforeUnmount,
    .hook .unmounted, .hook .errorCaptured, .hook .renderTracked, .hook .renderTriggered]

/-- Whether a section is switched on: imports always are, the model macro with
    two switches, a hook with its own and the master switch, and every other
    section with its own. -/
def Section.gate (ctx : Context) : Section → Bool
  | imports => true
  | defineOptions => ctx.isOn .defineOptions
  | props => ctx.isOn .props
  | emits => ctx.isOn .emits
  | defineModel => ctx.isOn .vModelTemplate && ctx.isOn .useDefineModel
  | defineSlots => ctx.isOn .defineSlots
  | defineExpose => ctx.isOn .defineExpose
  | computed => ctx.isOn .computed
  | watch => ctx.isOn .watch
  | hook h => ctx.isOn .lifecycleHooks && ctx.isOn (.hook h)

/-- The mark of a section. That of a hook is the beginning of a line. -/
def Section.mark : Section → String
  | imports => "import \x7b"
  | defineOptions => "defineOptions(\x7b"
  | props => "defineProps"
  | emits => "const emit = defineEmits("
  | defineModel => "const model = defineModel"
  | defineSlots => "const slots = defineSlots"
  | defineExpose => "defineExpose(\x7b"
  | computed => " = computed("
  | watch => "const stopWatch = watch("
  | hook h => "\n" ++ h.setupName?.getD "" ++ "(() =>"

/-- The mark as what a reader looks for: hooks stand at the margin. -/
def Section.marker : Section → Marker
  | hook h => { level? := some 0, head := h.setupName?.getD "" ++ "(() =>" }
  | s => { head := s.mark }

/-- The order that a reader expects is the one in which sections are generated. -/
theorem canonical_eq : canonical = .imports :: laterSections := by decide

/-- What a reader looks for is the mark. The line feed in front of a hook comes from its place at
    the margin. -/
theorem text_marker (ind : Indentation) (s : Section) : s.marker.text ind = s.mark := by
  cases s with
  | hook h =>
      rw [Section.marker, Marker.text, Section.mark]
      simp only [Int.ofNat_zero, Indentation.text_zero, String.append_empty, String.append_assoc]
  | _ => rfl

/-- Whether a section is generated is what its switches say. The generator also asks whether a hook
    has a function, and every hook with a section has one. -/
theorem isOn_eq_gate {s : Section} (hs : s ∈ canonical) (ctx : Context) :
    s.isOn ctx (.setup ctx) = s.gate ctx := by
  cases s with
  | hook h =>
      have hsome : h.setupName?.isSome = true := by
        rw [canonical_eq, ← sections_eq, hook_mem_sections] at hs
        exact (List.mem_filter.mp hs).2
      rw [Section.isOn, hsome, Bool.true_and]
      rfl
  | _ => rfl

/-- The catalogue of marks with literals only. Computations go through this form, since the names of
    hooks are looked up otherwise. -/
theorem table_eq : tableOf Section.marker canonical =
    [(.imports, none, "import \x7b".toList),
      (.defineOptions, none, "defineOptions(\x7b".toList),
      (.props, none, "defineProps".toList),
      (.emits, none, "const emit = defineEmits(".toList),
      (.defineModel, none, "const model = defineModel".toList),
      (.defineSlots, none, "const slots = defineSlots".toList),
      (.defineExpose, none, "defineExpose(\x7b".toList),
      (.computed, none, " = computed(".toList),
      (.watch, none, "const stopWatch = watch(".toList),
      (.hook .beforeMount, some 0, ("onBeforeMount" ++ "(() =>").toList),
      (.hook .mounted, some 0, ("onMounted" ++ "(() =>").toList),
      (.hook .beforeUpdate, some 0, ("onBeforeUpdate" ++ "(() =>").toList),
      (.hook .updated, some 0, ("onUpdated" ++ "(() =>").toList),
      (.hook .activated, some 0, ("onActivated" ++ "(() =>").toList),
      (.hook .deactivated, some 0, ("onDeactivated" ++ "(() =>").toList),
      (.hook .beforeUnmount, some 0, ("onBeforeUnmount" ++ "(() =>").toList),
      (.hook .unmounted, some 0, ("onUnmounted" ++ "(() =>").toList),
      (.hook .errorCaptured, some 0, ("onErrorCaptured" ++ "(() =>").toList),
      (.hook .renderTracked, some 0, ("onRenderTracked" ++ "(() =>").toList),
      (.hook .renderTriggered, some 0, ("onRenderTriggered" ++ "(() =>").toList)] := by
  rfl

/-- The marks can be told apart: this is what allows to look for all of them at once. -/
theorem isCatalogue_table : IsCatalogue (tableOf Section.marker canonical) := by
  rw [table_eq]
  simp only [String.toList_append]
  simp -index only [String.toList_ofList]
  decide

/-- The text of a hook has its own mark and no other. -/
theorem marked_hook {h : Hook} (hh : h ∈ Hook.inSetup) (ctx : Context)
    (policy : BindingPolicy) :
    Marked (tableOf Section.marker canonical) [.hook h]
      (((Section.hook h).body ctx policy ++ [Line.blank]).map Line.spelled) := by
  simp only [table_eq, Section.body, braced, block, linesIf, List.map_append, List.map_cons,
    List.map_nil, apply_ite (List.map Line.spelled), Line.spelled, Line.blank,
    String.toList_append]
  generalize policy.stopsWatcher = stops
  revert stops
  cases h <;> simp only [Hook.setupName?, Option.getD_some, Option.getD_none] <;>
    simp -index only [String.toList_ofList]
  -- Two hooks have no function, so there is nothing to compute for them.
  case beforeCreate => exact absurd hh (by decide)
  case created => exact absurd hh (by decide)
  all_goals decide

/-- The text of a section has its own mark and no other. -/
theorem marked_body {s : Section} (hs : s ∈ laterSections) (ctx : Context)
    (policy : BindingPolicy) :
    Marked (tableOf Section.marker canonical) [s]
      ((s.body ctx policy ++ [Line.blank]).map Line.spelled) := by
  cases s with
  | imports => exact absurd hs (by decide)
  | hook h => exact marked_hook (hook_mem_sections.mp (laterSections_subset hs)) ctx policy
  | _ =>
      simp only [table_eq, Section.body, propsWithDefaults, plainProps, events, computedValue,
        watcher, watchSource, braced, block, linesIf, List.map_append, List.map_cons,
        List.map_nil, apply_ite (List.map Line.spelled), Line.spelled, Line.blank, toList_ite,
        toList_annotated, String.toList_append]
      simp -index only [String.toList_ofList]
      generalize policy.pairsPropEmit = pairs, policy.definesModel = defines, ctx.typed = typed,
        ctx.isOn .props = props, ctx.isOn .emits = emits, ctx.isOn .useWithDefaults = defaults
      revert pairs defines typed props emits defaults
      decide

/-- The sections after the imports have the marks of those that are on, in order. -/
theorem marked_laterLines (ctx : Context) (policy : BindingPolicy) :
    Marked (tableOf Section.marker canonical) (laterSections.filter (Section.isOn ctx policy))
      ((laterSections.flatMap (Section.lines ctx policy)).map Line.spelled) := by
  have hmarked := marked_flatMap (Section.isOn ctx policy) (fun s => [s])
    fun s hs _ => marked_body hs ctx policy
  rwa [List.flatMap_singleton'] at hmarked

/-- The mark of a later section has a character that an import line does not
    have. -/
theorem exists_mem_mark_notMem {s : Section} (hs : s ∈ laterSections) :
    ∃ c ∈ s.mark.toList, c ∉ importCharacters := by
  -- The names on the import line are literals, so this is a computation over all marks at once.
  have htable : ∀ e ∈ tableOf Section.marker canonical,
      e.1 ≠ .imports → e.2.2.any fun c => !importCharacters.contains c := by
    rw [table_eq, importCharacters_eq, importableNames]
    simp only [List.flatMap_cons, String.toList_append]
    simp -index only [String.toList_ofList]
    decide
  have hmem : s ∈ canonical := canonical_eq ▸ List.mem_cons_of_mem _ hs
  have hne : s ≠ .imports := by
    rintro rfl
    exact absurd hs (by decide)
  rcases List.any_eq_true.mp (htable _ (List.mem_map_of_mem hmem) hne) with ⟨c, hc, hnot⟩
  refine ⟨c, ?_, ?_⟩
  · rw [← text_marker {} s]
    exact (head_suffix_text {} s.marker).subset hc
  · simpa only [Bool.not_eq_true', List.contains_eq_mem, decide_eq_false_iff_not] using hnot

theorem importLine_eq (ctx : Context) :
    (importLine ctx).toList = "import \x7b".toList
      ++ (" ".toList ++ (", ".toList.intercalate ((importedNames ctx).map String.toList)
        ++ " \x7d from 'vue'".toList)) := by
  rw [toList_importLine, List.append_assoc, ← List.append_assoc "import \x7b".toList]
  rfl

/-- The import line opens one brace. -/
theorem brace_notMem_names (ctx : Context) :
    '\x7b' ∉ " ".toList ++ (", ".toList.intercalate ((importedNames ctx).map String.toList)
      ++ " \x7d from 'vue'".toList) := by
  have hnames : '\x7b' ∉ ", ".toList ++ importableNames.flatMap String.toList := by
    decide
  rw [List.mem_append, List.mem_append, not_or, not_or]
  refine ⟨by decide, fun hmem => hnames ?_, by decide⟩
  exact List.mem_append.mpr (mem_of_mem_names hmem)

/-- The import line has its own mark and no other. -/
theorem occurrences_importLine (ctx : Context) :
    occurrences Section.mark canonical (importLine ctx).toList = [.imports] := by
  -- The names on the line vary, so the other marks are excluded by a character that no import line
  -- has.
  have hlater : occurrences Section.mark laterSections (importLine ctx).toList = [] := by
    refine occurrences_eq_nil fun s hs => ?_
    rcases exists_mem_mark_notMem hs with ⟨c, hmem, hc⟩
    exact ⟨c, hmem, fun hline => hc (mem_importCharacters hline)⟩
  have hbegins (rest : List Char) :
      occurrences Section.mark [.imports] ("import \x7b".toList ++ rest)
        = .imports :: occurrences Section.mark [.imports] rest := by
    rfl
  -- The mark ends with the only opening brace, so there is no second one.
  have hrest : occurrences Section.mark [.imports]
      (" ".toList ++ (", ".toList.intercalate ((importedNames ctx).map String.toList)
        ++ " \x7d from 'vue'".toList)) = [] := by
    refine occurrences_eq_nil fun s hs => ?_
    rw [List.mem_singleton.mp hs]
    exact ⟨'\x7b', by decide, brace_notMem_names ctx⟩
  rw [canonical_eq, occurrences_cons_of_eq_nil hlater, importLine_eq, hbegins, hrest]

/-- The sections of a setup script are in order. -/
theorem sections_inOrder_script (ctx : Context) :
    InOrder Section.mark canonical (Section.gate ctx) (script ctx).toList := by
  have hmark : (fun s : Section => s.marker.text ctx.indentation) = Section.mark :=
    funext (text_marker ctx.indentation)
  -- The import section has no switch, so it comes first in both lists.
  have hgate : [Section.imports] ++ laterSections.filter (Section.isOn ctx (.setup ctx))
      = canonical.filter (Section.gate ctx) := by
    rw [← List.filter_congr fun s hs => isOn_eq_gate hs ctx, canonical_eq]
    rfl
  have hblank : Marked (tableOf Section.marker canonical) [] [Line.blank.spelled] := by
    rw [table_eq]
    simp only [String.toList_append, Line.spelled, Line.blank]
    simp -index only [String.toList_ofList]
    decide
  have htext : (script ctx).toList = (importLine ctx).toList ++ '\n' :: (render ctx.indentation
      (Line.blank :: laterSections.flatMap (Section.lines ctx (.setup ctx)))).toList := by
    rw [toList_script, toList_render_cons, Line.blank, Int.ofNat_zero, Indentation.text_zero]
    rfl
  -- The first line has the imports, and the lines after it have the rest.
  have himports := occurrences_importLine ctx
  rw [← hmark] at himports
  rw [htext, ← hmark]
  exact inOrder_of_marked ctx.indentation isCatalogue_table himports
    (hblank.append (marked_laterLines ctx (.setup ctx))) hgate

end Scaffold.Script.Setup
