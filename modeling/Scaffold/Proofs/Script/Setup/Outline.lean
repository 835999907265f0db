import Scaffold.Proofs.Script.Rendering
import Scaffold.Proofs.Script.Setup.ImportLine
import Scaffold.Proofs.Script.Spelling
import Scaffold.Script.Setup

/-!
# Outlines of Setup Scripts

The phrases by which the sections of a setup script announce themselves and
refer to each other, and where they occur.

Every section after the imports has an opening, a phrase that it writes once
and no other section writes. Further phrases declare what other sections use,
or use what they declare. The outline of a section lists its phrases as they
follow each other in its text, as a function of the few decisions that the
section depends on.

That the outlines are right is checked against the wording of every section,
once, in this module. `occurrences_render_sections` then makes the outline of
a script the list of its phrases, at every indentation. What a script shows,
imports or leaves undeclared is read off the outlines alone.

## Main definitions

* `laterSections`: The sections after the imports.
* `Section.opening`: The phrase that announces a section.
* `Phrase`: The phrases that are looked for.
* `Section.outline`: The phrases of a section, in order.

## Theorems

* `phrasesIn_body`: The outline of a section lists the phrases of its text.
* `occurrences_render_sections`: The phrases in a part of a script.
* `mem_occurrences_render`, `mem_occurrences_script`: Where one phrase occurs.
* `mem_boundPhrases`, `mem_sourcePhrases`, `mem_valuePhrases`: The phrases that
  depend on the binding policy.
* `opens_mem_outline`: A section's opening is in its own outline only.
* `opens_mem_occurrences_render`: A section's opening occurs where the section
  is on.
-/

namespace Scaffold.Script.Setup

open Text

/-- The sections after the imports. -/
def laterSections : List Section :=
  [.defineOptions, .props, .emits, .defineModel, .defineSlots, .defineExpose, .computed,
    .watch] ++ Hook.inSetup.map .hook

theorem sections_eq : sections = .imports :: laterSections := rfl

theorem laterSections_subset : laterSections ⊆ sections := by
  rw [sections_eq]
  exact List.subset_cons_self .imports laterSections

theorem hook_mem_sections {h : Hook} : .hook h ∈ sections ↔ h ∈ Hook.inSetup := by
  simp [sections]

/-- The phrase that announces a section. A hook without a function of its own
    has no section, and its opening is of no account. -/
def Section.opening : Section → String
  | imports => "import \x7b"
  | defineOptions => "defineOptions("
  | props => "const props"
  | emits => "const emit = defineEmits("
  | defineModel => "const model = defineModel"
  | defineSlots => "const slots = defineSlots"
  | defineExpose => "defineExpose("
  | computed => "computed("
  | watch => "watch("
  | hook h => h.setupName?.getD "" ++ "("

/-- A phrase that ties the sections of a setup script together. -/
inductive Phrase where
  /-- The phrase that announces a section. -/
  | opens (s : Section)
  /-- The declaration of the handle by which the watcher is stopped. -/
  | declaresHandle
  /-- The defaults that typed props can be given. -/
  | givesDefaults
  /-- The name of the prop that `v-model` binds, wherever it stands. -/
  | namesBound
  /-- The call by which the bound value is updated. -/
  | updatesBound
  /-- The call by which the watcher is stopped. -/
  | stopsWatcher
  /-- The model as what the watcher watches. -/
  | watchesModel
  /-- A prop that is read, -/
  | readsProp
  /-- the bound one, -/
  | readsBound
  /-- and the placeholder. -/
  | readsText
  deriving DecidableEq, Repr

namespace Phrase

/-- How a phrase is written. -/
def text : Phrase → String
  | opens s => s.opening
  | declaresHandle => "const stopWatch = watch("
  | givesDefaults => "withDefaults("
  | namesBound => "modelValue"
  | updatesBound => "emit('update:modelValue', value)"
  | stopsWatcher => "stopWatch();"
  | watchesModel => "model, async ("
  | readsProp => "props."
  | readsBound => "props.modelValue"
  | readsText => "props.text"

/-- The phrases that are looked for. Of two that begin at one place the one
    that stands here first is listed first. -/
def all : List Phrase :=
  [declaresHandle, givesDefaults, readsProp, readsBound, readsText, namesBound, updatesBound,
    stopsWatcher, watchesModel] ++ laterSections.map opens

/-- The phrases with their characters, from literals that can be spelled out. -/
theorem table_eq : (all.map fun p => (p, p.text.toList)) =
    [(declaresHandle, "const stopWatch = watch(".toList),
      (givesDefaults, "withDefaults(".toList),
      (readsProp, "props.".toList), (readsBound, "props.modelValue".toList),
      (readsText, "props.text".toList), (namesBound, "modelValue".toList),
      (updatesBound, "emit('update:modelValue', value)".toList),
      (stopsWatcher, "stopWatch();".toList), (watchesModel, "model, async (".toList),
      (opens .defineOptions, "defineOptions(".toList),
      (opens .props, "const props".toList),
      (opens .emits, "const emit = defineEmits(".toList),
      (opens .defineModel, "const model = defineModel".toList),
      (opens .defineSlots, "const slots = defineSlots".toList),
      (opens .defineExpose, "defineExpose(".toList),
      (opens .computed, "computed(".toList), (opens .watch, "watch(".toList),
      (opens (.hook .beforeMount), "onBeforeMount(".toList),
      (opens (.hook .mounted), "onMounted(".toList),
      (opens (.hook .beforeUpdate), "onBeforeUpdate(".toList),
      (opens (.hook .updated), "onUpdated(".toList),
      (opens (.hook .activated), "onActivated(".toList),
      (opens (.hook .deactivated), "onDeactivated(".toList),
      (opens (.hook .beforeUnmount), "onBeforeUnmount(".toList),
      (opens (.hook .unmounted), "onUnmounted(".toList),
      (opens (.hook .errorCaptured), "onErrorCaptured(".toList),
      (opens (.hook .renderTracked), "onRenderTracked(".toList),
      (opens (.hook .renderTriggered), "onRenderTriggered(".toList)] := by
  rfl

/-- No phrase goes over the end of a line, so the phrases of a script are those of its
    lines. -/
theorem isInline_text {p : Phrase} (hp : p ∈ all) : isInline p.text.toList := by
  have htable : ∀ e ∈ all.map (fun p => (p, p.text.toList)), isInline e.2 := by
    rw [table_eq]
    simp -index only [String.toList_ofList]
    decide +kernel
  exact htable _ (List.mem_map_of_mem hp)

end Phrase

/-- The phrases in the texts of some lines. -/
def phrasesIn (ls : List Line) : List Phrase :=
  ls.flatMap fun l => occurrences Phrase.text Phrase.all l.text.toList

/-- The phrases in the texts of lines, by the spelling of the lines and a table of
    phrases. This is the form that is computed with. -/
theorem phrasesIn_eq (ls : List Line) :
    phrasesIn ls
      = (spelled ls).flatMap (occurrencesIn (Phrase.all.map fun p => (p, p.text.toList))) := by
  rw [← flatMap_text_eq_spelled]
  exact List.flatMap_congr fun _ _ => occurrences_eq_occurrencesIn _

theorem phrasesIn_append (xs ys : List Line) :
    phrasesIn (xs ++ ys) = phrasesIn xs ++ phrasesIn ys :=
  List.flatMap_append

/-- The phrase that names the bound prop, where there is a bound prop. -/
def boundPhrases (policy : BindingPolicy) : List Phrase :=
  if policy.pairsPropEmit then [.namesBound] else []

/-- The phrases by which the watcher says what it watches. -/
def sourcePhrases (ctx : Context) (policy : BindingPolicy) : List Phrase :=
  if policy.definesModel then [.watchesModel]
  else if policy.pairsPropEmit then [.readsProp, .readsBound, .namesBound]
  else if ctx.isOn .props then [.readsProp, .readsText]
  else []

/-- The phrases of a computed value over the bound prop. -/
def valuePhrases (ctx : Context) (policy : BindingPolicy) : List Phrase :=
  if policy.pairsPropEmit then
    [.readsProp, .readsBound, .namesBound]
    ++ if ctx.isOn .emits then [.updatesBound, .namesBound] else []
  else []

/-- The phrases of a section that is on, in order. -/
def Section.outline (ctx : Context) (policy : BindingPolicy) : Section → List Phrase
  | imports => []
  | props =>
    (if ctx.typed && ctx.isOn .useWithDefaults then boundPhrases policy else [])
    ++ [.opens .props]
    ++ (if ctx.typed && ctx.isOn .useWithDefaults then [.givesDefaults] else [])
    ++ boundPhrases policy
  | emits => .opens .emits :: boundPhrases policy
  | computed => .opens .computed :: valuePhrases ctx policy
  | watch => [.declaresHandle, .opens .watch] ++ sourcePhrases ctx policy
  | hook h =>
    .opens (.hook h)
      :: if h == .beforeUnmount && policy.stopsWatcher then [.stopsWatcher] else []
  | s => [.opens s]

/-- The outline of a hook lists the phrases of its text. -/
theorem phrasesIn_hook {h : Hook} (hh : h ∈ Hook.inSetup) (ctx : Context)
    (policy : BindingPolicy) :
    phrasesIn ((Section.hook h).body ctx policy) = (Section.hook h).outline ctx policy := by
  simp only [Section.body, Section.outline, phrasesIn_eq, Phrase.table_eq, spelled,
    spelled_braced, spelled_linesIf, String.toList_append]
  generalize policy.stopsWatcher = stops
  revert stops
  cases h <;> simp only [Hook.setupName?, Option.getD_some, Option.getD_none] <;>
    simp -index only [String.toList_ofList]
  -- Two hooks have no function of their own, and so no section.
  case beforeCreate => exact absurd hh (by decide)
  case created => exact absurd hh (by decide)
  all_goals decide +kernel

/-- A phrase holds a character that an import line does not have. -/
theorem exists_notMem_importCharacters {p : Phrase} (hp : p ∈ Phrase.all) :
    ∃ c ∈ p.text.toList, c ∉ importCharacters := by
  have htable : ∀ e ∈ Phrase.all.map (fun p => (p, p.text.toList)),
      e.2.any fun c => !importCharacters.contains c := by
    rw [Phrase.table_eq, importCharacters_eq, importableNames]
    simp only [List.flatMap_cons]
    simp -index only [String.toList_ofList]
    decide +kernel
  rcases List.any_eq_true.mp (htable _ (List.mem_map_of_mem hp)) with ⟨c, hmem, hc⟩
  refine ⟨c, hmem, ?_⟩
  simpa only [Bool.not_eq_true', List.contains_eq_mem, decide_eq_false_iff_not] using hc

/-- The outline of a section lists the phrases of its text. -/
theorem phrasesIn_body {s : Section} (hs : s ∈ sections) (ctx : Context)
    (policy : BindingPolicy) :
    phrasesIn (s.body ctx policy) = s.outline ctx policy := by
  cases s with
  | imports =>
      -- The line depends on the names in it, so its characters have to do.
      have hnone : occurrences Phrase.text Phrase.all (importLine ctx).toList = [] := by
        refine occurrences_eq_nil fun p hp => ?_
        rcases exists_notMem_importCharacters hp with ⟨c, hmem, hc⟩
        exact ⟨c, hmem, fun hline => hc (mem_importCharacters hline)⟩
      rw [phrasesIn, Section.body, List.flatMap_cons, hnone]
      rfl
  | hook h => exact phrasesIn_hook (hook_mem_sections.mp hs) ctx policy
  | _ =>
      -- With the literals spelled out and the switches generalized, one
      -- computation goes over all the texts that the section can have.
      simp only [Section.body, propsWithDefaults, plainProps, events, computedValue, watcher,
        watchSource, Section.outline, boundPhrases, valuePhrases, sourcePhrases, phrasesIn_eq,
        Phrase.table_eq, spelled, spelled_append, spelled_block, spelled_braced, spelled_ite,
        spelled_linesIf, toList_ite, toList_annotated, String.toList_append, Line.blank]
      simp -index only [String.toList_ofList]
      generalize policy.pairsPropEmit = pairs, policy.definesModel = defines, ctx.typed = typed,
        ctx.isOn .props = props, ctx.isOn .emits = emits, ctx.isOn .useWithDefaults = defaults
      revert pairs defines typed props emits defaults
      decide +kernel

/-- The phrases in a part of a script are the outlines of its sections. -/
theorem occurrences_render_sections (ind : Indentation) (ctx : Context)
    (policy : BindingPolicy) {ss : List Section} (hss : ss ⊆ sections) :
    occurrences Phrase.text Phrase.all
        (render ind (ss.flatMap (Section.lines ctx policy))).toList
      = (ss.filter (Section.isOn ctx policy)).flatMap (Section.outline ctx policy) := by
  rw [occurrences_render ind fun p hp => Phrase.isInline_text hp]
  change phrasesIn _ = _
  -- The induction is on the sections. A section that is off has no lines, and so no
  -- phrases.
  induction ss with
  | nil => rfl
  | cons s ss ih =>
      rw [List.cons_subset] at hss
      have hlines : phrasesIn (s.lines ctx policy)
          = if s.isOn ctx policy then s.outline ctx policy else [] := by
        unfold Section.lines linesIf
        split
        · rw [phrasesIn_append, phrasesIn_body hss.1]
          exact List.append_nil _
        · rfl
      rw [List.flatMap_cons, phrasesIn_append, ih hss.2, hlines]
      by_cases hon : s.isOn ctx policy
      · rw [if_pos hon, List.filter_cons_of_pos hon, List.flatMap_cons]
      · rw [if_neg hon, List.filter_cons_of_neg hon, List.nil_append]

/-- A phrase occurs in a part of a script where a section of it that is on has
    the phrase in its outline. -/
theorem mem_occurrences_render (ind : Indentation) (ctx : Context) (policy : BindingPolicy)
    {ss : List Section} (hss : ss ⊆ sections) (p : Phrase) :
    p ∈ occurrences Phrase.text Phrase.all
        (render ind (ss.flatMap (Section.lines ctx policy))).toList
      ↔ ∃ s ∈ ss, s.isOn ctx policy ∧ p ∈ s.outline ctx policy := by
  rw [occurrences_render_sections ind ctx policy hss, List.mem_flatMap]
  simp only [List.mem_filter, and_assoc]

theorem script_eq_render (ctx : Context) :
    script ctx = render ctx.indentation (sections.flatMap (Section.lines ctx (.setup ctx))) :=
  rfl

/-- A phrase occurs in a script where a section that is on has it in its outline. -/
theorem mem_occurrences_script (ctx : Context) (p : Phrase) :
    p ∈ occurrences Phrase.text Phrase.all (script ctx).toList
      ↔ ∃ s ∈ sections, s.isOn ctx (.setup ctx) ∧ p ∈ s.outline ctx (.setup ctx) :=
  mem_occurrences_render ctx.indentation ctx (.setup ctx) (List.Subset.refl sections) p

/-- The model macro and the prop and event pair exclude each other. -/
theorem not_definesModel_of_pairsPropEmit {ctx : Context}
    (h : (BindingPolicy.setup ctx).pairsPropEmit) :
    ¬ (BindingPolicy.setup ctx).definesModel := by
  simp only [BindingPolicy.setup, Bool.and_eq_true, Bool.not_eq_true'] at h ⊢
  rw [h.2]
  exact fun hmodel => absurd hmodel.2 (by decide)

section Membership

variable (ctx : Context) (policy : BindingPolicy) (p : Phrase)

/-- The bound prop is named where the pair carries the value. -/
@[simp]
theorem mem_boundPhrases :
    p ∈ boundPhrases policy ↔ policy.pairsPropEmit ∧ p = .namesBound := by
  unfold boundPhrases
  split
  · rename_i hpair
    simp [hpair]
  · rename_i hpair
    simp [hpair]

/-- What the watcher says of its source: the model comes first, then the bound prop, then
    the placeholder, and none of them otherwise. -/
@[simp]
theorem mem_sourcePhrases :
    p ∈ sourcePhrases ctx policy
      ↔ (policy.definesModel ∧ p = .watchesModel)
        ∨ (¬ policy.definesModel ∧ policy.pairsPropEmit
          ∧ p ∈ [.readsProp, .readsBound, .namesBound])
        ∨ (¬ policy.definesModel ∧ ¬ policy.pairsPropEmit ∧ ctx.isOn .props
          ∧ p ∈ [.readsProp, .readsText]) := by
  unfold sourcePhrases
  cases policy.definesModel <;> cases policy.pairsPropEmit <;> cases ctx.isOn .props <;> simp

/-- What a computed value over the bound prop says. -/
@[simp]
theorem mem_valuePhrases :
    p ∈ valuePhrases ctx policy
      ↔ policy.pairsPropEmit
        ∧ (p ∈ [.readsProp, .readsBound, .namesBound]
          ∨ ctx.isOn .emits ∧ p ∈ [.updatesBound, .namesBound]) := by
  unfold valuePhrases
  cases policy.pairsPropEmit <;> cases ctx.isOn .emits <;> simp [or_assoc]

end Membership

/-- A section's opening is in its own outline only. The imports are left out, since they
    have no phrases. -/
theorem opens_mem_outline {s t : Section} (ht : t ∈ laterSections) (ctx : Context)
    (policy : BindingPolicy) :
    .opens s ∈ t.outline ctx policy ↔ s = t := by
  cases t with
  | imports => exact absurd ht (by decide)
  | _ => simp [Section.outline]

/-- A section's opening occurs in a part of a script where the section belongs to it and
    is on. -/
theorem opens_mem_occurrences_render (ind : Indentation) (ctx : Context)
    (policy : BindingPolicy) {ss : List Section} (hss : ss ⊆ sections) {s : Section}
    (hs : s ∈ laterSections) :
    .opens s ∈ occurrences Phrase.text Phrase.all
        (render ind (ss.flatMap (Section.lines ctx policy))).toList
      ↔ s ∈ ss ∧ s.isOn ctx policy := by
  rw [mem_occurrences_render ind ctx policy hss]
  constructor
  · -- The section that has the phrase can only be the one that it opens.
    rintro ⟨t, ht, hon, hmem⟩
    have hsections := hss ht
    rw [sections_eq, List.mem_cons] at hsections
    rcases hsections with rfl | hlater
    · exact absurd hmem List.not_mem_nil
    · rw [opens_mem_outline hlater] at hmem
      rw [hmem]
      exact ⟨ht, hon⟩
  · rintro ⟨hmem, hon⟩
    exact ⟨s, hmem, hon, (opens_mem_outline hs ctx policy).mpr rfl⟩

end Scaffold.Script.Setup
