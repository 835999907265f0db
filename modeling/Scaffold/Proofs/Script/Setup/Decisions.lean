import Scaffold.Proofs.Script.Setup.Outline

/-!
# Decisions of Setup Scripts

Which of the many toggles a setup script depends on, and that it depends on
nothing else.

Two contexts that agree on `Agree` write the same script, section by section.
Conversely a script shows every one of these decisions by a phrase: a section
that is generated shows its opening, the prop and event pair shows in the name
of the bound prop, wherever a section would write it, and defaults show in the
macro that gives them. A toggle that is not among the decisions, or that is
not read because others are off, cannot be seen in the text.

## Main definitions

* `Agree`: The decisions that two contexts have to share.

## Theorems

* `lines_eq_of_agree`: Sections depend on the decisions alone.
* `opens_mem_occurrences_script`: A section is on where its opening occurs.
* `namesBound_mem_occurrences_script`, `givesDefaults_mem_occurrences_script`:
  The decisions that show in a part of a section.
* `script_eq_iff_agree`: Scripts are equal exactly where the decisions are.
-/

namespace Scaffold.Script.Setup

open Text

/-- Whether a section is on that depends on the prop and event pair. -/
def readsPair (ctx : Context) : Bool :=
  ctx.isOn .props || ctx.isOn .emits || ctx.isOn .computed || ctx.isOn .watch

/-- What two contexts have to agree on to write the same setup script. -/
structure Agree (a b : Context) : Prop where
  props : a.isOn .props = b.isOn .props
  emits : a.isOn .emits = b.isOn .emits
  computed : a.isOn .computed = b.isOn .computed
  watch : a.isOn .watch = b.isOn .watch
  defineOptions : a.isOn .defineOptions = b.isOn .defineOptions
  defineSlots : a.isOn .defineSlots = b.isOn .defineSlots
  defineExpose : a.isOn .defineExpose = b.isOn .defineExpose
  /-- The master switch and the hook's own, for every hook with a function. -/
  hooks : ∀ h ∈ Hook.inSetup, a.isHookOn h = b.isHookOn h
  /-- The model macro. -/
  model : (a.isOn .vModelTemplate && a.isOn .useDefineModel)
    = (b.isOn .vModelTemplate && b.isOn .useDefineModel)
  /-- The prop and event pair, where a section depends on it. -/
  pair : readsPair a →
    (a.isOn .vModelTemplate && !a.isOn .useDefineModel)
      = (b.isOn .vModelTemplate && !b.isOn .useDefineModel)
  /-- Defaults, where there are typed props. -/
  defaults : a.typed → a.isOn .props → a.isOn .useWithDefaults = b.isOn .useWithDefaults

section Agreement

variable {a b : Context}

/-- The imports depend on decisions alone. -/
theorem importedNames_eq_of_agree (h : Agree a b) : importedNames a = importedNames b := by
  have hhooks : Hook.inSetup.filter a.isHookOn = Hook.inSetup.filter b.isHookOn :=
    List.filter_congr h.hooks
  rw [importedNames, importedNames, h.computed, h.watch, hhooks]

/-- So does whether a section is on. The hooks outside of the sections are left out, since nothing
    shows their switches. -/
theorem isOn_eq_of_agree (h : Agree a b) {s : Section} (hs : s ∈ sections) :
    s.isOn a (.setup a) = s.isOn b (.setup b) := by
  cases s with
  | imports => rfl
  | defineOptions => exact h.defineOptions
  | props => exact h.props
  | emits => exact h.emits
  | defineModel => exact h.model
  | defineSlots => exact h.defineSlots
  | defineExpose => exact h.defineExpose
  | computed => exact h.computed
  | watch => exact h.watch
  | hook k => rw [Section.isOn, Section.isOn, h.hooks k (hook_mem_sections.mp hs)]

/-- Where a section reads the pair, the whole policy is shared. -/
theorem policy_eq_of_agree (h : Agree a b) (hreads : readsPair a) :
    BindingPolicy.setup a = BindingPolicy.setup b := by
  rw [BindingPolicy.setup, BindingPolicy.setup, h.model, h.pair hreads, h.watch]

/-- So does the text of a section. It is only said of a section that is on, since what a section
    reads need not be shared where it is off. -/
theorem body_eq_of_agree (h : Agree a b) (htyped : a.typed = b.typed) {s : Section}
    (hon : s.isOn a (.setup a)) : s.body a (.setup a) = s.body b (.setup b) := by
  -- Each section that reads the binding policy is itself a reason for the policy to be shared.
  cases s with
  | imports => rw [Section.body, Section.body, importLine, importLine, importedNames_eq_of_agree h]
  | props =>
      replace hon : a.isOn .props := hon
      have hpolicy := policy_eq_of_agree h (by rw [readsPair, hon]; rfl)
      -- Defaults are only read where types are written.
      have hdefaults : (a.typed && a.isOn .useWithDefaults)
          = (b.typed && b.isOn .useWithDefaults) := by
        cases ha : a.typed with
        | false => rw [← htyped, ha, Bool.false_and, Bool.false_and]
        | true => rw [← htyped, ha, h.defaults ha hon]
      have hplain (policy : BindingPolicy) : plainProps a policy = plainProps b policy := by
        rw [plainProps, plainProps, htyped]
      rw [Section.body, Section.body, hpolicy, hdefaults, hplain]
  | emits =>
      replace hon : a.isOn .emits := hon
      have hpolicy := policy_eq_of_agree h (by rw [readsPair, hon, Bool.or_true]; rfl)
      simp only [Section.body, events, hpolicy, htyped, h.props]
  | computed =>
      replace hon : a.isOn .computed := hon
      have hpolicy := policy_eq_of_agree h (by rw [readsPair, hon, Bool.or_true]; rfl)
      simp only [Section.body, computedValue, hpolicy, htyped, h.emits]
  | watch =>
      replace hon : a.isOn .watch := hon
      have hpolicy := policy_eq_of_agree h (by rw [readsPair, hon, Bool.or_true])
      simp only [Section.body, watcher, watchSource, hpolicy, htyped, h.props]
  -- Of the policy a hook reads only whether there is a watcher to stop.
  | hook k => simp only [Section.body, BindingPolicy.setup, h.watch]
  | defineOptions | defineExpose => rfl
  | defineModel | defineSlots => rw [Section.body, Section.body, htyped]

/-- Sections depend on the decisions alone. -/
theorem lines_eq_of_agree (h : Agree a b) (htyped : a.typed = b.typed) {s : Section}
    (hs : s ∈ sections) : s.lines a (.setup a) = s.lines b (.setup b) := by
  have hon := isOn_eq_of_agree h hs
  unfold Section.lines
  cases ha : s.isOn a (.setup a) with
  | false =>
      rw [← hon, ha]
      rfl
  | true => rw [← hon, ha, body_eq_of_agree h htyped ha]

end Agreement

section Visibility

variable (ctx : Context)

/-- A section is on where its opening occurs. -/
theorem opens_mem_occurrences_script {s : Section} (hs : s ∈ laterSections) :
    .opens s ∈ occurrences Phrase.text Phrase.all (script ctx).toList
      ↔ s.isOn ctx (.setup ctx) := by
  rw [script_eq_render, opens_mem_occurrences_render _ _ _ (List.Subset.refl sections) hs]
  exact and_iff_right (laterSections_subset hs)

/-- Four sections name the bound prop where the pair carries the value. Of these the watcher does so
    only if it does not watch the model, which the pair rules out. -/
theorem namesBound_mem_outline (s : Section) :
    .namesBound ∈ s.outline ctx (.setup ctx)
      ↔ s ∈ [.props, .emits, .computed, .watch] ∧ (BindingPolicy.setup ctx).pairsPropEmit := by
  cases s with
  | watch => simpa [Section.outline] using not_definesModel_of_pairsPropEmit
  | _ => simp [Section.outline]

/-- A script names the bound prop where the pair carries the value and there is a section to show
    it. -/
theorem namesBound_mem_occurrences_script :
    .namesBound ∈ occurrences Phrase.text Phrase.all (script ctx).toList
      ↔ readsPair ctx ∧ (BindingPolicy.setup ctx).pairsPropEmit := by
  have hreads : readsPair ctx
      ↔ ∃ s ∈ [Section.props, .emits, .computed, .watch], s.isOn ctx (.setup ctx) := by
    simp [readsPair, Section.isOn, or_assoc]
  rw [mem_occurrences_script, hreads]
  simp only [namesBound_mem_outline]
  constructor
  · -- From the text to the switches and back, section by section.
    rintro ⟨s, _, hon, hs, hpair⟩
    exact ⟨⟨s, hs, hon⟩, hpair⟩
  · rintro ⟨⟨s, hs, hon⟩, hpair⟩
    have hsections : [Section.props, .emits, .computed, .watch] ⊆ sections := by decide
    exact ⟨s, hsections hs, hon, hs, hpair⟩

/-- A script gives defaults where typed props have them. -/
theorem givesDefaults_mem_occurrences_script :
    .givesDefaults ∈ occurrences Phrase.text Phrase.all (script ctx).toList
      ↔ ctx.isOn .props ∧ ctx.typed ∧ ctx.isOn .useWithDefaults := by
  have houtline (s : Section) : .givesDefaults ∈ s.outline ctx (.setup ctx)
      ↔ s = .props ∧ ctx.typed ∧ ctx.isOn .useWithDefaults := by
    cases s <;> simp [Section.outline]
  rw [mem_occurrences_script]
  simp only [houtline]
  constructor
  · rintro ⟨_, _, hon, rfl, hdefaults⟩
    exact ⟨hon, hdefaults⟩
  · rintro ⟨hon, hdefaults⟩
    exact ⟨.props, by decide, hon, rfl, hdefaults⟩

end Visibility

/-- Two scripts that are equal show the same decisions. -/
theorem agree_of_script_eq {a b : Context} (htyped : a.typed = b.typed)
    (h : script a = script b) : Agree a b := by
  -- Every section shows whether it is on.
  have hgate : ∀ s ∈ laterSections, s.isOn a (.setup a) = s.isOn b (.setup b) := by
    intro s hs
    rw [Bool.eq_iff_iff, ← opens_mem_occurrences_script a hs, h,
      opens_mem_occurrences_script b hs]
  have hprops : a.isOn .props = b.isOn .props := hgate .props (by decide)
  have hemits : a.isOn .emits = b.isOn .emits := hgate .emits (by decide)
  have hcomputed : a.isOn .computed = b.isOn .computed := hgate .computed (by decide)
  have hwatch : a.isOn .watch = b.isOn .watch := hgate .watch (by decide)
  refine ⟨hprops, hemits, hcomputed, hwatch, ?_, ?_, ?_, ?_, ?_, ?_, ?_⟩
  · exact hgate .defineOptions (by decide)
  · exact hgate .defineSlots (by decide)
  · exact hgate .defineExpose (by decide)
  · -- A hook is on by its own switch and the master switch, which the gate of its section has
    -- together.
    intro k hk
    have hsome : k.setupName?.isSome = true := (List.mem_filter.mp hk).2
    have hhook := hgate (.hook k) (List.mem_append_right _ (List.mem_map_of_mem hk))
    rwa [Section.isOn, Section.isOn, hsome, Bool.true_and, Bool.true_and] at hhook
  · exact hgate .defineModel (by decide)
  · -- The sections that read the pair are the same, so both scripts show it.
    intro ha
    have hreads : readsPair b := by
      rwa [readsPair, ← hprops, ← hemits, ← hcomputed, ← hwatch]
    have hnames := namesBound_mem_occurrences_script a
    rw [h, namesBound_mem_occurrences_script b] at hnames
    simp only [ha, hreads, true_and] at hnames
    exact Bool.eq_iff_iff.mpr hnames.symm
  · -- Defaults are a decision only where typed props are on, and there the macro shows them.
    intro ha hon
    have hdefaults := givesDefaults_mem_occurrences_script a
    rw [h, givesDefaults_mem_occurrences_script b, ← htyped, ← hprops] at hdefaults
    simp only [ha, hon, true_and] at hdefaults
    exact Bool.eq_iff_iff.mpr hdefaults.symm

/-- Scripts are equal exactly where the decisions are. -/
theorem script_eq_iff_agree {a b : Context} (htyped : a.typed = b.typed)
    (hindentation : a.indentation = b.indentation) :
    script a = script b ↔ Agree a b := by
  constructor
  · exact agree_of_script_eq htyped
  · intro h
    rw [script_eq_render, script_eq_render, hindentation]
    exact congrArg _ (List.flatMap_congr fun s hs => lines_eq_of_agree h htyped hs)

/-- The default features of a typed script, changed. -/
def typedWith (enable disable : List Feature) : Context :=
  ({ typed := true } : Context).withFeatures enable disable

/-- With props switched off it cannot be seen whether typed ones would have
    defaults. With props switched on it can. -/
theorem script_eq_iff_agree_defaults :
    script (typedWith [] [.props, .useWithDefaults])
        = script (typedWith [.useWithDefaults] [.props])
      ∧ script (typedWith [] [.useWithDefaults]) ≠ script (typedWith [.useWithDefaults] []) := by
  have htyped (e d e' d' : List Feature) : (typedWith e d).typed = (typedWith e' d').typed := rfl
  have hindentation (e d e' d' : List Feature) :
      (typedWith e d).indentation = (typedWith e' d').indentation := rfl
  constructor
  · -- Nothing that agreement asks for has changed, for defaults are not asked for without props.
    refine (script_eq_iff_agree (htyped _ _ _ _) (hindentation _ _ _ _)).mpr ?_
    exact ⟨rfl, rfl, rfl, rfl, rfl, rfl, rfl, by decide, rfl, fun _ => rfl,
      fun _ hprops => absurd hprops (by decide)⟩
  · intro h
    have hagree := (script_eq_iff_agree (htyped _ _ _ _) (hindentation _ _ _ _)).mp h
    exact absurd (hagree.defaults rfl rfl) (by decide)

end Scaffold.Script.Setup
