import Mathlib.Tactic.Ring
import Scaffold.Proofs.Script.Frequency
import Scaffold.Proofs.Script.Setup.Layout

/-!
# Channels of the Bound Value

A setup script hands the bound value on through one of two channels, the model
macro or a prop that is paired with an event, and never through both.

The macro and the name of the prop are counted in the text. The counts say
which sections take part: with the macro none of them names the prop, and with
the pair every section that is switched on does, as often as its shape asks
for. No section can drift from the others unseen, since the counts hold in
every combination of switches.

## Main definitions

* `pairs`: Whether the pair carries the value.
* `boundSections`: The sections that the choice shows in.
* `Section.shape`: The phrases that such a section has for the pair.
* `Channels`: How the channels of a script exclude each other.

## Theorems

* `total_body`: What a section adds to the counts.
* `shape_iff`: A section has its shape where the pair carries the value.
* `frequency_modelValue`, `frequency_defineModel`: The counts of a script.
* `channels_script`: The channels of every script exclude each other.
-/

namespace Scaffold.Script.Setup

open Text

/-- Whether a prop and an event carry the bound value. -/
def pairs (ctx : Context) : Bool := ctx.isOn .vModelTemplate && !ctx.isOn .useDefineModel

/-- The sections in which the choice of the channel shows. -/
def boundSections : List Section := [.props, .emits, .computed, .watch]

/-- The phrases by which a section shows that the pair carries the value. -/
def Section.shape (ctx : Context) : Section → List String
  | props =>
    if ctx.typed && ctx.isOn .useWithDefaults then
      ["modelValue?: string;", "modelValue: '',"]
    else
      ["// v-model", "modelValue: \x7b"]
  | emits => ["// v-model event with validation", "'update:modelValue': (value"]
  | computed =>
    ["const value = computed(\x7b", "return props.modelValue;", "set (value"]
      ++ if ctx.isOn .emits then ["emit('update:modelValue', value);"] else []
  | watch => ["() => props.modelValue, async ("]
  | _ => []

/-- How often a section names the bound prop where the pair carries it. -/
def Section.mentions (ctx : Context) : Section → Nat
  | props => if ctx.typed && ctx.isOn .useWithDefaults then 2 else 1
  | emits => 1
  | computed => 1 + (ctx.isOn .emits).toNat
  | watch => 1
  | _ => 0

/-- A phrase with a character that an import line does not have is not among the imports. -/
theorem total_imports {p : List Char} {c : Char} (hc : c ∈ p) (hnot : c ∉ importCharacters)
    (ctx : Context) (policy : BindingPolicy) :
    total p (spelled (Section.imports.body ctx policy ++ [Line.blank])) = 0 := by
  have hzero : ∀ s : List Char, c ∉ s → frequency p s = 0 := fun s hs =>
    (frequency_eq_zero_iff (List.ne_nil_of_mem hc) s).mpr fun hoccurs => hs (hoccurs.subset hc)
  -- The names on the line vary with the switches, so only its characters can be computed with.
  have hline : c ∉ (importLine ctx).toList := fun hmem => hnot (mem_importCharacters hmem)
  have hlines : spelled (Section.imports.body ctx policy ++ [Line.blank])
      = [(importLine ctx).toList, []] := rfl
  rw [hlines, total, List.map_cons, List.map_singleton, hzero _ hline,
    hzero [] List.not_mem_nil]
  rfl

/-- Hooks name neither the bound prop nor the macro. They are settled apart from the other sections,
    since their names have to be opened one by one. -/
theorem total_hook (h : Hook) (ctx : Context) (policy : BindingPolicy) :
    total "modelValue".toList (spelled ((Section.hook h).body ctx policy ++ [Line.blank])) = 0
      ∧ total "defineModel".toList (spelled ((Section.hook h).body ctx policy ++ [Line.blank]))
        = 0 := by
  simp only [Section.body, spelled, spelled_append, spelled_braced, spelled_linesIf,
    String.toList_append, Line.blank]
  generalize policy.stopsWatcher = stops
  revert stops
  cases h <;> simp only [Hook.setupName?, Option.getD_some, Option.getD_none] <;>
    simp -index only [String.toList_ofList] <;> decide

section Wording

variable {policy : BindingPolicy} (ctx : Context)
  (hone : (policy.pairsPropEmit && policy.definesModel) = false)

include hone

/-- How often a section that is on names the bound prop and the macro. -/
theorem total_body (s : Section) :
    total "modelValue".toList (spelled (s.body ctx policy ++ [Line.blank]))
        = policy.pairsPropEmit.toNat * s.mentions ctx
      ∧ total "defineModel".toList (spelled (s.body ctx policy ++ [Line.blank]))
        = if s = .defineModel then 1 else 0 := by
  revert hone
  cases s with
  | imports =>
      have hl : 'l' ∉ importCharacters := by decide
      rw [total_imports (c := 'l') (by decide) hl, total_imports (c := 'l') (by decide) hl]
      exact fun _ => ⟨rfl, rfl⟩
  | hook h =>
      rw [(total_hook h ctx policy).1, (total_hook h ctx policy).2]
      exact fun _ => ⟨rfl, rfl⟩
  | _ =>
      -- Once the literals are spelled out and the switches generalized, the exclusion of the two
      -- channels is the only assumption left, and one computation goes over all that remains.
      simp only [Section.body, Section.mentions, propsWithDefaults, plainProps, events,
        computedValue, watcher, watchSource, spelled, spelled_append, spelled_block,
        spelled_braced, spelled_ite, spelled_linesIf, toList_ite, toList_annotated,
        String.toList_append, Line.blank]
      simp -index only [String.toList_ofList]
      generalize policy.pairsPropEmit = pairs, policy.definesModel = defines, ctx.typed = typed,
        ctx.isOn .props = props, ctx.isOn .emits = emits, ctx.isOn .useWithDefaults = defaults
      revert pairs defines typed props emits defaults
      decide

/-- A section that is on has its shape where the pair carries the value. -/
theorem shape_iff {s : Section} (hs : s ∈ boundSections) :
    ∀ p ∈ (s.shape ctx).map String.toList, isInline p
      ∧ (0 < total p (spelled (s.body ctx policy ++ [Line.blank])) ↔ policy.pairsPropEmit) := by
  revert hone
  -- Only four sections have a shape at all.
  cases s with
  | props | emits | computed | watch =>
      simp only [Section.body, Section.shape, propsWithDefaults, plainProps, events,
        computedValue, watcher, watchSource, spelled, spelled_append, spelled_block,
        spelled_braced, spelled_ite, spelled_linesIf, toList_ite, toList_annotated,
        String.toList_append, Line.blank, apply_ite (List.map String.toList), List.map_append,
        List.map_cons, List.map_nil]
      simp -index only [String.toList_ofList]
      generalize policy.pairsPropEmit = pairs, policy.definesModel = defines, ctx.typed = typed,
        ctx.isOn .props = props, ctx.isOn .emits = emits, ctx.isOn .useWithDefaults = defaults
      revert pairs defines typed props emits defaults
      decide
  | hook h => exact absurd hs (by simp [boundSections])
  | _ => exact absurd hs (by decide)

end Wording

theorem one_channel (ctx : Context) :
    ((BindingPolicy.setup ctx).pairsPropEmit && (BindingPolicy.setup ctx).definesModel)
      = false := by
  rw [BindingPolicy.setup]
  cases ctx.isOn .vModelTemplate <;> cases ctx.isOn .useDefineModel <;> rfl

/-- How often a phrase occurs in a script is the sum over the sections that are on. The empty line
    behind a section belongs to it. -/
theorem frequency_script {p : List Char} (hp : isInline p) (ctx : Context) :
    frequency p (script ctx).toList
      = (sections.map fun s => (s.isOn ctx (.setup ctx)).toNat
          * total p (spelled (s.body ctx (.setup ctx) ++ [Line.blank]))).sum := by
  rw [script_eq_render]
  exact frequency_render_parts ctx.indentation hp sections (Section.isOn ctx (.setup ctx))
    fun s => s.body ctx (.setup ctx) ++ [Line.blank]

theorem frequency_text {p : List Char} (hp : isInline p) (ctx : Context)
    (policy : BindingPolicy) (s : Section) :
    frequency p (s.text ctx policy).toList
      = (s.isOn ctx policy).toNat * total p (spelled (s.body ctx policy ++ [Line.blank])) := by
  have hpart := frequency_render_parts ctx.indentation hp [s] (Section.isOn ctx policy)
    fun s => s.body ctx policy ++ [Line.blank]
  rwa [List.flatMap_singleton, List.map_singleton, List.sum_singleton] at hpart

/-- Hooks take no part in a sum over the sections to which they add nothing. -/
theorem sum_sections {f : Section → Nat} (hhook : ∀ h, f (.hook h) = 0) :
    (sections.map f).sum = f .imports + f .defineOptions + f .props + f .emits + f .defineModel
      + f .defineSlots + f .defineExpose + f .computed + f .watch := by
  have hhooks : ((Hook.inSetup.map Section.hook).map f).sum = 0 := by
    -- The hooks are many, and each of them adds nothing.
    refine List.sum_eq_zero fun n hn => ?_
    rw [List.map_map] at hn
    rcases List.mem_map.mp hn with ⟨h, _, rfl⟩
    exact hhook h
  rw [sections, List.map_append, List.sum_append, hhooks]
  simp only [List.map_cons, List.map_nil, List.sum_cons, List.sum_nil]
  omega

/-- How often a script names the bound prop: section by section, and never without the pair. -/
theorem frequency_modelValue (ctx : Context) :
    frequency "modelValue".toList (script ctx).toList
      = (pairs ctx).toNat * ((ctx.isOn .props).toNat
          * (if ctx.typed && ctx.isOn .useWithDefaults then 2 else 1)
        + (ctx.isOn .emits).toNat
        + (ctx.isOn .computed).toNat * (1 + (ctx.isOn .emits).toNat)
        + (ctx.isOn .watch).toNat) := by
  have hpolicy : (BindingPolicy.setup ctx).pairsPropEmit = pairs ctx := rfl
  rw [frequency_script (by decide)]
  simp only [(total_body ctx (one_channel ctx) _).1, hpolicy]
  rw [sum_sections fun h => by simp [Section.mentions]]
  simp only [Section.mentions, Section.isOn]
  ring

/-- How often a script names the model macro: once where it is on. -/
theorem frequency_defineModel (ctx : Context) :
    frequency "defineModel".toList (script ctx).toList
      = (ctx.isOn .vModelTemplate && ctx.isOn .useDefineModel).toNat := by
  rw [frequency_script (by decide)]
  simp only [(total_body ctx (one_channel ctx) _).2]
  rw [sum_sections fun h => by simp]
  simp only [Section.isOn, BindingPolicy.setup, reduceCtorEq, if_false, if_true, Nat.mul_zero,
    Nat.mul_one, Nat.zero_add, Nat.add_zero]

/-- How the two channels of a script exclude each other. -/
structure Channels (ctx : Context) : Prop where
  /-- The model macro is there once where it carries the value. -/
  model : frequency "defineModel".toList (script ctx).toList
    = (ctx.isOn .vModelTemplate && ctx.isOn .useDefineModel).toNat
  /-- The bound prop is named where the pair carries it, once or twice by the
      props, once by the events, by the computed value once more if it emits,
      and once by the watcher. -/
  pair : frequency "modelValue".toList (script ctx).toList
    = (pairs ctx).toNat * ((ctx.isOn .props).toNat
        * (if ctx.typed && ctx.isOn .useWithDefaults then 2 else 1)
      + (ctx.isOn .emits).toNat
      + (ctx.isOn .computed).toNat * (1 + (ctx.isOn .emits).toNat)
      + (ctx.isOn .watch).toNat)
  /-- There is never a trace of both. -/
  apart : ¬ ("defineModel".toList <:+: (script ctx).toList
    ∧ "modelValue".toList <:+: (script ctx).toList)
  /-- The macro leaves no section that names the prop. -/
  suppressed : ctx.isOn .vModelTemplate && ctx.isOn .useDefineModel → ∀ s : Section,
    ¬ "modelValue".toList <:+: (s.text ctx (.setup ctx)).toList
  /-- The pair has every section that is on take its shape, and nothing else
      does. -/
  shaped : ∀ s ∈ boundSections, s.gate ctx → ∀ p ∈ s.shape ctx,
    (p.toList <:+: (s.text ctx (.setup ctx)).toList ↔ pairs ctx)

theorem not_pairs_of_model {ctx : Context}
    (h : ctx.isOn .vModelTemplate && ctx.isOn .useDefineModel) : pairs ctx = false := by
  rw [Bool.and_eq_true] at h
  rw [pairs, h.2, Bool.not_true, Bool.and_false]

/-- The channels of every script exclude each other. -/
theorem channels_script (ctx : Context) : Channels ctx where
  model := frequency_defineModel ctx
  pair := frequency_modelValue ctx
  apart := by
    rintro ⟨hdefines, hprop⟩
    rw [← frequency_pos_iff (by decide), frequency_defineModel] at hdefines
    -- A macro that occurs is on, and then the prop cannot occur.
    have hmodel : (ctx.isOn .vModelTemplate && ctx.isOn .useDefineModel) = true := by
      by_contra hoff
      rw [Bool.eq_false_iff.mpr hoff] at hdefines
      exact Nat.lt_irrefl 0 hdefines
    rw [← frequency_pos_iff (by decide), frequency_modelValue, not_pairs_of_model hmodel,
      Bool.toNat_false, Nat.zero_mul] at hprop
    exact Nat.lt_irrefl 0 hprop
  suppressed hmodel s := by
    have htotal := (total_body ctx (one_channel ctx) s).1
    rw [← frequency_eq_zero_iff (by decide), frequency_text (by decide), htotal]
    have hpolicy : (BindingPolicy.setup ctx).pairsPropEmit = false := not_pairs_of_model hmodel
    rw [hpolicy, Bool.toNat_false, Nat.zero_mul, Nat.mul_zero]
  shaped s hs hon p hp := by
    rcases shape_iff ctx (one_channel ctx) hs _ (List.mem_map_of_mem hp) with ⟨hinline, htotal⟩
    -- The section is on, so what is counted in its text is what is counted in its body.
    have hcanonical : boundSections ⊆ canonical := by decide
    rw [← frequency_pos_iff (ne_nil_of_isInline hinline), frequency_text hinline,
      isOn_eq_gate (hcanonical hs), hon, Bool.toNat_true, Nat.one_mul]
    exact htotal

end Scaffold.Script.Setup
