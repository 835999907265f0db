import Mathlib.Data.List.TakeWhile
import Scaffold.Proofs.Script.Block
import Scaffold.Proofs.Script.Setup.Outline

/-!
# References between the Sections of a Setup Script

Whether what a section uses has been declared by a section above it.

A section that uses the event emitter, the model, the handle of the watcher or
the props is generated apart from the section that declares them, from other
switches. `References` says of the text what ties them together. Every use has
the declaration before it, complete, and what is declared there has the event
or the field that is used. The props are the one exception: they can be read
where they are not declared, and `References.undeclared_iff` says exactly when.

A use cannot stand in the sections up to the one that declares, so the text
before a use holds that section as a whole (`lines_infix_before`). What is in
it is a matter of the section alone.

## Main definitions

* `Holds`: A phrase occurs in a text.
* `Precedes`: Every occurrence of a phrase has another one before it.
* `watching`: The beginning of a watcher of some source.
* `PropsDeclared`: The props are declared, with some fields.
* `References`: The references of a setup script.

## Theorems

* `lines_infix_before`: What precedes a use holds the earlier sections.
* `propsDeclared_lines`: The section that declares the props.
* `eventsDeclared_lines`: The section that declares the events.
* `holds_stopsWatcher_iff`, `holds_updatesBound_iff`, `holds_readsBound_iff`,
  `holds_readsText_iff`, `holds_watching_iff`: Which scripts use what.
* `references_script`: The references of every setup script.
-/

namespace Scaffold.Script.Setup

open Text

/-- A phrase occurs in a text. -/
def Holds (p : String) (s : List Char) : Prop := p.toList <:+: s

/-- Every occurrence of the second phrase has an occurrence of the first one
    that is complete before it begins. -/
def Precedes (p q : String) (s : List Char) : Prop :=
  ∀ before after, s = before ++ q.toList ++ after → p.toList <:+: before

/-- The beginning of a watcher, up to the callback, with the source that it
    watches. -/
def watching (ind : Indentation) (source : String) : String :=
  "const stopWatch = watch(" ++ "\n" ++ ind.text 1 ++ source ++ ", async ("

/-- The props are declared with the given fields: by one object or, where typed
    props have defaults, by an interface and defaults for the same fields. -/
def PropsDeclared (ctx : Context) (names : List (List Char)) (s : List Char) : Prop :=
  if ctx.typed && ctx.isOn .useWithDefaults then
    ∃ interface defaults, HasBlock "interface Props \x7b" "\x7d" interface s
      ∧ HasBlock "const props = withDefaults(defineProps<Props>(), \x7b" "\x7d);" defaults s
      ∧ fields interface = names ∧ fields defaults = names
  else
    ∃ block, HasBlock "const props = defineProps(\x7b" "\x7d);" block s ∧ fields block = names

/-- What declares the props in a part of a text declares them in the text. -/
theorem PropsDeclared.mono {ctx : Context} {names : List (List Char)} {s t : List Char}
    (h : PropsDeclared ctx names s) (hst : s <:+: t) : PropsDeclared ctx names t := by
  unfold PropsDeclared at h ⊢
  by_cases hdefaults : (ctx.typed && ctx.isOn .useWithDefaults) = true
  · rw [if_pos hdefaults] at h ⊢
    rcases h with ⟨interface, defaults, hinterface, hgiven, hnames⟩
    exact ⟨interface, defaults, hinterface.mono hst, hgiven.mono hst, hnames⟩
  · rw [if_neg hdefaults] at h ⊢
    rcases h with ⟨block, hblock, hnames⟩
    exact ⟨block, hblock.mono hst, hnames⟩

/-- What the text of a setup script uses, and what it declares for it. -/
structure References (ctx : Context) (s : List Char) : Prop where
  /-- The watcher is stopped where there is one and the hook for it. -/
  stops_iff : Holds "stopWatch();" s
    ↔ ctx.isOn .watch ∧ ctx.isOn .lifecycleHooks ∧ ctx.isOn (.hook .beforeUnmount)
  /-- The handle by which it is stopped is declared. -/
  handle : Precedes "const stopWatch = watch(" "stopWatch();" s
  /-- The event by which the value is updated is declared. -/
  event : ∀ before after, s = before ++ "emit('update:modelValue', value)".toList ++ after →
    ∃ block, HasBlock "const emit = defineEmits(\x7b" "\x7d);" block before
      ∧ Holds "'update:modelValue':" block
  /-- The model that is watched is declared. -/
  model : Precedes "const model = defineModel" (watching ctx.indentation "model") s
  /-- Props that are on are declared, -/
  declared : ctx.isOn .props → ∃ names, PropsDeclared ctx names s
  /-- and a prop that is read is among those declared before. -/
  field : ctx.isOn .props → ∀ name ∈ ["modelValue", "text"], ∀ before after,
    s = before ++ ("props." ++ name).toList ++ after →
    ∃ names, PropsDeclared ctx names before ∧ name.toList ∈ names
  /-- Props are read without a declaration where they are off and the value is
      bound without a model, by a computed value or by the watcher. -/
  undeclared_iff : Holds "props." s ∧ ¬ Holds "const props" s
    ↔ ctx.isOn .props = false ∧ ctx.isOn .vModelTemplate ∧ ctx.isOn .useDefineModel = false
      ∧ (ctx.isOn .computed ∨ ctx.isOn .watch)

/-- The sections before a section. -/
def earlier (t : Section) : List Section := sections.takeWhile (· != t)

theorem earlier_subset (t : Section) : earlier t ⊆ sections :=
  (List.takeWhile_prefix _).subset

/-- A section does not come before itself, which is why a use can come no earlier than its
    own section. -/
theorem ne_of_mem_earlier {s t : Section} (h : s ∈ earlier t) : s ≠ t :=
  bne_iff_ne.mp (List.mem_takeWhile_imp (p := (· != t)) h)

theorem toList_script_earlier (ctx : Context) (t : Section) :
    (script ctx).toList
      = (render ctx.indentation
          ((earlier t).flatMap (Section.lines ctx (.setup ctx)))).toList
        ++ (render ctx.indentation
          ((sections.dropWhile (· != t)).flatMap (Section.lines ctx (.setup ctx)))).toList := by
  rw [script_eq_render, ← String.toList_append, ← render_append, ← List.flatMap_append, earlier,
    List.takeWhile_append_dropWhile]

theorem lines_infix_flatMap {ctx : Context} {policy : BindingPolicy} {ss : List Section}
    {s : Section} (hs : s ∈ ss) :
    s.lines ctx policy <:+: ss.flatMap (Section.lines ctx policy) := by
  rcases List.append_of_mem hs with ⟨before, after, rfl⟩
  rw [List.flatMap_append, List.flatMap_cons, ← List.append_assoc]
  exact ⟨_, _, rfl⟩

/-- What precedes a phrase that no section before `t` has in its outline holds
    all of these sections. -/
theorem lines_infix_before {ctx : Context} {p : Phrase} (hp : p ∈ Phrase.all) {t : Section}
    (hnot : ∀ s ∈ earlier t, p ∉ s.outline ctx (.setup ctx)) {before after : List Char}
    (h : (script ctx).toList = before ++ p.text.toList ++ after) {s : Section}
    (hs : s ∈ earlier t) :
    (render ctx.indentation (s.lines ctx (.setup ctx))).toList <:+: before := by
  have hinline := Phrase.isInline_text hp
  -- The phrase is within one line, so it could only have begun there if it occurred
  -- there.
  have habsent : ¬ p.text.toList <:+: (render ctx.indentation
      ((earlier t).flatMap (Section.lines ctx (.setup ctx)))).toList := by
    -- A phrase that occurs there is in the outline of a section that is on.
    intro hinfix
    have hmem := (mem_occurrences (ne_nil_of_isInline hinline) _).mpr ⟨hp, hinfix⟩
    rw [mem_occurrences_render _ _ _ (earlier_subset t)] at hmem
    rcases hmem with ⟨s, hs, _, houtline⟩
    exact hnot s hs houtline
  -- So the use comes after all of these sections, and after `s` with them.
  rw [toList_script_earlier ctx t] at h
  rcases exists_eq_append_of_absent (newline_notMem_of_isInline hinline)
    (render_eq_lines _ _) habsent h with ⟨u, rfl⟩
  exact (render_infix_mono ctx.indentation (lines_infix_flatMap hs)).trans
    (List.prefix_append _ u).isInfix

section Uses

variable (ctx : Context) (policy : BindingPolicy) (s : Section)

/-- Only the last hook before unmounting stops the watcher. -/
theorem stopsWatcher_mem_outline :
    .stopsWatcher ∈ s.outline ctx policy ↔ s = .hook .beforeUnmount ∧ policy.stopsWatcher := by
  cases s <;> simp [Section.outline]

/-- Only a computed value updates the bound one, and only where there are events to
    emit. -/
theorem updatesBound_mem_outline :
    .updatesBound ∈ s.outline ctx policy
      ↔ s = .computed ∧ policy.pairsPropEmit ∧ ctx.isOn .emits := by
  cases s <;> simp [Section.outline]

/-- Only the watcher declares a handle, and it always does. -/
theorem declaresHandle_mem_outline :
    .declaresHandle ∈ s.outline ctx policy ↔ s = .watch := by
  cases s <;> simp [Section.outline]

/-- Only the watcher watches the model. -/
theorem watchesModel_mem_outline :
    .watchesModel ∈ s.outline ctx policy ↔ s = .watch ∧ policy.definesModel := by
  cases s <;> simp [Section.outline]

/-- The bound prop is read by a computed value, and by the watcher where there is no model
    to watch instead. -/
theorem readsBound_mem_outline :
    .readsBound ∈ s.outline ctx policy
      ↔ policy.pairsPropEmit ∧ (s = .computed ∨ s = .watch ∧ ¬ policy.definesModel) := by
  cases s <;> simp [Section.outline, and_comm]

/-- The placeholder is read by the watcher where there is nothing else to watch. This is
    the one use of the props that asks for them to be on. -/
theorem readsText_mem_outline :
    .readsText ∈ s.outline ctx policy
      ↔ s = .watch ∧ ¬ policy.definesModel ∧ ¬ policy.pairsPropEmit ∧ ctx.isOn .props := by
  cases s <;> simp [Section.outline]

/-- A prop that is read is the bound one or the placeholder. -/
theorem readsProp_mem_outline :
    .readsProp ∈ s.outline ctx policy
      ↔ .readsBound ∈ s.outline ctx policy ∨ .readsText ∈ s.outline ctx policy := by
  cases s <;> simp [Section.outline]

end Uses

section Declarations

variable (ind : Indentation) (ctx : Context) (policy : BindingPolicy)

/-- The fields of the props. Those that have defaults are one more. -/
def propNames : List (List Char) :=
  if policy.pairsPropEmit then ["modelValue".toList]
  else if ctx.typed && ctx.isOn .useWithDefaults then ["text".toList, "count".toList]
  else ["text".toList]

/-- Props without defaults are declared by one object. -/
theorem exists_block_plainProps :
    ∃ block, HasBlock "const props = defineProps(\x7b" "\x7d);" block
        (render ind (plainProps ctx policy)).toList
      ∧ fields block
        = if policy.pairsPropEmit then ["modelValue".toList] else ["text".toList] := by
  unfold plainProps
  refine exists_block_of_declares ind (by simp) (by simp) (by decide) ?_
  -- One computation for both kinds of props, typed or not.
  simp only [spelled, spelled_append, spelled_braced, spelled_ite, spelled_linesIf]
  simp -index only [String.toList_ofList]
  generalize policy.pairsPropEmit = pairs, ctx.typed = typed
  revert pairs typed
  decide +kernel

/-- Typed props with defaults are declared by an interface and by an object that gives the
    defaults, and both have the same fields. -/
theorem exists_blocks_propsWithDefaults :
    ∃ interface defaults,
      HasBlock "interface Props \x7b" "\x7d" interface
        (render ind (propsWithDefaults policy)).toList
      ∧ HasBlock "const props = withDefaults(defineProps<Props>(), \x7b" "\x7d);" defaults
        (render ind (propsWithDefaults policy)).toList
      ∧ fields interface = (if policy.pairsPropEmit then ["modelValue".toList]
        else ["text".toList, "count".toList])
      ∧ fields defaults = (if policy.pairsPropEmit then ["modelValue".toList]
        else ["text".toList, "count".toList]) := by
  -- The interface ends at its own brace, before the defaults begin.
  have hinterface : ∃ block, HasBlock "interface Props \x7b" "\x7d" block
      (render ind (braced 0 "interface Props "
        (if policy.pairsPropEmit then [⟨1, "modelValue?: string;"⟩]
          else [⟨1, "text?: string;"⟩, ⟨1, "count?: number;"⟩]) "")).toList
      ∧ fields block = (if policy.pairsPropEmit then ["modelValue".toList]
        else ["text".toList, "count".toList]) := by
    refine exists_block_of_declares ind (by simp) (by simp) (by decide) ?_
    simp only [spelled, spelled_ite]
    simp -index only [String.toList_ofList]
    generalize policy.pairsPropEmit = pairs
    revert pairs
    decide +kernel
  have hdefaults : ∃ block,
      HasBlock "const props = withDefaults(defineProps<Props>(), \x7b" "\x7d);" block
        (render ind (braced 0 "const props = withDefaults(defineProps<Props>(), "
          (if policy.pairsPropEmit then [⟨1, "modelValue: '',"⟩]
            else [⟨1, "text: '',"⟩, ⟨1, "count: 0,"⟩]) ");")).toList
      ∧ fields block = (if policy.pairsPropEmit then ["modelValue".toList]
        else ["text".toList, "count".toList]) := by
    refine exists_block_of_declares ind (by simp) (by simp) (by decide) ?_
    simp only [spelled, spelled_ite]
    simp -index only [String.toList_ofList]
    generalize policy.pairsPropEmit = pairs
    revert pairs
    decide +kernel
  -- Both blocks are parts of the section.
  rcases hinterface with ⟨interface, hinterface, hnames⟩
  rcases hdefaults with ⟨defaults, hdefaults, hsame⟩
  refine ⟨interface, defaults, hinterface.mono ?_, hdefaults.mono ?_, hnames, hsame⟩
  · refine render_infix_mono ind ?_
    unfold propsWithDefaults
    rw [List.append_assoc]
    exact ⟨_, _, rfl⟩
  · refine render_infix_mono ind ?_
    unfold propsWithDefaults
    exact (List.suffix_append _ _).isInfix

/-- The lines of a section that is on hold its text, and an empty line behind it. -/
theorem body_infix_lines {ctx : Context} {policy : BindingPolicy} {s : Section}
    (hon : s.isOn ctx policy) : s.body ctx policy <:+: s.lines ctx policy := by
  rw [Section.lines, hon]
  exact (List.prefix_append _ _).isInfix

/-- The section of the props declares them, whichever of its two forms it has. -/
theorem propsDeclared_lines (hon : ctx.isOn .props) :
    PropsDeclared ctx (propNames ctx policy)
      (render ind (Section.props.lines ctx policy)).toList := by
  have hbody : (render ind (Section.props.body ctx policy)).toList
      <:+: (render ind (Section.props.lines ctx policy)).toList :=
    render_infix_mono ind (body_infix_lines (s := .props) hon)
  rw [Section.body] at hbody
  unfold PropsDeclared propNames
  -- Both forms are blocks of the section's own text.
  cases hdefaults : ctx.typed && ctx.isOn .useWithDefaults with
  | true =>
      rw [hdefaults] at hbody
      rcases exists_blocks_propsWithDefaults ind policy with
        ⟨interface, defaults, hinterface, hgiven, hfields⟩
      exact ⟨interface, defaults, hinterface.mono hbody, hgiven.mono hbody, hfields⟩
  | false =>
      rw [hdefaults] at hbody
      rcases exists_block_plainProps ind ctx policy with ⟨block, hblock, hfields⟩
      exact ⟨block, hblock.mono hbody, hfields⟩

/-- The section of the events declares the event that updates the bound value. -/
theorem eventsDeclared_lines (hon : ctx.isOn .emits) (hpair : policy.pairsPropEmit) :
    ∃ block, HasBlock "const emit = defineEmits(\x7b" "\x7d);" block
        (render ind (Section.emits.lines ctx policy)).toList
      ∧ Holds "'update:modelValue':" block := by
  have hbody : (render ind (braced 0 "const emit = defineEmits(" (events ctx policy) ");")).toList
      <:+: (render ind (Section.emits.lines ctx policy)).toList :=
    render_infix_mono ind (body_infix_lines (s := .emits) hon)
  -- No line within the events ends them, so the block that begins there ends at the
  -- last line.
  have hopen : ∀ l ∈ events ctx policy, ¬ "\x7d);".toList <:+: l.text.toList := by
    refine forall_text_of_spelled (P := fun cs => ¬ "\x7d);".toList <:+: cs) ?_
    unfold events
    simp only [spelled, spelled_ite, toList_annotated, String.toList_append]
    simp -index only [String.toList_ofList]
    generalize policy.pairsPropEmit = pairs, policy.definesModel = defines, ctx.typed = typed,
      ctx.isOn .props = props
    revert pairs defines typed props
    decide +kernel
  refine ⟨'\n' :: (render ind (events ctx policy)).toList, ?_, ?_⟩
  · exact (hasBlock_braced ind (by simp) (by simp) (by decide) hopen).mono hbody
  · -- What follows the name of the event depends on the types, but not that it is
    -- there.
    rw [Holds, List.infix_cons_iff, infix_render_iff ind (by decide), events, if_pos hpair]
    refine Or.inr ⟨_, List.mem_cons_of_mem _ (List.mem_singleton_self _), ?_⟩
    have hhead : "'update:modelValue':".toList <+: "'update:modelValue': (value".toList := by
      decide
    rw [String.toList_append, String.toList_append, List.append_assoc]
    exact (List.prefix_append_of_prefix hhead).isInfix

end Declarations

section Occurring

variable (ctx : Context)

/-- A phrase occurs where a section that is on has it in its outline. -/
theorem holds_script_iff {p : Phrase} (hp : p ∈ Phrase.all) :
    Holds p.text (script ctx).toList
      ↔ ∃ s ∈ sections, s.isOn ctx (.setup ctx) ∧ p ∈ s.outline ctx (.setup ctx) := by
  rw [← mem_occurrences_script, mem_occurrences (ne_nil_of_isInline (Phrase.isInline_text hp))]
  exact (and_iff_right hp).symm

/-- A phrase in the outline of a section that is on is in the text of this section. Where
    the section is the only one to have it, that places the phrase. -/
theorem text_infix_lines {p : Phrase} (hp : p ∈ Phrase.all) {s : Section} (hs : s ∈ sections)
    (hon : s.isOn ctx (.setup ctx)) (hmem : p ∈ s.outline ctx (.setup ctx)) :
    p.text.toList
      <:+: (render ctx.indentation (s.lines ctx (.setup ctx))).toList := by
  have hss : [s] ⊆ sections := List.cons_subset.mpr ⟨hs, List.nil_subset sections⟩
  have hocc := (mem_occurrences_render ctx.indentation ctx (.setup ctx) hss p).mpr
    ⟨s, List.mem_singleton_self s, hon, hmem⟩
  rw [List.flatMap_singleton,
    mem_occurrences (ne_nil_of_isInline (Phrase.isInline_text hp))] at hocc
  exact hocc.2

/-- A script stops the watcher where there is one and the hook for it. -/
theorem holds_stopsWatcher_iff :
    Holds "stopWatch();" (script ctx).toList
      ↔ ctx.isOn .watch ∧ ctx.isOn .lifecycleHooks ∧ ctx.isOn (.hook .beforeUnmount) := by
  -- The hook has a function, so its two switches are all that it takes.
  have hhook : (Section.hook .beforeUnmount).isOn ctx (.setup ctx)
      ↔ ctx.isOn .lifecycleHooks ∧ ctx.isOn (.hook .beforeUnmount) := by
    rw [← Bool.and_eq_true]
    rfl
  rw [← hhook]
  refine (holds_script_iff ctx (p := .stopsWatcher) (by decide)).trans ?_
  simp only [stopsWatcher_mem_outline]
  constructor
  · rintro ⟨_, _, hon, rfl, hstops⟩
    exact ⟨hstops, hon⟩
  · rintro ⟨hstops, hon⟩
    exact ⟨_, by decide, hon, rfl, hstops⟩

theorem holds_updatesBound_iff :
    Holds "emit('update:modelValue', value)" (script ctx).toList
      ↔ ctx.isOn .computed ∧ ctx.isOn .emits ∧ (BindingPolicy.setup ctx).pairsPropEmit := by
  refine (holds_script_iff ctx (p := .updatesBound) (by decide)).trans ?_
  simp only [updatesBound_mem_outline]
  constructor
  · rintro ⟨_, _, hon, rfl, hpair, hemits⟩
    exact ⟨hon, hemits, hpair⟩
  · rintro ⟨hon, hemits, hpair⟩
    exact ⟨.computed, by decide, hon, rfl, hpair, hemits⟩

/-- A script reads the bound prop where the pair carries the value and there is something
    to read it. -/
theorem holds_readsBound_iff :
    Holds "props.modelValue" (script ctx).toList
      ↔ (BindingPolicy.setup ctx).pairsPropEmit ∧ (ctx.isOn .computed ∨ ctx.isOn .watch) := by
  refine (holds_script_iff ctx (p := .readsBound) (by decide)).trans ?_
  simp only [readsBound_mem_outline]
  constructor
  · rintro ⟨_, _, hon, hpair, rfl | ⟨rfl, _⟩⟩
    · exact ⟨hpair, Or.inl hon⟩
    · exact ⟨hpair, Or.inr hon⟩
  · rintro ⟨hpair, hon | hon⟩
    · exact ⟨.computed, by decide, hon, hpair, Or.inl rfl⟩
    · exact ⟨.watch, by decide, hon, hpair,
        Or.inr ⟨rfl, not_definesModel_of_pairsPropEmit hpair⟩⟩

theorem holds_readsText_iff :
    Holds "props.text" (script ctx).toList
      ↔ ctx.isOn .watch ∧ ¬ (BindingPolicy.setup ctx).definesModel
        ∧ ¬ (BindingPolicy.setup ctx).pairsPropEmit ∧ ctx.isOn .props := by
  refine (holds_script_iff ctx (p := .readsText) (by decide)).trans ?_
  simp only [readsText_mem_outline]
  constructor
  · rintro ⟨_, _, hon, rfl, hplaceholder⟩
    exact ⟨hon, hplaceholder⟩
  · rintro ⟨hon, hplaceholder⟩
    exact ⟨.watch, by decide, hon, rfl, hplaceholder⟩

/-- There is no third prop that is read. -/
theorem holds_readsProp_iff :
    Holds "props." (script ctx).toList
      ↔ Holds "props.modelValue" (script ctx).toList ∨ Holds "props.text" (script ctx).toList := by
  -- The outlines have the shorter phrase exactly where they have a longer one.
  have hprop := holds_script_iff ctx (p := .readsProp) (by decide)
  have hbound := holds_script_iff ctx (p := .readsBound) (by decide)
  have htext := holds_script_iff ctx (p := .readsText) (by decide)
  simp only [readsProp_mem_outline, and_or_left, exists_or] at hprop
  rw [← hbound, ← htext] at hprop
  exact hprop

theorem holds_constProps_iff :
    Holds "const props" (script ctx).toList ↔ ctx.isOn .props := by
  refine (holds_script_iff ctx (p := .opens .props) (by decide)).trans ?_
  rw [← mem_occurrences_script, script_eq_render,
    opens_mem_occurrences_render _ _ _ (List.Subset.refl sections) (by decide)]
  exact and_iff_right (by decide)

/-- The beginning of a watcher as three pieces: its first line, the indentation of the
    second and what that one begins with. -/
theorem toList_watching (ind : Indentation) (source : String) :
    (watching ind source).toList = "const stopWatch = watch(".toList
      ++ '\n' :: ((ind.text 1).toList ++ (source ++ ", async (").toList) := by
  unfold watching
  rw [String.toList_append, String.toList_append, String.toList_append, String.toList_append,
    String.toList_append]
  simp only [List.append_assoc]
  rfl

/-- A watcher begins with what it watches. -/
theorem watching_prefix_watcher (ind : Indentation) (policy : BindingPolicy) :
    (watching ind (watchSource ctx policy)).toList
      <+: (render ind (watcher ctx policy)).toList := by
  have hcallback : ", async (_newValue".toList = ", async (".toList ++ "_newValue".toList := rfl
  -- Both sides are cut at the first line feed and at the indentation, so that only the
  -- callback is left.
  unfold watcher
  rw [toList_watching, block, List.cons_append, toList_render_cons, braced, block,
    List.cons_append, List.cons_append, List.cons_append, toList_render_cons, Int.ofNat_zero,
    Indentation.text_zero]
  simp only [String.toList_append, hcallback, List.append_assoc]
  refine (List.prefix_append_right_inj _).mpr (List.cons_prefix_cons.mpr ⟨rfl, ?_⟩)
  refine (List.prefix_append_right_inj _).mpr ((List.prefix_append_right_inj _).mpr ?_)
  exact List.prefix_append _ _

/-- A script watches the model where there is a watcher and a model. -/
theorem holds_watching_iff :
    Holds (watching ctx.indentation "model") (script ctx).toList
      ↔ ctx.isOn .watch ∧ (BindingPolicy.setup ctx).definesModel := by
  constructor
  · -- The second line of the beginning has the phrase for the model in it.
    intro h
    have hsource : Phrase.watchesModel.text = "model" ++ ", async (" := by decide
    rw [Holds, toList_watching, ← hsource] at h
    have hsuffix := (List.suffix_append (ctx.indentation.text 1).toList
      Phrase.watchesModel.text.toList).trans (List.suffix_cons '\n' _)
    have hwatches := (hsuffix.trans (List.suffix_append _ _)).isInfix.trans h
    rcases (holds_script_iff ctx (by decide)).mp hwatches with ⟨s, _, hon, hmem⟩
    rcases (watchesModel_mem_outline ctx _ s).mp hmem with ⟨rfl, hmodel⟩
    exact ⟨hon, hmodel⟩
  · rintro ⟨hon, hmodel⟩
    have hsource : watchSource ctx (.setup ctx) = "model" := by rw [watchSource, if_pos hmodel]
    have hbegins := watching_prefix_watcher ctx ctx.indentation (.setup ctx)
    rw [hsource] at hbegins
    have hlines : watcher ctx (.setup ctx) <:+: lines ctx :=
      (body_infix_lines (s := .watch) hon).trans (lines_infix_flatMap (by decide))
    exact hbegins.isInfix.trans (render_infix_mono ctx.indentation hlines)

end Occurring

section Preceding

variable (ctx : Context)

/-- Where the watcher is stopped, its handle has been declared. -/
theorem handle_precedes :
    Precedes "const stopWatch = watch(" "stopWatch();" (script ctx).toList := by
  intro before after h
  have hwatch : Section.watch.isOn ctx (.setup ctx) :=
    ((holds_stopsWatcher_iff ctx).mp ⟨before, after, h.symm⟩).1
  -- The hook that stops the watcher comes after the section that starts it.
  have hlines := lines_infix_before (p := .stopsWatcher) (t := .hook .beforeUnmount) (by decide)
    (fun s hs hmem => ne_of_mem_earlier hs ((stopsWatcher_mem_outline ctx _ s).mp hmem).1) h
    (s := .watch) (by decide)
  have hdeclares := (declaresHandle_mem_outline ctx (.setup ctx) .watch).mpr rfl
  exact (text_infix_lines ctx (by decide) (by decide) hwatch hdeclares).trans hlines

/-- Where an event is emitted, it has been declared. -/
theorem event_declared {before after : List Char}
    (h : (script ctx).toList = before ++ "emit('update:modelValue', value)".toList ++ after) :
    ∃ block, HasBlock "const emit = defineEmits(\x7b" "\x7d);" block before
      ∧ Holds "'update:modelValue':" block := by
  rcases (holds_updatesBound_iff ctx).mp ⟨before, after, h.symm⟩ with ⟨_, hemits, hpair⟩
  -- Only a computed value emits, and it comes after the events.
  have hlines := lines_infix_before (p := .updatesBound) (t := .computed) (by decide)
    (fun s hs hmem => ne_of_mem_earlier hs ((updatesBound_mem_outline ctx _ s).mp hmem).1) h
    (s := .emits) (by decide)
  rcases eventsDeclared_lines ctx.indentation ctx (.setup ctx) hemits hpair with
    ⟨block, hblock, hevent⟩
  exact ⟨block, hblock.mono hlines, hevent⟩

/-- Where the model is watched, it has been declared. -/
theorem model_precedes :
    Precedes "const model = defineModel" (watching ctx.indentation "model")
      (script ctx).toList := by
  intro before after h
  have hmodel : Section.defineModel.isOn ctx (.setup ctx) :=
    ((holds_watching_iff ctx).mp ⟨before, after, h.symm⟩).2
  -- The watcher begins with the handle, which no section before it declares.
  rw [toList_watching, ← List.append_assoc, List.append_assoc (before ++ _)] at h
  have hlines := lines_infix_before (p := .declaresHandle) (t := .watch) (by decide)
    (fun s hs hmem => ne_of_mem_earlier hs ((declaresHandle_mem_outline ctx _ s).mp hmem)) h
    (s := .defineModel) (by decide)
  have hdeclares := (opens_mem_outline (s := .defineModel) (by decide) ctx (.setup ctx)).mpr rfl
  exact (text_infix_lines ctx (by decide) (by decide) hmodel hdeclares).trans hlines

/-- Where a section from the computed value on reads a prop, the props have been
    declared. -/
theorem propsDeclared_before (hon : ctx.isOn .props) {p : Phrase} (hp : p ∈ Phrase.all)
    (hnot : ∀ s ∈ earlier .computed, p ∉ s.outline ctx (.setup ctx)) {before after : List Char}
    (h : (script ctx).toList = before ++ p.text.toList ++ after) :
    PropsDeclared ctx (propNames ctx (.setup ctx)) before :=
  (propsDeclared_lines ctx.indentation ctx (.setup ctx) hon).mono
    (lines_infix_before hp hnot h (by decide))

/-- Where a prop is read, it is one of those that have been declared. Which of the two it
    is tells how the value is bound, and the props have been declared accordingly. -/
theorem field_declared (hon : ctx.isOn .props) {name : String}
    (hname : name ∈ ["modelValue", "text"]) {before after : List Char}
    (h : (script ctx).toList = before ++ ("props." ++ name).toList ++ after) :
    ∃ names, PropsDeclared ctx names before ∧ name.toList ∈ names := by
  have hwatch : .watch ∉ earlier .computed := by decide
  refine ⟨propNames ctx (.setup ctx), ?_⟩
  simp only [List.mem_cons, List.not_mem_nil, or_false] at hname
  rcases hname with rfl | rfl
  · -- The bound prop is read only where the value is bound.
    have htext : "props." ++ "modelValue" = Phrase.readsBound.text := by decide
    rw [htext] at h
    rcases (holds_readsBound_iff ctx).mp ⟨before, after, h.symm⟩ with ⟨hpair, _⟩
    refine ⟨propsDeclared_before ctx hon (by decide) ?_ h, ?_⟩
    · intro s hs hmem
      rcases ((readsBound_mem_outline ctx _ s).mp hmem).2 with rfl | ⟨rfl, _⟩
      · exact ne_of_mem_earlier hs rfl
      · exact hwatch hs
    · rw [propNames, if_pos hpair]
      exact List.mem_singleton_self _
  · -- The placeholder is read only where it is not.
    have htext : "props." ++ "text" = Phrase.readsText.text := by decide
    rw [htext] at h
    rcases (holds_readsText_iff ctx).mp ⟨before, after, h.symm⟩ with ⟨_, _, hpair, _⟩
    refine ⟨propsDeclared_before ctx hon (by decide) ?_ h, ?_⟩
    · intro s hs hmem
      rcases (readsText_mem_outline ctx _ s).mp hmem with ⟨rfl, _⟩
      exact hwatch hs
    · rw [propNames, if_neg hpair]
      split <;> exact List.mem_cons_self

/-- Props are read without a declaration where they are off and the value is bound without
    a model. -/
theorem undeclared_iff :
    Holds "props." (script ctx).toList ∧ ¬ Holds "const props" (script ctx).toList
      ↔ ctx.isOn .props = false ∧ ctx.isOn .vModelTemplate ∧ ctx.isOn .useDefineModel = false
        ∧ (ctx.isOn .computed ∨ ctx.isOn .watch) := by
  have hpair : (BindingPolicy.setup ctx).pairsPropEmit
      ↔ ctx.isOn .vModelTemplate ∧ ctx.isOn .useDefineModel = false := by
    simp [BindingPolicy.setup]
  rw [holds_readsProp_iff, holds_readsBound_iff, holds_readsText_iff, holds_constProps_iff, hpair,
    Bool.not_eq_true (ctx.isOn .props)]
  constructor
  · -- The placeholder is only read where props are on.
    rintro ⟨⟨⟨hbinds, hmacro⟩, hreads⟩ | ⟨_, _, _, hprops⟩, hoff⟩
    · exact ⟨hoff, hbinds, hmacro, hreads⟩
    · rw [hoff] at hprops
      exact absurd hprops (by decide)
  · rintro ⟨hoff, hbinds, hmacro, hreads⟩
    exact ⟨Or.inl ⟨⟨hbinds, hmacro⟩, hreads⟩, hoff⟩

end Preceding

/-- The references of every setup script. -/
theorem references_script (ctx : Context) : References ctx (script ctx).toList where
  stops_iff := holds_stopsWatcher_iff ctx
  handle := handle_precedes ctx
  event _ _ h := event_declared ctx h
  model := model_precedes ctx
  declared hon := by
    refine ⟨_, (propsDeclared_lines ctx.indentation ctx (.setup ctx) hon).mono ?_⟩
    exact render_infix_mono ctx.indentation (lines_infix_flatMap (by decide))
  field hon _ hname _ _ h := field_declared ctx hon hname h
  undeclared_iff := undeclared_iff ctx

end Scaffold.Script.Setup
