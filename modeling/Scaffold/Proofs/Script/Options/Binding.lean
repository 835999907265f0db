import Mathlib.Data.List.TakeWhile
import Scaffold.Proofs.Script.Object
import Scaffold.Proofs.Script.Options.Layout
import Scaffold.Proofs.Script.Options.Mentions

/-!
# The Binding of Options Scripts

Whether the fields that take part in `v-model` fit together.

The computed value emits an event that the events have to declare, and the hook
before unmounting replaces a watcher that has to be there. `Coherent` says of
the text that they are: whatever is used has been declared above, in the field
that is there for it. A computed value also reads the bound prop, and here the
fields can fail each other, since it does so without props as well. `Coherent`
says that there is no other way.

A field is looked for as the object that begins with its mark. The component's
name can hold such marks too. That does no harm to what is declared, and it
cannot make up for props that are switched off either: an object that begins in
the name would have to end in the name, because the fields after it close all
that they open (`modelValue_notMem_fields`).

## Main definitions

* `earlier`: The fields before a field.
* `Coherent`: The binding of a script holds together.

## Theorems

* `exists_object_of_binding`: The fields that hold a part of the binding.
* `lines_infix_before`: What precedes a mention holds the earlier fields.
* `event_declared`, `handler_declared`, `prop_declared`: What is declared.
* `modelValue_notMem_fields`: What is not, where there are no props.
* `coherent_script`: The binding of every options script holds together.
-/

namespace Scaffold.Script.Options

open Text

section Objects

/-- The declaration of the bound prop is an object with one field. -/
theorem encloses_boundProp (ctx : Context) :
    Encloses ["modelValue".toList] (spelled (boundProp ctx)) := by
  simp only [boundProp, spelled, spelled_append, spelled_braced, spelled_linesIf]
  simp -index only [String.toList_ofList]
  generalize ctx.typed = typed
  revert typed
  decide

/-- That of the event has no field, since what it holds is a function. The event is in it
    nevertheless. -/
theorem encloses_boundEvent (ctx : Context) :
    Encloses [] (spelled (boundEvent ctx))
      ∧ 0 < total "'update:modelValue':".toList (spelled (boundEvent ctx)) := by
  simp only [boundEvent, spelled, toList_annotated, String.toList_append]
  simp -index only [String.toList_ofList]
  generalize ctx.typed = typed
  revert typed
  decide

/-- The watcher of the bound prop is an object with one field, and its handler is in
    it. -/
theorem encloses_boundHandler (ctx : Context) :
    Encloses ["modelValue".toList] (spelled (boundHandler ctx))
      ∧ 0 < total "async handler (".toList (spelled (boundHandler ctx)) := by
  simp only [boundHandler, spelled, spelled_append, spelled_braced, toList_annotated,
    String.toList_append]
  simp -index only [String.toList_ofList]
  generalize ctx.typed = typed
  revert typed
  decide

/-- A field that is on and holds a part of the binding is an object with the
    fields of that part. -/
theorem exists_object_of_binding (ind : Indentation) (ctx : Context) (policy : BindingPolicy)
    (f : Field) {word : String} {body : List Line} {names : List (List Char)}
    (hon : f.isOn ctx) (hpair : policy.pairsPropEmit)
    (hbody : f.body ctx policy = objectField word (linesIf policy.pairsPropEmit body))
    (hopening : word ++ ": " ++ "\x7b" = (Mark.opens f).head)
    (hencloses : Encloses names (spelled body)) :
    ∃ block, HasObject (Mark.text ind (.opens f)) block
        ('\n' :: (render ind (f.lines ctx policy)).toList)
      ∧ Script.fields block = names ∧ (render ind body).toList <:+: block := by
  have hlines : f.lines ctx policy = braced 1 (word ++ ": ") body "," := by
    rw [Field.lines, hon, hbody, hpair]
    rfl
  rw [hlines]
  exact exists_object_of_encloses ind hopening hencloses

end Objects

section Preceding

variable {name : String} (ctx : Context)

/-- The fields before a field. -/
def earlier (t : Field) : List Field := fields.takeWhile (· != t)

theorem earlier_subset (t : Field) : earlier t ⊆ fields := (List.takeWhile_prefix _).subset

theorem ne_of_mem_earlier {f t : Field} (hf : f ∈ earlier t) : f ≠ t :=
  bne_iff_ne.mp (List.mem_takeWhile_imp (p := (· != t)) hf)

/-- The lines of a field are in the text of the object, with a line feed before them. The
    line feed is there because the object does not begin with a field, and the mark of a
    field needs it. -/
theorem newline_lines_infix {fs : List Field} {f : Field} (hf : f ∈ fs) (rest : List Line) :
    '\n' :: (render ctx.indentation (f.lines ctx (.options ctx))).toList
      <:+: (render ctx.indentation
        (headerLines ++ fs.flatMap (Field.lines ctx (.options ctx)) ++ rest)).toList := by
  rcases List.append_of_mem hf with ⟨as, bs, rfl⟩
  have hlines : headerLines ++ (as ++ f :: bs).flatMap (Field.lines ctx (.options ctx)) ++ rest
      = (headerLines ++ as.flatMap (Field.lines ctx (.options ctx)))
        ++ f.lines ctx (.options ctx)
        ++ (bs.flatMap (Field.lines ctx (.options ctx)) ++ rest) := by
    simp only [List.flatMap_append, List.flatMap_cons, List.append_assoc]
  rw [hlines]
  refine newline_render_infix ctx.indentation ?_ _ _
  exact List.append_ne_nil_of_left_ne_nil (List.cons_ne_nil _ _) _

theorem lines_eq_earlier (t : Field) :
    lines ctx = headerLines ++ (earlier t).flatMap (Field.lines ctx (.options ctx))
      ++ ((fields.dropWhile (· != t)).flatMap (Field.lines ctx (.options ctx))
        ++ [⟨0, "\x7d" ++ ");"⟩]) := by
  have hfields : (earlier t).flatMap (Field.lines ctx (.options ctx))
      ++ (fields.dropWhile (· != t)).flatMap (Field.lines ctx (.options ctx))
      = fields.flatMap (Field.lines ctx (.options ctx)) := by
    rw [← List.flatMap_append, earlier, List.takeWhile_append_dropWhile]
  rw [lines_eq, List.append_assoc, List.append_assoc, ← List.append_assoc (List.flatMap _ _),
    hfields]

section Mentioned

variable (hname : ¬ "modelValue".toList <:+: name.toList) {m : Mention} {t : Field}
  (hnot : ∀ f ∈ earlier t, ¬ 0 < f.mentions ctx (.options ctx) m)

include hname hnot

/-- A mention that no field before `t` makes does not occur before `t`, whatever the name
    is. -/
theorem text_notInfix_earlier :
    ¬ m.text.toList <:+: (render ctx.indentation (headerLines
      ++ (earlier t).flatMap (Field.lines (ctx.named name) (.options ctx)))).toList := by
  have hfields : total m.text.toList
      (spelled ((earlier t).flatMap (Field.lines (ctx.named name) (.options ctx)))) = 0 := by
    rw [total_fieldLines]
    refine List.sum_eq_zero fun n hn => ?_
    rcases List.mem_map.mp hn with ⟨f, hf, rfl⟩
    rw [total_body hname ctx (earlier_subset t hf), Nat.eq_zero_of_not_pos (hnot f hf),
      Nat.mul_zero]
  rw [← frequency_eq_zero_iff (ne_nil_of_isInline m.isInline_text),
    frequency_render _ m.isInline_text, spelled_append, total_append, (total_frame m).1, hfields]

/-- What precedes a mention that no field before `t` makes holds all of these
    fields. -/
theorem lines_infix_before {before after : List Char}
    (h : (script name ctx).toList = before ++ m.text.toList ++ after) {f : Field}
    (hf : f ∈ earlier t) :
    '\n' :: (render ctx.indentation (f.lines (ctx.named name) (.options ctx))).toList
      <:+: before := by
  rw [script, lines_eq_earlier (ctx.named name) t, render_append, String.toList_append] at h
  -- The mention is within one line and does not occur before `t`, so all of that comes
  -- before it.
  rcases exists_eq_append_of_absent (newline_notMem_of_isInline m.isInline_text)
    (render_eq_lines _ _) (text_notInfix_earlier ctx hname hnot) h with ⟨u, rfl⟩
  have hlines := newline_lines_infix (ctx.named name) hf []
  rw [List.append_nil] at hlines
  exact hlines.trans (List.prefix_append _ u).isInfix

end Mentioned

end Preceding

section Undeclared

variable (ctx : Context)

/-- A hook closes what it opens, and does not begin as the props do. -/
theorem wording_hook (h : Hook) (policy : BindingPolicy) :
    Balanced (spelled ((Field.hook h).body ctx policy)).flatten
      ∧ total "props: \x7b".toList (spelled ((Field.hook h).body ctx policy)) = 0 := by
  simp only [Field.body, spelled_braced, spelled_linesIf, spelled, String.toList_append]
  generalize policy.stopsWatcher = stops
  revert stops
  cases h <;> simp only [Hook.optionName] <;> simp -index only [String.toList_ofList] <;>
    decide

/-- A field after the name closes what it opens, and only the props are begun as
    the props are. -/
theorem wording_body {f : Field} (hf : f ∈ laterFields) (policy : BindingPolicy) :
    Balanced (spelled (f.body ctx policy)).flatten
      ∧ (f ≠ .props → total "props: \x7b".toList (spelled (f.body ctx policy)) = 0) := by
  cases f with
  | name => exact absurd hf (by decide)
  | hook h => exact ⟨(wording_hook ctx h policy).1, fun _ => (wording_hook ctx h policy).2⟩
  | _ =>
      simp only [Field.body, objectField, boundProp, boundEvent, boundValue, boundHandler, spelled,
        spelled_append, spelled_block, spelled_braced, spelled_linesIf, toList_annotated,
        String.toList_append]
      simp -index only [String.toList_ofList]
      generalize policy.pairsPropEmit = pairs, ctx.typed = typed, ctx.isOn .emits = emits
      revert pairs typed emits
      decide

/-- The fields after the name close what they open. -/
theorem balanced_fields (policy : BindingPolicy) {fs : List Field} (hfs : fs ⊆ laterFields) :
    Balanced (render ctx.indentation (fs.flatMap (Field.lines ctx policy))).toList := by
  rw [Balanced, depth?_render]
  -- The induction is on the fields: one that is off adds nothing, and one that is on is
  -- balanced by itself.
  induction fs with
  | nil => rfl
  | cons f fs ih =>
      rw [List.cons_subset] at hfs
      rw [List.flatMap_cons, spelled_append, List.flatten_append]
      refine Balanced.append ?_ (ih hfs.2)
      rw [Field.lines, spelled_linesIf]
      cases f.isOn ctx
      · rfl
      · exact (wording_body ctx hfs.1 policy).1

theorem laterText_eq :
    laterText ctx
      = (render ctx.indentation (laterFields.flatMap (Field.lines ctx (.options ctx)))).toList
        ++ '\x7d' :: ");\n".toList := by
  rw [laterText, laterLines, linesFrom, render_append, String.toList_append, toList_render_cons,
    Int.ofNat_zero, Indentation.text_zero]
  rfl

/-- Without props nothing after the name begins as the props do. -/
theorem props_notInfix_laterText (hoff : ctx.isOn .props = false) :
    ¬ "props: \x7b".toList <:+: laterText ctx := by
  have hfields : total "props: \x7b".toList
      (spelled (laterFields.flatMap (Field.lines ctx (.options ctx)))) = 0 := by
    rw [total_fieldLines]
    refine List.sum_eq_zero fun n hn => ?_
    rcases List.mem_map.mp hn with ⟨f, hf, rfl⟩
    -- Of the props nothing is there, and no other field begins as they do.
    by_cases hprops : f = .props
    · rw [hprops, Field.isOn, hoff, Bool.toNat_false, Nat.zero_mul]
    · rw [(wording_body ctx hf (.options ctx)).2 hprops, Nat.mul_zero]
  have hclosing : total "props: \x7b".toList (spelled [⟨0, "\x7d);"⟩]) = 0 := by decide
  rw [← frequency_eq_zero_iff (by decide), laterText, laterLines,
    frequency_render _ (by decide), linesFrom, spelled_append, total_append, hfields, hclosing]

/-- Up to the name there is nothing that names the bound prop. -/
theorem modelValue_notInfix_beginning {name : String}
    (hname : ¬ "modelValue".toList <:+: name.toList) :
    ¬ "modelValue".toList
      <:+: (render ctx.indentation (headerLines ++ nameLines ctx name)).toList := by
  have hline : total "modelValue".toList (spelled (nameLines ctx name)) = 0 := by
    rw [nameLines, spelled_linesIf]
    cases ctx.isOn .name
    · rfl
    · exact total_nameLine hname .names
  rw [← frequency_eq_zero_iff (by decide), frequency_render _ (by decide), spelled_append,
    total_append, hline]
  exact (total_frame .names).1

/-- Without props no object that begins as the props do declares the bound
    prop, not even one that the name begins. -/
theorem modelValue_notMem_fields {name : String} (hname : ¬ "modelValue".toList <:+: name.toList)
    (hoff : ctx.isOn .props = false) {block : List Char}
    (h : HasObject (Mark.text ctx.indentation (.opens .props)) block (script name ctx).toList) :
    "modelValue".toList ∉ Script.fields block := by
  intro hmem
  rcases h with ⟨⟨u, v, huv⟩, hbalanced⟩
  have htext : (render ctx.indentation (headerLines ++ nameLines ctx name)).toList ++ laterText ctx
      = (u ++ ("\n" ++ ctx.indentation.text 1).toList) ++ "props: \x7b".toList
        ++ (block ++ '\x7d' :: ',' :: v) := by
    have hopening : (Mark.text ctx.indentation (.opens .props)).toList
        = ("\n" ++ ctx.indentation.text 1).toList ++ "props: \x7b".toList := by
      rw [← String.toList_append]
      rfl
    rw [render_append, String.toList_append, List.append_assoc, ← toList_script, ← huv, hopening]
    simp only [List.append_assoc]
    rfl
  -- The object begins with the name at the latest, so it ends there as well.
  rcases exists_append_eq_of_absent (by decide) (render_eq_lines _ _)
    (props_notInfix_laterText ctx hoff) htext with ⟨t, ht⟩
  have hwithin : block <:+: t := by
    rw [ht, laterText_eq, ← List.append_assoc _ block] at htext
    exact infix_of_object hbalanced (balanced_fields ctx _ (List.Subset.refl laterFields))
      (by decide) htext
  -- But there the bound prop is not to be found.
  refine modelValue_notInfix_beginning ctx hname ?_
  rw [ht]
  exact ((infix_of_mem_fields hmem).trans hwithin).trans (List.suffix_append _ t).isInfix

end Undeclared

section Declared

variable {name : String} (hname : ¬ "modelValue".toList <:+: name.toList) (ctx : Context)

include hname

/-- Where the event is emitted, an object before it declares it. -/
theorem event_declared {before after : List Char}
    (h : (script name ctx).toList = before ++ Mention.updates.text.toList ++ after) :
    ∃ block, HasObject (Mark.text ctx.indentation (.opens .emits)) block before
      ∧ "'update:modelValue':".toList <:+: block := by
  rcases (updates_infix_script_iff hname ctx).mp ⟨before, after, h.symm⟩ with ⟨hpair, _, hemits⟩
  -- Only the computed value emits, and it comes after the events.
  have hlines := lines_infix_before ctx hname (t := .computed)
    (fun f hf hm => ne_of_mem_earlier hf ((mentions_updates_pos_iff ctx _ f).mp hm).1) h
    (f := .emits) (by decide)
  rcases exists_object_of_binding ctx.indentation (ctx.named name) (.options ctx) .emits
    hemits hpair rfl (by decide) (encloses_boundEvent _).1 with
    ⟨block, hblock, _, hbody⟩
  refine ⟨block, hblock.mono hlines, List.IsInfix.trans ?_ hbody⟩
  exact infix_render_of_total_pos _ (by decide) (encloses_boundEvent _).2

/-- Where the watcher is replaced, an object before it declares it, with its handler. -/
theorem handler_declared {before after : List Char}
    (h : (script name ctx).toList = before ++ Mention.watches.text.toList ++ after) :
    ∃ block, HasObject (Mark.text ctx.indentation (.opens .watch)) block before
      ∧ Script.fields block = ["modelValue".toList] ∧ "async handler (".toList <:+: block := by
  rcases (watches_infix_script_iff hname ctx).mp ⟨before, after, h.symm⟩ with
    ⟨hpair, hwatch, _, _⟩
  -- Only the hook replaces the watcher, and it comes after the watcher.
  have hlines := lines_infix_before ctx hname (t := .hook .beforeUnmount)
    (fun f hf hm => ne_of_mem_earlier hf ((mentions_watches_pos_iff ctx _ f).mp hm).1) h
    (f := .watch) (by decide)
  rcases exists_object_of_binding ctx.indentation (ctx.named name) (.options ctx) .watch
    hwatch hpair rfl (by decide) (encloses_boundHandler _).1 with
    ⟨block, hblock, hfields, hbody⟩
  refine ⟨block, hblock.mono hlines, hfields, List.IsInfix.trans ?_ hbody⟩
  exact infix_render_of_total_pos _ (by decide) (encloses_boundHandler _).2

omit hname in
theorem prop_declared (hprops : ctx.isOn .props) (hpair : ctx.isOn .vModelTemplate) :
    ∃ block, HasObject (Mark.text ctx.indentation (.opens .props)) block (script name ctx).toList
      ∧ "modelValue".toList ∈ Script.fields block := by
  rcases exists_object_of_binding ctx.indentation (ctx.named name) (.options ctx) .props
    hprops hpair rfl (by decide) (encloses_boundProp _) with
    ⟨block, hblock, hfields, _⟩
  refine ⟨block, hblock.mono ?_, ?_⟩
  · exact newline_lines_infix (ctx.named name) (by decide) _
  · rw [hfields]
    exact List.mem_singleton_self _

/-- The bound prop is read without being declared where a computed value reads it and
    props are off. That nothing declares it is the hard part: a name can begin like props,
    but what it begins cannot hold the bound prop. -/
theorem undeclared_iff :
    Mention.reads.text.toList <:+: (script name ctx).toList
        ∧ (¬ ∃ block, HasObject (Mark.text ctx.indentation (.opens .props)) block
            (script name ctx).toList
          ∧ "modelValue".toList ∈ Script.fields block)
      ↔ ctx.isOn .vModelTemplate ∧ ctx.isOn .computed ∧ ctx.isOn .props = false := by
  rw [reads_infix_script_iff hname]
  constructor
  · rintro ⟨⟨hpair, hcomputed⟩, hnone⟩
    refine ⟨hpair, hcomputed, ?_⟩
    by_contra hprops
    exact hnone (prop_declared ctx (by simpa only [Bool.not_eq_false] using hprops) hpair)
  · rintro ⟨hpair, hcomputed, hoff⟩
    refine ⟨⟨hpair, hcomputed⟩, ?_⟩
    rintro ⟨block, hblock, hmem⟩
    exact modelValue_notMem_fields ctx hname hoff hblock hmem

end Declared

/-- How the binding holds together in the text of an options script. -/
structure Coherent (ctx : Context) (s : List Char) : Prop where
  /-- The bound prop is named once by the props and by the events, by the
      computed value once more if it emits, once by the watcher, and twice by
      the hook that replaces it. -/
  counted : frequency "modelValue".toList s
    = (ctx.isOn .vModelTemplate).toNat * ((ctx.isOn .props).toNat + (ctx.isOn .emits).toNat
      + (ctx.isOn .computed).toNat * (1 + (ctx.isOn .emits).toNat)
      + (ctx.isOn .watch).toNat
      + 2 * (ctx.isOn .lifecycleHooks && ctx.isOn (.hook .beforeUnmount)
        && ctx.isOn .watch).toNat)
  /-- The computed value emits where there are events, -/
  emits_iff : "this.$emit('update:modelValue', value)".toList <:+: s
    ↔ ctx.isOn .vModelTemplate ∧ ctx.isOn .computed ∧ ctx.isOn .emits
  /-- and the event has been declared. -/
  event : ∀ before after,
    s = before ++ "this.$emit('update:modelValue', value)".toList ++ after →
    ∃ block, HasObject (Mark.text ctx.indentation (.opens .emits)) block before
      ∧ "'update:modelValue':".toList <:+: block
  /-- The watcher is replaced where there is one and the hook for it, -/
  watches_iff : "this.$watch('modelValue'".toList <:+: s
    ↔ ctx.isOn .vModelTemplate ∧ ctx.isOn .watch ∧ ctx.isOn .lifecycleHooks
      ∧ ctx.isOn (.hook .beforeUnmount)
  /-- and it has been declared, with its handler. -/
  handler : ∀ before after, s = before ++ "this.$watch('modelValue'".toList ++ after →
    ∃ block, HasObject (Mark.text ctx.indentation (.opens .watch)) block before
      ∧ Script.fields block = ["modelValue".toList] ∧ "async handler (".toList <:+: block
  /-- The bound prop is read where no props declare it, by a computed value
      without props and by nothing else. -/
  undeclared_iff : "this.modelValue".toList <:+: s
      ∧ (¬ ∃ block, HasObject (Mark.text ctx.indentation (.opens .props)) block s
        ∧ "modelValue".toList ∈ Script.fields block)
    ↔ ctx.isOn .vModelTemplate ∧ ctx.isOn .computed ∧ ctx.isOn .props = false

/-- The binding of every options script holds together, as long as the
    component's name does not have that of the bound prop in it. -/
theorem coherent_script {name : String} (hname : ¬ "modelValue".toList <:+: name.toList)
    (ctx : Context) : Coherent ctx (script name ctx).toList where
  counted := frequency_modelValue hname ctx
  emits_iff := updates_infix_script_iff hname ctx
  event _ _ h := event_declared hname ctx h
  watches_iff := watches_infix_script_iff hname ctx
  handler _ _ h := handler_declared hname ctx h
  undeclared_iff := undeclared_iff hname ctx

/-- A name that reads like a field, and closes what it opens. -/
def imitation : String := "App',\n  props: \x7b\n  \x7d,\n  name: '"

/-- Props that a name imitates do not declare the bound prop. -/
theorem coherent_script_imitation :
    ¬ "modelValue".toList <:+: imitation.toList
      ∧ frequency "modelValue".toList
        (script imitation (typedWithout [.props])).toList = 6
      ∧ "this.modelValue".toList <:+: (script imitation (typedWithout [.props])).toList
      ∧ ¬ ∃ block, HasObject (Mark.text (typedWithout [.props]).indentation (.opens .props)) block
          (script imitation (typedWithout [.props])).toList
        ∧ "modelValue".toList ∈ Script.fields block := by
  have hname : ¬ "modelValue".toList <:+: imitation.toList := by decide
  have hcoherent := coherent_script hname (typedWithout [.props])
  refine ⟨hname, ?_, ?_⟩
  · exact hcoherent.counted.trans (by decide)
  · exact hcoherent.undeclared_iff.mpr (by decide)

end Scaffold.Script.Options
