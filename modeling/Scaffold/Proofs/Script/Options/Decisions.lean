import Mathlib.Data.List.Basic
import Scaffold.Proofs.Script.Options.Outline

/-!
# Decisions of Options Scripts

Which toggles an options script depends on, and that the component's name can
be read back from it whatever the name is.

The name is written between quotes as it is, so it may itself hold quotes,
line feeds and whole fields. It can still be told where it ends. If the same
text could be read with two names, the longer one would go on, after the end of
the shorter one, in the fields of the one script up to a place that looks like
its own end. There is only one such place in the fields, the empty default of
the bound prop; what follows it there is a closing brace, and the fields of the
other script do not begin with that.

With the name out of the way the lines that follow are the same, and they show
the remaining decisions by their headings.

## Main definitions

* `Agree`: The decisions that two contexts have to share.
* `laterText`: The text after the name.

## Theorems

* `lines_eq_of_agree`: Fields depend on the decisions alone.
* `toList_script`: A script is the beginning, the name and the fields.
* `eq_nil_of_terminated`: A text that ends in one place only.
* `name_eq_of_append_eq`: The name can be read back.
* `named_script_eq_iff`: Scripts are equal exactly where the decisions and the
  visible names are.
-/

namespace Scaffold.Script.Options

open Text

/-- Whether a field is on that depends on `v-model`. -/
def readsBinding (ctx : Context) : Bool :=
  ctx.isOn .props || ctx.isOn .emits || ctx.isOn .computed || ctx.isOn .watch

/-- What two contexts have to agree on to write the same options script for the
    same name. -/
structure Agree (a b : Context) : Prop where
  name : a.isOn .name = b.isOn .name
  components : a.isOn .components = b.isOn .components
  directives : a.isOn .directives = b.isOn .directives
  inheritance : a.isOn .inheritance = b.isOn .inheritance
  mixins : a.isOn .mixins = b.isOn .mixins
  provideInject : a.isOn .provideInject = b.isOn .provideInject
  inheritAttrs : a.isOn .inheritAttrs = b.isOn .inheritAttrs
  props : a.isOn .props = b.isOn .props
  emits : a.isOn .emits = b.isOn .emits
  setup : a.isOn .setup = b.isOn .setup
  data : a.isOn .data = b.isOn .data
  computed : a.isOn .computed = b.isOn .computed
  watch : a.isOn .watch = b.isOn .watch
  methods : a.isOn .methods = b.isOn .methods
  /-- The master switch and the hook's own. -/
  hooks : ∀ h, a.isHookOn h = b.isHookOn h
  /-- The binding, where a field depends on it. -/
  binding : readsBinding a → a.isOn .vModelTemplate = b.isOn .vModelTemplate

section Agreement

variable {a b : Context}

/-- Whether a field is on is a decision. -/
theorem isOn_eq_of_agree (h : Agree a b) (f : Field) : f.isOn a = f.isOn b := by
  cases f with
  | name => exact h.name
  | components => exact h.components
  | directives => exact h.directives
  | inheritance => exact h.inheritance
  | mixins => exact h.mixins
  | provideInject => exact h.provideInject
  | inheritAttrs => exact h.inheritAttrs
  | props => exact h.props
  | emits => exact h.emits
  | setup => exact h.setup
  | data => exact h.data
  | computed => exact h.computed
  | watch => exact h.watch
  | hook k => exact h.hooks k
  | methods => exact h.methods

/-- Where a field reads the binding, the whole policy is shared. -/
theorem policy_eq_of_agree (h : Agree a b) (hreads : readsBinding a) :
    BindingPolicy.options a = BindingPolicy.options b := by
  rw [BindingPolicy.options, BindingPolicy.options, h.binding hreads, h.watch]

/-- The text of a field that is on depends on the decisions alone. Where it is off, what
    it would read need not be shared. -/
theorem body_eq_of_agree (h : Agree a b) (htyped : a.typed = b.typed) {f : Field}
    (hf : f ∈ laterFields) (hon : f.isOn a) :
    f.body a (.options a) = f.body b (.options b) := by
  cases f with
  | name => exact absurd hf (by decide)
  | props =>
      replace hon : a.isOn .props := hon
      have hpolicy := policy_eq_of_agree h (by rw [readsBinding, hon]; rfl)
      simp only [Field.body, boundProp, hpolicy, htyped]
  | emits =>
      replace hon : a.isOn .emits := hon
      have hpolicy := policy_eq_of_agree h (by rw [readsBinding, hon, Bool.or_true]; rfl)
      simp only [Field.body, boundEvent, hpolicy, htyped]
  | computed =>
      replace hon : a.isOn .computed := hon
      have hpolicy := policy_eq_of_agree h (by rw [readsBinding, hon, Bool.or_true]; rfl)
      simp only [Field.body, boundValue, hpolicy, htyped, h.emits]
  | watch =>
      replace hon : a.isOn .watch := hon
      have hpolicy := policy_eq_of_agree h (by rw [readsBinding, hon, Bool.or_true])
      simp only [Field.body, boundHandler, hpolicy, htyped]
  | hook k =>
      -- The watcher is only stopped where there is one, so the binding is shared.
      have hstops : (BindingPolicy.options a).stopsWatcher
          = (BindingPolicy.options b).stopsWatcher := by
        cases hwatch : a.isOn .watch with
        | false => simp only [BindingPolicy.options, ← h.watch, hwatch, Bool.and_false]
        | true => rw [policy_eq_of_agree h (by rw [readsBinding, hwatch, Bool.or_true])]
      simp only [Field.body, hstops]
  | _ => rfl

/-- The lines of a field depend on the decisions alone. The name is left out, since it is
    not a decision. -/
theorem lines_eq_of_agree (h : Agree a b) (htyped : a.typed = b.typed) {f : Field}
    (hf : f ∈ laterFields) : f.lines a (.options a) = f.lines b (.options b) := by
  have hon := isOn_eq_of_agree h f
  unfold Field.lines
  cases ha : f.isOn a with
  | false =>
      rw [← hon, ha]
      rfl
  | true => rw [← hon, ha, body_eq_of_agree h htyped hf ha]

end Agreement

section Text

variable (ctx : Context) (name : String)

/-- The lines after the name. -/
def laterLines : List Line := linesFrom ctx (.options ctx) laterFields

/-- The text after the name. -/
def laterText : List Char := (render ctx.indentation (laterLines ctx)).toList

/-- The line that holds the name, if there is one. -/
def nameLines : List Line := linesIf (ctx.isOn .name) [⟨1, "name: '" ++ name ++ "',"⟩]

/-- The lines before the fields. -/
def headerLines : List Line :=
  [⟨0, "import \x7b defineComponent \x7d from 'vue'"⟩, Line.blank,
    ⟨0, "export default defineComponent(" ++ "\x7b"⟩]

/-- The lines of an object under a name: the name is in one of them at most, and the
    others do not depend on it. -/
theorem lines_named :
    lines (ctx.named name) = headerLines ++ (nameLines ctx name ++ laterLines ctx) := by
  -- No other field reads the name.
  have hlater : laterFields.flatMap (Field.lines (ctx.named name) (.options (ctx.named name)))
      = laterFields.flatMap (Field.lines ctx (.options ctx)) := by
    refine List.flatMap_congr fun f hf => ?_
    cases f with
    | name => exact absurd hf (by decide)
    | _ => rfl
  have hclosing : "\x7d" ++ ");" = "\x7d);" := by decide
  have hname : Field.name.lines (ctx.named name) (.options (ctx.named name))
      = nameLines ctx name := rfl
  rw [lines, fields_eq, List.flatMap_cons, hlater, hname, braced, block, hclosing, headerLines,
    laterLines, linesFrom]
  simp only [List.append_assoc, List.cons_append, List.nil_append]

/-- A script as what comes before the name, the line with the name, and what comes
    after. -/
theorem toList_script :
    (script name ctx).toList
      = (render ctx.indentation headerLines).toList
        ++ ((render ctx.indentation (nameLines ctx name)).toList ++ laterText ctx) := by
  rw [laterText, ← String.toList_append, ← render_append, ← String.toList_append,
    ← render_append, ← lines_named]
  rfl

end Text

section Reading

variable (ctx : Context)

theorem reads_laterLines : Reads ctx (.options ctx) laterFields (spelled (laterLines ctx)) :=
  reads_linesFrom ctx (.options ctx) (List.Subset.refl laterFields)

theorem isKnown_of_mem_laterLines {l : Line} (hl : l ∈ laterLines ctx) :
    IsKnown l.text.toList :=
  forall_text_of_spelled (reads_laterLines ctx).known l hl

/-- Lines after the name are plain, so they can be read back from a text. -/
theorem isPlain_of_mem_laterLines : ∀ l ∈ laterLines ctx, l.IsPlain := fun _ hl =>
  ⟨(isKnown_of_mem_laterLines ctx hl).1, (isKnown_of_mem_laterLines ctx hl).2.1⟩

/-- The text after the name begins with a line, which is neither a name nor a
    closing brace. -/
theorem dropWhile_laterText :
    ∃ cs rest, (laterText ctx).dropWhile isIndent = cs ++ '\n' :: rest ∧ '\n' ∉ cs
      ∧ cs.head? ≠ some 'n' ∧ cs ≠ "\x7d,".toList := by
  have hne : laterLines ctx ≠ [] :=
    List.append_ne_nil_of_right_ne_nil _ (List.cons_ne_nil _ _)
  rcases List.exists_cons_of_ne_nil hne with ⟨l, ls, hlines⟩
  have hl : l ∈ laterLines ctx := by
    rw [hlines]
    exact List.mem_cons_self
  have hhead := (reads_laterLines ctx).head_ne
  rw [hlines, spelled, List.head?_cons, ne_eq, Option.some_inj] at hhead
  rcases isKnown_of_mem_laterLines ctx hl with ⟨hfeed, _, hlength, hn⟩
  refine ⟨l.text.toList, (render ctx.indentation ls).toList, ?_, hfeed, hn, hhead⟩
  have hnonempty : l.text.toList ≠ [] := List.ne_nil_of_length_pos (by omega)
  rw [laterText, hlines,
    dropWhile_render_cons ctx.indentation (isPlain_of_mem_laterLines ctx l hl) hnonempty]

/-- Where the text after the name goes on as after a name, a closing brace
    follows. -/
theorem closes_of_laterText_eq {before after : List Char}
    (h : laterText ctx = before ++ "',".toList ++ '\n' :: after) :
    ∃ rest, after.dropWhile isIndent = "\x7d,".toList ++ '\n' :: rest := by
  rcases exists_line_of_lineFeed ctx.indentation (isPlain_of_mem_laterLines ctx) h with
    ⟨xs, l, ys, hlines, hafter, hbefore⟩
  have hplain := isPlain_of_mem_laterLines ctx
  have hknown := isKnown_of_mem_laterLines ctx (l := l)
  have hguarded := (reads_laterLines ctx).guarded
  rw [hlines] at hplain hknown hguarded
  -- The line that ends here is long enough to end as a name does.
  have hends : "',".toList <:+ l.text.toList := by
    have hsuffix : "',".toList <:+ before ++ "',".toList := List.suffix_append _ _
    rw [hbefore] at hsuffix
    refine List.suffix_of_suffix_length_le hsuffix (List.suffix_append _ _) ?_
    exact (hknown (List.mem_append_right xs List.mem_cons_self)).2.2.1
  rw [spelled_append, spelled] at hguarded
  have hnext := (isGuarded_of_append hguarded).1 hends
  cases ys with
  | nil => exact absurd hnext (by decide)
  | cons l' ls =>
      rw [spelled, List.head?_cons, Option.some_inj] at hnext
      have hl' : l' ∈ xs ++ l :: l' :: ls :=
        List.mem_append_right xs (List.mem_cons_of_mem l List.mem_cons_self)
      refine ⟨(render ctx.indentation ls).toList, ?_⟩
      rw [hafter, dropWhile_render_cons ctx.indentation (hplain l' hl') (by rw [hnext]; decide),
        hnext]

end Reading

/-- A text that goes on with `c` and two other characters, and does so in one
    place only, cannot go on with anything before that. -/
theorem eq_nil_of_terminated {α : Type} {c d e : α} (hd : d ≠ c) (he : e ≠ c)
    {xs as bs : List α} (has : ∀ us, as ≠ us ++ c :: d :: e :: bs)
    (h : c :: d :: e :: as = xs ++ c :: d :: e :: bs) : xs = [] := by
  cases xs with
  | nil => rfl
  | cons x xs =>
      have h₁ := (List.cons.inj h).2
      cases xs with
      | nil => exact absurd (List.cons.inj h₁).1 hd
      | cons y xs =>
          have h₂ := (List.cons.inj h₁).2
          cases xs with
          | nil => exact absurd (List.cons.inj h₂).1 he
          | cons z xs => exact absurd (List.cons.inj h₂).2 (has xs)

section Decoding

variable {a b : Context} {n m : String}

/-- No part of the text after a name goes on like a name with another text after it: at
    such a place a closing brace follows, and no text after a name begins with one. -/
theorem laterText_ne (us : List Char) :
    laterText a ≠ us ++ "',".toList ++ '\n' :: laterText b := by
  intro h
  rcases closes_of_laterText_eq a h with ⟨rest, hcloses⟩
  rcases dropWhile_laterText b with ⟨cs, ls, hline, hfeed, _, hne⟩
  rw [hline] at hcloses
  exact hne (line_eq_of_append_newline_eq hfeed (by decide) hcloses)

/-- The name ends in one place only. -/
theorem name_eq_of_append_eq
    (h : n.toList ++ ("',".toList ++ '\n' :: laterText a)
      = m.toList ++ ("',".toList ++ '\n' :: laterText b)) : n = m := by
  obtain ⟨c, hend, hcomma, hfeed⟩ : ∃ c, "',".toList = [c, ','] ∧ ',' ≠ c ∧ '\n' ≠ c :=
    ⟨_, rfl, by decide, by decide⟩
  have hne (a b : Context) (us : List Char) :
      laterText a ≠ us ++ c :: ',' :: '\n' :: laterText b := by
    have hlater := laterText_ne (a := a) (b := b) us
    rwa [hend, List.append_assoc] at hlater
  simp only [hend, List.cons_append, List.nil_append] at h
  -- One of the names begins with the other, and goes on with nothing.
  rw [List.append_eq_append_iff] at h
  rw [← String.toList_inj]
  rcases h with ⟨xs, hm, hrest⟩ | ⟨xs, hn, hrest⟩
  · rw [hm, eq_nil_of_terminated hcomma hfeed (hne a b) hrest, List.append_nil]
  · rw [hn, eq_nil_of_terminated hcomma hfeed (hne b a) hrest, List.append_nil]

/-- The fields do not begin as a line with a name does. -/
theorem name_append_ne_laterText {xs : List Char} (hxs : ∀ c ∈ xs, isIndent c)
    (ys : List Char) : xs ++ ("name: '".toList ++ ys) ≠ laterText b := by
  intro h
  have hname : "name: '".toList = 'n' :: "ame: '".toList := rfl
  rcases dropWhile_laterText b with ⟨cs, ls, hline, _, hn, _⟩
  rw [← h, List.dropWhile_append_of_pos hxs, hname, List.cons_append,
    List.dropWhile_cons_of_neg (by decide)] at hline
  -- Without its indentation the one text begins with the letter that the other
  -- one does not begin with.
  cases cs with
  | nil => exact absurd (List.cons.inj hline).1 (by decide)
  | cons c cs =>
      rw [List.head?_cons, ← (List.cons.inj hline).1] at hn
      exact hn rfl

theorem toList_nameLines_append (ind : Indentation) {ctx : Context} (hon : ctx.isOn .name)
    (name : String) (after : List Char) :
    (render ind (nameLines ctx name)).toList ++ after
      = (ind.text 1).toList
        ++ ("name: '".toList ++ (name.toList ++ ("',".toList ++ '\n' :: after))) := by
  have hline : (render ind [⟨1, "name: '" ++ name ++ "',"⟩]).toList
      = (ind.text 1).toList ++ ("name: '".toList ++ name.toList ++ "',".toList) ++ ['\n'] := by
    rw [toList_render_cons, String.toList_append, String.toList_append]
    rfl
  rw [nameLines, hon]
  refine (congrArg (· ++ after) hline).trans ?_
  simp only [List.append_assoc, List.singleton_append]

theorem toList_nameLines_of_off (ind : Indentation) {ctx : Context}
    (hoff : ctx.isOn .name = false) (name : String) :
    (render ind (nameLines ctx name)).toList = [] := by
  rw [nameLines, hoff]
  rfl

/-- What can be read back from a script: whether there is a name, the name, and
    the fields. -/
theorem parts_eq_of_script_eq (hindentation : a.indentation = b.indentation)
    (h : script n a = script m b) :
    a.isOn .name = b.isOn .name ∧ (a.isOn .name → n = m) ∧ laterText a = laterText b := by
  have hindent : ∀ c ∈ (b.indentation.text 1).toList, isIndent c :=
    fun _ hc => isIndent_of_mem_text b.indentation hc
  have htext := congrArg String.toList h
  rw [toList_script, toList_script, hindentation] at htext
  replace htext := List.append_cancel_left htext
  -- A name on one side only would stand where the fields begin on the other.
  cases ha : a.isOn .name with
  | false =>
      rw [toList_nameLines_of_off _ ha, List.nil_append] at htext
      cases hb : b.isOn .name with
      | false =>
          rw [toList_nameLines_of_off _ hb, List.nil_append] at htext
          exact ⟨rfl, fun hon => absurd hon (by decide), htext⟩
      | true =>
          rw [toList_nameLines_append _ hb] at htext
          exact absurd htext.symm (name_append_ne_laterText hindent _)
  | true =>
      rw [toList_nameLines_append _ ha] at htext
      cases hb : b.isOn .name with
      | false =>
          rw [toList_nameLines_of_off _ hb, List.nil_append] at htext
          exact absurd htext (name_append_ne_laterText hindent _)
      | true =>
          rw [toList_nameLines_append _ hb] at htext
          have hrest := List.append_cancel_left (List.append_cancel_left htext)
          have hname := name_eq_of_append_eq hrest
          rw [hname] at hrest
          have hlater := List.append_cancel_left (List.append_cancel_left hrest)
          exact ⟨rfl, fun _ => hname, (List.cons.inj hlater).2⟩

end Decoding

/-- The headings of the fields of a script. -/
def shown (ctx : Context) : List Heading := headings (spelled (laterLines ctx))

theorem mem_shown (ctx : Context) (t : Heading) :
    t ∈ shown ctx ↔ ∃ f ∈ laterFields, f.isOn ctx ∧ t ∈ f.outline (.options ctx) := by
  rw [shown, (reads_laterLines ctx).headings_eq, List.mem_flatMap]
  simp only [List.mem_filter, and_assoc]

theorem opens_mem_shown {f : Field} (hf : f ∈ laterFields) (ctx : Context) :
    .opens f ∈ shown ctx ↔ f.isOn ctx := by
  rw [mem_shown]
  constructor
  · rintro ⟨g, hg, hon, hmem⟩
    rw [opens_mem_outline hg] at hmem
    rwa [hmem]
  · intro hon
    exact ⟨f, hf, hon, (opens_mem_outline hf _).mpr rfl⟩

/-- The binding shows where `v-model` is on and there is a field that it adds to. -/
theorem bindings_mem_shown (ctx : Context) :
    (∃ t ∈ bindings, t ∈ shown ctx) ↔ readsBinding ctx ∧ ctx.isOn .vModelTemplate := by
  have hreads : readsBinding ctx ↔ ∃ f ∈ [Field.props, .emits, .computed, .watch], f.isOn ctx := by
    simp [readsBinding, Field.isOn, or_assoc]
  rw [hreads]
  simp only [mem_shown]
  constructor
  · rintro ⟨t, ht, f, _, hon, hmem⟩
    rcases (bindings_mem_outline f (.options ctx)).mp ⟨t, ht, hmem⟩ with ⟨hf, hbinds⟩
    exact ⟨⟨f, hf, hon⟩, hbinds⟩
  · rintro ⟨⟨f, hf, hon⟩, hbinds⟩
    rcases (bindings_mem_outline f (.options ctx)).mpr ⟨hf, hbinds⟩ with ⟨t, ht, hmem⟩
    -- All four fields come after the name.
    have hfields : [Field.props, .emits, .computed, .watch] ⊆ laterFields := by decide
    exact ⟨t, ht, f, hfields hf, hon, hmem⟩

section Kernel

variable {a b : Context} {n m : String}

/-- Equal texts after the name show the same headings. The lines can be read back from the
    text, since they are plain and indented by the same unit. -/
theorem shown_eq_of_laterText_eq (hindentation : a.indentation = b.indentation)
    (h : laterText a = laterText b) : shown a = shown b := by
  rw [laterText, laterText, hindentation] at h
  rw [shown, shown, spelled_eq_map, spelled_eq_map,
    map_text_eq_of_render_eq _ (isPlain_of_mem_laterLines a) (isPlain_of_mem_laterLines b) h]

/-- Scripts that are equal show the same decisions, and the same name if they show one. -/
theorem agree_of_script_eq (hindentation : a.indentation = b.indentation)
    (h : script n a = script m b) : Agree a b ∧ (a.isOn .name → n = m) := by
  rcases parts_eq_of_script_eq hindentation h with ⟨hname, hsame, hlater⟩
  have hshown := shown_eq_of_laterText_eq hindentation hlater
  -- Every field shows whether it is on.
  have hgate : ∀ f ∈ laterFields, f.isOn a = f.isOn b := by
    intro f hf
    rw [Bool.eq_iff_iff, ← opens_mem_shown hf a, hshown, opens_mem_shown hf b]
  have hreads : readsBinding a = readsBinding b := by
    have hprops : a.isOn .props = b.isOn .props := hgate .props (by decide)
    have hemits : a.isOn .emits = b.isOn .emits := hgate .emits (by decide)
    have hcomputed : a.isOn .computed = b.isOn .computed := hgate .computed (by decide)
    have hwatch : a.isOn .watch = b.isOn .watch := hgate .watch (by decide)
    rw [readsBinding, readsBinding, hprops, hemits, hcomputed, hwatch]
  refine ⟨⟨hname, ?_, ?_, ?_, ?_, ?_, ?_, ?_, ?_, ?_, ?_, ?_, ?_, ?_, ?_, ?_⟩, hsame⟩
  · exact hgate .components (by decide)
  · exact hgate .directives (by decide)
  · exact hgate .inheritance (by decide)
  · exact hgate .mixins (by decide)
  · exact hgate .provideInject (by decide)
  · exact hgate .inheritAttrs (by decide)
  · exact hgate .props (by decide)
  · exact hgate .emits (by decide)
  · exact hgate .setup (by decide)
  · exact hgate .data (by decide)
  · exact hgate .computed (by decide)
  · exact hgate .watch (by decide)
  · exact hgate .methods (by decide)
  · -- Every hook has a field of its own.
    intro k
    refine hgate (.hook k) ?_
    simp [laterFields, Hook.mem_all]
  · -- The fields that read the binding are the same in both, so both show it or neither
    -- does.
    intro ha
    have hbinds := bindings_mem_shown a
    rw [hshown, bindings_mem_shown b, ← hreads] at hbinds
    simp only [ha, true_and] at hbinds
    exact Bool.eq_iff_iff.mpr hbinds.symm

/-- Scripts are equal exactly where the decisions and the visible names are. -/
theorem named_script_eq_iff (htyped : a.typed = b.typed)
    (hindentation : a.indentation = b.indentation) :
    script n a = script m b ↔ Agree a b ∧ (a.isOn .name → n = m) := by
  constructor
  · exact agree_of_script_eq hindentation
  · rintro ⟨h, hsame⟩
    -- A name that is not written need not be the same.
    have hname : nameLines a n = nameLines b m := by
      cases ha : a.isOn .name with
      | false => rw [nameLines, nameLines, ← h.name, ha]; rfl
      | true => rw [nameLines, nameLines, ← h.name, hsame ha]
    have hlater : laterLines a = laterLines b := by
      rw [laterLines, laterLines, linesFrom, linesFrom,
        List.flatMap_congr fun f hf => lines_eq_of_agree h htyped hf]
    have hlines : lines (a.named n) = lines (b.named m) := by
      rw [lines_named, lines_named, hname, hlater]
    change render a.indentation _ = render b.indentation _
    rw [hlines, hindentation]

end Kernel

/-- The default features of a typed object without some of them. -/
def typedWithout (disable : List Feature) : Context :=
  ({ typed := true } : Context).withFeatures [] disable

/-- A name that is not written makes no difference, and neither does the model
    macro. A name that goes on like the object is another name. -/
theorem named_script_eq_iff_imitation :
    script "One" (typedWithout [.name, .useDefineModel]) = script "Two" (typedWithout [.name])
      ∧ script "One" (typedWithout [])
        ≠ script "One',\n  components: \x7b\n  \x7d,\n  name: 'Two" (typedWithout []) := by
  have htyped (ds ds' : List Feature) : (typedWithout ds).typed = (typedWithout ds').typed := rfl
  have hindentation (ds ds' : List Feature) :
      (typedWithout ds).indentation = (typedWithout ds').indentation := rfl
  constructor
  · refine (named_script_eq_iff (htyped _ _) (hindentation _ _)).mpr ⟨?_, ?_⟩
    · exact ⟨rfl, rfl, rfl, rfl, rfl, rfl, rfl, rfl, rfl, rfl, rfl, rfl, rfl, rfl,
        fun h => by cases h <;> rfl, fun _ => rfl⟩
    · exact fun hname => absurd hname (by decide)
  · intro h
    have hsame := ((named_script_eq_iff (htyped _ _) (hindentation _ _)).mp h).2 rfl
    exact absurd hsame (by decide)

end Scaffold.Script.Options
