import Scaffold.Proofs.Script.Rendering
import Scaffold.Proofs.Script.Spelling
import Scaffold.Script.Options

/-!
# Outlines of Options Scripts

What the lines of an options object after the component's name look like.

Every field begins with a line that no other field has, and the three things
that `v-model` adds to a field have a line of their own each. Such lines are
headings, and the outline of a field lists its headings in order. They are
compared as whole lines, since one opening can be a part of another.

The name is the one thing in the object that is not known in advance. To tell
where it ends, `IsGuarded` collects what the known lines have that a line with
the name in it could not have. In particular a line that ends as the name does
is always followed by a closing brace, and no field begins with one.

## Main definitions

* `laterFields`: The fields after the name.
* `Field.opening`: The first line of a field.
* `Heading`: The lines that are looked for.
* `Field.outline`: The headings of a field, in order.
* `IsGuarded`: Lines among which no name can end.

## Theorems

* `hasWording_body`: The wording of every field is as its outline has it.
* `reads_linesFrom`: What is known of the lines from any field on to the end.
* `opens_mem_outline`, `bindings_mem_outline`: Which fields have a heading.
-/

namespace Scaffold.Script.Options

open Text

/-- The fields after the name. -/
def laterFields : List Field :=
  [.components, .directives, .inheritance, .mixins, .provideInject, .inheritAttrs, .props,
    .emits, .setup, .data, .computed, .watch] ++ Hook.all.map .hook ++ [.methods]

theorem fields_eq : fields = .name :: laterFields := rfl

/-- The first line of a field after the name. -/
def Field.opening : Field → String
  | name => ""
  | components => "components: \x7b"
  | directives => "directives: \x7b"
  | inheritance => "extends: \x7b"
  | mixins => "mixins: ["
  | provideInject => "provide: \x7b"
  | inheritAttrs => "inheritAttrs: false,"
  | props => "props: \x7b"
  | emits => "emits: \x7b"
  | setup => "setup() \x7b"
  | data => "data() \x7b"
  | computed => "computed: \x7b"
  | watch => "watch: \x7b"
  | hook h => h.optionName ++ "() \x7b"
  | methods => "methods: \x7b"

/-- A line that shows a decision. -/
inductive Heading where
  /-- The first line of a field. -/
  | opens (f : Field)
  /-- The bound prop, as a prop or as what is watched. -/
  | bindsProp
  /-- The event that updates it. -/
  | bindsEvent
  /-- A computed value over it. -/
  | bindsValue
  deriving DecidableEq, Repr

namespace Heading

/-- How a heading is written. -/
def text : Heading → String
  | opens f => f.opening
  | bindsProp => "modelValue: \x7b"
  | bindsEvent => "// v-model event with validation"
  | bindsValue => "value: \x7b"

/-- The headings that are looked for. -/
def all : List Heading := [bindsProp, bindsEvent, bindsValue] ++ laterFields.map opens

/-- The headings with their characters, from literals that can be spelled out. -/
theorem table_eq : (all.map fun t => (t, t.text.toList)) =
    [(bindsProp, "modelValue: \x7b".toList),
      (bindsEvent, "// v-model event with validation".toList),
      (bindsValue, "value: \x7b".toList),
      (opens .components, "components: \x7b".toList),
      (opens .directives, "directives: \x7b".toList),
      (opens .inheritance, "extends: \x7b".toList), (opens .mixins, "mixins: [".toList),
      (opens .provideInject, "provide: \x7b".toList),
      (opens .inheritAttrs, "inheritAttrs: false,".toList),
      (opens .props, "props: \x7b".toList), (opens .emits, "emits: \x7b".toList),
      (opens .setup, "setup() \x7b".toList), (opens .data, "data() \x7b".toList),
      (opens .computed, "computed: \x7b".toList), (opens .watch, "watch: \x7b".toList),
      (opens (.hook .beforeCreate), ("beforeCreate" ++ "() \x7b").toList),
      (opens (.hook .created), ("created" ++ "() \x7b").toList),
      (opens (.hook .beforeMount), ("beforeMount" ++ "() \x7b").toList),
      (opens (.hook .mounted), ("mounted" ++ "() \x7b").toList),
      (opens (.hook .beforeUpdate), ("beforeUpdate" ++ "() \x7b").toList),
      (opens (.hook .updated), ("updated" ++ "() \x7b").toList),
      (opens (.hook .activated), ("activated" ++ "() \x7b").toList),
      (opens (.hook .deactivated), ("deactivated" ++ "() \x7b").toList),
      (opens (.hook .beforeUnmount), ("beforeUnmount" ++ "() \x7b").toList),
      (opens (.hook .unmounted), ("unmounted" ++ "() \x7b").toList),
      (opens (.hook .errorCaptured), ("errorCaptured" ++ "() \x7b").toList),
      (opens (.hook .renderTracked), ("renderTracked" ++ "() \x7b").toList),
      (opens (.hook .renderTriggered), ("renderTriggered" ++ "() \x7b").toList),
      (opens .methods, "methods: \x7b".toList)] := by
  rfl

end Heading

/-- The headings among some lines, as they are spelled, looked up in a table. -/
def headingsIn (table : List (Heading × List Char)) (lines : List (List Char)) : List Heading :=
  lines.filterMap fun cs => (table.find? fun e => e.2 == cs).map Prod.fst

/-- The headings among some lines. -/
def headings (lines : List (List Char)) : List Heading :=
  headingsIn (Heading.all.map fun t => (t, t.text.toList)) lines

/-- The headings of a field that is on, in order. -/
def Field.outline (policy : BindingPolicy) : Field → List Heading
  | name => []
  | props => .opens .props :: if policy.pairsPropEmit then [.bindsProp] else []
  | emits => .opens .emits :: if policy.pairsPropEmit then [.bindsEvent] else []
  | computed => .opens .computed :: if policy.pairsPropEmit then [.bindsValue] else []
  | watch => .opens .watch :: if policy.pairsPropEmit then [.bindsProp] else []
  | f => [.opens f]

/-- A line as it can be told from one with the component's name: it is plain,
    it is longer than one character, and it does not begin as the name does. -/
def IsKnown (cs : List Char) : Prop :=
  '\n' ∉ cs ∧ cs.dropWhile isIndent = cs ∧ 2 ≤ cs.length ∧ cs.head? ≠ some 'n'

instance (cs : List Char) : Decidable (IsKnown cs) :=
  inferInstanceAs (Decidable (_ ∧ _ ∧ _ ∧ _))

/-- Lines among which no name can end: where a line ends as the name does, a
    closing brace follows. -/
def IsGuarded : List (List Char) → Prop
  | [] => True
  | cs :: lines =>
    ("',".toList <:+ cs → lines.head? = some "\x7d,".toList) ∧ IsGuarded lines

instance decidableIsGuarded : (lines : List (List Char)) → Decidable (IsGuarded lines)
  | [] => inferInstanceAs (Decidable True)
  | _ :: lines =>
    have := decidableIsGuarded lines
    inferInstanceAs (Decidable (_ ∧ _))

/-- Lines that say what a field says: they are known, no name can end among
    them, they begin with something else than a closing brace, and they have the
    headings of the field. -/
def HasWording (policy : BindingPolicy) (f : Field) (lines : List (List Char)) : Prop :=
  (∀ cs ∈ lines, IsKnown cs) ∧ IsGuarded lines
    ∧ (lines ≠ [] ∧ lines.head? ≠ some "\x7d,".toList) ∧ headings lines = f.outline policy

instance (policy : BindingPolicy) (f : Field) (lines : List (List Char)) :
    Decidable (HasWording policy f lines) :=
  inferInstanceAs (Decidable (_ ∧ _ ∧ _ ∧ _))

/-- The wording of a hook is as its outline has it. Its name is looked up, so every hook
    is spelled out by itself. -/
theorem hasWording_hook (h : Hook) (ctx : Context) (policy : BindingPolicy) :
    HasWording policy (.hook h) (spelled ((Field.hook h).body ctx policy)) := by
  simp only [HasWording, headings, Heading.table_eq, Field.outline, Field.body, spelled,
    spelled_braced, spelled_linesIf, String.toList_append]
  generalize policy.stopsWatcher = stops
  revert stops
  cases h <;> simp only [Hook.optionName] <;> simp -index only [String.toList_ofList] <;>
    decide +kernel

/-- The wording of every field after the name is as its outline has it. -/
theorem hasWording_body {f : Field} (hf : f ∈ laterFields) (ctx : Context)
    (policy : BindingPolicy) : HasWording policy f (spelled (f.body ctx policy)) := by
  cases f with
  | name => exact absurd hf (by decide)
  | hook h => exact hasWording_hook h ctx policy
  | _ =>
      -- With the literals spelled out and the switches generalized, one
      -- computation goes over all the texts that the field can have.
      simp only [HasWording, headings, Heading.table_eq, Field.outline, Field.body, objectField,
        boundProp, boundEvent, boundValue, boundHandler, spelled, spelled_append, spelled_block,
        spelled_braced, spelled_linesIf, toList_annotated, String.toList_append]
      simp -index only [String.toList_ofList]
      generalize policy.pairsPropEmit = pairs, ctx.typed = typed, ctx.isOn .emits = emits
      revert pairs typed emits
      decide +kernel

/-- No name can end in either of two groups of lines, so it cannot end in both together.
    At the seam, what follows the last line of the first group is a line of the second
    only if it is not needed. -/
theorem isGuarded_append {xs ys : List (List Char)} (hxs : IsGuarded xs) (hys : IsGuarded ys) :
    IsGuarded (xs ++ ys) := by
  induction xs with
  | nil => exact hys
  | cons cs xs ih =>
      rw [IsGuarded] at hxs
      rw [List.cons_append, IsGuarded]
      refine ⟨fun hends => ?_, ih hxs.2⟩
      rw [List.head?_append, hxs.1 hends]
      rfl

theorem headings_append (xs ys : List (List Char)) :
    headings (xs ++ ys) = headings xs ++ headings ys :=
  List.filterMap_append

theorem isGuarded_of_append {xs ys : List (List Char)} (h : IsGuarded (xs ++ ys)) :
    IsGuarded ys := by
  induction xs with
  | nil => exact h
  | cons cs xs ih =>
      rw [List.cons_append, IsGuarded] at h
      exact ih h.2

/-- The lines from some fields on to the end of the object. -/
def linesFrom (ctx : Context) (policy : BindingPolicy) (fs : List Field) : List Line :=
  fs.flatMap (Field.lines ctx policy) ++ [⟨0, "\x7d);"⟩]

/-- What is known of the lines from some fields on to the end of the object. -/
structure Reads (ctx : Context) (policy : BindingPolicy) (fs : List Field)
    (lines : List (List Char)) : Prop where
  known : ∀ cs ∈ lines, IsKnown cs
  guarded : IsGuarded lines
  head_ne : lines.head? ≠ some "\x7d,".toList
  headings_eq : headings lines = (fs.filter (Field.isOn ctx)).flatMap (Field.outline policy)

/-- What is known of a field and of the fields after it is known of both together. -/
theorem reads_append {ctx : Context} {policy : BindingPolicy} {f : Field} {fs : List Field}
    {lines rest : List (List Char)} (hon : f.isOn ctx) (hf : HasWording policy f lines)
    (hrest : Reads ctx policy fs rest) : Reads ctx policy (f :: fs) (lines ++ rest) := by
  rcases hf with ⟨hknown, hguarded, ⟨hne, hhead⟩, hheadings⟩
  refine ⟨?_, isGuarded_append hguarded hrest.guarded, ?_, ?_⟩
  · exact List.forall_mem_append.mpr ⟨hknown, hrest.known⟩
  · rwa [List.head?_append_of_ne_nil lines hne]
  · rw [headings_append, hheadings, hrest.headings_eq, List.filter_cons_of_pos hon,
      List.flatMap_cons]

/-- All of this is known from any field on to the end of the object. -/
theorem reads_linesFrom (ctx : Context) (policy : BindingPolicy) {fs : List Field}
    (hfs : fs ⊆ laterFields) : Reads ctx policy fs (spelled (linesFrom ctx policy fs)) := by
  -- The induction is on the fields, from the last one, behind which only the end of the
  -- object is left.
  induction fs with
  | nil =>
      -- The end of the object is not the end of a field, and no name ends there.
      have hclosing : (∀ cs ∈ ["\x7d);".toList], IsKnown cs) ∧ IsGuarded ["\x7d);".toList]
          ∧ ["\x7d);".toList].head? ≠ some "\x7d,".toList ∧ headings ["\x7d);".toList] = [] := by
        rw [headings, Heading.table_eq]
        simp only [String.toList_append]
        simp -index only [String.toList_ofList]
        decide +kernel
      exact ⟨hclosing.1, hclosing.2.1, hclosing.2.2.1, hclosing.2.2.2⟩
  | cons f fs ih =>
      rw [List.cons_subset] at hfs
      have hcons : linesFrom ctx policy (f :: fs)
          = f.lines ctx policy ++ linesFrom ctx policy fs := by
        rw [linesFrom, List.flatMap_cons, List.append_assoc]
        rfl
      rw [hcons, Field.lines, spelled_append]
      cases hon : f.isOn ctx with
      | true => exact reads_append hon (hasWording_body hfs.1 ctx policy) (ih hfs.2)
      -- A field that is off has no lines and no headings.
      | false =>
          have hrest := ih hfs.2
          refine ⟨hrest.known, hrest.guarded, hrest.head_ne, ?_⟩
          rw [List.filter_cons_of_neg (by rw [hon]; decide)]
          exact hrest.headings_eq

/-- The first line of a field is a heading of this field only. -/
theorem opens_mem_outline {f g : Field} (hg : g ∈ laterFields) (policy : BindingPolicy) :
    .opens f ∈ g.outline policy ↔ f = g := by
  cases g with
  | name => exact absurd hg (by decide)
  | _ => simp [Field.outline]

/-- The headings of what `v-model` adds. -/
def bindings : List Heading := [.bindsProp, .bindsEvent, .bindsValue]

theorem bindings_mem_outline (f : Field) (policy : BindingPolicy) :
    (∃ t ∈ bindings, t ∈ f.outline policy)
      ↔ f ∈ [.props, .emits, .computed, .watch] ∧ policy.pairsPropEmit := by
  cases f <;> simp [Field.outline, bindings]

end Scaffold.Script.Options
