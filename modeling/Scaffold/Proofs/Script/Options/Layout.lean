import Scaffold.Proofs.Script.Marker
import Scaffold.Proofs.Script.Options.Decisions

/-!
# Layout of Options Scripts

Which fields a reader finds in an options object, and in which order.

A field is told by the line that it begins with: a line feed, one level of
indentation and a head. Such a mark stands in a script once if its field is
switched on and not at all if it is not, and those that are there follow each
other in the canonical order. No nested line is taken for a field, not even
where a level of indentation is empty and nested lines stand at the margin.
Nor is the component's name, as long as it stays in its line.

## Main definitions

* `Mark`: The marks of the fields; one field has two.
* `canonical`: The marks in the order in which a reader expects them.
* `Mark.gate`: Whether a mark is switched on.
* `Mark.text`: How a mark is written.

## Theorems

* `marked_body`: The text of a field has its own marks and no others.
* `marked_nameLine`: So has the line with the name.
* `fields_inOrder_script`: The fields of a script are in order.
-/

namespace Scaffold.Script.Options

open Text

/-- The mark of a field, or the second one of the field that provides and
    injects. -/
inductive Mark where
  | opens (f : Field)
  | injects
  deriving DecidableEq, Repr

/-- The marks in the order in which a reader expects them. -/
def canonical : List Mark :=
  [.opens .name, .opens .components, .opens .directives, .opens .inheritance, .opens .mixins,
    .opens .provideInject, .injects, .opens .inheritAttrs, .opens .props, .opens .emits,
    .opens .setup, .opens .data, .opens .computed, .opens .watch,
    .opens (.hook .beforeCreate), .opens (.hook .created), .opens (.hook .beforeMount),
    .opens (.hook .mounted), .opens (.hook .beforeUpdate), .opens (.hook .updated),
    .opens (.hook .activated), .opens (.hook .deactivated), .opens (.hook .beforeUnmount),
    .opens (.hook .unmounted), .opens (.hook .errorCaptured), .opens (.hook .renderTracked),
    .opens (.hook .renderTriggered), .opens .methods]

namespace Mark

/-- Whether a mark is switched on: a hook with its own and the master switch,
    every other field with its own. -/
def gate (ctx : Context) : Mark → Bool
  | opens .name => ctx.isOn .name
  | opens .components => ctx.isOn .components
  | opens .directives => ctx.isOn .directives
  | opens .inheritance => ctx.isOn .inheritance
  | opens .mixins => ctx.isOn .mixins
  | opens .provideInject => ctx.isOn .provideInject
  | injects => ctx.isOn .provideInject
  | opens .inheritAttrs => ctx.isOn .inheritAttrs
  | opens .props => ctx.isOn .props
  | opens .emits => ctx.isOn .emits
  | opens .setup => ctx.isOn .setup
  | opens .data => ctx.isOn .data
  | opens .computed => ctx.isOn .computed
  | opens .watch => ctx.isOn .watch
  | opens (.hook h) => ctx.isOn .lifecycleHooks && ctx.isOn (.hook h)
  | opens .methods => ctx.isOn .methods

/-- What a field begins with. -/
def head : Mark → String
  | opens .name => "name: '"
  | opens .inheritAttrs => "inheritAttrs: false"
  | opens f => f.opening
  | injects => "inject: \x7b"

/-- How a mark is written: at the beginning of a line, one level in. -/
def text (ind : Indentation) (m : Mark) : String := "\n" ++ ind.text 1 ++ m.head

/-- The mark as what a reader looks for. -/
def marker (m : Mark) : Marker := { level? := some 1, head := m.head }

theorem text_marker (ind : Indentation) (m : Mark) : m.marker.text ind = m.text ind := rfl

end Mark

/-- The marks of a field. -/
def Field.marks : Field → List Mark
  | provideInject => [.opens .provideInject, .injects]
  | f => [.opens f]

/-- The order that a reader expects is the one in which fields are generated, with two marks for the
    field that provides and injects. -/
theorem canonical_eq : canonical = fields.flatMap Field.marks := by decide

theorem gate_eq_isOn (ctx : Context) {f : Field} {m : Mark} (hm : m ∈ f.marks) :
    m.gate ctx = f.isOn ctx := by
  cases f with
  | provideInject =>
      simp only [Field.marks, List.mem_cons, List.not_mem_nil, or_false] at hm
      -- Both marks of the field have one switch.
      rcases hm with rfl | rfl <;> rfl
  | _ =>
      rw [List.mem_singleton.mp hm]
      rfl

/-- The catalogue of marks with literals only, for computations. -/
theorem table_eq : tableOf Mark.marker canonical =
    [(.opens .name, some 1, "name: '".toList),
      (.opens .components, some 1, "components: \x7b".toList),
      (.opens .directives, some 1, "directives: \x7b".toList),
      (.opens .inheritance, some 1, "extends: \x7b".toList),
      (.opens .mixins, some 1, "mixins: [".toList),
      (.opens .provideInject, some 1, "provide: \x7b".toList),
      (.injects, some 1, "inject: \x7b".toList),
      (.opens .inheritAttrs, some 1, "inheritAttrs: false".toList),
      (.opens .props, some 1, "props: \x7b".toList),
      (.opens .emits, some 1, "emits: \x7b".toList),
      (.opens .setup, some 1, "setup() \x7b".toList),
      (.opens .data, some 1, "data() \x7b".toList),
      (.opens .computed, some 1, "computed: \x7b".toList),
      (.opens .watch, some 1, "watch: \x7b".toList),
      (.opens (.hook .beforeCreate), some 1, ("beforeCreate" ++ "() \x7b").toList),
      (.opens (.hook .created), some 1, ("created" ++ "() \x7b").toList),
      (.opens (.hook .beforeMount), some 1, ("beforeMount" ++ "() \x7b").toList),
      (.opens (.hook .mounted), some 1, ("mounted" ++ "() \x7b").toList),
      (.opens (.hook .beforeUpdate), some 1, ("beforeUpdate" ++ "() \x7b").toList),
      (.opens (.hook .updated), some 1, ("updated" ++ "() \x7b").toList),
      (.opens (.hook .activated), some 1, ("activated" ++ "() \x7b").toList),
      (.opens (.hook .deactivated), some 1, ("deactivated" ++ "() \x7b").toList),
      (.opens (.hook .beforeUnmount), some 1, ("beforeUnmount" ++ "() \x7b").toList),
      (.opens (.hook .unmounted), some 1, ("unmounted" ++ "() \x7b").toList),
      (.opens (.hook .errorCaptured), some 1, ("errorCaptured" ++ "() \x7b").toList),
      (.opens (.hook .renderTracked), some 1, ("renderTracked" ++ "() \x7b").toList),
      (.opens (.hook .renderTriggered), some 1, ("renderTriggered" ++ "() \x7b").toList),
      (.opens .methods, some 1, "methods: \x7b".toList)] := by
  rfl

theorem isCatalogue_table : IsCatalogue (tableOf Mark.marker canonical) := by
  rw [table_eq]
  simp only [String.toList_append]
  simp -index only [String.toList_ofList]
  decide

/-- The text of a hook has its own mark and no other. The hooks are settled apart from the other
    fields, since their names have to be opened one by one. -/
theorem marked_hook (h : Hook) (ctx : Context) (policy : BindingPolicy) :
    Marked (tableOf Mark.marker canonical) [.opens (.hook h)]
      (((Field.hook h).body ctx policy).map Line.spelled) := by
  simp only [table_eq, Field.body, braced, block, linesIf, List.map_append, List.map_cons,
    List.map_nil, apply_ite (List.map Line.spelled), Line.spelled, String.toList_append]
  generalize policy.stopsWatcher = stops
  revert stops
  cases h <;> simp only [Hook.optionName] <;> simp -index only [String.toList_ofList] <;>
    decide

/-- The text of a field after the name has its own marks and no others. -/
theorem marked_body {f : Field} (hf : f ∈ laterFields) (ctx : Context)
    (policy : BindingPolicy) :
    Marked (tableOf Mark.marker canonical) f.marks ((f.body ctx policy).map Line.spelled) := by
  cases f with
  | name => exact absurd hf (by decide)
  | hook h => exact marked_hook h ctx policy
  | _ =>
      -- All texts that a field can have are settled by one computation over the switches that it
      -- reads.
      simp only [table_eq, Field.marks, Field.body, objectField, boundProp, boundEvent,
        boundValue, boundHandler, braced, block, linesIf, List.map_append, List.map_cons,
        List.map_nil, apply_ite (List.map Line.spelled), Line.spelled, toList_annotated,
        String.toList_append]
      simp -index only [String.toList_ofList]
      generalize policy.pairsPropEmit = pairs, ctx.typed = typed, ctx.isOn .emits = emits
      revert pairs typed emits
      decide

/-- The lines around the fields, without the first one. -/
theorem marked_frame :
    Marked (tableOf Mark.marker canonical) []
        ([Line.blank, ⟨0, "export default defineComponent(" ++ "\x7b"⟩].map Line.spelled)
      ∧ Marked (tableOf Mark.marker canonical) [] ([⟨0, "\x7d" ++ ");"⟩].map Line.spelled) := by
  simp only [table_eq, List.map_cons, List.map_nil, Line.spelled, Line.blank,
    String.toList_append]
  simp -index only [String.toList_ofList]
  decide

/-- The line with the name has its own mark and no other, if the name stays in
    it. -/
theorem marked_nameLine {name : String} (hname : '\n' ∉ name.toList) :
    Marked (tableOf Mark.marker canonical) [.opens .name]
      [(Line.mk 1 ("name: '" ++ name ++ "',")).spelled] := by
  have hline : ("name: '" ++ name ++ "',").toList
      = "name: '".toList ++ (name.toList ++ "',".toList) := by
    rw [String.toList_append, String.toList_append, List.append_assoc]
  have hlevel : ∀ e ∈ tableOf Mark.marker canonical, e.2.1 = some 1 := by decide
  rw [Line.spelled, hline]
  -- The name is any text, so its line cannot be computed with. What holds it is that marks only
  -- stand at the beginning of a line, and the line begins with a literal.
  refine ⟨fun l hl => ?_, ?_⟩
  · rw [List.mem_singleton.mp hl]
    refine ⟨?_, rfl, fun e he _ => Or.inl (hlevel e he)⟩
    rw [List.mem_append, List.mem_append, not_or, not_or]
    exact ⟨by decide, hname, by decide⟩
  · -- No other head begins as the name's does.
    have hbegins (rest : List Char) : ((tableOf Mark.marker canonical).filter fun e =>
        e.2.1 == some 1 && e.2.2.isPrefixOf ("name: '".toList ++ rest)).map Prod.fst
          = [.opens .name] := by
      rw [table_eq]
      simp only [String.toList_append]
      simp -index only [String.toList_ofList]
      rfl
    have hnone : (tableOf Mark.marker canonical).filter (fun e => e.2.1 == none) = [] := by
      decide
    rw [List.flatMap_singleton, markersIn, hbegins, hnone, List.map_nil, occurrencesIn_nil]
    rfl

/-- The fields have the marks of those that are on, in order. -/
theorem marked_fields {name : String} (hname : '\n' ∉ name.toList) (ctx : Context) :
    Marked (tableOf Mark.marker canonical) (canonical.filter (Mark.gate ctx))
      ((fields.flatMap (Field.lines (ctx.named name) (.options ctx))).map Line.spelled) := by
  have hfound : canonical.filter (Mark.gate ctx)
      = (fields.filter (Field.isOn ctx)).flatMap Field.marks := by
    rw [canonical_eq]
    exact filter_flatMap_eq fun f _ m hm => gate_eq_isOn ctx hm
  rw [hfound]
  refine marked_flatMap (Field.isOn ctx) Field.marks fun f hf _ => ?_
  rw [fields_eq, List.mem_cons] at hf
  -- Only the field of the name has a text that is not known beforehand.
  rcases hf with rfl | hlater
  · exact marked_nameLine hname
  · exact marked_body hlater (ctx.named name) (.options ctx)

/-- The fields of an options script are in order. -/
theorem fields_inOrder_script {name : String} (hname : '\n' ∉ name.toList) (ctx : Context) :
    InOrder (Mark.text ctx.indentation) canonical (Mark.gate ctx) (script name ctx).toList := by
  have htext : (script name ctx).toList = "import \x7b defineComponent \x7d from 'vue'".toList
      ++ '\n' :: (render ctx.indentation
        ([Line.blank, ⟨0, "export default defineComponent(" ++ "\x7b"⟩]
          ++ fields.flatMap (Field.lines (ctx.named name) (.options ctx))
          ++ [⟨0, "\x7d" ++ ");"⟩])).toList := by
    have hlines : script name ctx = render ctx.indentation
        (⟨0, "import \x7b defineComponent \x7d from 'vue'"⟩
          :: ([Line.blank, ⟨0, "export default defineComponent(" ++ "\x7b"⟩]
            ++ fields.flatMap (Field.lines (ctx.named name) (.options ctx))
            ++ [⟨0, "\x7d" ++ ");"⟩])) := rfl
    rw [hlines, toList_render_cons, Int.ofNat_zero, Indentation.text_zero]
    rfl
  -- A mark holds a line feed, so there is none in the first line.
  have hfirst : occurrences (fun m : Mark => m.marker.text ctx.indentation) canonical
      "import \x7b defineComponent \x7d from 'vue'".toList = [] := by
    refine occurrences_eq_nil fun m _ => ⟨'\n', ?_, by decide⟩
    rw [toList_text_of_some ctx.indentation (m := m.marker) rfl]
    exact List.mem_cons_self
  have hrest := (marked_frame.1.append (marked_fields hname ctx)).append marked_frame.2
  rw [← List.map_append, ← List.map_append, List.nil_append, List.append_nil] at hrest
  rw [htext]
  exact inOrder_of_marked ctx.indentation isCatalogue_table hfirst hrest (List.nil_append _)

/-- The default features, with nothing to indent by. -/
def flat : Context := { typed := true, indentation := { width := 0 } }

/-- A name that reads like a field is no field, even where fields stand at the
    margin. -/
theorem fields_inOrder_script_flat :
    '\n' ∉ "methods: \x7b".toList
      ∧ frequency "\nmethods: \x7b".toList (script "methods: \x7b" flat).toList = 1 := by
  refine ⟨by decide, ?_⟩
  exact (fields_inOrder_script (by decide) flat).once (.opens .methods) (by decide)

end Scaffold.Script.Options
