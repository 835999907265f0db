import Scaffold.BindingPolicy
import Scaffold.Script.Line

/-!
# Options Scripts

The body of an options script: one import and an object literal, whose fields
stand in a fixed order. Each field is generated from the context and the
binding policy alone, begins one level deep and ends with a comma.

## Main definitions

* `Field`: The fields of the object.
* `Field.isOn`: Whether a field is generated.
* `Field.body`, `Field.lines`: What it says.
* `fields`: All fields in their order.
* `script`: The whole text.
-/

namespace Scaffold.Script.Options

/-- A field of the options object. -/
inductive Field where
  | name
  | components
  | directives
  /-- The `extends` field. -/
  | inheritance
  | mixins
  | provideInject
  | inheritAttrs
  | props
  | emits
  | setup
  | data
  | computed
  | watch
  | hook (h : Hook)
  | methods
  deriving DecidableEq, Repr

/-- A field that holds an object. -/
def objectField (name : String) (body : List Line) : List Line :=
  braced 1 (name ++ ": ") body ","

/-- The prop that `v-model` binds. -/
def boundProp (ctx : Context) : List Line :=
  [⟨2, "// v-model"⟩]
  ++ braced 2 "modelValue: "
    (linesIf ctx.typed [⟨3, "type: String,"⟩] ++ [⟨3, "default: '',"⟩]) ","

/-- The event by which `v-model` is updated. -/
def boundEvent (ctx : Context) : List Line :=
  [⟨2, "// v-model event with validation"⟩,
    ⟨2, "'update:modelValue': (value" ++ annotation ctx.typed "any" ++ ") => value !== null,"⟩]

/-- A getter and setter over the bound prop. The setter emits only if there are
    events to emit. -/
def boundValue (ctx : Context) : List Line :=
  braced 2 "value: "
    (braced 3 "get () " [⟨4, "return this.modelValue;"⟩] ","
    ++ braced 3 ("set (value" ++ annotation ctx.typed "any" ++ ") ")
      (linesIf (ctx.isOn .emits) [⟨4, "this.$emit('update:modelValue', value);"⟩]) ",") ","

/-- An immediate handler of the bound prop. -/
def boundHandler (ctx : Context) : List Line :=
  let type := annotation ctx.typed "any"
  braced 2 "modelValue: "
    (braced 3 ("async handler (_newValue" ++ type ++ ", _oldValue" ++ type ++ ") ")
      [⟨4, "// do something"⟩] ","
    ++ [⟨3, "immediate: true"⟩]) ","

namespace Field

/-- Whether the field is generated: every field has a switch. -/
def isOn (ctx : Context) : Field → Bool
  | name => ctx.isOn .name
  | components => ctx.isOn .components
  | directives => ctx.isOn .directives
  | inheritance => ctx.isOn .inheritance
  | mixins => ctx.isOn .mixins
  | provideInject => ctx.isOn .provideInject
  | inheritAttrs => ctx.isOn .inheritAttrs
  | props => ctx.isOn .props
  | emits => ctx.isOn .emits
  | setup => ctx.isOn .setup
  | data => ctx.isOn .data
  | computed => ctx.isOn .computed
  | watch => ctx.isOn .watch
  | hook h => ctx.isHookOn h
  | methods => ctx.isOn .methods

/-- The lines of a field that is on. The component's name is written as it is,
    between quotes. -/
def body (ctx : Context) (policy : BindingPolicy) : Field → List Line
  | name => [⟨1, "name: '" ++ ctx.name ++ "',"⟩]
  | components => objectField "components" []
  | directives => objectField "directives" []
  | inheritance => objectField "extends" []
  | mixins => block 1 "mixins: [" [] "],"
  | provideInject => objectField "provide" [] ++ objectField "inject" []
  | inheritAttrs => [⟨1, "inheritAttrs: false,"⟩]
  | props => objectField "props" (linesIf policy.pairsPropEmit (boundProp ctx))
  | emits => objectField "emits" (linesIf policy.pairsPropEmit (boundEvent ctx))
  | setup => braced 1 "setup() " [] ","
  | data => braced 1 "data() " (braced 2 "return " [] ";") ","
  | computed => objectField "computed" (linesIf policy.pairsPropEmit (boundValue ctx))
  | watch => objectField "watch" (linesIf policy.pairsPropEmit (boundHandler ctx))
  | hook h =>
    braced 1 (h.optionName ++ "() ")
      (linesIf (h == .beforeUnmount && policy.stopsWatcher)
        [⟨2, "// stop the watcher on modelValue"⟩,
          ⟨2, "this.$watch('modelValue', () => \x7b\x7d, \x7b\x7d);"⟩]) ","
  | methods => objectField "methods" []

/-- The lines of a field: none if it is off. -/
def lines (ctx : Context) (policy : BindingPolicy) (f : Field) : List Line :=
  linesIf (f.isOn ctx) (f.body ctx policy)

/-- The text of a field. -/
def text (ctx : Context) (policy : BindingPolicy) (f : Field) : String :=
  render ctx.indentation (f.lines ctx policy)

end Field

/-- All fields, in the order in which the object has them. -/
def fields : List Field :=
  [.name, .components, .directives, .inheritance, .mixins, .provideInject, .inheritAttrs,
    .props, .emits, .setup, .data, .computed, .watch]
  ++ Hook.all.map .hook ++ [.methods]

/-- The lines of an options script: the import, and the fields in the object. -/
def lines (ctx : Context) : List Line :=
  [⟨0, "import \x7b defineComponent \x7d from 'vue'"⟩, Line.blank]
  ++ braced 0 "export default defineComponent("
    (fields.flatMap (Field.lines ctx (.options ctx))) ");"

/-- The text of an options script for a component of the given name. The name
    that the context holds makes no difference. -/
def script (name : String) (ctx : Context) : String :=
  render ctx.indentation (lines (ctx.named name))

end Scaffold.Script.Options
