import Scaffold.BindingPolicy
import Scaffold.Script.Line

/-!
# Setup Scripts

The body of a setup script: imports, macros, a computed value, a watcher and
lifecycle hooks, always in this order. Each section is generated from the
context and the binding policy alone, and ends with a blank line.

Macros are known to the compiler and are not imported; the import line names
exactly the functions that the later sections call.

## Main definitions

* `Section`: The sections of a setup script.
* `Section.isOn`: Whether a section is generated.
* `Section.body`, `Section.lines`: What it says.
* `sections`: All sections in their order.
* `script`: The whole text.
-/

namespace Scaffold.Script.Setup

/-- A section of a setup script. -/
inductive Section where
  | imports
  | defineOptions
  | props
  | emits
  | defineModel
  | defineSlots
  | defineExpose
  | computed
  | watch
  | hook (h : Hook)
  deriving DecidableEq, Repr

/-- The functions that the enabled sections call, in the order of the
    sections, whatever the order in which the features were enabled. -/
def importedNames (ctx : Context) : List String :=
  (if ctx.isOn .computed then ["computed"] else [])
  ++ (if ctx.isOn .watch then ["watch"] else [])
  ++ (Hook.inSetup.filter ctx.isHookOn).filterMap Hook.setupName?

/-- The import line. With nothing to import its braces hold two blanks. -/
def importLine (ctx : Context) : String :=
  "import \x7b " ++ ", ".intercalate (importedNames ctx) ++ " \x7d from 'vue'"

/-- The props as an interface with defaults, for typed scripts. -/
def propsWithDefaults (policy : BindingPolicy) : List Line :=
  [⟨0, "// Props with defaults (TypeScript)"⟩]
  ++ braced 0 "interface Props "
    (if policy.pairsPropEmit then
      [⟨1, "modelValue?: string;"⟩]
    else
      [⟨1, "text?: string;"⟩, ⟨1, "count?: number;"⟩]) ""
  ++ [Line.blank]
  ++ braced 0 "const props = withDefaults(defineProps<Props>(), "
    (if policy.pairsPropEmit then
      [⟨1, "modelValue: '',"⟩]
    else
      [⟨1, "text: '',"⟩, ⟨1, "count: 0,"⟩]) ");"

/-- The props as an object, for scripts that are untyped or want no defaults. -/
def plainProps (ctx : Context) (policy : BindingPolicy) : List Line :=
  braced 0 "const props = defineProps("
    (if policy.pairsPropEmit then
      [⟨1, "// v-model"⟩]
      ++ braced 1 "modelValue: "
        (linesIf ctx.typed [⟨2, "type: String,"⟩] ++ [⟨2, "default: '',"⟩]) ","
    else
      [⟨1, "text: String"⟩]) ");"

/-- The validated events. Without a prop and event pair a placeholder event
    stands in, for the `text` prop if that is there. -/
def events (ctx : Context) (policy : BindingPolicy) : List Line :=
  if policy.pairsPropEmit then
    [⟨1, "// v-model event with validation"⟩,
      ⟨1, "'update:modelValue': (value" ++ annotation ctx.typed "string"
        ++ ") => typeof value === 'string',"⟩]
  else if policy.definesModel || ctx.isOn .props then
    [⟨1, "'update:text': (value" ++ annotation ctx.typed "string"
      ++ ") => typeof value === 'string',"⟩]
  else
    [⟨1, "'update:foo': (value" ++ annotation ctx.typed "unknown"
      ++ ") => value !== null,"⟩]

/-- A getter and setter over the bound prop, or a placeholder value. -/
def computedValue (ctx : Context) (policy : BindingPolicy) : List Line :=
  if policy.pairsPropEmit then
    braced 0 "const value = computed("
      (braced 1 "get () " [⟨2, "return props.modelValue;"⟩] ","
      ++ braced 1 ("set (value" ++ annotation ctx.typed "string" ++ ") ")
        (linesIf (ctx.isOn .emits) [⟨2, "emit('update:modelValue', value);"⟩]) ",") ");"
  else
    [⟨0, "const now = computed(() => Date.now());"⟩]

/-- What the watcher watches: the model, the bound prop, the placeholder prop,
    or, where there is nothing of these, the current date. -/
def watchSource (ctx : Context) (policy : BindingPolicy) : String :=
  if policy.definesModel then
    "model"
  else if policy.pairsPropEmit then
    "() => props.modelValue"
  else if ctx.isOn .props then
    "() => props.text"
  else
    "() => new Date()"

/-- An immediate watcher, kept under the name by which it can be stopped. -/
def watcher (ctx : Context) (policy : BindingPolicy) : List Line :=
  let type := annotation ctx.typed "string | undefined"
  block 0 "const stopWatch = watch("
    (braced 1
      (watchSource ctx policy ++ ", async (_newValue" ++ type ++ ", _oldValue" ++ type
        ++ ") => ")
      [⟨2, "// do something"⟩] ","
    ++ braced 1 "" [⟨2, "immediate: true"⟩] "") ");"

namespace Section

/-- Whether the section is generated. Imports always are; the model macro
    follows the policy; every other section has a switch. -/
def isOn (ctx : Context) (policy : BindingPolicy) : Section → Bool
  | imports => true
  | defineOptions => ctx.isOn .defineOptions
  | props => ctx.isOn .props
  | emits => ctx.isOn .emits
  | defineModel => policy.definesModel
  | defineSlots => ctx.isOn .defineSlots
  | defineExpose => ctx.isOn .defineExpose
  | computed => ctx.isOn .computed
  | watch => ctx.isOn .watch
  | hook h => h.setupName?.isSome && ctx.isHookOn h

/-- The lines of a section that is on, without the blank one that ends it. -/
def body (ctx : Context) (policy : BindingPolicy) : Section → List Line
  | imports => [⟨0, importLine ctx⟩]
  | defineOptions =>
    [⟨0, "// Component options (Vue 3.3+)"⟩]
    ++ braced 0 "defineOptions("
      [⟨1, "inheritAttrs: true,"⟩, ⟨1, "// name: 'ComponentName',"⟩] ");"
  | props =>
    if ctx.typed && ctx.isOn .useWithDefaults then
      propsWithDefaults policy
    else
      plainProps ctx policy
  | emits => braced 0 "const emit = defineEmits(" (events ctx policy) ");"
  | defineModel =>
    [⟨0, "// v-model binding (Vue 3.4+)"⟩,
      ⟨0, "const model = defineModel" ++ (if ctx.typed then "<string>" else "")
        ++ "(\x7b default: '' \x7d);"⟩]
  | defineSlots =>
    if ctx.typed then
      [⟨0, "// Typed slots (Vue 3.3+)"⟩]
      ++ braced 0 "const slots = defineSlots<"
        [⟨1, "default(props: \x7b msg: string \x7d): any;"⟩,
          ⟨1, "// Add more slot definitions here"⟩] ">();"
    else
      [⟨0, "// Slots (Vue 3.3+)"⟩, ⟨0, "const slots = defineSlots();"⟩]
  | defineExpose =>
    [⟨0, "// Expose to parent component via template ref"⟩]
    ++ braced 0 "defineExpose(" [⟨1, "// Add methods/properties to expose here"⟩] ");"
  | computed => computedValue ctx policy
  | watch => watcher ctx policy
  | hook h =>
    braced 0 (h.setupName?.getD "" ++ "(() => ")
      (linesIf (h == .beforeUnmount && policy.stopsWatcher) [⟨1, "stopWatch();"⟩]) ");"

/-- The lines of a section: none if it is off, and otherwise its body and a
    blank line. -/
def lines (ctx : Context) (policy : BindingPolicy) (s : Section) : List Line :=
  linesIf (s.isOn ctx policy) (s.body ctx policy ++ [Line.blank])

/-- The text of a section. -/
def text (ctx : Context) (policy : BindingPolicy) (s : Section) : String :=
  render ctx.indentation (s.lines ctx policy)

end Section

/-- All sections, in the order in which a script has them. -/
def sections : List Section :=
  [.imports, .defineOptions, .props, .emits, .defineModel, .defineSlots, .defineExpose,
    .computed, .watch] ++ Hook.inSetup.map .hook

/-- The lines of a setup script. -/
def lines (ctx : Context) : List Line :=
  sections.flatMap (Section.lines ctx (.setup ctx))

/-- The text of a setup script. -/
def script (ctx : Context) : String :=
  render ctx.indentation (lines ctx)

end Scaffold.Script.Setup
