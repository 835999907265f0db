import Scaffold.Hook

/-!
# Features

The toggles of the generator. Each feature is one switch, read from one
dotted settings key, and has a documented state for when no settings mention
it.

A set of features is its membership test, so that two sets are equal as soon
as they agree on every feature; how a set was arrived at leaves no trace.

## Main definitions

* `Feature`: The thirty-four toggles. Each lifecycle hook has one of its own.
* `Feature.key`: The settings key of a feature.
* `Feature.onByDefault`: The state of a feature that no settings mention.
* `Feature.all`: Every feature, in the order in which settings list them.
* `FeatureSet`: A set of features, as its membership test.

## Theorems

* `Feature.mem_all`: The catalogue leaves no feature out.
-/

namespace Scaffold

/-- One toggle of the generator. -/
inductive Feature where
  /-- The template binds the component's value with `v-model`. -/
  | vModelTemplate
  | name
  | components
  | directives
  /-- The `extends` field. -/
  | inheritance
  | mixins
  | provideInject
  | inheritAttrs
  | props
  | emits
  | setup
  | data
  | computed
  | watch
  | methods
  /-- The master switch of all lifecycle hooks. -/
  | lifecycleHooks
  /-- The switch of one lifecycle hook. -/
  | hook (h : Hook)
  | useDefineModel
  | useWithDefaults
  | defineOptions
  | defineExpose
  | defineSlots
  deriving DecidableEq, Repr, Inhabited

namespace Feature

/-- The dotted settings key of a feature: a namespace, a dot and a name. -/
def key : Feature → String
  | vModelTemplate => "template.showV-ModelTemplate"
  | name => "option.showNameScriptOption"
  | components => "option.showComponentsScriptOption"
  | directives => "option.showDirectivesScriptOption"
  | inheritance => "option.showExtendsScriptOption"
  | mixins => "option.showMixinsScriptOption"
  | provideInject => "option.showProvideInjectScriptOption"
  | inheritAttrs => "option.showInheritAttributesScriptOption"
  | props => "option.showPropsScriptOption"
  | emits => "option.showEmitsScriptOption"
  | setup => "option.showSetupScriptOption"
  | data => "option.showDataScriptOption"
  | computed => "option.showComputedScriptOption"
  | watch => "option.showWatchScriptOption"
  | methods => "option.showMethodsScriptOption"
  | lifecycleHooks => "lifecycle.showLifecycleHooksScriptOptions"
  | hook .beforeCreate => "lifecycle.showBeforeCreateScriptOption"
  | hook .created => "lifecycle.showCreatedScriptOption"
  | hook .beforeMount => "lifecycle.showBeforeMountScriptOption"
  | hook .mounted => "lifecycle.showMountedScriptOption"
  | hook .beforeUpdate => "lifecycle.showBeforeUpdateScriptOption"
  | hook .updated => "lifecycle.showUpdatedScriptOption"
  | hook .activated => "lifecycle.showActivatedScriptOption"
  | hook .deactivated => "lifecycle.showDeactivatedScriptOption"
  | hook .beforeUnmount => "lifecycle.showBeforeUnmountScriptOption"
  | hook .unmounted => "lifecycle.showUnmountedScriptOption"
  | hook .errorCaptured => "lifecycle.showErrorCapturedScriptOption"
  | hook .renderTracked => "lifecycle.showRenderTrackedScriptOption"
  | hook .renderTriggered => "lifecycle.showRenderTriggeredScriptOption"
  | useDefineModel => "scriptSetup.useDefineModel"
  | useWithDefaults => "scriptSetup.useWithDefaults"
  | defineOptions => "scriptSetup.showDefineOptions"
  | defineExpose => "scriptSetup.showDefineExpose"
  | defineSlots => "scriptSetup.showDefineSlots"

/-- The state of a feature that no settings mention. -/
def onByDefault : Feature → Bool
  | vModelTemplate | name | components | props | emits | data | computed | watch
  | methods | lifecycleHooks | useDefineModel | useWithDefaults => true
  | hook .mounted | hook .updated | hook .beforeUnmount => true
  | _ => false

/-- Every feature, in the order in which settings list them. -/
def all : List Feature :=
  [vModelTemplate, name, components, directives, inheritance, mixins, provideInject,
    inheritAttrs, props, emits, setup, data, computed, watch, methods, lifecycleHooks]
  ++ Hook.all.map hook
  ++ [useDefineModel, useWithDefaults, defineOptions, defineExpose, defineSlots]

/-- The catalogue leaves no feature out. -/
theorem mem_all (f : Feature) : f ∈ all := by
  cases f with
  | hook h => cases h <;> decide
  | _ => decide

end Feature

/-- A set of features, as its membership test. -/
abbrev FeatureSet : Type := Feature → Bool

namespace FeatureSet

/-- The set that holds the features of a list. -/
def ofList (fs : List Feature) : FeatureSet := fun f => fs.contains f

/-- The features of the set, in the order of the catalogue. -/
def toList (s : FeatureSet) : List Feature := Feature.all.filter s

/-- The features that the set leaves out, in the order of the catalogue. -/
def offList (s : FeatureSet) : List Feature := Feature.all.filter fun f => !s f

/-- The set with some features added and then some removed; a feature in both
    lists ends up outside. -/
def update (s : FeatureSet) (add remove : List Feature) : FeatureSet :=
  fun f => (s f || add.contains f) && !remove.contains f

end FeatureSet

end Scaffold
