import Scaffold.Context

/-!
# Binding Policies

How the component's `v-model` value travels. The choice shows in the props,
the emits, the computed values, the watcher, the model macro and the teardown
at once, so it is made here and handed to every section, which then cannot
disagree about it.

A setup script has two channels: the model macro, or a prop paired with an
update event. An options object has only the pair.

## Main definitions

* `BindingPolicy`: The three decisions.
* `BindingPolicy.setup`: The decisions for a setup script.
* `BindingPolicy.options`: The decisions for an options object.
-/

namespace Scaffold

/-- The decisions that the sections of one script share. -/
structure BindingPolicy where
  /-- The model macro carries the value. -/
  definesModel : Bool
  /-- A `modelValue` prop and an `update:modelValue` event carry the value. -/
  pairsPropEmit : Bool
  /-- The hook before unmounting tears the watcher down. -/
  stopsWatcher : Bool
  deriving DecidableEq, Repr

namespace BindingPolicy

/-- The policy of a setup script. The model macro has precedence over the pair,
    and the watcher is stopped whenever there is one. -/
def setup (ctx : Context) : BindingPolicy where
  definesModel := ctx.isOn .vModelTemplate && ctx.isOn .useDefineModel
  pairsPropEmit := ctx.isOn .vModelTemplate && !ctx.isOn .useDefineModel
  stopsWatcher := ctx.isOn .watch

/-- The policy of an options object. It has no model macro, and its watcher
    watches `modelValue` alone, so there is one to stop only with `v-model`. -/
def options (ctx : Context) : BindingPolicy where
  definesModel := false
  pairsPropEmit := ctx.isOn .vModelTemplate
  stopsWatcher := ctx.isOn .vModelTemplate && ctx.isOn .watch

end BindingPolicy

end Scaffold
