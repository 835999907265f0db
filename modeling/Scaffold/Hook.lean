/-!
# Lifecycle Hooks

The moments of a component's life at which a script can run code of its own.

Every hook is a method of the options object. All but two are also a function
that is called at setup time; `beforeCreate` and `created` have no such
function, since the setup code itself runs at that moment.

## Main definitions

* `Hook`: The thirteen hooks, in the order of a component's life.
* `Hook.optionName`: The method of the options object.
* `Hook.setupName?`: The function called in a setup script, if there is one.
* `Hook.all`, `Hook.inSetup`: Both catalogues, in order.

## Theorems

* `Hook.mem_all`: The catalogue leaves no hook out.
-/

namespace Scaffold

/-- A lifecycle hook: create, mount, update, activation, unmount, and then the
    two kinds of diagnostics. -/
inductive Hook where
  | beforeCreate
  | created
  | beforeMount
  | mounted
  | beforeUpdate
  | updated
  | activated
  | deactivated
  | beforeUnmount
  | unmounted
  | errorCaptured
  | renderTracked
  | renderTriggered
  deriving DecidableEq, Repr, Inhabited

namespace Hook

/-- The method that holds the hook in an options object. -/
def optionName : Hook → String
  | beforeCreate => "beforeCreate"
  | created => "created"
  | beforeMount => "beforeMount"
  | mounted => "mounted"
  | beforeUpdate => "beforeUpdate"
  | updated => "updated"
  | activated => "activated"
  | deactivated => "deactivated"
  | beforeUnmount => "beforeUnmount"
  | unmounted => "unmounted"
  | errorCaptured => "errorCaptured"
  | renderTracked => "renderTracked"
  | renderTriggered => "renderTriggered"

/-- The function that registers the hook in a setup script. The first two
    hooks have none: setup code already runs when they would. -/
def setupName? : Hook → Option String
  | beforeCreate => none
  | created => none
  | beforeMount => some "onBeforeMount"
  | mounted => some "onMounted"
  | beforeUpdate => some "onBeforeUpdate"
  | updated => some "onUpdated"
  | activated => some "onActivated"
  | deactivated => some "onDeactivated"
  | beforeUnmount => some "onBeforeUnmount"
  | unmounted => some "onUnmounted"
  | errorCaptured => some "onErrorCaptured"
  | renderTracked => some "onRenderTracked"
  | renderTriggered => some "onRenderTriggered"

/-- Every hook, in the order of a component's life. -/
def all : List Hook :=
  [beforeCreate, created, beforeMount, mounted, beforeUpdate, updated, activated,
    deactivated, beforeUnmount, unmounted, errorCaptured, renderTracked, renderTriggered]

/-- The hooks that a setup script can register, in the same order. -/
def inSetup : List Hook :=
  all.filter fun h => h.setupName?.isSome

/-- The hook with the given options method. -/
def ofOptionName? (name : String) : Option Hook :=
  all.find? fun h => h.optionName == name

/-- The catalogue leaves no hook out. -/
theorem mem_all (h : Hook) : h ∈ all := by
  cases h <;> decide

end Hook

end Scaffold
