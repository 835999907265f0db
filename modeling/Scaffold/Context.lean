import Scaffold.Feature
import Scaffold.Indentation

/-!
# Generation Contexts

Everything a script generator may look at. A context is made once for each
file, and a change makes a new one, so contexts of different files never
touch each other.

## Main definitions

* `Context`: Typing, features, indentation and component name.
* `Context.isHookOn`: A hook needs its own switch and the master switch.
* `Context.withFeatures`: The context with features switched on and off.
-/

namespace Scaffold

/-- What one script is generated from. -/
structure Context where
  /-- Emit type annotations and generics. -/
  typed : Bool
  /-- The features that are on. -/
  enabled : FeatureSet := Feature.onByDefault
  indentation : Indentation := {}
  /-- The name that an options object gives its component. -/
  name : String := ""

namespace Context

/-- Whether a feature is on. -/
def isOn (ctx : Context) (f : Feature) : Bool := ctx.enabled f

/-- Whether a lifecycle hook is generated: the master switch and the hook's own
    have both to be on. -/
def isHookOn (ctx : Context) (h : Hook) : Bool :=
  ctx.isOn .lifecycleHooks && ctx.isOn (.hook h)

/-- The context with features switched on and then others switched off. -/
def withFeatures (ctx : Context) (enable disable : List Feature) : Context :=
  { ctx with enabled := ctx.enabled.update enable disable }

/-- The context for a component of the given name. -/
def named (ctx : Context) (name : String) : Context := { ctx with name := name }

end Context

end Scaffold
