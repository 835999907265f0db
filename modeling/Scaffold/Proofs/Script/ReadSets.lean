import Scaffold.Proofs.Script.Options.Outline
import Scaffold.Proofs.Script.Setup.Outline

/-!
# Read Sets of Sections and Fields

What every section and field looks at, exactly.

A section is generated from a context and a policy, and the two are taken apart
here: any policy may stand beside any context, also one that does not come from
it. So what is said about a section holds of its own text, and not by way of what
the policy of a script happens to have in common with its context. In particular
no section looks at the switches that the policy is made from: how the bound value
travels is known to it through the policy only.

That nothing else is read is a comparison of two runs. That everything in a read
set is read takes one pair of views for each datum; three views are enough to
find all of these pairs, each by changing the datum alone.

## Main definitions

* `View`: What a section or field is generated from.
* `Datum`: One thing in a view.
* `Datum.flip`: A view with one datum changed.
* `IsReadSet`: The data that a text depends on, and no others.
* `Section.readSet`, `Field.readSet`: The data of sections and fields.

## Theorems

* `isReadSet_of_shown`: A read set from two runs and from changes that show.
* `Setup.text_eq_of_agrees`, `Options.text_eq_of_agrees`: Nothing else is read.
* `Setup.exists_shown`, `Options.exists_shown`: All of it is read.
* `readSets_exact`: The read sets of both kinds of scripts.
-/

namespace Scaffold.Script

/-- What a section or field is generated from. -/
structure View where
  ctx : Context
  policy : BindingPolicy

/-- One thing in a view, besides the indentation. -/
inductive Datum where
  /-- The switch of a feature. -/
  | feature (f : Feature)
  /-- Whether types are written. -/
  | typed
  /-- The component's name. -/
  | name
  | definesModel
  | pairsPropEmit
  | stopsWatcher
  deriving DecidableEq, Repr

namespace Datum

/-- Two views have the same datum. -/
def Agrees (v w : View) : Datum → Prop
  | feature f => v.ctx.isOn f = w.ctx.isOn f
  | typed => v.ctx.typed = w.ctx.typed
  | name => v.ctx.name = w.ctx.name
  | definesModel => v.policy.definesModel = w.policy.definesModel
  | pairsPropEmit => v.policy.pairsPropEmit = w.policy.pairsPropEmit
  | stopsWatcher => v.policy.stopsWatcher = w.policy.stopsWatcher

/-- The view with a datum changed. -/
def flip (v : View) : Datum → View
  | feature f =>
    { v with ctx := { v.ctx with enabled := Function.update v.ctx.enabled f !v.ctx.isOn f } }
  | typed => { v with ctx := { v.ctx with typed := !v.ctx.typed } }
  | name => { v with ctx := v.ctx.named (v.ctx.name ++ "2") }
  | definesModel => { v with policy := { v.policy with definesModel := !v.policy.definesModel } }
  | pairsPropEmit => { v with policy := { v.policy with pairsPropEmit := !v.policy.pairsPropEmit } }
  | stopsWatcher => { v with policy := { v.policy with stopsWatcher := !v.policy.stopsWatcher } }

/-- Two views have everything in common but for one datum. -/
def IsOnlyChange (d : Datum) (v w : View) : Prop :=
  v.ctx.indentation = w.ctx.indentation ∧ ∀ d', d' ≠ d → d'.Agrees v w

theorem isOnlyChange_flip (d : Datum) (v : View) : d.IsOnlyChange v (d.flip v) := by
  refine ⟨by cases d <;> rfl, fun d' hne => ?_⟩
  -- Changing a feature leaves the other features alone. The other data are fields of
  -- their own.
  cases d with
  | feature f =>
      cases d' with
      | feature g =>
          have hgf : g ≠ f := fun heq => hne (congrArg feature heq)
          exact (Function.update_of_ne hgf _ v.ctx.enabled).symm
      | _ => rfl
  | _ =>
      cases d' <;> first
        | rfl
        | exact absurd rfl hne

end Datum

/-- The data that a text depends on. Views that agree on them have the same text,
    and each of them makes a difference to some text. -/
structure IsReadSet (text : View → String) (ds : List Datum) : Prop where
  /-- Besides the indentation, nothing else is read. -/
  enough {v w : View} : v.ctx.indentation = w.ctx.indentation → (∀ d ∈ ds, d.Agrees v w) →
    text v = text w
  /-- What is read is what can be seen. -/
  mem_iff (d : Datum) : d ∈ ds ↔ ∃ v w, d.IsOnlyChange v w ∧ text v ≠ text w

/-- A read set from two runs and from changes that show. -/
theorem isReadSet_of_shown {text : View → String} {ds : List Datum}
    (henough : ∀ {v w : View}, v.ctx.indentation = w.ctx.indentation →
      (∀ d ∈ ds, d.Agrees v w) → text v = text w)
    (hshown : ∀ d ∈ ds, ∃ v, text v ≠ text (d.flip v)) : IsReadSet text ds := by
  refine ⟨henough, fun d => ⟨fun hd => ?_, ?_⟩⟩
  · rcases hshown d hd with ⟨v, hv⟩
    exact ⟨v, d.flip v, d.isOnlyChange_flip v, hv⟩
  · rintro ⟨v, w, ⟨hind, hagree⟩, hne⟩
    -- Without the datum the views agree on everything that is read.
    by_contra hd
    exact hne (henough hind fun d' hd' => hagree d' fun heq => hd (heq ▸ hd'))

/-- What a hook reads, in either kind of script. Only the hook before unmounting
    has anything to stop. -/
def hookReadSet (h : Hook) : List Datum :=
  [.feature .lifecycleHooks, .feature (.hook h)]
  ++ if h = .beforeUnmount then [.stopsWatcher] else []

section Agreement

variable {v w : View}

/-- Views that agree on what a hook reads have it on, or both have it off. -/
theorem isHookOn_eq_of_agrees {h : Hook} (hagree : ∀ d ∈ hookReadSet h, d.Agrees v w) :
    v.ctx.isHookOn h = w.ctx.isHookOn h :=
  congrArg₂ and (hagree (.feature .lifecycleHooks) List.mem_cons_self)
    (hagree (.feature (.hook h)) (List.mem_cons_of_mem _ List.mem_cons_self))

/-- They also agree on whether the hook has something to stop, for other hooks do not
    ask. -/
theorem stops_eq_of_agrees {h : Hook} (hagree : ∀ d ∈ hookReadSet h, d.Agrees v w) :
    (h == .beforeUnmount && v.policy.stopsWatcher)
      = (h == .beforeUnmount && w.policy.stopsWatcher) := by
  by_cases hlast : h = .beforeUnmount
  · subst hlast
    exact congrArg _ (hagree .stopsWatcher (by decide))
  · rw [beq_eq_false_iff_ne.mpr hlast, Bool.false_and, Bool.false_and]

end Agreement

/-- Everything is on, and the policy is one that no context has. -/
def everything : View where
  ctx := { typed := true, enabled := fun _ => true }
  policy := { definesModel := true, pairsPropEmit := true, stopsWatcher := true }

/-- The bound value does not travel at all. -/
def unbound : View :=
  { everything with
    policy := { definesModel := false, pairsPropEmit := false, stopsWatcher := false } }

/-- There are no props either. -/
def unboundWithoutProps : View := Datum.flip unbound (.feature .props)

/-- The views in which every datum that is read can be seen to be. -/
def views : List View := [everything, unbound, unboundWithoutProps]

namespace Setup

/-- The text of a section in a view. -/
def Section.textIn (s : Section) (v : View) : String := s.text v.ctx v.policy

/-- What a section reads. -/
def Section.readSet : Section → List Datum
  | imports =>
    [.feature .computed, .feature .watch, .feature .lifecycleHooks]
    ++ Hook.inSetup.map fun h => .feature (.hook h)
  | defineOptions => [.feature .defineOptions]
  | props => [.feature .props, .feature .useWithDefaults, .typed, .pairsPropEmit]
  | emits => [.feature .emits, .feature .props, .typed, .pairsPropEmit, .definesModel]
  | defineModel => [.typed, .definesModel]
  | defineSlots => [.feature .defineSlots, .typed]
  | defineExpose => [.feature .defineExpose]
  | computed => [.feature .computed, .feature .emits, .typed, .pairsPropEmit]
  | watch => [.feature .watch, .feature .props, .typed, .definesModel, .pairsPropEmit]
  | hook h => hookReadSet h

section Agreement

variable {v w : View}

theorem importedNames_eq_of_agrees (hagree : ∀ d ∈ Section.imports.readSet, d.Agrees v w) :
    importedNames v.ctx = importedNames w.ctx := by
  have hcomputed : v.ctx.isOn .computed = w.ctx.isOn .computed :=
    hagree (.feature .computed) (by decide)
  have hwatch : v.ctx.isOn .watch = w.ctx.isOn .watch := hagree (.feature .watch) (by decide)
  have hmaster : v.ctx.isOn .lifecycleHooks = w.ctx.isOn .lifecycleHooks :=
    hagree (.feature .lifecycleHooks) (by decide)
  have hhooks : Hook.inSetup.filter v.ctx.isHookOn = Hook.inSetup.filter w.ctx.isHookOn :=
    List.filter_congr fun h hh => congrArg₂ and hmaster
      (hagree (.feature (.hook h)) (List.mem_append_right _ (List.mem_map_of_mem hh)))
  rw [importedNames, importedNames, hcomputed, hwatch, hhooks]

/-- Nothing else is read. -/
theorem text_eq_of_agrees {s : Section} (hind : v.ctx.indentation = w.ctx.indentation)
    (hagree : ∀ d ∈ s.readSet, d.Agrees v w) : s.textIn v = s.textIn w := by
  have hlines : s.lines v.ctx v.policy = s.lines w.ctx w.policy := by
    cases s with
    | imports =>
        have himports := importedNames_eq_of_agrees hagree
        simp only [Section.lines, Section.isOn, Section.body, importLine, himports]
    | hook h =>
        have hon := isHookOn_eq_of_agrees hagree
        have hstops := stops_eq_of_agrees hagree
        simp only [Section.lines, Section.isOn, Section.body, hon, hstops]
    | _ =>
        -- Datum by datum the views agree, and the wording has nothing else in it.
        simp only [Section.readSet, List.forall_mem_cons, Datum.Agrees] at hagree
        simp only [Section.lines, Section.isOn, Section.body, propsWithDefaults, plainProps,
          events, computedValue, watcher, watchSource, hagree]
  rw [Section.textIn, Section.textIn, Section.text, Section.text, hlines, hind]

end Agreement

/-- All of it is read. -/
theorem exists_shown : ∀ s ∈ sections, ∀ d ∈ s.readSet, ∃ v ∈ views,
    s.textIn v ≠ s.textIn (d.flip v) := by
  decide +kernel

theorem isReadSet {s : Section} (hs : s ∈ sections) : IsReadSet s.textIn s.readSet := by
  refine isReadSet_of_shown text_eq_of_agrees fun d hd => ?_
  -- For each datum there is a view in which changing it shows. They are few enough to
  -- be tried.
  rcases exists_shown s hs d hd with ⟨v, _, hv⟩
  exact ⟨v, hv⟩

end Setup

namespace Options

/-- The text of a field in a view. -/
def Field.textIn (f : Field) (v : View) : String := f.text v.ctx v.policy

/-- What a field reads. -/
def Field.readSet : Field → List Datum
  | name => [.feature .name, .name]
  | components => [.feature .components]
  | directives => [.feature .directives]
  | inheritance => [.feature .inheritance]
  | mixins => [.feature .mixins]
  | provideInject => [.feature .provideInject]
  | inheritAttrs => [.feature .inheritAttrs]
  | props => [.feature .props, .typed, .pairsPropEmit]
  | emits => [.feature .emits, .typed, .pairsPropEmit]
  | setup => [.feature .setup]
  | data => [.feature .data]
  | computed => [.feature .computed, .feature .emits, .typed, .pairsPropEmit]
  | watch => [.feature .watch, .typed, .pairsPropEmit]
  | hook h => hookReadSet h
  | methods => [.feature .methods]

/-- Nothing else is read. -/
theorem text_eq_of_agrees {v w : View} {f : Field}
    (hind : v.ctx.indentation = w.ctx.indentation) (hagree : ∀ d ∈ f.readSet, d.Agrees v w) :
    f.textIn v = f.textIn w := by
  have hlines : f.lines v.ctx v.policy = f.lines w.ctx w.policy := by
    cases f with
    | hook h =>
        have hon := isHookOn_eq_of_agrees hagree
        have hstops := stops_eq_of_agrees hagree
        simp only [Field.lines, Field.isOn, Field.body, hon, hstops]
    | _ =>
        simp only [Field.readSet, List.forall_mem_cons, Datum.Agrees] at hagree
        simp only [Field.lines, Field.isOn, Field.body, boundProp, boundEvent, boundValue,
          boundHandler, hagree]
  rw [Field.textIn, Field.textIn, Field.text, Field.text, hlines, hind]

theorem mem_fields (f : Field) : f ∈ fields := by
  cases f with
  | hook h => simp [fields, Hook.mem_all]
  | _ => decide

/-- All of it is read. -/
theorem exists_shown : ∀ f ∈ fields, ∀ d ∈ f.readSet, ∃ v ∈ views,
    f.textIn v ≠ f.textIn (d.flip v) := by
  decide +kernel

theorem isReadSet (f : Field) : IsReadSet f.textIn f.readSet := by
  refine isReadSet_of_shown text_eq_of_agrees fun d hd => ?_
  rcases exists_shown f (mem_fields f) d hd with ⟨v, _, hv⟩
  exact ⟨v, hv⟩

end Options

/-- The switches that policies are made from. -/
def policySwitches : List Feature := [.vModelTemplate, .useDefineModel]

/-- A hook does not look at the switches that policies are made from. -/
theorem hookReadSet_disjoint (h : Hook) : ∀ f ∈ policySwitches, .feature f ∉ hookReadSet h := by
  cases h <;> decide

/-- The read sets of both kinds of scripts. How the bound value travels is not read
    from the switches, in any of them. -/
theorem readSets_exact :
    (∀ s ∈ Setup.sections, IsReadSet s.textIn s.readSet)
      ∧ (∀ f : Options.Field, IsReadSet f.textIn f.readSet)
      ∧ (∀ s : Setup.Section, ∀ f ∈ policySwitches, .feature f ∉ s.readSet)
      ∧ ∀ g : Options.Field, ∀ f ∈ policySwitches, .feature f ∉ g.readSet := by
  refine ⟨fun s => Setup.isReadSet, Options.isReadSet, fun s => ?_, fun g => ?_⟩
  · -- The read sets are lists, so it can be looked through them. The hook is any of
    -- many, but it reads only its own switches.
    cases s with
    | hook h => exact hookReadSet_disjoint h
    | _ => decide
  · cases g with
    | hook h => exact hookReadSet_disjoint h
    | _ => decide

/-- The watcher looks at the switch of the props, and not at that of `v-model`. -/
theorem readSets_exact_watch :
    Setup.Section.watch ∈ Setup.sections
      ∧ (∃ v w, Datum.IsOnlyChange (.feature .props) v w
          ∧ Setup.Section.watch.textIn v ≠ Setup.Section.watch.textIn w)
      ∧ ∀ v w, Datum.IsOnlyChange (.feature .vModelTemplate) v w →
          Setup.Section.watch.textIn v = Setup.Section.watch.textIn w := by
  have hwatch := readSets_exact.1 .watch (by decide)
  refine ⟨by decide, (hwatch.mem_iff _).mp (by decide), fun v w hchange => ?_⟩
  by_contra hne
  exact absurd ((hwatch.mem_iff _).mpr ⟨v, w, hchange, hne⟩) (by decide)

end Scaffold.Script
