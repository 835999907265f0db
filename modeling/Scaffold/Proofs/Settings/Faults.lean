import Mathlib.Data.List.Basic
import Scaffold.Settings.Resolve

/-!
# Faults of Settings

What it takes for a source to describe a context, and why it does not.

Every setting is asked for in turn, and each answer is either usable or a fault.
A context is described exactly by the answers, so nothing about it is left open
(`context_eq_ok_iff`), and where an answer is a fault the first one is the error
of the whole (`context_eq_error_iff`). The order is that of the known settings.
Nothing is assumed about the source.

## Main definitions

* `Source.fault?`: Why the answer to a setting cannot be used.

## Theorems

* `Source.context_eq_ok_iff`: The answers are what the context says.
* `Source.context_eq_error_iff`: The first fault is the error.
* `Source.context_eq_error_iff_first`: The same, of the setting that has it.
-/

namespace Scaffold.Settings

/-- The error that something comes to. -/
def failure? {α : Type} : Except SettingsError α → Option SettingsError
  | .error e => some e
  | .ok _ => none

theorem failure?_eq_some_iff {α : Type} {r : Except SettingsError α} {e : SettingsError} :
    failure? r = some e ↔ r = .error e := by
  cases r with
  | error e' => rw [failure?, Option.some.injEq, Except.error.injEq]
  | ok a => exact ⟨nofun, nofun⟩

theorem failure?_eq_none_iff {α : Type} {r : Except SettingsError α} :
    failure? r = none ↔ ∃ a, r = .ok a := by
  cases r with
  | error e => exact ⟨nofun, nofun⟩
  | ok a => exact ⟨fun _ => ⟨a, rfl⟩, fun _ => rfl⟩

theorem failure?_bind {α β : Type} (r : Except SettingsError α)
    (next : α → Except SettingsError β) (h : ∀ a, ∃ b, next a = .ok b) :
    failure? (r >>= next) = failure? r := by
  cases r with
  | error e => rfl
  | ok a => exact failure?_eq_none_iff.mpr (h a)

/-- The known settings: the features, and then those of the editor. -/
theorem defaults_eq :
    defaults = Feature.all.map (fun f => (f.key, Default.switch f.onByDefault))
      ++ [(insertSpacesKey, .switch true), (tabSizeKey, .width defaultTabSize)] := rfl

/-- One for each feature, and one for each setting of the editor. -/
theorem mem_map_all_append_pair_iff {α : Type} {g : Feature → α} {a b x : α} :
    x ∈ Feature.all.map g ++ [a, b] ↔ (∃ f, x = g f) ∨ x = a ∨ x = b := by
  rw [List.mem_append, List.mem_map, List.mem_pair]
  refine or_congr_left (exists_congr fun f => ?_)
  exact ⟨fun h => h.2.symm, fun h => ⟨Feature.mem_all f, h.symm⟩⟩

theorem mem_defaults_iff {d : String × Default} :
    d ∈ defaults ↔ (∃ f : Feature, d = (f.key, .switch f.onByDefault))
      ∨ d = (insertSpacesKey, .switch true) ∨ d = (tabSizeKey, .width defaultTabSize) := by
  rw [defaults_eq]
  exact mem_map_all_append_pair_iff

namespace Source

variable (source : Source)

/-- Why the answer to a setting cannot be used, if it cannot. -/
def fault? : String × Default → Option SettingsError
  | (key, .switch on) => failure? (source.switch key on)
  | (_, .width _) => failure? source.tabSize

/-- Of usable answers, the features that are on remain, in their order. -/
theorem enabled_eq_filter {fs : List Feature} {on : Feature → Bool}
    (h : ∀ f ∈ fs, source.switch f.key f.onByDefault = .ok (on f)) :
    source.enabled fs = .ok (fs.filter on) := by
  induction fs with
  | nil => rfl
  | cons f fs ih =>
      rw [enabled, h f List.mem_cons_self, ih fun g hg => h g (List.mem_cons_of_mem f hg),
        List.filter_cons]
      rfl

/-- The features fail with the first of them that does. -/
theorem failure?_enabled (fs : List Feature) :
    failure? (source.enabled fs)
      = fs.findSome? fun f => failure? (source.switch f.key f.onByDefault) := by
  induction fs with
  | nil => rfl
  | cons f fs ih =>
      rw [List.findSome?_cons, ← ih, enabled]
      cases source.switch f.key f.onByDefault with
      | error e => rfl
      | ok on => exact failure?_bind _ _ fun rest => ⟨_, rfl⟩

/-- Of the two settings of the editor, the width comes second. -/
theorem failure?_indentation :
    failure? source.indentation
      = (failure? (source.switch insertSpacesKey true)).or (failure? source.tabSize) := by
  unfold indentation
  cases source.switch insertSpacesKey true with
  | error e => rfl
  | ok spaces => exact failure?_bind _ _ fun width => ⟨_, rfl⟩

/-- The first fault is the error. -/
theorem failure?_context (typed : Bool) (name : String) :
    failure? (source.context typed name) = defaults.findSome? source.fault? := by
  -- The features are asked for before the editor's settings in either.
  have hfaults : defaults.findSome? source.fault?
      = (failure? (source.enabled Feature.all)).or (failure? source.indentation) := by
    rw [defaults_eq, List.findSome?_append, List.findSome?_map, failure?_enabled,
      failure?_indentation, List.findSome?_cons, List.findSome?_singleton]
    congr 1
    cases hspaces : source.fault? (insertSpacesKey, .switch true) with
    | none => rw [show failure? (source.switch insertSpacesKey true) = none from hspaces]; rfl
    | some e => rw [show failure? (source.switch insertSpacesKey true) = some e from hspaces]; rfl
  rw [hfaults, context]
  -- Where a feature fails, the settings of the editor are not asked for.
  cases source.enabled Feature.all with
  | error e => rfl
  | ok on => exact failure?_bind _ _ fun indentation => ⟨_, rfl⟩

theorem context_eq_error_iff {typed : Bool} {name : String} {e : SettingsError} :
    source.context typed name = .error e ↔ defaults.findSome? source.fault? = some e := by
  rw [← failure?_context source typed name, failure?_eq_some_iff]

/-- The first setting with a fault decides, in whatever terms a fault and its absence
    are put. -/
theorem context_eq_error_iff_first {typed : Bool} {name : String} {e : SettingsError}
    {Sound Faulty : String × Default → Prop}
    (hnone : ∀ d ∈ defaults, source.fault? d = none ↔ Sound d)
    (hsome : ∀ d ∈ defaults, source.fault? d = some e ↔ Faulty d) :
    source.context typed name = .error e
      ↔ ∃ before d after, defaults = before ++ d :: after ∧ (∀ d' ∈ before, Sound d')
        ∧ Faulty d := by
  rw [context_eq_error_iff, List.findSome?_eq_some_iff]
  refine exists_congr fun before => exists_congr fun d => exists_congr fun after =>
    and_congr_right fun hsplit => ?_
  have hd : d ∈ defaults := hsplit ▸ List.mem_append_cons_self
  -- The settings before the first offender have no fault, each in the terms given.
  rw [and_comm, hsome d hd]
  refine and_congr_left fun _ => forall₂_congr fun d' hd' => hnone d' ?_
  rw [hsplit]
  exact List.mem_append_left _ hd'

/-- Usable answers describe a context. -/
theorem context_of_answers {on : Feature → Bool} {spaces : Bool} {width : Int}
    (hon : ∀ f : Feature, source.switch f.key f.onByDefault = .ok (on f))
    (hspaces : source.switch insertSpacesKey true = .ok spaces)
    (hwidth : source.tabSize = .ok width) (typed : Bool) (name : String) :
    source.context typed name
      = .ok { typed, enabled := on, indentation := { useTabs := !spaces, width }, name } := by
  have henabled : FeatureSet.ofList (Feature.all.filter on) = on := by
    funext f
    simp [FeatureSet.ofList, Feature.mem_all f]
  rw [context, source.enabled_eq_filter fun f _ => hon f, indentation, hspaces, hwidth]
  simp only [bind, Except.bind, pure, Except.pure, henabled]

theorem fault?_of_context {typed : Bool} {name : String} {ctx : Context}
    (h : source.context typed name = .ok ctx) {d : String × Default} (hd : d ∈ defaults) :
    source.fault? d = none := by
  have hnone : failure? (source.context typed name) = none := by rw [h, failure?]
  rw [failure?_context, List.findSome?_eq_none_iff] at hnone
  exact hnone d hd

/-- The answers are what the context says. -/
theorem context_eq_ok_iff {typed : Bool} {name : String} {ctx : Context} :
    source.context typed name = .ok ctx
      ↔ (∀ f : Feature, source.switch f.key f.onByDefault = .ok (ctx.enabled f))
        ∧ source.switch insertSpacesKey true = .ok (!ctx.indentation.useTabs)
        ∧ source.tabSize = .ok ctx.indentation.width
        ∧ ctx.typed = typed ∧ ctx.name = name := by
  constructor
  · intro h
    have hswitch : ∀ f : Feature, ∃ b, source.switch f.key f.onByDefault = .ok b := fun f =>
      failure?_eq_none_iff.mp
        (source.fault?_of_context h (mem_defaults_iff.mpr (.inl ⟨f, rfl⟩)))
    -- One answer for each feature makes a set of features.
    rcases Classical.skolem.mp hswitch with ⟨on, hon⟩
    rcases failure?_eq_none_iff.mp (source.fault?_of_context h
      (mem_defaults_iff.mpr (.inr (.inl rfl)))) with ⟨spaces, hspaces⟩
    rcases failure?_eq_none_iff.mp (source.fault?_of_context h
      (mem_defaults_iff.mpr (.inr (.inr rfl)))) with ⟨width, hwidth⟩
    rw [source.context_of_answers hon hspaces hwidth] at h
    rw [← Except.ok.inj h]
    exact ⟨hon, by rw [Bool.not_not, hspaces], hwidth, rfl, rfl⟩
  · rintro ⟨hon, hspaces, hwidth, rfl, rfl⟩
    rw [source.context_of_answers hon hspaces hwidth, Bool.not_not]

end Source

end Scaffold.Settings
