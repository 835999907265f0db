import Mathlib.Data.List.Basic
import Mathlib.Data.List.Induction
import Scaffold.Script.Options
import Scaffold.Script.Setup

/-!
# Histories of Features

What a context comes to when features are switched on and off again and again.

A step switches some features on and then others off, so of a feature that it
mentions only one thing matters, namely whether it is among those switched off;
a feature that is switched on and off in one step is off. From step to step,
whatever was said about a feature before the last mention of it is forgotten.
Both are put together in `isOn_after_iff`, by induction from the last step back:
that step either settles a feature or has nothing to do with it.

Scripts see the features through their switches alone, so of how a set of
features was arrived at there is no trace in them.

## Main definitions

* `FeatureStep`: Features to be switched on, and features to be switched off then.
* `FeatureStep.Mentions`: A step has something to say about a feature.
* `LastMention`: The last step of a history that mentions a feature.
* `Context.step`, `Context.after`: A context after one step, and after many.
* `ToggledBy`: What a history comes to.

## Theorems

* `isOn_step_of_mentions`, `isOn_step_of_not_mentions`: What one step does.
* `step_step`: A step that is repeated changes nothing.
* `lastMention_concat_of_mentions`, `lastMention_concat_of_not_mentions`: A further
  step is the last mention of a feature or makes no difference.
* `isOn_after_iff`: What is on after a history.
* `script_eq_of_toList_eq`: Scripts see the features that are on.
* `toggledBy_after`: All of it, for every history.
-/

namespace Scaffold

/-- Features to be switched on, and features to be switched off then. -/
structure FeatureStep where
  enable : List Feature := []
  disable : List Feature := []
  deriving DecidableEq, Repr

/-- The step has something to say about a feature. -/
def FeatureStep.Mentions (step : FeatureStep) (f : Feature) : Prop :=
  f ∈ step.enable ∨ f ∈ step.disable

instance (step : FeatureStep) (f : Feature) : Decidable (step.Mentions f) :=
  inferInstanceAs (Decidable (_ ∨ _))

/-- The last step of a history that mentions a feature. -/
def LastMention (history : List FeatureStep) (f : Feature) (step : FeatureStep) : Prop :=
  ∃ earlier later, history = earlier ++ step :: later ∧ step.Mentions f
    ∧ ∀ other ∈ later, ¬other.Mentions f

namespace Context

/-- The context after one step. -/
def step (ctx : Context) (s : FeatureStep) : Context := ctx.withFeatures s.enable s.disable

/-- The context after a history of steps. -/
def after (ctx : Context) (history : List FeatureStep) : Context := history.foldl step ctx

end Context

section Steps

variable {ctx : Context} {s : FeatureStep} {f : Feature}

/-- A step switches on first, so that what it names on both sides is off. -/
theorem isOn_step_iff :
    (ctx.step s).isOn f ↔ (ctx.isOn f ∨ f ∈ s.enable) ∧ f ∉ s.disable := by
  simp only [Context.isOn, Context.step, Context.withFeatures, FeatureSet.update,
    Bool.and_eq_true, Bool.or_eq_true, Bool.not_eq_true', List.contains_eq_mem,
    decide_eq_true_eq, decide_eq_false_iff_not]

/-- A step settles the features that it mentions, whatever they were before. -/
theorem isOn_step_of_mentions (h : s.Mentions f) : (ctx.step s).isOn f ↔ f ∉ s.disable := by
  rw [isOn_step_iff]
  constructor
  · intro hon
    exact hon.2
  · intro hkept
    exact ⟨.inr (h.resolve_right hkept), hkept⟩

/-- All other features stay as they were. -/
theorem isOn_step_of_not_mentions (h : ¬s.Mentions f) : (ctx.step s).isOn f ↔ ctx.isOn f := by
  rw [FeatureStep.Mentions, not_or] at h
  rw [isOn_step_iff]
  constructor
  · rintro ⟨hon | henabled, _⟩
    · exact hon
    · exact absurd henabled h.1
  · intro hon
    exact ⟨.inl hon, h.2⟩

/-- A step touches nothing but the features. -/
theorem step_eq (ctx : Context) (s : FeatureStep) :
    ctx.step s = { ctx with enabled := (ctx.step s).enabled } := rfl

/-- A step that is repeated changes nothing. -/
theorem step_step (ctx : Context) (s : FeatureStep) : (ctx.step s).step s = ctx.step s := by
  have henabled : ((ctx.step s).step s).enabled = (ctx.step s).enabled := by
    funext f
    rw [Bool.eq_iff_iff]
    by_cases h : s.Mentions f
    · exact (isOn_step_of_mentions h).trans (isOn_step_of_mentions h).symm
    · exact isOn_step_of_not_mentions h
  rw [step_eq, henabled]

end Steps

section Histories

variable {ctx : Context} {history : List FeatureStep} {s : FeatureStep} {f : Feature}

theorem after_concat (ctx : Context) (history : List FeatureStep) (s : FeatureStep) :
    ctx.after (history ++ [s]) = (ctx.after history).step s := by
  rw [Context.after, List.foldl_append]
  rfl

/-- A further step is the last mention of what it mentions. -/
theorem lastMention_concat_of_mentions (h : s.Mentions f) {t : FeatureStep} :
    LastMention (history ++ [s]) f t ↔ t = s := by
  constructor
  · -- If nothing comes after the last mention, it is the further step itself.
    rintro ⟨earlier, later, heq, _, hlater⟩
    rcases later.eq_nil_or_concat' with rfl | ⟨front, last, rfl⟩
    · exact (List.singleton_inj.mp (List.append_inj_right' heq rfl)).symm
    · -- Otherwise the further step would come after the last mention.
      rw [← List.cons_append, ← List.append_assoc] at heq
      have hlast : s = last := List.singleton_inj.mp (List.append_inj_right' heq rfl)
      have hmem : last ∈ front ++ [last] := List.mem_append_right _ (List.mem_singleton_self last)
      exact absurd (hlast ▸ h) (hlater last hmem)
  · rintro rfl
    exact ⟨history, [], rfl, h, List.forall_mem_nil _⟩

/-- It makes no difference to what it does not mention. -/
theorem lastMention_concat_of_not_mentions (h : ¬s.Mentions f) {t : FeatureStep} :
    LastMention (history ++ [s]) f t ↔ LastMention history f t := by
  constructor
  · -- The last mention cannot be the further step, so that step is among the later
    -- ones.
    rintro ⟨earlier, later, heq, hmentions, hlater⟩
    rcases later.eq_nil_or_concat' with rfl | ⟨front, last, rfl⟩
    · have hlast : s = t := List.singleton_inj.mp (List.append_inj_right' heq rfl)
      exact absurd (hlast ▸ hmentions) h
    · rw [← List.cons_append, ← List.append_assoc] at heq
      refine ⟨earlier, front, List.append_inj_left' heq rfl, hmentions, ?_⟩
      intro other hother
      exact hlater other (List.mem_append_left _ hother)
  · rintro ⟨earlier, later, rfl, hmentions, hlater⟩
    refine ⟨earlier, later ++ [s], by simp, hmentions, ?_⟩
    rw [List.forall_mem_append, List.forall_mem_singleton]
    exact ⟨hlater, h⟩

/-- A feature is on after a history if the last step that mentions it does not switch it
    off or, without such a step, if it was on before. -/
theorem isOn_after_iff : (ctx.after history).isOn f
    ↔ (∃ t, LastMention history f t ∧ f ∉ t.disable)
      ∨ (∀ t ∈ history, ¬t.Mentions f) ∧ ctx.isOn f := by
  -- By induction from the last step back, since the last mention is what counts.
  induction history using List.reverseRecOn with
  | nil =>
      constructor
      · intro hon
        exact .inr ⟨List.forall_mem_nil _, hon⟩
      · rintro (⟨t, ⟨earlier, later, heq, _⟩, _⟩ | ⟨_, hon⟩)
        · exact absurd heq.symm (List.append_ne_nil_of_right_ne_nil _ (List.cons_ne_nil _ _))
        · exact hon
  | append_singleton history s ih =>
      rw [after_concat]
      by_cases h : s.Mentions f
      · -- The last step settles the feature.
        have hmentioned : ¬∀ t ∈ history ++ [s], ¬t.Mentions f := fun hnone =>
          hnone s (List.mem_append_right _ (List.mem_singleton_self s)) h
        simp only [isOn_step_of_mentions h, lastMention_concat_of_mentions h, exists_eq_left,
          hmentioned, false_and, or_false]
      · -- The last step has nothing to do with it.
        simp only [isOn_step_of_not_mentions h, ih, lastMention_concat_of_not_mentions h,
          List.forall_mem_append, List.forall_mem_singleton, h, not_false_eq_true, and_true]

/-- A history touches nothing but the features. -/
theorem after_eq (ctx : Context) (history : List FeatureStep) :
    ctx.after history = { ctx with enabled := (ctx.after history).enabled } := by
  induction history using List.reverseRecOn with
  | nil => rfl
  | append_singleton history s ih =>
      rw [after_concat, step_eq, ih]

end Histories

section Features

theorem mem_toList_iff {s : FeatureSet} {f : Feature} : f ∈ s.toList ↔ s f = true := by
  rw [FeatureSet.toList, List.mem_filter, and_iff_right (Feature.mem_all f)]

/-- What is on and what is off are all the features. -/
theorem toList_append_offList_perm (s : FeatureSet) :
    (s.toList ++ s.offList).Perm Feature.all :=
  List.filter_append_perm s Feature.all

theorem count_all (f : Feature) : Feature.all.count f = 1 := by
  have hnodup : Feature.all.Nodup := by decide
  rw [hnodup.count, if_pos (Feature.mem_all f)]

/-- Besides typing and indentation, scripts see the features that are on. -/
theorem script_eq_of_toList_eq {ctx ctx' : Context} (htyped : ctx.typed = ctx'.typed)
    (hind : ctx.indentation = ctx'.indentation)
    (hfeatures : ctx.enabled.toList = ctx'.enabled.toList) :
    Script.Setup.script ctx = Script.Setup.script ctx'
      ∧ ∀ name, Script.Options.script name ctx = Script.Options.script name ctx' := by
  -- A set of features is a function, and its list says where that function is true.
  have henabled : ctx.enabled = ctx'.enabled := by
    funext f
    rw [Bool.eq_iff_iff, ← mem_toList_iff, ← mem_toList_iff, hfeatures]
  have hnamed (name : String) : ctx.named name = ctx'.named name := by
    have heq : ctx.named name = ⟨ctx.typed, ctx.enabled, ctx.indentation, name⟩ := rfl
    rw [heq, htyped, henabled, hind]
    rfl
  constructor
  · -- A setup script does not know the name.
    have hnameless (c : Context) : Script.Setup.script c = Script.Setup.script (c.named "") := rfl
    rw [hnameless ctx, hnameless ctx', hnamed]
  · intro name
    have hlines : Script.Options.script name ctx
        = Script.render ctx.indentation (Script.Options.lines (ctx.named name)) := rfl
    rw [hlines, hnamed, hind]
    rfl

end Features

/-- What a history comes to. -/
structure ToggledBy (ctx : Context) (history : List FeatureStep) (final : Context) : Prop where
  /-- The last step that mentions a feature decides and, without any, how it was before. -/
  isOn_iff : ∀ f, final.isOn f ↔ (∃ s, LastMention history f s ∧ f ∉ s.disable)
    ∨ (∀ s ∈ history, ¬s.Mentions f) ∧ ctx.isOn f
  typed_eq : final.typed = ctx.typed
  indentation_eq : final.indentation = ctx.indentation
  name_eq : final.name = ctx.name
  /-- Every feature is listed once, where it belongs. -/
  listed : ∀ f, (f ∈ final.enabled.toList ↔ final.isOn f)
    ∧ (final.enabled.toList ++ final.enabled.offList).count f = 1
  counts : final.enabled.toList.length + final.enabled.offList.length = Feature.all.length
  /-- The last step can as well be repeated. -/
  repeated : ∀ s, history.getLast? = some s → final.step s = final

/-- What every history comes to. Histories that come to the same features, typing and
    indentation give the same scripts. -/
theorem toggledBy_after (ctx : Context) (history : List FeatureStep) :
    ToggledBy ctx history (ctx.after history)
      ∧ ∀ (ctx' : Context) (history' : List FeatureStep),
        ctx.typed = ctx'.typed → ctx.indentation = ctx'.indentation →
        (ctx.after history).enabled.toList = (ctx'.after history').enabled.toList →
        Script.Setup.script (ctx.after history) = Script.Setup.script (ctx'.after history')
          ∧ ∀ name, Script.Options.script name (ctx.after history)
            = Script.Options.script name (ctx'.after history') := by
  constructor
  · -- All about the two lists comes from their being, together, the list of all
    -- features.
    have hperm := toList_append_offList_perm (ctx.after history).enabled
    have heq := after_eq ctx history
    refine ⟨fun f => isOn_after_iff, ?_, ?_, ?_, fun f => ⟨mem_toList_iff, ?_⟩, ?_, ?_⟩
    · rw [heq]
    · rw [heq]
    · rw [heq]
    · rw [hperm.count_eq, count_all]
    · rw [← List.length_append, hperm.length_eq]
    · intro s hlast
      -- The history ends in the step, and a step that is repeated changes nothing.
      rcases List.getLast?_eq_some_iff.mp hlast with ⟨front, rfl⟩
      rw [after_concat, step_step]
  · intro ctx' history' htyped hind hfeatures
    refine script_eq_of_toList_eq ?_ ?_ hfeatures
    · rw [after_eq ctx history, after_eq ctx' history']
      exact htyped
    · rw [after_eq ctx history, after_eq ctx' history']
      exact hind

/-- A detour by way of other features leaves no trace. -/
theorem toggledBy_after_detour :
    (Context.after { typed := true }
        [{ enable := [.mixins, .watch], disable := [.watch] },
          { enable := [.watch, .watch], disable := [.mixins] }]).enabled.toList
        = (Context.after { typed := true } []).enabled.toList
      ∧ Script.Setup.script (Context.after { typed := true }
          [{ enable := [.mixins, .watch], disable := [.watch] },
            { enable := [.watch, .watch], disable := [.mixins] }])
        = Script.Setup.script { typed := true } := by
  have hfeatures : (Context.after { typed := true }
        [{ enable := [.mixins, .watch], disable := [.watch] },
          { enable := [.watch, .watch], disable := [.mixins] }]).enabled.toList
      = (Context.after { typed := true } []).enabled.toList := by
    decide
  exact ⟨hfeatures, ((toggledBy_after { typed := true } _).2 { typed := true } [] rfl rfl
    hfeatures).1⟩

end Scaffold
