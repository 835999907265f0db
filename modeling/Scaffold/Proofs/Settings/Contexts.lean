import Scaffold.Proofs.Settings.Effective

/-!
# Contexts of Settings

When settings describe a context, which one, and what is wrong where they do not.

There are two checks on the way from a value to a context: a source holds a value
to the kind of its default, and what is left of it is held to what a context can
have. Together they come to one condition for each setting, and the order of the
errors is that of the known settings. The second check is never the first to find
that something is no truth value, so what it would say of that is never said. It
does have something left to find: an integer that is not positive is of the right
kind for a width.

## Main definitions

* `contextOf`: The context that a mapping describes.
* `FirstOffender`: The first setting with a value that it cannot have.
* `Settled`: What becomes of a mapping, in terms of its effective values.

## Theorems

* `contextOf_settled`: Effective values settle what becomes of a mapping.
-/

namespace Scaffold.Settings

/-- The context that a mapping describes. -/
def contextOf (data : Mapping) (typed : Bool) (name : String) : Except SettingsError Context := do
  let s ← flattenSections data
  s.get.context typed name

/-- The first setting, in order, with an effective value that it cannot have. -/
structure FirstOffender (data : Mapping) (key : String) (default : Default) (v : Value) :
    Prop where
  first : ∃ before after, defaults = before ++ (key, default) :: after
    ∧ ∀ d ∈ before, ∀ v', effective? data d.1 = some v' → d.2.Admits v'
  value : effective? data key = some v
  offends : ¬default.Admits v

/-- What becomes of a mapping, in terms of its effective values. -/
structure Settled (data : Mapping) (typed : Bool) (name : String)
    (r : Except SettingsError Context) : Prop where
  fails_iff : (∃ e, r = .error e) ↔ SectionUnusable data
    ∨ (∃ f : Feature, ∃ v, effective? data f.key = some v ∧ v.kind ≠ .boolean)
    ∨ (∃ v, effective? data insertSpacesKey = some v ∧ v.kind ≠ .boolean)
    ∨ ∃ v, effective? data tabSizeKey = some v ∧ ∀ n, v = .int n → n < 1
  unusable : SectionUnusable data → r = .error .sectionNotMapping
  offends_iff : ¬SectionUnusable data → ∀ e, r = .error e
    ↔ ∃ key default v, FirstOffender data key default v ∧ e = objection key default v
  /-- The message begins with the key. -/
  names_key : ∀ key default v, FirstOffender data key default v →
    ∃ rest, (objection key default v).message = "'" ++ key ++ "' must be " ++ rest
  never_notSwitch : ∀ key v, r ≠ .error (.notSwitch key v)
  notWidth_iff : (∃ v, r = .error (.notWidth v)) ↔ ¬SectionUnusable data
    ∧ ∃ n, FirstOffender data tabSizeKey (.width defaultTabSize) (.int n) ∧ n < 1
  describes : ∀ ctx, r = .ok ctx → ctx.typed = typed ∧ ctx.name = name
    ∧ (∀ f : Feature, ctx.enabled f = true ↔ effective? data f.key = some (.bool true)
      ∨ effective? data f.key = none ∧ f.onByDefault = true)
    ∧ (ctx.indentation.useTabs = true ↔ effective? data insertSpacesKey = some (.bool false))
    ∧ (effective? data tabSizeKey = some (.int ctx.indentation.width)
      ∨ effective? data tabSizeKey = none ∧ ctx.indentation.width = 2)

/-- The check for truth values in a context is never what objects. -/
theorem objection_ne_notSwitch (key : String) (default : Default) (v : Value) (key' : String)
    (v' : Value) : objection key default v ≠ .notSwitch key' v' := by
  unfold objection
  split <;> nofun

/-- What is said of a value begins with the key of its setting. -/
theorem message_objection {key : String} {default : Default} {v : Value}
    (hd : (key, default) ∈ defaults) :
    ∃ rest, (objection key default v).message = "'" ++ key ++ "' must be " ++ rest := by
  unfold objection
  split
  · -- The one message that does not name its key by itself is about the width.
    next m n =>
      rw [(FlatSettings.eq_of_width_mem_defaults hd).1]
      refine ⟨"a positive integer, got " ++ (Value.int n).literal, ?_⟩
      simp only [SettingsError.message, String.append_assoc]
      rfl
  · refine ⟨"a " ++ default.value.kind.word ++ ", got " ++ v.literal, ?_⟩
    simp only [SettingsError.message, String.append_assoc]
    rfl

/-- Of integers alone it is said that they are not positive. -/
theorem exists_of_objection_eq_notWidth {key : String} {default : Default} {v v' : Value}
    (h : objection key default v = .notWidth v') : ∃ m n, default = .width m ∧ v = .int n := by
  unfold objection at h
  split at h
  · next m n => exact ⟨m, n, rfl, rfl⟩
  · exact absurd h nofun

section Mappings

variable {data : Mapping}

theorem value?_of_flattenSections {s : FlatSettings} (h : flattenSections data = .ok s)
    (key : String) : s.value? key = effective? data key := by
  rw [FlatSettings.value?, get?_of_flattenSections h, effective?]

theorem contextOf_of_flattenSections {s : FlatSettings} (h : flattenSections data = .ok s)
    (typed : Bool) (name : String) : contextOf data typed name = s.get.context typed name := by
  rw [contextOf, h]
  rfl

theorem mem_defaults_of_firstOffender {key : String} {default : Default} {v : Value}
    (h : FirstOffender data key default v) : (key, default) ∈ defaults := by
  rcases h.first with ⟨before, after, hsplit, _⟩
  exact hsplit ▸ List.mem_append_cons_self

/-- Where there is no error in the section, the first offender is the error. -/
theorem contextOf_eq_error_iff (h : ¬SectionUnusable data) {typed : Bool} {name : String}
    {e : SettingsError} : contextOf data typed name = .error e
      ↔ ∃ key default v, FirstOffender data key default v ∧ e = objection key default v := by
  rcases flattenSections_cases data with ⟨_, s, hs, _⟩ | ⟨hunusable, _⟩
  · rw [contextOf_of_flattenSections hs, FlatSettings.context_get_eq_error_iff]
    simp only [value?_of_flattenSections hs]
    constructor
    · rintro ⟨before, ⟨key, default⟩, after, hsplit, hbefore, v, hv, hoffends, rfl⟩
      exact ⟨key, default, v, ⟨⟨before, after, hsplit, hbefore⟩, hv, hoffends⟩, rfl⟩
    · rintro ⟨key, default, v, ⟨⟨before, after, hsplit, hbefore⟩, hv, hoffends⟩, rfl⟩
      exact ⟨before, (key, default), after, hsplit, hbefore, v, hv, hoffends, rfl⟩
  · exact absurd hunusable h

/-- A section that is unusable comes before all other faults. -/
theorem contextOf_of_sectionUnusable (h : SectionUnusable data) (typed : Bool) (name : String) :
    contextOf data typed name = .error .sectionNotMapping := by
  rcases flattenSections_cases data with ⟨husable, _⟩ | ⟨_, hs⟩
  · exact absurd h husable
  · rw [contextOf, hs]
    rfl

theorem contextOf_fails_iff {typed : Bool} {name : String} :
    (∃ e, contextOf data typed name = .error e) ↔ SectionUnusable data
      ∨ ∃ d ∈ defaults, ∃ v, effective? data d.1 = some v ∧ ¬d.2.Admits v := by
  rcases flattenSections_cases data with ⟨husable, s, hs, _⟩ | ⟨hunusable, _⟩
  · rw [contextOf_of_flattenSections hs, FlatSettings.context_get_fails_iff,
      or_iff_right husable]
    simp only [value?_of_flattenSections hs]
  · exact ⟨fun _ => .inl hunusable, fun _ => ⟨_, contextOf_of_sectionUnusable hunusable _ _⟩⟩

/-- The values that some setting cannot have, setting by setting. -/
theorem exists_offender_iff :
    (∃ d ∈ defaults, ∃ v, effective? data d.1 = some v ∧ ¬d.2.Admits v)
      ↔ (∃ f : Feature, ∃ v, effective? data f.key = some v ∧ v.kind ≠ .boolean)
        ∨ (∃ v, effective? data insertSpacesKey = some v ∧ v.kind ≠ .boolean)
        ∨ ∃ v, effective? data tabSizeKey = some v ∧ ∀ n, v = .int n → n < 1 := by
  -- A width is refused for what is no integer, and for integers below one.
  have hwidth : ∀ m v, ¬Default.Admits (.width m) v ↔ ∀ n, v = .int n → n < 1 := by
    intro m v
    simp only [admits_width_iff, not_exists, not_and, Int.not_le]
  constructor
  · rintro ⟨d, hd, v, hv, hoffends⟩
    rcases mem_defaults_iff.mp hd with ⟨f, rfl⟩ | rfl | rfl
    · exact .inl ⟨f, v, hv, fun hkind => hoffends (admits_switch_iff.mpr hkind)⟩
    · exact .inr (.inl ⟨v, hv, fun hkind => hoffends (admits_switch_iff.mpr hkind)⟩)
    · exact .inr (.inr ⟨v, hv, (hwidth _ v).mp hoffends⟩)
  · rintro (⟨f, v, hv, hkind⟩ | ⟨v, hv, hkind⟩ | ⟨v, hv, hsmall⟩)
    · exact ⟨_, mem_defaults_iff.mpr (.inl ⟨f, rfl⟩), v, hv,
        fun hadmits => hkind (admits_switch_iff.mp hadmits)⟩
    · exact ⟨_, mem_defaults_iff.mpr (.inr (.inl rfl)), v, hv,
        fun hadmits => hkind (admits_switch_iff.mp hadmits)⟩
    · exact ⟨_, mem_defaults_iff.mpr (.inr (.inr rfl)), v, hv, (hwidth _ v).mpr hsmall⟩

/-- The context is what the effective values say, and the defaults where they say
    nothing. -/
theorem contextOf_eq_ok_iff {typed : Bool} {name : String} {ctx : Context}
    {s : FlatSettings} (hs : flattenSections data = .ok s) :
    contextOf data typed name = .ok ctx
      ↔ (∀ f : Feature, effective? data f.key = some (.bool (ctx.enabled f))
          ∨ effective? data f.key = none ∧ ctx.enabled f = f.onByDefault)
        ∧ (effective? data insertSpacesKey = some (.bool !ctx.indentation.useTabs)
          ∨ effective? data insertSpacesKey = none ∧ (!ctx.indentation.useTabs) = true)
        ∧ (effective? data tabSizeKey = some (.int ctx.indentation.width)
            ∧ 1 ≤ ctx.indentation.width
          ∨ effective? data tabSizeKey = none ∧ ctx.indentation.width = defaultTabSize)
        ∧ ctx.typed = typed ∧ ctx.name = name := by
  rw [contextOf_of_flattenSections hs, Source.context_eq_ok_iff]
  simp only [FlatSettings.switch_get_eq_ok_iff, FlatSettings.tabSize_get_eq_ok_iff,
    value?_of_flattenSections hs]

end Mappings

/-- Effective values settle what becomes of a mapping. -/
theorem contextOf_settled (data : Mapping) (typed : Bool) (name : String) :
    Settled data typed name (contextOf data typed name) where
  fails_iff := by rw [contextOf_fails_iff, exists_offender_iff]
  unusable h := contextOf_of_sectionUnusable h typed name
  offends_iff h e := contextOf_eq_error_iff h
  names_key key default v h := message_objection (mem_defaults_of_firstOffender h)
  never_notSwitch key v h := by
    by_cases hsection : SectionUnusable data
    · rw [contextOf_of_sectionUnusable hsection] at h
      exact absurd h nofun
    · rcases (contextOf_eq_error_iff hsection).mp h with ⟨_, _, _, _, hobjection⟩
      exact objection_ne_notSwitch _ _ _ _ _ hobjection.symm
  notWidth_iff := by
    constructor
    · rintro ⟨v', h⟩
      have hsection : ¬SectionUnusable data := fun hsection => by
        rw [contextOf_of_sectionUnusable hsection] at h
        exact absurd h nofun
      refine ⟨hsection, ?_⟩
      rcases (contextOf_eq_error_iff hsection).mp h with ⟨key, default, v, hfirst, hobjection⟩
      -- This is only said of widths, and there is only one among the settings.
      rcases exists_of_objection_eq_notWidth hobjection.symm with ⟨m, n, rfl, rfl⟩
      rcases FlatSettings.eq_of_width_mem_defaults (mem_defaults_of_firstOffender hfirst) with
        ⟨rfl, rfl⟩
      refine ⟨n, hfirst, Int.not_le.mp fun hn => hfirst.offends (.width _ hn)⟩
    · rintro ⟨hsection, n, hfirst, _⟩
      exact ⟨.int n, (contextOf_eq_error_iff hsection).mpr ⟨_, _, _, hfirst, rfl⟩⟩
  describes ctx h := by
    rcases flattenSections_cases data with ⟨_, s, hs, _⟩ | ⟨hunusable, _⟩
    · rcases (contextOf_eq_ok_iff hs).mp h with ⟨hon, hspaces, hwidth, htyped, hname⟩
      refine ⟨htyped, hname, fun f => ?_, ?_, hwidth.imp_left And.left⟩
      · -- A switch is on by its value, or by its default where no value counts.
        rcases hon f with hvalue | ⟨hnone, hdefault⟩
        · simp [hvalue]
        · simp [hnone, hdefault]
      · rcases hspaces with hvalue | ⟨hnone, hdefault⟩
        · simp [hvalue]
        · rw [Bool.not_eq_true'] at hdefault
          simp [hnone, hdefault]
    · rw [contextOf_of_sectionUnusable hunusable] at h
      exact absurd h nofun

end Scaffold.Settings
