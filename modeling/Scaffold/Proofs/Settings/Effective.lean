import Scaffold.Proofs.Settings.Faults
import Scaffold.Proofs.Settings.Leaves

/-!
# Effective Settings

Which of the values in a settings file counts.

A setting can be written among the entries of a file or in the section of the
file, and in either place any number of times. The last leaf of the section
counts, and where the section has none, the last leaf beside it
(`get?_of_flattenSections`). If what counts is null, the setting is as good as
missing, even where a value that was overridden is not null.

With that settled, nothing more has to be known of settings than what is
effective for each key. The faults of a source that is made of settings are
faults of effective values (`fault?_get_eq_some_iff`), so the first error can be
found in the file without resolving anything (`context_get_eq_error_iff`).

## Main definitions

* `Level`, `leavesAt`: The two places for settings, and the leaves there.
* `SectionUnusable`: Settings with something that cannot be a section.
* `effective?`: The value that counts for a dotted key.
* `Default.Admits`: The values that a setting can have.
* `objection`: What is said of any other value.

## Theorems

* `flattenSections_cases`: Flat settings hold what counts, if there are any.
* `fault?_get_eq_some_iff`: The faults are the values that are not admitted.
* `context_get_eq_error_iff`: The first of them is the error.
-/

namespace Scaffold.Settings

/-- Where settings are written: among the entries of a file, or in its section. -/
inductive Level where
  | outer
  | inner
  deriving DecidableEq, Repr

/-- The value of the section, if there is one. -/
def section? (data : Mapping) : Option Value := (data.find? isSection).map Prod.snd

/-- There is something in the place of the section that is neither a mapping nor
    null. -/
def SectionUnusable (data : Mapping) : Prop :=
  ∃ v, section? data = some v ∧ v.kind ≠ .null ∧ v.kind ≠ .mapping

/-- The leaves of a level, in order. -/
def leavesAt (data : Mapping) : Level → List Leaf
  | .outer => entryLeaves (data.filter fun e => !isSection e)
  | .inner =>
    match section? data with
    | some (.map entries) => entryLeaves entries
    | _ => []

/-- The value of a key, whether null or not: the last in the section, or else the
    last beside it. -/
def winning? (data : Mapping) (key : String) : Option Value :=
  (lastLeaf? (leavesAt data .inner) key).or (lastLeaf? (leavesAt data .outer) key)

/-- A value that is not null. -/
def unlessNull (v? : Option Value) : Option Value := v?.filter fun v => v.kind != .null

/-- The value that counts for a key. One that is null is as good as none. -/
def effective? (data : Mapping) (key : String) : Option Value := unlessNull (winning? data key)

theorem unlessNull_eq_some_iff {v? : Option Value} {v : Value} :
    unlessNull v? = some v ↔ v? = some v ∧ v.kind ≠ .null := by
  rw [unlessNull, Option.filter_eq_some_iff, bne_iff_ne]

/-- Flat settings hold what counts. There are none where the section is unusable. -/
theorem flattenSections_cases (data : Mapping) :
    (¬SectionUnusable data ∧ ∃ s, flattenSections data = .ok s
        ∧ ∀ key, s.get? key = winning? data key)
      ∨ SectionUnusable data ∧ flattenSections data = .error .sectionNotMapping := by
  unfold flattenSections SectionUnusable winning?
  simp only [leavesAt, section?]
  -- The section is missing, null, a mapping or something else.
  cases hfind : data.find? isSection with
  | none => exact .inl ⟨nofun, _, rfl, fun key => get?_flatten _ key⟩
  | some e =>
      obtain ⟨k, v⟩ := e
      simp only [Option.map_some]
      cases v with
      | null =>
          -- A section that holds nothing is as good as none.
          refine .inl ⟨fun ⟨v, hv, hnull, _⟩ => hnull ?_, _, rfl, fun key => get?_flatten _ key⟩
          rw [← Option.some.inj hv]
          rfl
      | map entries =>
          refine .inl ⟨fun ⟨v, hv, _, hmap⟩ => hmap ?_, _, rfl, fun key => ?_⟩
          · rw [← Option.some.inj hv]
            rfl
          · rw [OrderedMap.get?_update, get?_flatten, get?_flatten]
      | _ => exact .inr ⟨⟨_, rfl, nofun, nofun⟩, rfl⟩

theorem get?_of_flattenSections {data : Mapping} {s : FlatSettings}
    (h : flattenSections data = .ok s) (key : String) : s.get? key = winning? data key := by
  rcases flattenSections_cases data with ⟨_, s', hs', hget⟩ | ⟨_, herror⟩
  · rw [Except.ok.inj (h.symm.trans hs'), hget]
  · exact absurd (h.symm.trans herror) nofun

/-- The values that a setting can have: a switch is true or false, and a width is
    positive. -/
inductive Default.Admits : Default → Value → Prop
  | switch (on b : Bool) : Admits (.switch on) (.bool b)
  | width (m : Int) {n : Int} (h : 1 ≤ n) : Admits (.width m) (.int n)

/-- What is said of a value that a setting cannot have: it is of the wrong kind,
    unless it is an integer where one is asked for. -/
def objection (key : String) : Default → Value → SettingsError
  | .width _, .int n => .notWidth (.int n)
  | default, v => .wrongKind key default.value.kind v

theorem exists_bool_of_kind {v : Value} (h : v.kind = .boolean) : ∃ b, v = .bool b := by
  cases v with
  | bool b => exact ⟨b, rfl⟩
  | _ => exact absurd h nofun

theorem exists_int_of_kind {v : Value} (h : v.kind = .integer) : ∃ n, v = .int n := by
  cases v with
  | int n => exact ⟨n, rfl⟩
  | _ => exact absurd h nofun

/-- A switch takes truth values, and numbers are none. -/
theorem admits_switch_iff {on : Bool} {v : Value} :
    Default.Admits (.switch on) v ↔ v.kind = .boolean := by
  constructor
  · rintro ⟨⟩
    rfl
  · intro h
    rcases exists_bool_of_kind h with ⟨b, rfl⟩
    exact .switch on b

theorem admits_width_iff {m : Int} {v : Value} :
    Default.Admits (.width m) v ↔ ∃ n, v = .int n ∧ 1 ≤ n := by
  constructor
  · rintro ⟨⟩
    exact ⟨_, rfl, by assumption⟩
  · rintro ⟨n, rfl, hn⟩
    exact .width m hn

/-- A value is held to the kind of a default, unless the default is null. -/
theorem checkKind_eq (key : String) (v default : Value) :
    checkKind key v default
      = if default.kind = .null ∨ v.kind = default.kind then .ok v
        else .error (.wrongKind key default.kind v) := by
  simp only [checkKind, Bool.or_eq_true, decide_eq_true_eq]

namespace FlatSettings

variable (s : FlatSettings)

/-- The value that counts for a key. -/
def value? (key : String) : Option Value := unlessNull (s.get? key)

theorem get_of_value?_eq_none {s : FlatSettings} {key : String} (h : s.value? key = none)
    (default : Value) : s.get key default = .ok default := by
  rw [value?, unlessNull] at h
  unfold get
  cases hget : OrderedMap.get? s key with
  | none => rfl
  | some v =>
      rw [hget] at h
      cases v with
      | null => rfl
      | _ => exact absurd h nofun

theorem get_of_value?_eq_some {s : FlatSettings} {key : String} {v : Value}
    (h : s.value? key = some v) (default : Value) :
    s.get key default = checkKind key v default := by
  rw [value?, unlessNull_eq_some_iff] at h
  unfold get
  rw [h.1]
  cases v with
  | null => exact absurd rfl h.2
  | _ => rfl

/-- What is answered to a switch. The check on the way finds the wrong kind first. -/
theorem switch_get_eq (key : String) (on : Bool) :
    Source.switch s.get key on
      = match s.value? key with
        | none => .ok on
        | some (.bool b) => .ok b
        | some v => .error (.wrongKind key .boolean v) := by
  unfold Source.switch
  cases hvalue : s.value? key with
  | none =>
      rw [get_of_value?_eq_none hvalue]
      rfl
  | some v =>
      rw [get_of_value?_eq_some hvalue]
      cases v <;> rfl

/-- What is answered to the width. A number that is not positive gets past the first
    check. -/
theorem tabSize_get_eq :
    Source.tabSize s.get
      = match s.value? tabSizeKey with
        | none => .ok defaultTabSize
        | some (.int n) => if n < 1 then .error (.notWidth (.int n)) else .ok n
        | some v => .error (.wrongKind tabSizeKey .integer v) := by
  unfold Source.tabSize
  cases hvalue : s.value? tabSizeKey with
  | none =>
      rw [get_of_value?_eq_none hvalue]
      rfl
  | some v =>
      rw [get_of_value?_eq_some hvalue]
      cases v <;> rfl

theorem switch_get_eq_ok_iff {s : FlatSettings} {key : String} {on b : Bool} :
    Source.switch s.get key on = .ok b
      ↔ s.value? key = some (.bool b) ∨ s.value? key = none ∧ b = on := by
  rw [switch_get_eq]
  cases s.value? key with
  | none => simp [eq_comm]
  | some v => cases v <;> simp

theorem tabSize_get_eq_ok_iff {s : FlatSettings} {n : Int} :
    Source.tabSize s.get = .ok n
      ↔ (s.value? tabSizeKey = some (.int n) ∧ 1 ≤ n)
        ∨ s.value? tabSizeKey = none ∧ n = defaultTabSize := by
  rw [tabSize_get_eq]
  cases s.value? tabSizeKey with
  | none => simp [eq_comm]
  | some v =>
      cases v with
      | int m =>
          -- Of the integers, those below one are refused here and nowhere before.
          by_cases hm : m < 1
          · simp only [hm, if_true, reduceCtorEq, Option.some.injEq, Value.int.injEq, false_and,
              or_false, false_iff, not_and]
            omega
          · simp only [hm, if_false, Except.ok.injEq, Option.some.injEq, Value.int.injEq,
              reduceCtorEq, false_and, or_false]
            omega
      | _ => simp

/-- Of the known settings only the last one is a width. -/
theorem eq_of_width_mem_defaults {key : String} {n : Int} (h : (key, .width n) ∈ defaults) :
    key = tabSizeKey ∧ n = defaultTabSize := by
  rcases mem_defaults_iff.mp h with ⟨f, hf⟩ | hf | hf
  · exact absurd (Prod.mk.inj hf).2 nofun
  · exact absurd (Prod.mk.inj hf).2 nofun
  · exact ⟨(Prod.mk.inj hf).1, Default.width.inj (Prod.mk.inj hf).2⟩

/-- The faults are the values that a setting cannot have. -/
theorem fault?_get_eq_some_iff {d : String × Default} (hd : d ∈ defaults) {e : SettingsError} :
    Source.fault? s.get d = some e
      ↔ ∃ v, s.value? d.1 = some v ∧ ¬d.2.Admits v ∧ e = objection d.1 d.2 v := by
  obtain ⟨key, default⟩ := d
  cases default with
  | switch on =>
      -- Every kind but one is a fault, and so the message is the same for all of them.
      rw [Source.fault?, failure?_eq_some_iff, switch_get_eq]
      cases s.value? key with
      | none => simp
      | some v =>
          cases v <;> simp [admits_switch_iff, Value.kind, objection, Default.value, eq_comm]
  | width n =>
      rcases eq_of_width_mem_defaults hd with ⟨rfl, rfl⟩
      rw [Source.fault?, failure?_eq_some_iff, tabSize_get_eq]
      cases s.value? tabSizeKey with
      | none => simp
      | some v =>
          cases v with
          | int m =>
              by_cases hm : m < 1
              · simp [admits_width_iff, objection, hm, eq_comm]
              · simp [admits_width_iff, hm]
          | _ => simp [admits_width_iff, Value.kind, objection, Default.value, eq_comm]

/-- Nothing is wrong where every value that counts is admitted. -/
theorem fault?_get_eq_none_iff {d : String × Default} (hd : d ∈ defaults) :
    Source.fault? s.get d = none ↔ ∀ v, s.value? d.1 = some v → d.2.Admits v := by
  rw [Option.eq_none_iff_forall_ne_some]
  constructor
  · intro h v hv
    by_contra hadmits
    exact h _ ((fault?_get_eq_some_iff s hd).mpr ⟨v, hv, hadmits, rfl⟩)
  · intro h e he
    rcases (fault?_get_eq_some_iff s hd).mp he with ⟨v, hv, hadmits, _⟩
    exact hadmits (h v hv)

/-- Settings are refused for one value that is not admitted, wherever it is. -/
theorem context_get_fails_iff {typed : Bool} {name : String} :
    (∃ e, Source.context s.get typed name = .error e)
      ↔ ∃ d ∈ defaults, ∃ v, s.value? d.1 = some v ∧ ¬d.2.Admits v := by
  simp only [Source.context_eq_error_iff]
  -- Which error it is does not matter here, so the first fault is as good as any.
  rw [← Option.isSome_iff_exists, List.findSome?_isSome_iff]
  refine exists_congr fun d => and_congr_right fun hd => ?_
  rw [Option.isSome_iff_exists]
  constructor
  · rintro ⟨e, he⟩
    rcases (fault?_get_eq_some_iff s hd).mp he with ⟨v, hv, hadmits, _⟩
    exact ⟨v, hv, hadmits⟩
  · rintro ⟨v, hv, hadmits⟩
    exact ⟨_, (fault?_get_eq_some_iff s hd).mpr ⟨v, hv, hadmits, rfl⟩⟩

/-- The first value that a setting cannot have is the error. -/
theorem context_get_eq_error_iff {typed : Bool} {name : String} {e : SettingsError} :
    Source.context s.get typed name = .error e
      ↔ ∃ before d after, defaults = before ++ d :: after
        ∧ (∀ d' ∈ before, ∀ v, s.value? d'.1 = some v → d'.2.Admits v)
        ∧ ∃ v, s.value? d.1 = some v ∧ ¬d.2.Admits v ∧ e = objection d.1 d.2 v :=
  Source.context_eq_error_iff_first s.get (fun _ hd => fault?_get_eq_none_iff s hd)
    fun _ hd => fault?_get_eq_some_iff s hd

end FlatSettings

end Scaffold.Settings
