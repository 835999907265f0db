import Scaffold.Proofs.Settings.Effective

/-!
# Looking Settings Up

What is answered to a key and a default.

An answer depends on one value, the one that wins for the key: the last leaf of the
section with that dotted key, or the last one beside the section if it has none. The
winner is found before it is looked at. So a null in the section is an answer of its
own and gives the default, although there may be a usable value beside the section
that it hides (`Answered.stands_in`).

A value is held to the kind of the default, and a truth value is no integer. With a
default of null there is nothing to hold it to. A mapping never wins, since only
leaves do, so that a default that is a mapping has no value of its kind.

## Main definitions

* `Answered`: What is answered, in terms of the value that wins.
* `LooksUp`: What the flat form of settings answers to every key.

## Theorems

* `answered_get`: What is answered depends on what the key holds.
* `flattenSections_looksUp`: What is answered depends on the value that wins.
-/

namespace Scaffold.Settings

/-- What is answered to a key and a default, in terms of the value that wins. -/
structure Answered (wins? : Option Value) (key : String) (default : Value)
    (answer : Except SettingsError Value) : Prop where
  /-- The default stands in for a value that is missing or null. -/
  stands_in : (∀ v, wins? = some v → v.kind = .null) → answer = .ok default
  /-- A value of the kind of the default is the answer, and any value if the default is
      null. -/
  fits : ∀ v, wins? = some v → v.kind ≠ .null → default.kind = .null ∨ v.kind = default.kind →
    answer = .ok v
  /-- Any other value is an error. -/
  clashes : ∀ v, wins? = some v → v.kind ≠ .null → default.kind ≠ .null →
    v.kind ≠ default.kind → answer = .error (.wrongKind key default.kind v)
  /-- An error names the key. -/
  names_key : ∀ e, answer = .error e → ∃ rest, e.message = "'" ++ key ++ "' must be a " ++ rest

/-- What the flat form of settings answers. -/
structure LooksUp (data : Mapping) (r : Except SettingsError FlatSettings) : Prop where
  refused_iff : (∃ e, r = .error e) ↔ SectionUnusable data
  refusal : ∀ e, r = .error e → e.message = "'vue-files' must be a mapping"
  answers : ∀ s, r = .ok s → ∀ key default,
    Answered (winning? data key) key default (s.get key default)
  /-- Nothing that is written for other keys makes a difference. -/
  alone : ∀ s, r = .ok s → ∀ data' s' key, flattenSections data' = .ok s' →
    winning? data' key = winning? data key → ∀ default, s'.get key default = s.get key default

theorem message_wrongKind (key : String) (expected : Kind) (v : Value) :
    ∃ rest, (SettingsError.wrongKind key expected v).message
      = "'" ++ key ++ "' must be a " ++ rest := by
  refine ⟨expected.word ++ ", got " ++ v.literal, ?_⟩
  simp only [SettingsError.message, String.append_assoc]

/-- Of the settings, only what the key holds makes a difference. -/
theorem get_congr {s s' : FlatSettings} {key : String}
    (h : OrderedMap.get? s' key = OrderedMap.get? s key) (default : Value) :
    s'.get key default = s.get key default := by
  unfold FlatSettings.get
  rw [h]

/-- What is answered depends on what the key holds. -/
theorem answered_get (s : FlatSettings) (key : String) (default : Value) :
    Answered (OrderedMap.get? s key) key default (s.get key default) where
  stands_in h := by
    -- A key that holds null has no value that counts.
    have hnone : s.value? key = none := by
      rw [Option.eq_none_iff_forall_ne_some]
      intro v hv
      rw [FlatSettings.value?, unlessNull_eq_some_iff] at hv
      exact hv.2 (h v hv.1)
    exact FlatSettings.get_of_value?_eq_none hnone default
  fits v hv hnull hfits := by
    rw [FlatSettings.get_of_value?_eq_some (unlessNull_eq_some_iff.mpr ⟨hv, hnull⟩), checkKind_eq,
      if_pos hfits]
  clashes v hv hnull hdefault hkind := by
    rw [FlatSettings.get_of_value?_eq_some (unlessNull_eq_some_iff.mpr ⟨hv, hnull⟩), checkKind_eq,
      if_neg (not_or.mpr ⟨hdefault, hkind⟩)]
  names_key e h := by
    cases hvalue : s.value? key with
    -- The default is no error.
    | none =>
        rw [FlatSettings.get_of_value?_eq_none hvalue] at h
        cases h
    | some v =>
        rw [FlatSettings.get_of_value?_eq_some hvalue, checkKind_eq] at h
        split at h
        · cases h
        · rw [← Except.error.inj h]
          exact message_wrongKind key default.kind v

/-- What is answered depends on the value that wins. -/
theorem flattenSections_looksUp (data : Mapping) : LooksUp data (flattenSections data) := by
  rcases flattenSections_cases data with ⟨husable, s, hs, hget⟩ | ⟨hunusable, herror⟩
  · rw [hs]
    refine ⟨iff_of_false nofun husable, nofun, ?_, ?_⟩
    · rintro _ ⟨⟩ key default
      rw [← hget]
      exact answered_get s key default
    · rintro _ ⟨⟩ data' s' key hs' hwins default
      refine get_congr ?_ default
      rw [get?_of_flattenSections hs', hwins, hget]
  · rw [herror]
    refine ⟨iff_of_true ⟨_, rfl⟩ hunusable, ?_, nofun, nofun⟩
    rintro _ ⟨⟩
    rfl

-- The null in the section hides the value beside it, and a truth value is no integer.
example : (flattenSections [(.str "a", .map [(.str "b", .bool true)]),
      (.str sectionName, .map [(.str "a.b", .null), (.str "c", .bool true)])]).map
    (fun s => (failure? (s.get "a.b" (.int 1)), failure? (s.get "c" (.int 1))))
    = .ok (none, some (.wrongKind "c" .integer (.bool true))) := rfl

end Scaffold.Settings
