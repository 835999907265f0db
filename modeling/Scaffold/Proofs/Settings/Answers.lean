import Scaffold.Proofs.Settings.Effective

/-!
# Contexts of Any Source

What becomes of the answers of a source that nothing is known about.

A source that is made of settings has held every value to the kind of its default
before it answers, so that resolution rarely finds anything wrong with its answers.
Another source may answer a switch with null or with a number, a width with a truth
value, or refuse to answer at all. All of these are caught, each by the setting
that was asked for. What is left can be used without a second look: the unit of
indentation is never empty, and indenting twice is indenting by the sum.

The errors are not gone through in the order in which they arise but are read off
the known settings. The first of these without a usable answer is the error of the
whole (`Source.context_eq_error_iff_first`), so it is enough to say of one setting at a
time why its answer cannot be used (`fault?_eq_some_iff`).

## Main definitions

* `Source.answer`: The answer to a known setting.
* `demand`, `complaint`: What a setting has to be, and what is said of a value that
  is something else.
* `Satisfies`, `Offends`: A usable answer, and one that is not.
* `Resolved`: What becomes of the answers of a source.

## Theorems

* `Indentation.text_add`: Indenting by a sum is indenting twice.
* `fault?_eq_some_iff`: Why the answer to a setting cannot be used.
* `Source.context_resolved`: What becomes of the answers of any source.
-/

namespace Scaffold

namespace Indentation

/-- Indenting by a sum is indenting twice, with the empty unit as well. -/
theorem text_add (ind : Indentation) (m n : Nat) :
    ind.text ((m : Int) + n) = ind.text m ++ ind.text n := by
  unfold text
  split
  · rw [← String.ofList_append, ← List.replicate_add,
      Int.toNat_add (Int.natCast_nonneg m) (Int.natCast_nonneg n)]
  · rw [← String.ofList_append, ← List.replicate_add, Int.mul_add]
    rcases Int.le_total 0 ind.width with hwidth | hwidth
    · -- Lengths add up as long as neither is negative.
      rw [Int.toNat_add (Int.mul_nonneg hwidth (Int.natCast_nonneg m))
        (Int.mul_nonneg hwidth (Int.natCast_nonneg n))]
    · -- Nothing comes of a width that is not positive.
      have hnone (k : Nat) : ind.width * k ≤ 0 :=
        Int.mul_nonpos_of_nonpos_of_nonneg hwidth (Int.natCast_nonneg k)
      have hm := hnone m
      have hn := hnone n
      congr 2
      omega

/-- A positive width makes a unit that is not empty. -/
theorem text_one_ne_empty {ind : Indentation} (h : 1 ≤ ind.width) : ind.text 1 ≠ "" := by
  have hcount : ∃ c k, ind.text 1 = String.ofList (List.replicate (k + 1) c) := by
    unfold text
    split
    · exact ⟨'\t', 0, rfl⟩
    · refine ⟨' ', ind.width.toNat - 1, ?_⟩
      rw [Int.mul_one]
      congr 2
      omega
  rcases hcount with ⟨c, k, heq⟩
  intro hempty
  rw [heq, String.ofList_eq_empty_iff] at hempty
  exact absurd hempty (List.cons_ne_nil _ _)

end Indentation

namespace Settings

/-- What a setting has to be. -/
def demand : Default → String
  | .switch _ => "true or false"
  | .width _ => "a positive integer"

/-- What is said of an answer that a setting cannot have. -/
def complaint (key : String) : Default → Value → SettingsError
  | .switch _, v => .notSwitch key v
  | .width _, v => .notWidth v

/-- What is said names the key and what was asked for, and shows the answer. -/
theorem message_complaint {d : String × Default} (hd : d ∈ defaults) (v : Value) :
    (complaint d.1 d.2 v).message
      = "'" ++ d.1 ++ "' must be " ++ demand d.2 ++ ", got " ++ v.literal := by
  obtain ⟨key, default⟩ := d
  cases default with
  | switch on =>
      simp only [complaint, demand, SettingsError.message, String.append_assoc]
      rfl
  | width n =>
      -- The message is always about the one width that there is.
      rw [(FlatSettings.eq_of_width_mem_defaults hd).1]
      simp only [complaint, demand, SettingsError.message, String.append_assoc]
      rfl

namespace Source

variable (source : Source)

/-- The answer to a known setting. -/
def answer (d : String × Default) : Except SettingsError Value := source d.1 d.2.value

/-- The answer is one that the setting can have. -/
def Satisfies (d : String × Default) : Prop := ∃ v, source.answer d = .ok v ∧ d.2.Admits v

/-- The answer cannot be used: there is none, or it is not one that the setting can
    have. -/
inductive Offends (d : String × Default) : SettingsError → Prop
  | refusal {e : SettingsError} (h : source.answer d = .error e) : Offends d e
  | value {v : Value} (h : source.answer d = .ok v) (hv : ¬d.2.Admits v) :
      Offends d (complaint d.1 d.2 v)

/-- What becomes of the answers of a source. -/
structure Resolved (typed : Bool) (name : String) (r : Except SettingsError Context) : Prop where
  succeeds_iff : (∃ ctx, r = .ok ctx)
    ↔ (∀ f : Feature, ∃ b, source f.key (.bool f.onByDefault) = .ok (.bool b))
      ∧ (∃ b, source insertSpacesKey (.bool true) = .ok (.bool b))
      ∧ ∃ n, source tabSizeKey (.int 2) = .ok (.int n) ∧ 1 ≤ n
  describes : ∀ ctx, r = .ok ctx → ctx.typed = typed ∧ ctx.name = name
    ∧ (∀ f : Feature, ctx.enabled f = true ↔ source f.key (.bool f.onByDefault) = .ok (.bool true))
    ∧ source insertSpacesKey (.bool true) = .ok (.bool !ctx.indentation.useTabs)
    ∧ source tabSizeKey (.int 2) = .ok (.int ctx.indentation.width)
  indents : ∀ ctx, r = .ok ctx → ctx.indentation.text 1 ≠ ""
    ∧ ∀ m n : Nat, ctx.indentation.text ((m : Int) + n)
      = ctx.indentation.text m ++ ctx.indentation.text n
  /-- The first setting without a usable answer is the error of the whole. -/
  fails_iff : ∀ e, r = .error e ↔ ∃ before d after, defaults = before ++ d :: after
    ∧ (∀ d' ∈ before, source.Satisfies d') ∧ source.Offends d e
  /-- Where that is because of the answer, the message names the setting and shows the
      answer. -/
  shows : ∀ d ∈ defaults, ∀ v, (complaint d.1 d.2 v).message
    = "'" ++ d.1 ++ "' must be " ++ demand d.2 ++ ", got " ++ v.literal

variable {source : Source}

theorem switch_eq (key : String) (on : Bool) :
    source.switch key on
      = match source key (.bool on) with
        | .error e => .error e
        | .ok (.bool b) => .ok b
        | .ok v => .error (.notSwitch key v) := by
  unfold switch
  rcases source key (.bool on) with e | v
  · rfl
  · cases v <;> rfl

theorem tabSize_eq :
    source.tabSize
      = match source tabSizeKey (.int defaultTabSize) with
        | .error e => .error e
        | .ok (.int n) => if n < 1 then .error (.notWidth (.int n)) else .ok n
        | .ok v => .error (.notWidth v) := by
  unfold tabSize
  rcases source tabSizeKey (.int defaultTabSize) with e | v
  · rfl
  · cases v <;> rfl

/-- Only a truth value is usable for a switch. -/
theorem switch_eq_ok_iff {key : String} {on b : Bool} :
    source.switch key on = .ok b ↔ source key (.bool on) = .ok (.bool b) := by
  rw [switch_eq]
  rcases source key (.bool on) with e | v
  · exact ⟨nofun, nofun⟩
  · cases v <;> simp

/-- Only a positive integer is usable for the width. -/
theorem tabSize_eq_ok_iff {n : Int} :
    source.tabSize = .ok n ↔ source tabSizeKey (.int defaultTabSize) = .ok (.int n) ∧ 1 ≤ n := by
  rw [tabSize_eq]
  rcases source tabSizeKey (.int defaultTabSize) with e | v
  · exact ⟨nofun, nofun⟩
  · cases v with
    | int m =>
        by_cases hm : m < 1
        · simp only [hm, if_true, reduceCtorEq, Except.ok.injEq, Value.int.injEq, false_iff,
            not_and]
          omega
        · simp only [hm, if_false, Except.ok.injEq, Value.int.injEq]
          omega
    | _ => simp

theorem offends_iff {d : String × Default} {e : SettingsError} :
    source.Offends d e ↔ source.answer d = .error e
      ∨ ∃ v, source.answer d = .ok v ∧ ¬d.2.Admits v ∧ complaint d.1 d.2 v = e := by
  constructor
  · rintro (h | ⟨h, hv⟩)
    · exact .inl h
    · exact .inr ⟨_, h, hv, rfl⟩
  · rintro (h | ⟨v, h, hv, rfl⟩)
    · exact .refusal h
    · exact .value h hv

/-- Why the answer to a setting cannot be used, if it cannot. -/
theorem fault?_eq_some_iff {d : String × Default} (hd : d ∈ defaults) {e : SettingsError} :
    source.fault? d = some e ↔ source.Offends d e := by
  obtain ⟨key, default⟩ := d
  rw [offends_iff]
  cases default with
  | switch on =>
      rw [fault?, failure?_eq_some_iff, switch_eq, answer, Default.value]
      rcases source key (.bool on) with e' | v
      · simp
      · cases v <;> simp [admits_switch_iff, Value.kind, complaint]
  | width n =>
      rcases FlatSettings.eq_of_width_mem_defaults hd with ⟨rfl, rfl⟩
      rw [fault?, failure?_eq_some_iff, tabSize_eq, answer, Default.value]
      rcases source tabSizeKey (.int defaultTabSize) with e' | v
      · simp
      · cases v with
        | int m =>
            -- An integer offends by being too small and not by its kind.
            by_cases hm : m < 1
            · simp [admits_width_iff, complaint, hm]
            · simp [admits_width_iff, hm]
        | _ => simp [admits_width_iff, complaint]

/-- The answers without a fault are those that can be used. -/
theorem fault?_eq_none_iff {d : String × Default} (hd : d ∈ defaults) :
    source.fault? d = none ↔ source.Satisfies d := by
  rw [Option.eq_none_iff_forall_ne_some]
  constructor
  · intro h
    cases hanswer : source.answer d with
    | error e => exact absurd ((fault?_eq_some_iff hd).mpr (.refusal hanswer)) (h e)
    | ok v =>
        by_contra hsatisfies
        have hv : ¬d.2.Admits v := fun hv => hsatisfies ⟨v, hanswer, hv⟩
        exact h _ ((fault?_eq_some_iff hd).mpr (.value hanswer hv))
  · rintro ⟨v, hanswer, hv⟩ e he
    rcases offends_iff.mp ((fault?_eq_some_iff hd).mp he) with hrefusal | ⟨v', hvalue, hv', _⟩
    · exact absurd (hanswer.symm.trans hrefusal) nofun
    · exact hv' (Except.ok.inj (hanswer.symm.trans hvalue) ▸ hv)

/-- Usable answers are all that it takes. -/
theorem context_succeeds_iff {typed : Bool} {name : String} :
    (∃ ctx, source.context typed name = .ok ctx)
      ↔ (∀ f : Feature, ∃ b, source f.key (.bool f.onByDefault) = .ok (.bool b))
        ∧ (∃ b, source insertSpacesKey (.bool true) = .ok (.bool b))
        ∧ ∃ n, source tabSizeKey (.int defaultTabSize) = .ok (.int n) ∧ 1 ≤ n := by
  constructor
  · rintro ⟨ctx, h⟩
    rcases (context_eq_ok_iff source).mp h with ⟨hon, hspaces, hwidth, _, _⟩
    exact ⟨fun f => ⟨_, switch_eq_ok_iff.mp (hon f)⟩, ⟨_, switch_eq_ok_iff.mp hspaces⟩,
      _, tabSize_eq_ok_iff.mp hwidth⟩
  · rintro ⟨hswitch, ⟨spaces, hspaces⟩, width, hwidth⟩
    -- The answers to the features are put together to the set that the context has.
    rcases Classical.skolem.mp hswitch with ⟨on, hon⟩
    exact ⟨_, context_of_answers source (fun f => switch_eq_ok_iff.mpr (hon f))
      (switch_eq_ok_iff.mpr hspaces) (tabSize_eq_ok_iff.mpr hwidth) typed name⟩

/-- What becomes of the answers of any source. -/
theorem context_resolved (source : Source) (typed : Bool) (name : String) :
    source.Resolved typed name (source.context typed name) where
  succeeds_iff := context_succeeds_iff
  describes ctx h := by
    rcases (context_eq_ok_iff source).mp h with ⟨hon, hspaces, hwidth, htyped, hname⟩
    refine ⟨htyped, hname, fun f => ?_, switch_eq_ok_iff.mp hspaces,
      (tabSize_eq_ok_iff.mp hwidth).1⟩
    rw [switch_eq_ok_iff.mp (hon f), Except.ok.injEq, Value.bool.injEq]
  indents ctx h := by
    rcases (context_eq_ok_iff source).mp h with ⟨_, _, hwidth, _, _⟩
    exact ⟨Indentation.text_one_ne_empty (tabSize_eq_ok_iff.mp hwidth).2, ctx.indentation.text_add⟩
  fails_iff _ :=
    context_eq_error_iff_first source (fun _ hd => fault?_eq_none_iff hd)
      fun _ hd => fault?_eq_some_iff hd
  shows d hd v := message_complaint hd v

-- A plain look-up hands on what is stored, null and truth values included.
example : (ofMapping [(.str tabSizeKey, .bool true)]).context true
    = .error (.notWidth (.bool true)) := rfl

end Source

end Settings

end Scaffold
