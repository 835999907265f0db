import Mathlib.Tactic.Ring
import Scaffold.Proofs.Script.Frequency
import Scaffold.Proofs.Script.Options.Decisions

/-!
# Mentions of the Bound Value in Options Scripts

Where and how often an options script speaks of the value that `v-model` binds.

Four fields and one hook do. They are generated apart from each other, and each
of them from other switches, but a mention stands inside of one line, so those
of a script can be counted field by field. What is left is a sum over the five,
and the switches that make a mention occur can be read from it.

Every mention has the name of the bound prop in it. A component's name without
that makes no mention, whatever else is in it, since the quotes around it are
not in the prop's name.

## Main definitions

* `Mention`: What a field can say about the bound value.
* `boundFields`: The fields that say anything.
* `Field.mentions`: How often they do.

## Theorems

* `total_later`, `total_nameLine`: The mentions of a field.
* `frequency_script`: Mentions are counted field by field.
* `frequency_modelValue`: How often a script names the bound prop.
* `updates_infix_script_iff`, `watches_infix_script_iff`,
  `reads_infix_script_iff`: Which scripts make the other mentions.
-/

namespace Scaffold.Script.Options

open Text

/-- What a field can say about the bound value. -/
inductive Mention where
  /-- Its name, in whatever role. -/
  | names
  /-- Emitting the event that updates it. -/
  | updates
  /-- Replacing its watcher. -/
  | watches
  /-- Reading it. -/
  | reads
  deriving DecidableEq, Repr

namespace Mention

/-- How a mention is written. -/
def text : Mention → String
  | names => "modelValue"
  | updates => "this.$emit('update:modelValue', value)"
  | watches => "this.$watch('modelValue'"
  | reads => "this.modelValue"

def all : List Mention := [names, updates, watches, reads]

theorem mem_all (m : Mention) : m ∈ all := by cases m <;> decide

/-- A mention stands within a line, so those of a script are those of its lines. -/
theorem isInline_text (m : Mention) : isInline m.text.toList := by cases m <;> decide

/-- Every mention has the name of the prop in it. -/
theorem names_infix_text (m : Mention) : "modelValue".toList <:+: m.text.toList := by
  cases m <;> decide

/-- The mentions with their characters, from literals that can be spelled out. -/
theorem table_eq : (all.map fun m => m.text.toList) =
    ["modelValue".toList, "this.$emit('update:modelValue', value)".toList,
      "this.$watch('modelValue'".toList, "this.modelValue".toList] := by
  rfl

end Mention

/-- The fields that `v-model` changes. -/
def boundFields : List Field := [.props, .emits, .computed, .watch, .hook .beforeUnmount]

/-- How often a field that is on says something about the bound value. -/
def Field.mentions (ctx : Context) (policy : BindingPolicy) : Field → Mention → Nat
  | props, .names => policy.pairsPropEmit.toNat
  | emits, .names => policy.pairsPropEmit.toNat
  | computed, .names => policy.pairsPropEmit.toNat * (1 + (ctx.isOn .emits).toNat)
  | computed, .updates => policy.pairsPropEmit.toNat * (ctx.isOn .emits).toNat
  | computed, .reads => policy.pairsPropEmit.toNat
  | watch, .names => policy.pairsPropEmit.toNat
  | hook h, .names => 2 * (h == .beforeUnmount && policy.stopsWatcher).toNat
  | hook h, .watches => (h == .beforeUnmount && policy.stopsWatcher).toNat
  | _, _ => 0

/-- The other fields say nothing about the bound value. -/
theorem mentions_eq_zero {f : Field} (hf : f ∉ boundFields) (ctx : Context) (policy : BindingPolicy)
    (m : Mention) : f.mentions ctx policy m = 0 := by
  cases f with
  | props | emits | computed | watch => exact absurd (by decide) hf
  | hook h =>
      -- Of the hooks there is one that does.
      have hother : (h == .beforeUnmount) = false := by
        rw [beq_eq_false_iff_ne]
        rintro rfl
        exact hf (by decide)
      cases m <;> simp only [Field.mentions, hother, Bool.false_and, Bool.toNat_false, Nat.mul_zero]
  | _ => rfl

/-- As a number, a conjunction is a product. -/
theorem toNat_and (a b : Bool) : (a && b).toNat = a.toNat * b.toNat := by
  cases a <;> cases b <;> rfl

theorem toNat_pos_iff {b : Bool} : 0 < b.toNat ↔ b := by
  cases b <;> decide

theorem toNat_mul_pos_iff {b : Bool} {n : Nat} : 0 < b.toNat * n ↔ b ∧ 0 < n := by
  cases b <;> simp

section Uses

variable (ctx : Context) (policy : BindingPolicy) (f : Field)

theorem mentions_updates_pos_iff :
    0 < f.mentions ctx policy .updates
      ↔ f = .computed ∧ policy.pairsPropEmit ∧ ctx.isOn .emits := by
  cases f with
  | computed =>
      rw [Field.mentions, toNat_mul_pos_iff, toNat_pos_iff]
      exact (and_iff_right rfl).symm
  | _ => simp [Field.mentions]

theorem mentions_watches_pos_iff :
    0 < f.mentions ctx policy .watches ↔ f = .hook .beforeUnmount ∧ policy.stopsWatcher := by
  cases f <;> simp [Field.mentions, toNat_pos_iff]

theorem mentions_reads_pos_iff :
    0 < f.mentions ctx policy .reads ↔ f = .computed ∧ policy.pairsPropEmit := by
  cases f <;> simp [Field.mentions, toNat_pos_iff]

end Uses

section Wording

variable (ctx : Context) (policy : BindingPolicy)

/-- How often a hook says what. All mentions are counted at once, since the hook has to be
    spelled out for each of them otherwise. -/
theorem totals_hook (h : Hook) :
    ((Mention.all.map fun m => m.text.toList).map fun p =>
        total p (spelled ((Field.hook h).body ctx policy)))
      = Mention.all.map ((Field.hook h).mentions ctx policy) := by
  rw [Mention.table_eq]
  simp only [Mention.all, List.map_cons, List.map_nil, Field.mentions, Field.body, spelled_braced,
    spelled_linesIf, spelled, String.toList_append]
  generalize policy.stopsWatcher = stops
  revert stops
  cases h <;> simp only [Hook.optionName] <;> simp -index only [String.toList_ofList] <;>
    decide

/-- How often a field after the name says what. -/
theorem totals_body {f : Field} (hf : f ∈ laterFields) :
    ((Mention.all.map fun m => m.text.toList).map fun p =>
        total p (spelled (f.body ctx policy)))
      = Mention.all.map (f.mentions ctx policy) := by
  cases f with
  | name => exact absurd hf (by decide)
  | hook h => exact totals_hook ctx policy h
  | _ =>
      -- One computation for the four mentions and all the texts of the field.
      rw [Mention.table_eq]
      simp only [Mention.all, List.map_cons, List.map_nil, Field.mentions, Field.body, objectField,
        boundProp, boundEvent, boundValue, boundHandler, spelled, spelled_append, spelled_block,
        spelled_braced, spelled_linesIf, toList_annotated, String.toList_append]
      simp -index only [String.toList_ofList]
      generalize policy.pairsPropEmit = pairs, ctx.typed = typed, ctx.isOn .emits = emits
      revert pairs typed emits
      decide

theorem total_later {f : Field} (hf : f ∈ laterFields) (m : Mention) :
    total m.text.toList (spelled (f.body ctx policy)) = f.mentions ctx policy m := by
  have htotals := totals_body ctx policy hf
  rw [List.map_map, List.map_inj_left] at htotals
  exact htotals m (Mention.mem_all m)

end Wording

/-- Fields that are off add nothing to a count. -/
theorem total_fieldLines (p : List Char) (ctx : Context) (policy : BindingPolicy)
    (fs : List Field) :
    total p (spelled (fs.flatMap (Field.lines ctx policy)))
      = (fs.map fun f => (f.isOn ctx).toNat * total p (spelled (f.body ctx policy))).sum :=
  total_parts p fs (Field.isOn ctx) (Field.body ctx policy)

theorem lines_eq (ctx : Context) :
    lines ctx = headerLines ++ fields.flatMap (Field.lines ctx (.options ctx))
      ++ [⟨0, "\x7d" ++ ");"⟩] :=
  rfl

/-- Around the fields nothing is said about the bound value. -/
theorem total_frame (m : Mention) :
    total m.text.toList (spelled headerLines) = 0
      ∧ total m.text.toList (spelled [⟨0, "\x7d" ++ ");"⟩]) = 0 := by
  cases m <;> decide

/-- The quotes around the name cut its line for a phrase that has none. -/
theorem frequency_nameLine {p : List Char} (hp : p ≠ []) (hquote : '\'' ∉ p) (name : String) :
    frequency p ("name: '" ++ name ++ "',").toList
      = frequency p "name: ".toList + (frequency p name.toList + frequency p ",".toList) := by
  have hline : ("name: '" ++ name ++ "',").toList
      = "name: ".toList ++ '\'' :: (name.toList ++ '\'' :: ",".toList) := by
    rw [String.toList_append, String.toList_append, List.append_assoc]
    rfl
  -- The phrase cannot go across a character that it does not have.
  rw [hline, frequency_append_cons hp hquote, frequency_append_cons hp hquote]

section Counting

variable {name : String} (hname : ¬ "modelValue".toList <:+: name.toList) (ctx : Context)

include hname

/-- A name without the name of the prop says nothing about the bound value. -/
theorem total_nameLine (m : Mention) :
    total m.text.toList [("name: '" ++ name ++ "',").toList] = 0 := by
  -- Every mention has the name of the prop in it, so it is enough to count that.
  have hbound : frequency "modelValue".toList ("name: '" ++ name ++ "',").toList = 0 := by
    rw [frequency_nameLine (by decide) (by decide),
      (frequency_eq_zero_iff (by decide) name.toList).mpr hname]
    decide
  rw [frequency_eq_zero_iff (by decide)] at hbound
  rw [total, List.map_singleton, List.sum_singleton,
    frequency_eq_zero_iff (ne_nil_of_isInline m.isInline_text)]
  exact fun hoccurs => hbound (m.names_infix_text.trans hoccurs)

theorem total_body {f : Field} (hf : f ∈ fields) (m : Mention) :
    total m.text.toList (spelled (f.body (ctx.named name) (.options ctx)))
      = f.mentions ctx (.options ctx) m := by
  rw [fields_eq, List.mem_cons] at hf
  rcases hf with rfl | hlater
  · exact total_nameLine hname m
  · exact total_later (ctx.named name) (.options ctx) hlater m

/-- A mention is counted field by field. -/
theorem frequency_script (m : Mention) :
    frequency m.text.toList (script name ctx).toList
      = (boundFields.map fun f =>
          (f.isOn ctx).toNat * f.mentions ctx (.options ctx) m).sum := by
  have hfields : total m.text.toList
      (spelled (fields.flatMap (Field.lines (ctx.named name) (.options ctx))))
      = (fields.map fun f => (f.isOn ctx).toNat * f.mentions ctx (.options ctx) m).sum := by
    rw [total_fieldLines]
    exact congrArg List.sum (List.map_congr_left fun f hf => by rw [total_body hname ctx hf]; rfl)
  have hbound : fields.filter (· ∈ boundFields) = boundFields := by decide
  rw [script, frequency_render _ m.isInline_text, lines_eq, spelled_append, spelled_append,
    total_append, total_append, (total_frame m).1, (total_frame m).2, Nat.zero_add, Nat.add_zero]
  -- Only five of the fields add anything to the sum.
  refine hfields.trans ?_
  rw [sum_map_filter (· ∈ boundFields) fun f _ hf => ?_, hbound]
  rw [mentions_eq_zero (of_decide_eq_false hf), Nat.mul_zero]

/-- A script makes a mention where a field that is on makes it. -/
theorem infix_script_iff (m : Mention) :
    m.text.toList <:+: (script name ctx).toList
      ↔ ∃ f ∈ boundFields, f.isOn ctx ∧ 0 < f.mentions ctx (.options ctx) m := by
  rw [← frequency_pos_iff (ne_nil_of_isInline m.isInline_text), frequency_script hname,
    List.sum_pos_iff_exists_pos_nat]
  simp only [List.mem_map, exists_exists_and_eq_and, toNat_mul_pos_iff]

/-- How often a script names the bound prop. -/
theorem frequency_modelValue :
    frequency "modelValue".toList (script name ctx).toList
      = (ctx.isOn .vModelTemplate).toNat * ((ctx.isOn .props).toNat + (ctx.isOn .emits).toNat
        + (ctx.isOn .computed).toNat * (1 + (ctx.isOn .emits).toNat)
        + (ctx.isOn .watch).toNat
        + 2 * (ctx.isOn .lifecycleHooks && ctx.isOn (.hook .beforeUnmount)
          && ctx.isOn .watch).toNat) := by
  have htext : "modelValue" = Mention.names.text := rfl
  rw [htext, frequency_script hname]
  simp only [boundFields, List.map_cons, List.map_nil, List.sum_cons, List.sum_nil, Field.isOn,
    Field.mentions, BindingPolicy.options, Context.isHookOn, beq_self_eq_true, Bool.toNat_true,
    toNat_and]
  ring

theorem updates_infix_script_iff :
    Mention.updates.text.toList <:+: (script name ctx).toList
      ↔ ctx.isOn .vModelTemplate ∧ ctx.isOn .computed ∧ ctx.isOn .emits := by
  rw [infix_script_iff hname]
  simp only [mentions_updates_pos_iff]
  constructor
  · rintro ⟨_, _, hon, rfl, hpair, hemits⟩
    exact ⟨hpair, hon, hemits⟩
  · rintro ⟨hpair, hon, hemits⟩
    exact ⟨.computed, by decide, hon, rfl, hpair, hemits⟩

/-- A script replaces the watcher where there is one, and the hook for it. -/
theorem watches_infix_script_iff :
    Mention.watches.text.toList <:+: (script name ctx).toList
      ↔ ctx.isOn .vModelTemplate ∧ ctx.isOn .watch ∧ ctx.isOn .lifecycleHooks
        ∧ ctx.isOn (.hook .beforeUnmount) := by
  have hhook : (Field.hook .beforeUnmount).isOn ctx
      ↔ ctx.isOn .lifecycleHooks ∧ ctx.isOn (.hook .beforeUnmount) := by
    rw [← Bool.and_eq_true]
    rfl
  -- The hook replaces the watcher only where `v-model` has made one.
  have hstops : (BindingPolicy.options ctx).stopsWatcher
      ↔ ctx.isOn .vModelTemplate ∧ ctx.isOn .watch := by
    rw [← Bool.and_eq_true]
    rfl
  rw [infix_script_iff hname, ← hhook, ← and_assoc, ← hstops]
  simp only [mentions_watches_pos_iff]
  constructor
  · rintro ⟨_, _, hon, rfl, hstops⟩
    exact ⟨hstops, hon⟩
  · rintro ⟨hstops, hon⟩
    exact ⟨_, by decide, hon, rfl, hstops⟩

theorem reads_infix_script_iff :
    Mention.reads.text.toList <:+: (script name ctx).toList
      ↔ ctx.isOn .vModelTemplate ∧ ctx.isOn .computed := by
  rw [infix_script_iff hname]
  simp only [mentions_reads_pos_iff]
  constructor
  · rintro ⟨_, _, hon, rfl, hpair⟩
    exact ⟨hpair, hon⟩
  · rintro ⟨hpair, hon⟩
    exact ⟨.computed, by decide, hon, rfl, hpair⟩

end Counting

end Scaffold.Script.Options
