import Scaffold.Proofs.Script.Options.Layout
import Scaffold.Proofs.Script.Options.Mentions
import Scaffold.Proofs.Script.Setup.Channels

/-!
# Agreement of the Two Dialects

A setup script and an options object of one context say the same about hooks
and about the bound value, although they are generated apart from each other
and each of them under a policy of its own.

Both are read as texts. The hooks of an options object are the lines that open
their methods; those of a setup script are the calls that register them, and
the functions that are imported for it. The bound value shows in four sections
and in the fields of the same name. With the model macro a setup script has it
in none of them, and the options object, which has no such macro, is of no
account there.

Neither reading is taken in by the rest of the text. A line that is indented
less or more than a method is not one, not even where a level of indentation is
empty, and a call that registers a hook is the only one that begins as it does.

## Main definitions

* `hookLine`, `readHooks`: The hooks of an options object.
* `hookFunctions`, `registrationOf`: How a setup script registers hooks.
* `boundParts`: The sections and fields in which the bound value shows.
* `DialectsAgree`: What the two scripts of a context agree on.

## Theorems

* `readHooks_script`: The hooks of an options object are those that are on.
* `occurrences_registrationOf`: So are those that a setup script registers.
* `dialects_agree`: The two scripts of every context agree.
-/

namespace Scaffold.Script

open Text

/-- The line that opens the method of a hook. -/
def hookLine (ind : Indentation) (h : Hook) : String :=
  ind.text 1 ++ h.optionName ++ "() \x7b"

/-- The hooks whose methods stand in the lines of a text, in order. -/
def readHooks (ind : Indentation) (s : List Char) : List Hook :=
  (s.splitOn '\n').filterMap fun line => Hook.all.find? fun h => (hookLine ind h).toList == line

/-- The functions that register hooks. -/
def hookFunctions : List String := Hook.all.filterMap Hook.setupName?

/-- How the registration by a function begins. -/
def registrationOf (function : String) : String := function ++ "(() =>"

/-- The sections and the fields in which the bound value shows. -/
def boundParts : List (Setup.Section × Options.Field) :=
  [(.props, .props), (.emits, .emits), (.computed, .computed), (.watch, .watch)]

namespace Options

/-- The hook whose method a text opens. -/
def hookOf? (cs : List Char) : Option Hook :=
  Hook.all.find? fun h => (Field.hook h).opening.toList == cs

/-- The hook whose method a heading opens. -/
def Heading.hook? : Heading → Option Hook
  | opens (.hook h) => some h
  | _ => none

/-- No other heading reads as that of a hook. -/
theorem find?_heading_hook (h : Hook) :
    ((Heading.all.map fun t => (t, t.text.toList)).find? fun e =>
        e.2 == (Field.hook h).opening.toList).map Prod.fst = some (.opens (.hook h)) := by
  rw [Heading.table_eq]
  cases h <;> simp only [Field.opening, Hook.optionName, String.toList_append] <;>
    simp -index only [String.toList_ofList] <;> decide

/-- Looking for the method of a hook is looking for a heading and asking whether it is
    that of a hook. -/
theorem hookOf?_eq_bind (cs : List Char) :
    hookOf? cs = (((Heading.all.map fun t => (t, t.text.toList)).find? fun e =>
      e.2 == cs).map Prod.fst).bind Heading.hook? := by
  cases hfind : hookOf? cs with
  | some h =>
      have heq := List.find?_some hfind
      rw [← beq_iff_eq.mp heq, find?_heading_hook]
      rfl
  | none =>
      have hnone := List.find?_eq_none.mp hfind
      symm
      rw [List.find?_map, Option.map_map, Option.bind_eq_none_iff]
      intro t ht
      rcases Option.map_eq_some_iff.mp ht with ⟨u, hu, rfl⟩
      -- The heading of a hook would be what no hook is opened by.
      cases u with
      | opens f =>
          cases f with
          | hook h => exact absurd (List.find?_some hu) (hnone h h.mem_all)
          | _ => rfl
      | _ => rfl

theorem filterMap_hookOf? (lines : List (List Char)) :
    lines.filterMap hookOf? = (headings lines).filterMap Heading.hook? := by
  rw [headings, headingsIn, List.filterMap_filterMap]
  exact List.filterMap_congr fun cs _ => hookOf?_eq_bind cs

theorem filterMap_hook?_outline (policy : BindingPolicy) (f : Field) :
    (f.outline policy).filterMap Heading.hook?
      = match f with
        | .hook h => [h]
        | _ => [] := by
  cases f with
  | props | emits | computed | watch =>
      rw [Field.outline]
      cases policy.pairsPropEmit <;> rfl
  | _ => rfl

/-- The hooks among the headings are those that are on, in order. -/
theorem filterMap_hook?_headings (ctx : Context) (policy : BindingPolicy) :
    ((laterFields.filter (Field.isOn ctx)).flatMap (Field.outline policy)).filterMap Heading.hook?
      = Hook.all.filter ctx.isHookOn := by
  -- The fields before the hooks and behind them have no hooks among their headings.
  have hother : ∀ fs : List Field, (∀ h, .hook h ∉ fs) →
      ((fs.filter (Field.isOn ctx)).flatMap (Field.outline policy)).filterMap Heading.hook?
        = [] := by
    intro fs hfs
    rw [List.filterMap_flatMap, List.flatMap_eq_nil_iff]
    intro f hf
    rw [filterMap_hook?_outline]
    cases f with
    | hook h => exact absurd (List.mem_of_mem_filter hf) (hfs h)
    | _ => rfl
  have hhooks : (((Hook.all.map .hook).filter (Field.isOn ctx)).flatMap
      (Field.outline policy)).filterMap Heading.hook? = Hook.all.filter ctx.isHookOn := by
    rw [List.filter_map, List.filterMap_flatMap, List.flatMap_map]
    simp only [filterMap_hook?_outline, List.flatMap_singleton']
    rfl
  rw [laterFields, List.filter_append, List.filter_append, List.flatMap_append,
    List.flatMap_append, List.filterMap_append, List.filterMap_append, hhooks,
    hother _ (by simp), hother _ (by simp), List.nil_append, List.append_nil]

/-- The methods among the lines of an options script are those of the hooks that
    are on. -/
theorem filterMap_hookOf?_lines (name : String) (ctx : Context) :
    (spelled (lines (ctx.named name))).filterMap hookOf? = Hook.all.filter ctx.isHookOn := by
  have hheader : (spelled headerLines).filterMap hookOf? = [] := by decide +kernel
  -- No method is opened as the line with the name begins.
  have hline : hookOf? ("name: '" ++ name ++ "',").toList = none := by
    have hopening : ∀ h : Hook, (Field.hook h).opening.toList.head? ≠ some 'n' := by
      intro h
      cases h <;> decide +kernel
    rw [hookOf?, List.find?_eq_none]
    intro h _ heq
    refine hopening h ?_
    rw [beq_iff_eq.mp heq, String.toList_append, String.toList_append]
    rfl
  have hname : (spelled (nameLines ctx name)).filterMap hookOf? = [] := by
    rw [nameLines, spelled_linesIf]
    cases ctx.isOn .name
    · rfl
    · exact List.filterMap_cons_none hline
  rw [lines_named, spelled_append, spelled_append, List.filterMap_append, List.filterMap_append,
    hheader, hname, filterMap_hookOf?, (reads_laterLines ctx).headings_eq,
    filterMap_hook?_headings, List.nil_append, List.nil_append]

section Lines

variable {name : String} (hname : '\n' ∉ name.toList) (ctx : Context)

include hname

/-- No indentation makes or hides a field of an options script. -/
theorem fits_of_mem_lines {l : Line} (hl : l ∈ lines (ctx.named name)) :
    Fits (tableOf Mark.marker canonical) l.spelled := by
  have hfirst : Fits (tableOf Mark.marker canonical)
      (Line.mk 0 "import \x7b defineComponent \x7d from 'vue'").spelled := by
    simp only [table_eq, Line.spelled, String.toList_append]
    simp -index only [String.toList_ofList]
    decide
  have hrest := (marked_frame.1.append (marked_fields hname ctx)).append marked_frame.2
  have hlines : lines (ctx.named name)
      = ⟨0, "import \x7b defineComponent \x7d from 'vue'"⟩
        :: ([Line.blank, ⟨0, "export default defineComponent(" ++ "\x7b"⟩]
          ++ fields.flatMap (Field.lines (ctx.named name) (.options ctx))
          ++ [⟨0, "\x7d" ++ ");"⟩]) := rfl
  rw [← List.map_append, ← List.map_append] at hrest
  rw [hlines, List.mem_cons] at hl
  rcases hl with rfl | hl
  · exact hfirst
  · exact hrest.1 _ (List.mem_map_of_mem hl)

/-- A line of an options script opens a method if its text does. -/
theorem hookLine_eq_iff {l : Line} (hl : l ∈ lines (ctx.named name)) (h : Hook) :
    (hookLine ctx.indentation h).toList
        = (ctx.indentation.text l.level).toList ++ l.text.toList
      ↔ (Field.hook h).opening.toList = l.text.toList := by
  have hfits := fits_of_mem_lines hname ctx hl
  have hmark : Mark.opens (.hook h) ∈ canonical := by
    cases h <;> decide
  have hplain : (Field.hook h).opening.toList.dropWhile isIndent
      = (Field.hook h).opening.toList :=
    dropWhile_head_of_some (isProper_of_mem isCatalogue_table hmark) rfl
  have htext : (hookLine ctx.indentation h).toList
      = (ctx.indentation.text 1).toList ++ (Field.hook h).opening.toList := by
    rw [hookLine, Field.opening, String.append_assoc, String.toList_append]
  rw [htext]
  constructor
  · intro heq
    have hdrop := congrArg (List.dropWhile isIndent) heq
    rw [dropWhile_text_append, dropWhile_text_append, hplain] at hdrop
    exact hdrop.trans hfits.2.1
  · -- A line that reads like a method stands one level in.
    intro heq
    have hprefix : (Field.hook h).opening.toList.dropWhile isIndent <+: l.text.toList := by
      rw [hplain, heq]
    rcases fits_of_mem hfits hmark hprefix with hlevel | ⟨hlevel, _⟩
    · rw [← Option.some.inj hlevel, heq]
      rfl
    · exact absurd hlevel (Option.some_ne_none 1)

/-- The hooks of an options object are those that are on. -/
theorem readHooks_script :
    readHooks ctx.indentation (script name ctx).toList = Hook.all.filter ctx.isHookOn := by
  have hlines : (lines (ctx.named name)).filterMap (fun l => Hook.all.find? fun h =>
        (hookLine ctx.indentation h).toList
          == (ctx.indentation.text l.level).toList ++ l.text.toList)
      = (lines (ctx.named name)).filterMap fun l => hookOf? l.text.toList := by
    refine List.filterMap_congr fun l hl => ?_
    rw [hookOf?]
    congr 1
    funext h
    rw [Bool.eq_iff_iff, beq_iff_eq, beq_iff_eq, hookLine_eq_iff hname ctx hl]
  -- The text ends with a line feed, and nothing is opened after it.
  have hlast : [[]].filterMap (fun line => Hook.all.find? fun h =>
      (hookLine ctx.indentation h).toList == line) = [] := by
    refine List.filterMap_cons_none ?_
    rw [List.find?_eq_none]
    intro h _ hnil
    rw [beq_iff_eq, hookLine, String.toList_append, List.append_eq_nil_iff] at hnil
    exact absurd hnil.2 (by decide)
  rw [readHooks, script, splitOn_render _ fun l hl => (fits_of_mem_lines hname ctx hl).1,
    List.filterMap_append, List.filterMap_map, hlast, List.append_nil,
    ← filterMap_hookOf?_lines name ctx, spelled_eq_map, List.filterMap_map]
  exact hlines

end Lines

/-- A field that the binding shows in names the bound prop where there is
    one. -/
theorem modelValue_infix_text_iff {f : Field} (hf : f ∈ boundParts.map Prod.snd) (ctx : Context) :
    "modelValue".toList <:+: (f.text ctx (.options ctx)).toList
      ↔ f.isOn ctx ∧ ctx.isOn .vModelTemplate := by
  have hlater : boundParts.map Prod.snd ⊆ laterFields := by decide
  -- What a field says depends on the binding, and for the four fields here on nothing
  -- else.
  have hmentions : 0 < f.mentions ctx (.options ctx) .names ↔ ctx.isOn .vModelTemplate := by
    cases f with
    | props | emits | watch => exact toNat_pos_iff
    | computed =>
        rw [Field.mentions, toNat_mul_pos_iff]
        exact and_iff_left (Nat.add_pos_left Nat.one_pos _)
    | hook h => exact absurd hf (by simp [boundParts])
    | _ => exact absurd hf (by decide)
  have hcount : frequency "modelValue".toList (f.text ctx (.options ctx)).toList
      = (f.isOn ctx).toNat * f.mentions ctx (.options ctx) .names := by
    have htotal := total_fieldLines "modelValue".toList ctx (.options ctx) [f]
    rw [List.flatMap_singleton, List.map_singleton, List.sum_singleton] at htotal
    rw [Field.text, frequency_render _ (by decide), htotal]
    exact congrArg _ (total_later ctx (.options ctx) (hlater hf) .names)
  rw [← frequency_pos_iff (by decide), hcount, toNat_mul_pos_iff, hmentions]

end Options

namespace Setup

/-- A section that the binding shows in names the bound prop where the pair
    carries the value. -/
theorem modelValue_infix_text_iff {s : Section} (hs : s ∈ boundSections) (ctx : Context) :
    "modelValue".toList <:+: (s.text ctx (.setup ctx)).toList
      ↔ s.isOn ctx (.setup ctx) ∧ pairs ctx := by
  -- Every one of the four sections says the name at least once.
  have hmentions : 0 < s.mentions ctx := by
    cases s with
    | props =>
        rw [Section.mentions]
        split <;> decide
    | computed => exact Nat.add_pos_left Nat.one_pos _
    | emits | watch => exact Nat.one_pos
    | hook h => exact absurd hs (by simp [boundSections])
    | _ => exact absurd hs (by decide)
  rw [← frequency_pos_iff (by decide), frequency_text (by decide),
    (total_body ctx (one_channel ctx) s).1, Options.toNat_mul_pos_iff,
    Options.toNat_mul_pos_iff, and_iff_left hmentions]
  rfl

/-- The functions by which the hooks that are on are registered. -/
def registering (ctx : Context) : List String :=
  (Hook.all.filter ctx.isHookOn).filterMap Hook.setupName?

/-- The functions that register hooks, by way of the hooks that have a function. Filtering
    first by the switches or by the function comes to the same. -/
theorem registering_eq (ctx : Context) :
    registering ctx = (Hook.inSetup.filter ctx.isHookOn).filterMap Hook.setupName? := by
  rw [registering, Hook.inSetup, List.filter_comm,
    List.filterMap_filter (l := Hook.all.filter ctx.isHookOn)]
  refine List.filterMap_congr fun h _ => ?_
  cases h.setupName? <;> rfl

/-- The import list has the functions that register hooks in their order. -/
theorem filter_importedNames (ctx : Context) :
    (importedNames ctx).filter (fun n => n ∈ hookFunctions) = registering ctx := by
  -- The two other importable functions register nothing.
  have hothers : ((if ctx.isOn .computed then ["computed"] else [])
      ++ if ctx.isOn .watch then ["watch"] else []).filter (fun n => n ∈ hookFunctions) = [] := by
    cases ctx.isOn .computed <;> cases ctx.isOn .watch <;> decide
  have hhooks : ∀ n ∈ registering ctx, n ∈ hookFunctions :=
    (List.filter_sublist.filterMap Hook.setupName?).subset
  rw [importedNames, List.filter_append, hothers, ← registering_eq, List.nil_append,
    List.filter_eq_self]
  exact fun n hn => decide_eq_true (hhooks n hn)

theorem nodup_registering (ctx : Context) : (registering ctx).Nodup :=
  (List.filter_sublist.filterMap Hook.setupName?).nodup (by decide)

/-- The functions that a script calls, its first line included. -/
theorem occurrences_callOf_script (ctx : Context) :
    occurrences callOf importableNames (script ctx).toList = importedNames ctx := by
  have hinline : ∀ n ∈ importableNames, isInline (callOf n).toList := by decide +kernel
  -- An import line calls nothing.
  have hfirst : occurrences callOf importableNames (importLine ctx).toList = [] := by
    refine occurrences_eq_nil fun n _ => ⟨'(', ?_, fun hmem => ?_⟩
    · rw [callOf, String.toList_append]
      exact List.mem_append_right _ (List.mem_singleton_self _)
    · exact absurd (mem_importCharacters hmem) (by decide +kernel)
  have hbelow : (script ctx).toList = (importLine ctx).toList ++ '\n' :: '\n' :: laterText ctx :=
    toList_script ctx
  rw [hbelow, occurrences_append_newline hinline, hfirst, List.nil_append, importedNames_eq_map,
    ← occurrences_callOf, occurrences_belowFirstLine hinline, ← List.nil_append ('\n' :: _),
    occurrences_append_newline hinline]
  rfl

/-- A hook that is on is registered. -/
theorem registrationOf_infix_script {ctx : Context} {f : String} (hf : f ∈ registering ctx) :
    (registrationOf f).toList <:+: (script ctx).toList := by
  rcases List.mem_filterMap.mp hf with ⟨h, hmem, hname⟩
  have hcanonical : .hook h ∈ canonical := by
    rw [canonical_eq, ← sections_eq, hook_mem_sections, Hook.inSetup, List.mem_filter, hname]
    exact ⟨h.mem_all, rfl⟩
  have hgate : Section.gate ctx (.hook h) = true := (List.mem_filter.mp hmem).2
  -- The mark of the section is the registration after a line feed, and a section that
  -- is on has its mark once.
  have honce := (sections_inOrder_script ctx).once (.hook h) hcanonical
  have hmark : (Section.mark (.hook h)).toList = '\n' :: (registrationOf f).toList := by
    rw [Section.mark, hname, registrationOf, String.append_assoc, String.toList_append]
    rfl
  rw [if_pos hgate, hmark] at honce
  have hinfix := (frequency_pos_iff (List.cons_ne_nil _ _) _).mp (honce ▸ Nat.one_pos)
  exact (List.suffix_cons _ _).isInfix.trans hinfix

/-- The hooks that a setup script registers are those that are on and that have
    a function for it. -/
theorem occurrences_registrationOf (ctx : Context) :
    occurrences registrationOf hookFunctions (script ctx).toList = registering ctx := by
  -- Of the calls, those of hook functions are what the import list has of them.
  have hcalls : occurrences callOf hookFunctions (script ctx).toList = registering ctx := by
    have hfunctions : hookFunctions = importableNames.filter fun n => n ∈ hookFunctions := by
      decide
    rw [hfunctions, occurrences_filter, occurrences_callOf_script, filter_importedNames]
  -- Every registration is a call, so there are no more of them than calls.
  have hsub : (occurrences registrationOf hookFunctions (script ctx).toList).Sublist
      (registering ctx) := by
    rw [← hcalls]
    refine occurrences_sublist (fun f _ => ?_) _
    rw [callOf, registrationOf, String.toList_append, String.toList_append,
      List.prefix_append_right_inj]
    decide
  -- And there are no fewer, since each of them is there.
  have hall : registering ctx ⊆ occurrences registrationOf hookFunctions (script ctx).toList := by
    intro f hf
    refine (mem_occurrences ?_ _).mpr ⟨?_, registrationOf_infix_script hf⟩
    · rw [registrationOf, String.toList_append]
      exact List.append_ne_nil_of_right_ne_nil _ (by decide)
    · exact (List.filter_sublist.filterMap Hook.setupName?).subset hf
  exact hsub.eq_of_length_le ((nodup_registering ctx).length_le_of_subset hall)

end Setup

/-- What the two scripts of a context agree on. -/
structure DialectsAgree (ctx : Context) (name : String) : Prop where
  /-- Both have the same hooks in the same order, but for those that a setup
      script cannot register, -/
  registered :
    (readHooks ctx.indentation (Options.script name ctx).toList).filterMap Hook.setupName?
      = occurrences registrationOf hookFunctions (Setup.script ctx).toList
  /-- and those are what is imported for them. -/
  imported : ∃ names,
    Setup.readImport? (Setup.firstLine (Setup.script ctx).toList) = some names
      ∧ names.filter (fun n => n ∈ hookFunctions)
        = (readHooks ctx.indentation (Options.script name ctx).toList).filterMap Hook.setupName?
  /-- Without the model macro a section names the bound prop where the field
      does, -/
  bound : ¬ (ctx.isOn .vModelTemplate ∧ ctx.isOn .useDefineModel) → ∀ p ∈ boundParts,
    ("modelValue".toList <:+: (p.1.text ctx (.setup ctx)).toList
      ↔ "modelValue".toList <:+: (p.2.text ctx (.options ctx)).toList)
  /-- and with it no section does. -/
  unbound : ctx.isOn .vModelTemplate ∧ ctx.isOn .useDefineModel → ∀ p ∈ boundParts,
    ¬ "modelValue".toList <:+: (p.1.text ctx (.setup ctx)).toList

/-- The two scripts of every context agree, as long as the component's name
    stays in its line. -/
theorem dialects_agree {name : String} (hname : '\n' ∉ name.toList) (ctx : Context) :
    DialectsAgree ctx name := by
  have hhooks : (readHooks ctx.indentation (Options.script name ctx).toList).filterMap
      Hook.setupName? = Setup.registering ctx :=
    congrArg (List.filterMap Hook.setupName?) (Options.readHooks_script hname ctx)
  refine ⟨?_, ?_, ?_, ?_⟩
  · rw [hhooks, Setup.occurrences_registrationOf]
  · refine ⟨Setup.importedNames ctx, ?_, ?_⟩
    · rw [Setup.firstLine_script, Setup.readImport?_importLine]
    · rw [hhooks, Setup.filter_importedNames]
  · intro hnot p hp
    have hsections : p.1 ∈ Setup.boundSections :=
      List.mem_map_of_mem (f := Prod.fst) hp
    have hfields : p.2 ∈ boundParts.map Prod.snd := List.mem_map_of_mem hp
    have hon : p.1.isOn ctx (.setup ctx) = p.2.isOn ctx := by
      simp only [boundParts, List.mem_cons, List.not_mem_nil, or_false] at hp
      rcases hp with rfl | rfl | rfl | rfl <;> rfl
    -- Without the macro the pair carries the value wherever there is one.
    have hpairs : Setup.pairs ctx = ctx.isOn .vModelTemplate := by
      rw [← Bool.and_eq_true, Bool.not_eq_true] at hnot
      rw [Setup.pairs]
      revert hnot
      cases ctx.isOn .vModelTemplate <;> cases ctx.isOn .useDefineModel <;> decide
    rw [Setup.modelValue_infix_text_iff hsections, Options.modelValue_infix_text_iff hfields,
      hon, hpairs]
  · intro hmodel p _
    rw [← Bool.and_eq_true] at hmodel
    exact (Setup.channels_script ctx).suppressed hmodel p.1

/-- A name that reads like a method is none, even where methods stand at the
    margin. -/
theorem dialects_agree_flat :
    '\n' ∉ "mounted() \x7b".toList
      ∧ occurrences registrationOf hookFunctions (Setup.script Options.flat).toList
        = ["onMounted", "onUpdated", "onBeforeUnmount"]
      ∧ (readHooks Options.flat.indentation
          (Options.script "mounted() \x7b" Options.flat).toList).filterMap Hook.setupName?
        = ["onMounted", "onUpdated", "onBeforeUnmount"] := by
  have hname : '\n' ∉ "mounted() \x7b".toList := by decide
  have hagree := dialects_agree hname Options.flat
  have hregistering : Setup.registering Options.flat
      = ["onMounted", "onUpdated", "onBeforeUnmount"] := by decide
  refine ⟨hname, ?_, ?_⟩
  · rw [Setup.occurrences_registrationOf, hregistering]
  · rw [hagree.registered, Setup.occurrences_registrationOf, hregistering]

end Scaffold.Script
