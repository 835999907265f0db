import Scaffold.Proofs.Script.Options.Layout
import Scaffold.Proofs.Script.Setup.Layout
import Scaffold.Text.Blank

/-!
# Fragments of Scripts

Where the text of a section or a field begins and ends, so that fragments can be
put one after the other and still be told from each other.

A fragment is there if its gate is open. Then it has its own terminator, a blank
line after a section and a comma after a field, and it begins in a way that no
other fragment does. The last point is about texts and not about lines: a text
that is a prefix of another one would have to end in the middle of it. It is
enough to look at heads, that is, at how the first lines of the fragments can begin.
Both texts begin with a head after the same indentation, so one of the two heads
is a prefix of the other, and that is never the case for heads of different
fragments.

All of this holds under every policy, whether or not it comes from the context.

## Main definitions

* `BeginsWith`, `EndsWith`: The two ends of some lines.
* `PrefixFree`: Texts none of which is the beginning of another.
* `Setup.Section.gateUnder`, `Options.Field.gate`: Whether a fragment is there.
* `Setup.Section.heads`, `Options.Field.head`: How a fragment can begin.
* `Setup.Delimited`, `Options.Delimited`: What is said of one fragment.

## Theorems

* `exists_head_of_beginsWith`: A rendering begins with a head, after indentation.
* `suffix_render_of_endsWith`: A rendering ends as its last line does.
* `prefixFree_of_beginsWith`: Fragments with different heads are prefix-free.
* `Setup.beginsWith_body`, `Options.isFramed_body`: The ends of sections and fields.
* `fragments_delimited`: What is said of all of them.
-/

namespace Scaffold.Script

open Text

/-- Lines of which the first one is at a level and begins with one of some heads. -/
def BeginsWith (level : Nat) (heads : List (List Char)) : List (Nat × List Char) → Prop
  | [] => False
  | l :: _ => l.1 = level ∧ ∃ head ∈ heads, head <+: l.2

instance decidableBeginsWith (level : Nat) (heads : List (List Char)) :
    (lines : List (Nat × List Char)) → Decidable (BeginsWith level heads lines)
  | [] => inferInstanceAs (Decidable False)
  | _ :: _ => inferInstanceAs (Decidable (_ ∧ _))

/-- Lines of which the last one ends with a tail. -/
def EndsWith (tail : List Char) (lines : List (Nat × List Char)) : Prop :=
  ∃ l ∈ lines.getLast?, tail <:+ l.2

instance (tail : List Char) (lines : List (Nat × List Char)) : Decidable (EndsWith tail lines) :=
  Option.decidableExistsMem _

/-- Of the texts that are there, none is the beginning of another. -/
def PrefixFree {α : Type} (parts : List α) (text : α → String) : Prop :=
  ∀ a ∈ parts, ∀ b ∈ parts, text a ≠ "" → text b ≠ "" → (text a).toList <+: (text b).toList → a = b

section Renderings

variable (ind : Indentation) {ls : List Line}

/-- A rendering begins with a head, after the indentation of its first line. -/
theorem exists_head_of_beginsWith {level : Nat} {heads : List (List Char)}
    (h : BeginsWith level heads (ls.map Line.spelled)) :
    ∃ head ∈ heads, ∃ rest, (render ind ls).toList = (ind.text level).toList ++ (head ++ rest) := by
  cases ls with
  | nil => exact absurd h id
  | cons l ls =>
      rcases h with ⟨hlevel, head, hhead, rest, hrest⟩
      refine ⟨head, hhead, rest ++ '\n' :: (render ind ls).toList, ?_⟩
      have htext : l.text.toList = head ++ rest := hrest.symm
      have hlineLevel : l.level = level := hlevel
      rw [toList_render_cons, htext, hlineLevel]
      simp only [List.append_assoc]

theorem beginsWith_append {level : Nat} {heads : List (List Char)} {xs : List (Nat × List Char)}
    (h : BeginsWith level heads xs) (ys : List (Nat × List Char)) :
    BeginsWith level heads (xs ++ ys) := by
  cases xs with
  | nil => exact absurd h id
  | cons l xs => exact h

theorem endsWith_nil_of_beginsWith {level : Nat} {heads : List (List Char)}
    {xs : List (Nat × List Char)} (h : BeginsWith level heads xs) : EndsWith [] xs := by
  rcases xs.eq_nil_or_concat' with rfl | ⟨front, last, rfl⟩
  · exact absurd h id
  · exact ⟨last, List.getLast?_concat, List.nil_suffix⟩

/-- A rendering ends as its last line does, and with a line feed. -/
theorem suffix_render_of_endsWith {tail : List Char} (h : EndsWith tail (ls.map Line.spelled)) :
    tail ++ ['\n'] <:+ (render ind ls).toList := by
  rcases h with ⟨l, hl, hsuffix⟩
  rcases ls.eq_nil_or_concat' with rfl | ⟨front, last, rfl⟩
  · cases hl
  · rw [List.map_append, List.map_singleton, List.getLast?_concat, Option.mem_some_iff] at hl
    rw [← hl] at hsuffix
    -- Only the last line is looked at, so the rendering is cut before it.
    have hlast : (render ind [last]).toList
        = (ind.text last.level).toList ++ last.text.toList ++ ['\n'] :=
      toList_render_cons ind last []
    rw [render_append, String.toList_append, hlast]
    refine List.suffix_append_of_suffix ?_
    rw [List.suffix_append_self_iff]
    exact List.suffix_append_of_suffix hsuffix

/-- Fragments that begin with different heads are prefix-free. -/
theorem prefixFree_of_beginsWith {α : Type} {parts : List α} {lines : α → List Line}
    {level : Nat} {heads : α → List (List Char)}
    (hbegins : ∀ a ∈ parts, lines a = [] ∨ BeginsWith level (heads a) ((lines a).map Line.spelled))
    (hapart : ∀ a ∈ parts, ∀ b ∈ parts, ∀ head ∈ heads a, ∀ head' ∈ heads b,
      head <+: head' → a = b) :
    PrefixFree parts fun a => render ind (lines a) := by
  intro a ha b hb hnonempty hnonempty' hprefix
  -- A fragment that is not empty has lines, and so it begins with a head.
  have hthere {c : α} (hc : c ∈ parts) (hne : render ind (lines c) ≠ "") :
      ∃ head ∈ heads c, ∃ rest,
        (render ind (lines c)).toList = (ind.text level).toList ++ (head ++ rest) := by
    rcases hbegins c hc with hnil | hbegin
    · rw [hnil] at hne
      exact absurd rfl hne
    · exact exists_head_of_beginsWith ind hbegin
  rcases hthere ha hnonempty with ⟨head, hhead, rest, htext⟩
  rcases hthere hb hnonempty' with ⟨head', hhead', rest', htext'⟩
  rw [htext, htext', List.prefix_append_right_inj] at hprefix
  -- Both heads begin the longer one of the texts.
  have hfirst : head <+: head' ++ rest' := (List.prefix_append head rest).trans hprefix
  rcases List.prefix_or_prefix_of_prefix hfirst (List.prefix_append head' rest') with hle | hge
  · exact hapart a ha b hb head hhead head' hhead' hle
  · exact (hapart b hb a ha head' hhead' head hhead hge).symm

end Renderings

namespace Setup

/-- Whether a section is there under a policy. The model macro follows the policy, and
    every other section its switches. -/
def Section.gateUnder (ctx : Context) (policy : BindingPolicy) (s : Section) : Bool :=
  if s = .defineModel then policy.definesModel else s.gate ctx

/-- How a section can begin. -/
def Section.heads : Section → List String
  | imports => ["import \x7b"]
  | defineOptions => ["// Component options"]
  | props => ["// Props with defaults", "const props"]
  | emits => ["const emit"]
  | defineModel => ["// v-model binding"]
  | defineSlots => ["// Typed slots", "// Slots"]
  | defineExpose => ["// Expose"]
  | computed => ["const value", "const now"]
  | watch => ["const stopWatch"]
  | hook h => [h.setupName?.getD "" ++ "(() => "]

/-- What is said of the text of a section. -/
structure Delimited (ctx : Context) (policy : BindingPolicy) (s : Section) : Prop where
  empty_iff : s.text ctx policy = "" ↔ s.gateUnder ctx policy = false
  /-- It ends with a blank line. -/
  ends : s.text ctx policy ≠ "" → "\n\n".toList <:+ (s.text ctx policy).toList

theorem heads_apart : ∀ s ∈ sections, ∀ t ∈ sections,
    ∀ head ∈ s.heads.map String.toList, ∀ head' ∈ t.heads.map String.toList,
      head <+: head' → s = t := by
  decide +kernel

/-- A section is generated where it is there. The policy need not be that of the context,
    so the model macro is a case of its own. -/
theorem isOn_eq_gateUnder {s : Section} (hs : s ∈ sections) (ctx : Context)
    (policy : BindingPolicy) : s.isOn ctx policy = s.gateUnder ctx policy := by
  by_cases hmodel : s = .defineModel
  · rw [hmodel]
    rfl
  · have hcanonical : s ∈ canonical := by
      rw [canonical_eq, ← sections_eq]
      exact hs
    rw [Section.gateUnder, if_neg hmodel, ← isOn_eq_gate hcanonical ctx]
    -- Only the model macro looks at the policy.
    cases s with
    | defineModel => exact absurd rfl hmodel
    | _ => rfl

/-- The first line of a section begins with one of its heads. -/
theorem beginsWith_body (s : Section) (ctx : Context) (policy : BindingPolicy) :
    BeginsWith 0 (s.heads.map String.toList) ((s.body ctx policy).map Line.spelled) := by
  cases s with
  -- The names on the import line come after its head.
  | imports =>
      refine ⟨rfl, _, List.mem_singleton_self _, ?_⟩
      rw [Line.spelled, importLine_eq]
      exact List.prefix_append _ _
  | hook h =>
      have htext : ((h.setupName?.getD "" ++ "(() => ") ++ "\x7b").toList
          = (h.setupName?.getD "" ++ "(() => ").toList ++ "\x7b".toList := String.toList_append
      exact ⟨rfl, _, List.mem_singleton_self _, "\x7b".toList, htext.symm⟩
  | _ =>
      -- With the literals spelled out and the switches generalized, one
      -- computation goes over all the texts that the section can have.
      simp only [Section.heads, Section.body, propsWithDefaults, plainProps, events, computedValue,
        watcher, watchSource, braced, block, linesIf, List.map_append, List.map_cons,
        List.map_nil, apply_ite (List.map Line.spelled), Line.spelled, Line.blank, toList_ite,
        toList_annotated, String.toList_append]
      simp -index only [String.toList_ofList]
      generalize policy.pairsPropEmit = pairs, policy.definesModel = defines, ctx.typed = typed,
        ctx.isOn .props = props, ctx.isOn .emits = emits, ctx.isOn .useWithDefaults = defaults
      revert pairs defines typed props emits defaults
      decide

/-- A section that is there begins with one of its heads as well. -/
theorem beginsWith_lines (s : Section) (ctx : Context) (policy : BindingPolicy) :
    s.lines ctx policy = []
      ∨ BeginsWith 0 (s.heads.map String.toList) ((s.lines ctx policy).map Line.spelled) := by
  rw [Section.lines, linesIf]
  by_cases hon : s.isOn ctx policy = true
  · rw [if_pos hon, List.map_append]
    exact .inr (beginsWith_append (beginsWith_body s ctx policy) _)
  · rw [if_neg hon]
    exact .inl rfl

theorem delimited_text {s : Section} (hs : s ∈ sections) (ctx : Context)
    (policy : BindingPolicy) : Delimited ctx policy s := by
  have hgate := isOn_eq_gateUnder hs ctx policy
  cases hon : s.isOn ctx policy with
  | false =>
      have htext : s.text ctx policy = "" := by
        rw [Section.text, Section.lines, hon]
        rfl
      exact ⟨iff_of_true htext (hgate.symm.trans hon), fun hne => absurd htext hne⟩
  | true =>
      have htext : (s.text ctx policy).toList
          = (render ctx.indentation (s.body ctx policy)).toList ++ ['\n'] := by
        have hblank : (render ctx.indentation [Line.blank]).toList = ['\n'] := by
          rw [toList_render_cons, Line.blank, Int.ofNat_zero, Indentation.text_zero]
          rfl
        rw [Section.text, Section.lines, hon, linesIf, if_pos rfl, render_append,
          String.toList_append, hblank]
      -- A body is never empty, so it ends with a line feed.
      have hends := suffix_render_of_endsWith ctx.indentation
        (endsWith_nil_of_beginsWith (beginsWith_body s ctx policy))
      refine ⟨iff_of_false ?_ ?_, fun _ => ?_⟩
      · intro hempty
        rw [hempty] at htext
        exact absurd htext.symm (List.append_ne_nil_of_right_ne_nil _ (List.cons_ne_nil _ _))
      · rw [← hgate, hon]
        exact Bool.noConfusion
      · -- The last line of the body ends with a line feed, and the blank one adds another.
        have htail : "\n\n".toList = [] ++ ['\n'] ++ ['\n'] := rfl
        rw [htext, htail, List.suffix_append_self_iff]
        exact hends

end Setup

namespace Options

/-- Whether a field is there. -/
def Field.gate (ctx : Context) (f : Field) : Bool := (Mark.opens f).gate ctx

/-- How a field begins. -/
def Field.head (f : Field) : String := (Mark.opens f).head

/-- What is said of the text of a field. -/
structure Delimited (ctx : Context) (policy : BindingPolicy) (f : Field) : Prop where
  empty_iff : f.text ctx policy = "" ↔ f.gate ctx = false
  /-- It begins one level in, with something that is no blank. -/
  begins : f.text ctx policy ≠ "" → ∃ c rest, isBlank c = false
    ∧ (f.text ctx policy).toList = (ctx.indentation.text 1).toList ++ c :: rest
  /-- It ends with a comma and the end of the line. -/
  ends : f.text ctx policy ≠ "" → ",\n".toList <:+ (f.text ctx policy).toList

theorem heads_apart : ∀ f ∈ fields, ∀ g ∈ fields, f.head.toList <+: g.head.toList → f = g := by
  decide +kernel

/-- No field begins with a blank, so its indentation ends where its head begins. -/
theorem head_notBlank : ∀ f ∈ fields, f.head.toList.head?.any (fun c => !isBlank c) = true := by
  decide +kernel

/-- The ends of a hook. Its name is looked up, so every hook is spelled out by itself. -/
theorem isFramed_hook (h : Hook) (ctx : Context) (policy : BindingPolicy) :
    BeginsWith 1 [(Field.hook h).head.toList] (((Field.hook h).body ctx policy).map Line.spelled)
      ∧ EndsWith [','] (((Field.hook h).body ctx policy).map Line.spelled) := by
  simp only [Field.head, Mark.head, Field.opening, Field.body, braced, block, linesIf,
    List.map_append, List.map_cons, List.map_nil, apply_ite (List.map Line.spelled), Line.spelled,
    String.toList_append]
  generalize policy.stopsWatcher = stops
  revert stops
  cases h <;> simp only [Hook.optionName] <;> simp -index only [String.toList_ofList] <;>
    decide

/-- The first line of a field begins with its head, and the last one ends with a comma. -/
theorem isFramed_body (f : Field) (ctx : Context) (policy : BindingPolicy) :
    BeginsWith 1 [f.head.toList] ((f.body ctx policy).map Line.spelled)
      ∧ EndsWith [','] ((f.body ctx policy).map Line.spelled) := by
  cases f with
  | name =>
      -- The component's name stands between the two ends.
      have hline : (Field.name.body ctx policy).map Line.spelled
          = [(1, "name: '".toList ++ (ctx.name.toList ++ "',".toList))] := by
        rw [← List.append_assoc, ← String.toList_append, ← String.toList_append]
        rfl
      rw [hline]
      refine ⟨⟨rfl, _, List.mem_singleton_self _, List.prefix_append _ _⟩, _, rfl, ?_⟩
      exact List.suffix_append_of_suffix (List.suffix_append_of_suffix (by decide))
  | hook h => exact isFramed_hook h ctx policy
  | _ =>
      simp only [Field.head, Mark.head, Field.opening, Field.body, objectField, boundProp,
        boundEvent, boundValue, boundHandler, braced, block, linesIf, List.map_append,
        List.map_cons, List.map_nil, apply_ite (List.map Line.spelled), Line.spelled,
        toList_annotated, String.toList_append]
      simp -index only [String.toList_ofList]
      generalize policy.pairsPropEmit = pairs, ctx.typed = typed, ctx.isOn .emits = emits
      revert pairs typed emits
      decide

theorem beginsWith_lines (f : Field) (ctx : Context) (policy : BindingPolicy) :
    f.lines ctx policy = []
      ∨ BeginsWith 1 [f.head.toList] ((f.lines ctx policy).map Line.spelled) := by
  rw [Field.lines, linesIf]
  by_cases hon : f.isOn ctx = true
  · rw [if_pos hon]
    exact .inr (isFramed_body f ctx policy).1
  · rw [if_neg hon]
    exact .inl rfl

theorem delimited_text {f : Field} (hf : f ∈ fields) (ctx : Context) (policy : BindingPolicy) :
    Delimited ctx policy f := by
  have hgate : f.gate ctx = f.isOn ctx := by
    refine gate_eq_isOn ctx ?_
    cases f <;> exact List.mem_cons_self
  cases hon : f.isOn ctx with
  | false =>
      have htext : f.text ctx policy = "" := by
        rw [Field.text, Field.lines, hon]
        rfl
      have habsent (p : Prop) : f.text ctx policy ≠ "" → p := fun hne => absurd htext hne
      exact ⟨iff_of_true htext (hgate.trans hon), habsent _, habsent _⟩
  | true =>
      have htext : f.text ctx policy = render ctx.indentation (f.body ctx policy) := by
        rw [Field.text, Field.lines, hon]
        rfl
      rcases isFramed_body f ctx policy with ⟨hbegins, hends⟩
      have hsuffix := suffix_render_of_endsWith ctx.indentation hends
      rcases exists_head_of_beginsWith ctx.indentation hbegins with ⟨head, hhead, rest, hrest⟩
      rw [List.mem_singleton] at hhead
      -- The head has a first character, so the text is not empty.
      rcases (Option.any_eq_true _ _).mp (head_notBlank f hf) with ⟨c, hc, hblank⟩
      rw [Bool.not_eq_true'] at hblank
      rcases List.head?_eq_some_iff.mp hc with ⟨cs, hcs⟩
      rw [hhead, hcs] at hrest
      refine ⟨iff_of_false ?_ ?_, fun _ => ⟨c, cs ++ rest, hblank, ?_⟩, fun _ => ?_⟩
      · intro hempty
        rw [← htext, hempty] at hrest
        exact absurd hrest.symm (List.append_ne_nil_of_right_ne_nil _ (List.cons_ne_nil _ _))
      · rw [hgate, hon]
        exact Bool.noConfusion
      · rw [htext, hrest]
        rfl
      · rw [htext]
        exact hsuffix

end Options

/-- Under every policy, what is said of the sections of setup scripts and of the fields of
    options objects: when they are there, where they begin and end, and that none of them
    can be taken for the beginning of another. -/
theorem fragments_delimited (ctx : Context) (policy : BindingPolicy) :
    (∀ s ∈ Setup.sections, Setup.Delimited ctx policy s)
      ∧ (∀ f ∈ Options.fields, Options.Delimited ctx policy f)
      ∧ PrefixFree Setup.sections (Setup.Section.text ctx policy)
      ∧ PrefixFree Options.fields (Options.Field.text ctx policy) := by
  refine ⟨fun s hs => Setup.delimited_text hs ctx policy,
    fun f hf => Options.delimited_text hf ctx policy, ?_, ?_⟩
  · exact prefixFree_of_beginsWith ctx.indentation
      (fun s _ => Setup.beginsWith_lines s ctx policy) Setup.heads_apart
  · refine prefixFree_of_beginsWith ctx.indentation
      (fun f _ => Options.beginsWith_lines f ctx policy) fun f hf g hg head hhead head' hhead' => ?_
    rw [List.mem_singleton] at hhead hhead'
    rw [hhead, hhead']
    exact Options.heads_apart f hf g hg

/-- A context with all features off. -/
def featureless : Context := { typed := false, enabled := fun _ => false }

/-- A policy can ask for the model macro though the context does not, and then the macro is
    a section like others. -/
theorem fragments_delimited_featureless :
    BindingPolicy.setup featureless ≠ ⟨true, false, false⟩
      ∧ "\n\n".toList <:+ (Setup.Section.defineModel.text featureless ⟨true, false, false⟩).toList
      ∧ ¬(Setup.Section.imports.text featureless ⟨true, false, false⟩).toList
        <+: (Setup.Section.defineModel.text featureless ⟨true, false, false⟩).toList := by
  rcases fragments_delimited featureless ⟨true, false, false⟩ with ⟨hsections, _, hfree, _⟩
  have himports : Setup.Section.imports ∈ Setup.sections := by decide
  have hmacro : Setup.Section.defineModel ∈ Setup.sections := by decide
  have hthere {s : Setup.Section} (hs : s ∈ Setup.sections)
      (hgate : s.gateUnder featureless ⟨true, false, false⟩ = true) :
      s.text featureless ⟨true, false, false⟩ ≠ "" := fun hempty => by
    rw [(hsections s hs).empty_iff.mp hempty] at hgate
    exact absurd hgate nofun
  refine ⟨by decide, (hsections _ hmacro).ends (hthere hmacro rfl), fun hprefix => ?_⟩
  exact absurd (hfree _ himports _ hmacro (hthere himports rfl) (hthere hmacro rfl) hprefix) nofun

end Scaffold.Script
