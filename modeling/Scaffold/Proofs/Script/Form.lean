import Mathlib.Algebra.Group.Nat.Even
import Scaffold.Component
import Scaffold.Proofs.Script.Marker
import Scaffold.Proofs.Script.Options.Mentions
import Scaffold.Proofs.Script.Setup.Imports
import Scaffold.Proofs.Text.Brackets
import Scaffold.Text.Blank

/-!
# The Form of Generated Lines

What the lines of every section, field and frame have in common, whatever they
say.

A line is laid out (`IsLaid`) if its level and its text can be told from each
other: the text does not go on after a line feed, and does not begin with a
blank. Lines are bracketed (`IsBracketed`) if they close together what they
open together, and each of them closes its own quotes. Both are matters of
wording. They are settled here once, by a computation for each section and
field over all the texts that it can have.

Two lines are not known in advance. The import line is put together from names
that have neither brackets nor quotes, and the component's name is written as
it is, so what it may not hold has to be assumed.

Lines that are bracketed part by part are bracketed together. An options script
is not made in this way: its first lines open what its last line closes. For it
the brackets that are awaited between the two are said.

## Main definitions

* `IsLaid`: A line whose level and text can be told from each other.
* `IsBracketed`: Lines that close what they open.
* `IsPlainName`: A name without brackets, quotes and line feeds.
* `Options.preamble`, `Options.closing`: The lines before the object and after its fields.
* `Component.ending`: The lines after the script.

## Theorems

* `isBracketed_flatMap`: Parts that are bracketed are bracketed together.
* `awaited?_render`, `isNested_render`: Brackets are a matter of the lines.
* `Setup.wellFormed_body`, `Options.wellFormed_body`: The form of sections and fields.
* `Options.awaited?_headerLines`: What is open where the fields begin.
* `Component.lines_eq`: The lines of a file.
* `Component.wellFormed_openTag`, `Component.wellFormed_ending`: The form of the rest.
-/

namespace Scaffold.Script

open Text

/-- A line whose level and text can be told from each other: the text stays on its
    line, and either there is nothing, at the margin, or the text begins with
    something else than a blank. -/
def IsLaid (l : Nat × List Char) : Prop :=
  '\n' ∉ l.2 ∧ (l = (0, []) ∨ ∃ c ∈ l.2.head?, isBlank c = false)

-- Of all characters, only the first one is looked at.
instance (l : Nat × List Char) : Decidable (IsLaid l) :=
  haveI : Decidable (∃ c ∈ l.2.head?, isBlank c = false) := Option.decidableExistsMem _
  inferInstanceAs (Decidable (_ ∧ _))

/-- Lines that close together what they open together, each of which closes its own
    quotes. -/
def IsBracketed (lines : List (Nat × List Char)) : Prop :=
  IsNested (lines.map Prod.snd).flatten ∧ ∀ l ∈ lines, Even (l.2.count '\'')

instance (lines : List (Nat × List Char)) : Decidable (IsBracketed lines) :=
  inferInstanceAs (Decidable (_ ∧ _))

/-- A name that has nothing to do with the brackets, quotes and lines around it. -/
def IsPlainName (name : String) : Prop :=
  ∀ c ∈ name.toList, isBracket c = false ∧ c ≠ '\'' ∧ c ≠ '\n'

instance (name : String) : Decidable (IsPlainName name) :=
  List.decidableBAll _ name.toList

section Lines

theorem isBracketed_nil : IsBracketed [] := ⟨.nil, fun _ h => absurd h List.not_mem_nil⟩

/-- Groups of lines that are bracketed are bracketed together: the brackets nest one after
    the other, and the quotes are a matter of each line. -/
theorem IsBracketed.append {xs ys : List (Nat × List Char)} (hxs : IsBracketed xs)
    (hys : IsBracketed ys) : IsBracketed (xs ++ ys) := by
  refine ⟨?_, List.forall_mem_append.mpr ⟨hxs.2, hys.2⟩⟩
  rw [List.map_append, List.flatten_append]
  exact hxs.1.append hys.1

/-- Parts that are bracketed are bracketed together, whichever of them are there. -/
theorem isBracketed_flatMap {α : Type} {parts : List α} {isThere : α → Bool}
    {lines : α → List Line}
    (h : ∀ a ∈ parts, IsBracketed ((lines a).map Line.spelled)) :
    IsBracketed ((parts.flatMap fun a => linesIf (isThere a) (lines a)).map Line.spelled) := by
  induction parts with
  | nil => exact isBracketed_nil
  | cons a as ih =>
      rw [List.forall_mem_cons] at h
      rw [List.flatMap_cons, List.map_append]
      -- A part that is not there has no lines, and nothing to close.
      refine IsBracketed.append ?_ (ih h.2)
      cases isThere a with
      | true => exact h.1
      | false => exact isBracketed_nil

/-- Every line of some parts is laid out, whichever of the parts are there. -/
theorem isLaid_of_mem_flatMap {α : Type} {parts : List α} {isThere : α → Bool}
    {lines : α → List Line} (h : ∀ a ∈ parts, ∀ l ∈ (lines a).map Line.spelled, IsLaid l)
    {l : Line} (hl : l ∈ parts.flatMap fun a => linesIf (isThere a) (lines a)) :
    IsLaid l.spelled := by
  rcases List.mem_flatMap.mp hl with ⟨a, ha, hmem⟩
  unfold linesIf at hmem
  split at hmem
  · exact h a ha _ (List.mem_map_of_mem hmem)
  · exact absurd hmem List.not_mem_nil

theorem flatten_spelled (ls : List Line) :
    (spelled ls).flatten = ((ls.map Line.spelled).map Prod.snd).flatten := by
  rw [spelled_eq_map, List.map_map]
  rfl

variable (ind : Indentation)

theorem isBracket_of_isIndent {c : Char} (h : isIndent c) : isBracket c = false := by
  rw [isIndent, Bool.or_eq_true, beq_iff_eq, beq_iff_eq] at h
  rcases h with rfl | rfl
  · rfl
  · rfl

/-- Brackets are a matter of the lines, whatever they are indented by. -/
theorem awaited?_render (stack : List Char) (ls : List Line) :
    awaited? stack (render ind ls).toList = awaited? stack (spelled ls).flatten := by
  -- The stack is generalized, since each line begins with what the lines before it have
  -- left open.
  induction ls generalizing stack with
  | nil => rfl
  | cons l ls ih =>
      have hindent : awaited? stack (ind.text l.level).toList = some stack :=
        awaited?_of_plain
          (fun c hc => isBracket_of_isIndent (isIndent_of_mem_text ind hc)) stack
      rw [toList_render_cons, List.append_assoc, awaited?_append_of_eq hindent, spelled,
        List.flatten_cons, awaited?_append, awaited?_append]
      -- The line feed is no bracket either.
      refine Option.bind_congr fun s _ => ?_
      rw [awaited?_cons, await?_of_plain (by decide), Option.bind_some, ih]

theorem isNested_spelled {ls : List Line} (h : IsBracketed (ls.map Line.spelled)) :
    IsNested (spelled ls).flatten :=
  flatten_spelled ls ▸ h.1

/-- Bracketed lines are rendered as a nested text, under any indentation. -/
theorem isNested_render {ls : List Line} (h : IsBracketed (ls.map Line.spelled)) :
    IsNested (render ind ls).toList := by
  rw [isNested_iff, awaited?_render]
  exact isNested_iff.mp (isNested_spelled h)

end Lines

/-- Every line is laid out, and together they are bracketed. -/
def IsWellFormed (lines : List (Nat × List Char)) : Prop :=
  (∀ l ∈ lines, IsLaid l) ∧ IsBracketed lines

instance (lines : List (Nat × List Char)) : Decidable (IsWellFormed lines) :=
  inferInstanceAs (Decidable (_ ∧ _))

namespace Setup

/-- Neither brackets nor quotes come from the imported names. -/
theorem plain_of_mem_names (ctx : Context) {c : Char}
    (hc : c ∈ ", ".toList.intercalate ((importedNames ctx).map String.toList)) :
    isBracket c = false ∧ c ≠ '\'' := by
  have hplain : ∀ name ∈ ", " :: importableNames, IsPlainName name := by decide
  rw [List.forall_mem_cons] at hplain
  rcases mem_of_mem_names hc with hsep | hname
  · exact ⟨(hplain.1 c hsep).1, (hplain.1 c hsep).2.1⟩
  · rcases List.mem_flatMap.mp hname with ⟨name, hmem, hcname⟩
    exact ⟨(hplain.2 name hmem c hcname).1, (hplain.2 name hmem c hcname).2.1⟩

theorem isNested_importLine (ctx : Context) : IsNested (importLine ctx).toList := by
  -- The names stand between two braces.
  have hopen : awaited? [] "import \x7b ".toList = some ['\x7d'] := by decide
  have hclose : awaited? ['\x7d'] " \x7d from 'vue'".toList = some [] := by decide
  have hnames := awaited?_of_plain (fun _ hc => (plain_of_mem_names ctx hc).1) ['\x7d']
  rw [isNested_iff, toList_importLine, List.append_assoc, awaited?_append_of_eq hopen,
    awaited?_append_of_eq hnames]
  exact hclose

/-- The only quotes of the import line are those around the module. -/
theorem even_quotes_importLine (ctx : Context) : Even ((importLine ctx).toList.count '\'') := by
  have hnames : (", ".toList.intercalate ((importedNames ctx).map String.toList)).count '\'' = 0 :=
    List.count_eq_zero.mpr fun hmem => (plain_of_mem_names ctx hmem).2 rfl
  rw [toList_importLine, List.count_append, List.count_append, hnames]
  decide

theorem wellFormed_imports (ctx : Context) (policy : BindingPolicy) :
    IsWellFormed ((Section.imports.body ctx policy ++ [Line.blank]).map Line.spelled) := by
  have hbody : (Section.imports.body ctx policy ++ [Line.blank]).map Line.spelled
      = [(0, (importLine ctx).toList), (0, [])] := rfl
  -- The first character is known although the line is not.
  have hbegin : (importLine ctx).toList.head? = some 'i' := by
    rw [toList_importLine, List.append_assoc]
    rfl
  rw [hbody]
  refine ⟨?_, ?_, ?_⟩
  · rw [List.forall_mem_cons, List.forall_mem_singleton]
    exact ⟨⟨newline_notMem_importLine ctx, .inr ⟨'i', hbegin, rfl⟩⟩, by decide, .inl rfl⟩
  · exact (isNested_importLine ctx).append .nil
  · rw [List.forall_mem_cons, List.forall_mem_singleton]
    exact ⟨even_quotes_importLine ctx, by decide⟩

theorem wellFormed_hook (h : Hook) (hh : h ∈ Hook.inSetup) (ctx : Context)
    (policy : BindingPolicy) :
    IsWellFormed (((Section.hook h).body ctx policy ++ [Line.blank]).map Line.spelled) := by
  simp only [Section.body, braced, block, linesIf, List.map_append, List.map_cons,
    List.map_nil, apply_ite (List.map Line.spelled), Line.spelled, Line.blank,
    String.toList_append]
  generalize policy.stopsWatcher = stops
  revert stops
  cases h <;> simp only [Hook.setupName?, Option.getD_some, Option.getD_none] <;>
    simp -index only [String.toList_ofList]
  case beforeCreate => exact absurd hh (by decide)
  case created => exact absurd hh (by decide)
  all_goals decide

/-- The lines of every section are well formed, with the blank one that ends it. -/
theorem wellFormed_body {s : Section} (hs : s ∈ sections) (ctx : Context)
    (policy : BindingPolicy) :
    IsWellFormed ((s.body ctx policy ++ [Line.blank]).map Line.spelled) := by
  cases s with
  | imports => exact wellFormed_imports ctx policy
  | hook h => exact wellFormed_hook h (hook_mem_sections.mp hs) ctx policy
  | _ =>
      -- With the literals spelled out and the switches generalized, one
      -- computation goes over all the texts that the section can have.
      simp only [Section.body, propsWithDefaults, plainProps, events, computedValue,
        watcher, watchSource, braced, block, linesIf, List.map_append, List.map_cons,
        List.map_nil, apply_ite (List.map Line.spelled), Line.spelled, Line.blank, toList_ite,
        toList_annotated, String.toList_append]
      simp -index only [String.toList_ofList]
      generalize policy.pairsPropEmit = pairs, policy.definesModel = defines, ctx.typed = typed,
        ctx.isOn .props = props, ctx.isOn .emits = emits, ctx.isOn .useWithDefaults = defaults
      revert pairs defines typed props emits defaults
      decide +kernel

end Setup

namespace Options

theorem wellFormed_hook (h : Hook) (ctx : Context) (policy : BindingPolicy) :
    IsWellFormed (((Field.hook h).body ctx policy).map Line.spelled) := by
  simp only [Field.body, braced, block, linesIf, List.map_append, List.map_cons,
    List.map_nil, apply_ite (List.map Line.spelled), Line.spelled, String.toList_append]
  generalize policy.stopsWatcher = stops
  revert stops
  cases h <;> simp only [Hook.optionName] <;> simp -index only [String.toList_ofList] <;>
    decide

/-- The lines of every field after the name are well formed. -/
theorem wellFormed_body {f : Field} (hf : f ∈ laterFields) (ctx : Context)
    (policy : BindingPolicy) : IsWellFormed ((f.body ctx policy).map Line.spelled) := by
  cases f with
  | name => exact absurd hf (by decide)
  | hook h => exact wellFormed_hook h ctx policy
  | _ =>
      -- One computation for all the texts that a field can have.
      simp only [Field.body, objectField, boundProp, boundEvent, boundValue, boundHandler,
        braced, block, linesIf, List.map_append, List.map_cons, List.map_nil,
        apply_ite (List.map Line.spelled), Line.spelled, toList_annotated, String.toList_append]
      simp -index only [String.toList_ofList]
      generalize policy.pairsPropEmit = pairs, ctx.typed = typed, ctx.isOn .emits = emits
      revert pairs typed emits
      decide

/-- The line with the name in it is laid out if the name stays on it. -/
theorem isLaid_nameLine {ctx : Context} (h : '\n' ∉ ctx.name.toList) (policy : BindingPolicy) :
    ∀ l ∈ (Field.name.body ctx policy).map Line.spelled, IsLaid l := by
  have hline : (Field.name.body ctx policy).map Line.spelled
      = [(1, ("name: '" ++ ctx.name ++ "',").toList)] := rfl
  rw [hline, List.forall_mem_singleton]
  simp only [IsLaid, String.toList_append, List.mem_append, not_or]
  exact ⟨⟨⟨by decide, h⟩, by decide⟩, .inr ⟨'n', rfl, rfl⟩⟩

/-- It is bracketed if the name is plain. -/
theorem isBracketed_nameLine {ctx : Context} (h : IsPlainName ctx.name) (policy : BindingPolicy) :
    IsBracketed ((Field.name.body ctx policy).map Line.spelled) := by
  have hline : (Field.name.body ctx policy).map Line.spelled
      = [(1, ("name: '" ++ ctx.name ++ "',").toList)] := rfl
  have hnames := awaited?_of_plain (fun c hc => (h c hc).1) []
  have hquotes : ctx.name.toList.count '\'' = 0 :=
    List.count_eq_zero.mpr fun hmem => (h _ hmem).2.1 rfl
  have hbegin : awaited? [] "name: '".toList = some [] := by decide
  rw [hline]
  simp only [IsBracketed, List.map_singleton, List.flatten_singleton, List.forall_mem_singleton,
    String.toList_append, List.count_append, hquotes]
  refine ⟨?_, by decide⟩
  rw [isNested_iff, List.append_assoc, awaited?_append_of_eq hbegin, awaited?_append_of_eq hnames]
  decide

/-- The lines before the object. -/
def preamble : List Line := [⟨0, "import \x7b defineComponent \x7d from 'vue'"⟩, Line.blank]

/-- The line after the fields. -/
def closing : List Line := [⟨0, "\x7d" ++ ");"⟩]

/-- The last of the lines before the fields is the one that opens the object. -/
theorem headerLines_eq :
    headerLines = preamble ++ [⟨0, "export default defineComponent(\x7b"⟩] :=
  rfl

theorem isBracketed_preamble : IsBracketed (preamble.map Line.spelled) := by decide

theorem isLaid_headerLines : ∀ l ∈ headerLines.map Line.spelled, IsLaid l := by decide

theorem isLaid_closing : ∀ l ∈ closing.map Line.spelled, IsLaid l := by decide

/-- The fields stand inside of two brackets. -/
theorem awaited?_headerLines : awaited? [] (spelled headerLines).flatten = some ['\x7d', ')'] := by
  decide

/-- The last line closes what the first ones have opened. -/
theorem awaited?_closing : awaited? ['\x7d', ')'] (spelled closing).flatten = some [] := by decide

end Options

end Scaffold.Script

namespace Scaffold.Component

open Script

/-- The lines after the script. -/
def ending (c : Component) (ctx : Context) : List Line :=
  [⟨0, "</script>"⟩, Line.blank] ++ c.companion ctx

theorem lines_eq (c : Component) (ctx : Context) :
    c.lines ctx = [⟨0, c.openTag⟩] ++ c.api.bodyLines (ctx.named c.name) ++ c.ending ctx := by
  unfold lines ending
  simp only [List.append_assoc]

theorem wellFormed_openTag (c : Component) :
    IsWellFormed ([⟨0, c.openTag⟩].map Line.spelled) := by
  unfold openTag
  generalize c.api = api, c.lang = lang
  cases api <;> cases lang <;> decide

theorem wellFormed_ending (c : Component) (ctx : Context) :
    IsWellFormed ((c.ending ctx).map Line.spelled) := by
  unfold ending companion
  generalize c.api = api, c.lang = lang, ctx.isOn .inheritAttrs = on
  cases api <;> cases lang <;> cases on <;> decide

end Scaffold.Component
