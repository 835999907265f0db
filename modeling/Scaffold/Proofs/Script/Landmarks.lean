import Scaffold.Proofs.Script.Form
import Scaffold.Proofs.Script.Setup.Channels

/-!
# Landmarks of Component Files

How often a component file has a script tag, and how often it says whether
attributes are inherited.

The tags come from the frame of a file alone. What is said about attributes comes
from three places that do not know of each other: a macro of a setup script, a
field of an options object, and the plain block beside a setup script. Each of the
three looks at a switch of its own, so whether they agree is a question about whole
files. A landmark stands inside of one line, so it is counted line by line; what
has to be settled for every section and field is that none of their texts has a
landmark that it should not have, not even the ones with types in angle brackets.

The macro always says that attributes are inherited, also where the block beside
it says that they are not. So a file contradicts itself where both are switched on
(`attrs_contradiction_iff`).

## Main definitions

* `Landmark`: A tag, or something that is said about attributes.
* `Section.landmarks`, `Field.landmarks`: How often a part of a script has one.
* `Component.landmarks`: How often a file has one.
* `Component.Shows`: A file has one at all.
* `IsUnmarked`: A name without a landmark in it.

## Theorems

* `Setup.total_section`, `Options.total_field`: The landmarks of sections and fields.
* `Component.total_body`, `Component.total_frame`: Those of a script, and around it.
* `Component.frequency_landmark`: Those of a file.
* `Component.attrs_contradiction_iff`: Which files contradict themselves.
-/

namespace Scaffold.Script

open Text

/-- What is looked for in a component file. -/
inductive Landmark where
  /-- The beginning of the tag that opens a script. -/
  | opensScript
  /-- The tag that closes it. -/
  | closesScript
  /-- Attributes are not inherited. -/
  | stopsAttrs
  /-- Attributes are inherited. -/
  | passesAttrs
  deriving DecidableEq, Repr

namespace Landmark

/-- How a landmark is written. -/
def text : Landmark → String
  | opensScript => "<script"
  | closesScript => "</script>"
  | stopsAttrs => "inheritAttrs: false"
  | passesAttrs => "inheritAttrs: true"

def all : List Landmark := [opensScript, closesScript, stopsAttrs, passesAttrs]

theorem mem_all (m : Landmark) : m ∈ all := by cases m <;> decide

/-- A landmark stands within a line, so those of a file are those of its lines. -/
theorem isInline_text (m : Landmark) : isInline m.text.toList := by cases m <;> decide

/-- A landmark has no quote in it, so a name in quotes cannot be a part of one. -/
theorem quote_notMem_text (m : Landmark) : '\'' ∉ m.text.toList := by cases m <;> decide

/-- Every landmark has a character that is in no import line. -/
theorem exists_notMem_importCharacters (m : Landmark) :
    ∃ c ∈ m.text.toList, c ∉ Setup.importCharacters := by
  -- Tags have an angle bracket and the others a colon, and an import line has neither.
  have hcharacters : '<' ∉ Setup.importCharacters ∧ ':' ∉ Setup.importCharacters := by decide
  cases m with
  | opensScript | closesScript => exact ⟨'<', by decide, hcharacters.1⟩
  | stopsAttrs | passesAttrs => exact ⟨':', by decide, hcharacters.2⟩

theorem table_eq : (all.map fun m => m.text.toList) =
    ["<script".toList, "</script>".toList, "inheritAttrs: false".toList,
      "inheritAttrs: true".toList] := by
  rfl

end Landmark

/-- A name without a landmark in it. -/
def IsUnmarked (name : String) : Prop := ∀ m : Landmark, ¬ m.text.toList <:+: name.toList

/-- Every landmark has a sign in it that is neither a letter nor a digit. -/
theorem isUnmarked_of_isAlphanum {name : String} (hname : name.toList.all Char.isAlphanum) :
    IsUnmarked name := by
  intro m hin
  have hsign : ¬ m.text.toList.all Char.isAlphanum := by cases m <;> decide
  rw [List.all_eq_true] at hname hsign
  exact hsign fun ch hch => hname ch (hin.subset hch)

namespace Setup

/-- How often a section that is on has a landmark. -/
def Section.landmarks : Section → Landmark → Nat
  | defineOptions, .passesAttrs => 1
  | _, _ => 0

theorem landmarks_eq_zero {s : Section} (hs : s ≠ .defineOptions) (m : Landmark) :
    s.landmarks m = 0 := by
  cases s with
  | defineOptions => exact absurd rfl hs
  | _ => rfl

variable (ctx : Context) (policy : BindingPolicy)

theorem landmarks_hook (h : Hook) :
    ((Landmark.all.map fun m => m.text.toList).map fun p =>
        total p (spelled ((Section.hook h).body ctx policy ++ [Line.blank])))
      = Landmark.all.map (Section.hook h).landmarks := by
  rw [Landmark.table_eq]
  simp only [Landmark.all, List.map_cons, List.map_nil, Section.landmarks, Section.body, spelled,
    spelled_append, spelled_braced, spelled_linesIf, String.toList_append, Line.blank]
  generalize policy.stopsWatcher = stops
  revert stops
  cases h <;> simp only [Hook.setupName?, Option.getD_some, Option.getD_none] <;>
    simp -index only [String.toList_ofList] <;> decide

theorem landmarks_body {s : Section} (hs : s ∈ laterSections) :
    ((Landmark.all.map fun m => m.text.toList).map fun p =>
        total p (spelled (s.body ctx policy ++ [Line.blank])))
      = Landmark.all.map s.landmarks := by
  cases s with
  | imports => exact absurd hs (by decide)
  | hook h => exact landmarks_hook ctx policy h
  | _ =>
      -- With the literals spelled out and the switches generalized, one
      -- computation goes over all the texts that the section can have.
      rw [Landmark.table_eq]
      simp only [Landmark.all, List.map_cons, List.map_nil, Section.landmarks, Section.body,
        propsWithDefaults, plainProps, events, computedValue, watcher, watchSource, spelled,
        spelled_append, spelled_block, spelled_braced, spelled_ite, spelled_linesIf, toList_ite,
        toList_annotated, String.toList_append, Line.blank]
      simp -index only [String.toList_ofList]
      generalize policy.pairsPropEmit = pairs, policy.definesModel = defines, ctx.typed = typed,
        ctx.isOn .props = props, ctx.isOn .emits = emits, ctx.isOn .useWithDefaults = defaults
      revert pairs defines typed props emits defaults
      decide

/-- The landmarks of a section. -/
theorem total_section {s : Section} (hs : s ∈ sections) (m : Landmark) :
    total m.text.toList (spelled (s.body ctx policy ++ [Line.blank])) = s.landmarks m := by
  rw [sections_eq, List.mem_cons] at hs
  rcases hs with rfl | hlater
  · -- The import line depends on too many switches to be computed.
    rcases m.exists_notMem_importCharacters with ⟨c, hc, hnot⟩
    rw [total_imports hc hnot]
    cases m <;> rfl
  · -- All landmarks were counted at once, so this one is picked from the list.
    have htotals := landmarks_body ctx policy hlater
    rw [List.map_map, List.map_inj_left] at htotals
    exact htotals m m.mem_all

theorem total_lines (m : Landmark) :
    total m.text.toList (spelled (lines ctx))
      = (ctx.isOn .defineOptions).toNat * Section.defineOptions.landmarks m := by
  have hsections : total m.text.toList (spelled (lines ctx))
      = (sections.map fun s => (s.isOn ctx (.setup ctx)).toNat * s.landmarks m).sum := by
    refine (total_parts m.text.toList sections (Section.isOn ctx (.setup ctx))
      fun s => s.body ctx (.setup ctx) ++ [Line.blank]).trans ?_
    exact congrArg List.sum
      (List.map_congr_left fun s hs => by rw [total_section ctx (.setup ctx) hs])
  have hmacro : sections.filter (· == .defineOptions) = [.defineOptions] := by decide
  -- Of all sections the macro alone adds something to the sum.
  rw [hsections, sum_map_filter (· == .defineOptions) fun s _ hs => ?_, hmacro]
  · exact List.sum_singleton
  · rw [landmarks_eq_zero (beq_eq_false_iff_ne.mp hs), Nat.mul_zero]

end Setup

namespace Options

/-- How often a field that is on has a landmark. -/
def Field.landmarks : Field → Landmark → Nat
  | inheritAttrs, .stopsAttrs => 1
  | _, _ => 0

theorem landmarks_eq_zero {f : Field} (hf : f ≠ .inheritAttrs) (m : Landmark) :
    f.landmarks m = 0 := by
  cases f with
  | inheritAttrs => exact absurd rfl hf
  | _ => rfl

section Wording

variable (ctx : Context) (policy : BindingPolicy)

theorem landmarks_hook (h : Hook) :
    ((Landmark.all.map fun m => m.text.toList).map fun p =>
        total p (spelled ((Field.hook h).body ctx policy)))
      = Landmark.all.map (Field.hook h).landmarks := by
  rw [Landmark.table_eq]
  simp only [Landmark.all, List.map_cons, List.map_nil, Field.landmarks, Field.body,
    spelled_braced, spelled_linesIf, spelled, String.toList_append]
  generalize policy.stopsWatcher = stops
  revert stops
  cases h <;> simp only [Hook.optionName] <;> simp -index only [String.toList_ofList] <;>
    decide

theorem landmarks_body {f : Field} (hf : f ∈ laterFields) :
    ((Landmark.all.map fun m => m.text.toList).map fun p =>
        total p (spelled (f.body ctx policy)))
      = Landmark.all.map f.landmarks := by
  cases f with
  | name => exact absurd hf (by decide)
  | hook h => exact landmarks_hook ctx policy h
  | _ =>
      rw [Landmark.table_eq]
      -- One computation for the four landmarks and all the texts of the field.
      simp only [Landmark.all, List.map_cons, List.map_nil, Field.landmarks, Field.body,
        objectField, boundProp, boundEvent, boundValue, boundHandler, spelled, spelled_append,
        spelled_block, spelled_braced, spelled_linesIf, toList_annotated, String.toList_append]
      simp -index only [String.toList_ofList]
      generalize policy.pairsPropEmit = pairs, ctx.typed = typed, ctx.isOn .emits = emits
      revert pairs typed emits
      decide

/-- The line with the name in it has no landmark if the name has none. -/
theorem landmarks_nameLine {name : String} (hname : IsUnmarked name) (m : Landmark) :
    total m.text.toList [("name: '" ++ name ++ "',").toList] = 0 := by
  have hne := ne_nil_of_isInline m.isInline_text
  -- The quotes cut the line in three, of which only the name is not known.
  rw [total, List.map_singleton, List.sum_singleton, frequency_nameLine hne m.quote_notMem_text,
    (frequency_eq_zero_iff hne name.toList).mpr (hname m)]
  cases m <;> decide

/-- The landmarks of a field. -/
theorem total_field {f : Field} (hf : f ∈ fields) (hname : IsUnmarked ctx.name) (m : Landmark) :
    total m.text.toList (spelled (f.body ctx policy)) = f.landmarks m := by
  rw [fields_eq, List.mem_cons] at hf
  rcases hf with rfl | hlater
  · exact landmarks_nameLine hname m
  · have htotals := landmarks_body ctx policy hlater
    rw [List.map_map, List.map_inj_left] at htotals
    exact htotals m m.mem_all

end Wording

/-- The lines around the fields have no landmarks. -/
theorem landmarks_frame (m : Landmark) :
    total m.text.toList (spelled headerLines) = 0
      ∧ total m.text.toList (spelled closing) = 0 := by
  cases m <;> decide

theorem total_lines (ctx : Context) (hname : IsUnmarked ctx.name) (m : Landmark) :
    total m.text.toList (spelled (lines ctx))
      = (ctx.isOn .inheritAttrs).toNat * Field.inheritAttrs.landmarks m := by
  have hfields : total m.text.toList (spelled (fields.flatMap (Field.lines ctx (.options ctx))))
      = (fields.map fun f => (f.isOn ctx).toNat * f.landmarks m).sum := by
    rw [total_fieldLines]
    exact congrArg List.sum
      (List.map_congr_left fun f hf => by rw [total_field ctx (.options ctx) hf hname])
  -- Of all fields one adds something to the sum.
  have hattrs : fields.filter (· == .inheritAttrs) = [.inheritAttrs] := by decide
  have hframe := landmarks_frame m
  rw [closing] at hframe
  rw [lines_eq, spelled_append, spelled_append, total_append, total_append, hframe.1, hframe.2,
    Nat.zero_add, Nat.add_zero, hfields,
    sum_map_filter (· == .inheritAttrs) fun f _ hf => ?_, hattrs]
  · exact List.sum_singleton
  · rw [landmarks_eq_zero (beq_eq_false_iff_ne.mp hf), Nat.mul_zero]

end Options

end Scaffold.Script

namespace Scaffold.Component

open Script Text

/-- Whether a file has a second, plain block beside its script. -/
def hasCompanion (c : Component) (ctx : Context) : Bool :=
  c.api == .setup && ctx.isOn .inheritAttrs

/-- How often a file has a landmark. Every block has both of its tags. -/
def landmarks (c : Component) (ctx : Context) : Landmark → Nat
  | .opensScript | .closesScript => if c.hasCompanion ctx then 2 else 1
  | .stopsAttrs => (ctx.isOn .inheritAttrs).toNat
  | .passesAttrs => (c.api == .setup && ctx.isOn .defineOptions).toNat

/-- A landmark stands somewhere in the file. -/
def Shows (c : Component) (ctx : Context) (m : Landmark) : Prop :=
  m.text.toList <:+: (c.render ctx).toList

variable {c : Component} (hname : IsUnmarked c.name) (ctx : Context)

/-- The landmarks around a script: its own tags and the block beside it. -/
theorem total_frame (c : Component) (ctx : Context) (m : Landmark) :
    total m.text.toList (spelled [⟨0, c.openTag⟩])
        + total m.text.toList (spelled (c.ending ctx))
      = match m with
        | .opensScript | .closesScript => if c.hasCompanion ctx then 2 else 1
        | .stopsAttrs => (c.hasCompanion ctx).toNat
        | .passesAttrs => 0 := by
  unfold openTag ending companion hasCompanion
  generalize c.api = api, c.lang = lang, ctx.isOn .inheritAttrs = on
  cases m <;> cases api <;> cases lang <;> cases on <;> decide

include hname

/-- The landmarks of a script. -/
theorem total_body (m : Landmark) :
    total m.text.toList (spelled (c.api.bodyLines (ctx.named c.name)))
      = match c.api with
        | .setup => (ctx.isOn .defineOptions).toNat * Setup.Section.defineOptions.landmarks m
        | .options => (ctx.isOn .inheritAttrs).toNat * Options.Field.inheritAttrs.landmarks m := by
  cases c.api with
  | setup => exact Setup.total_lines (ctx.named c.name) m
  | options => exact Options.total_lines (ctx.named c.name) hname m

/-- The landmarks of a file. -/
theorem frequency_landmark (m : Landmark) :
    frequency m.text.toList (c.render ctx).toList = c.landmarks ctx m := by
  have hlines : total m.text.toList (spelled (c.lines ctx))
      = total m.text.toList (spelled [⟨0, c.openTag⟩])
          + total m.text.toList (spelled (c.ending ctx))
        + total m.text.toList (spelled (c.api.bodyLines (ctx.named c.name))) := by
    rw [lines_eq, spelled_append, spelled_append, total_append, total_append, Nat.add_right_comm]
  rw [render, frequency_render _ m.isInline_text, hlines, total_frame, total_body hname]
  -- What is left is arithmetic with the three switches and the dialect.
  unfold landmarks hasCompanion
  generalize c.api = api, ctx.isOn .inheritAttrs = stops, ctx.isOn .defineOptions = passes
  cases m <;> cases api <;> cases stops <;> cases passes <;> rfl

/-- The landmarks that a file has. -/
theorem shows_iff (m : Landmark) : c.Shows ctx m ↔ 0 < c.landmarks ctx m := by
  rw [← frequency_landmark hname, frequency_pos_iff (ne_nil_of_isInline m.isInline_text), Shows]

omit hname

/-- What a file says about attributes. The macro speaks whenever it is there, and
    the block beside a setup script does not look at it. -/
theorem attrs_contradiction_iff (hname : c.name.toList.all Char.isAlphanum) (ctx : Context) :
    (c.Shows ctx .passesAttrs ↔ c.api = .setup ∧ ctx.isOn .defineOptions = true)
      ∧ (c.Shows ctx .stopsAttrs ↔ ctx.isOn .inheritAttrs = true)
      ∧ (c.Shows ctx .passesAttrs ∧ c.Shows ctx .stopsAttrs
          ↔ c.api = .setup ∧ ctx.isOn .defineOptions = true ∧ ctx.isOn .inheritAttrs = true) := by
  have hshows := shows_iff (isUnmarked_of_isAlphanum hname) ctx
  -- What the file says twice is said in two different places, so each has its own
  -- switch.
  have hpasses : c.Shows ctx .passesAttrs ↔ c.api = .setup ∧ ctx.isOn .defineOptions = true := by
    rw [hshows, landmarks, Options.toNat_pos_iff, Bool.and_eq_true, beq_iff_eq]
  have hstops : c.Shows ctx .stopsAttrs ↔ ctx.isOn .inheritAttrs = true := by
    rw [hshows, landmarks, Options.toNat_pos_iff]
  refine ⟨hpasses, hstops, ?_⟩
  rw [hpasses, hstops, and_assoc]

/-- Without the macro, only the block beside a setup script speaks. -/
theorem attrs_contradiction_iff_card :
    "MyCard".toList.all Char.isAlphanum
      ∧ ¬ ({ name := "MyCard" } : Component).Shows
          { typed := true, enabled := .ofList [.inheritAttrs] } .passesAttrs
      ∧ ({ name := "MyCard" } : Component).Shows
          { typed := true, enabled := .ofList [.inheritAttrs] } .stopsAttrs := by
  have hname : "MyCard".toList.all Char.isAlphanum := by decide
  have hfile := attrs_contradiction_iff (c := { name := "MyCard" }) hname
    { typed := true, enabled := .ofList [.inheritAttrs] }
  exact ⟨hname, fun h => absurd (hfile.1.mp h).2 (by decide), hfile.2.1.mpr (by decide)⟩

/-- A setup script with the macro, and the block beside it. -/
theorem attrs_contradicted :
    "MyCard".toList.all Char.isAlphanum
      ∧ ({ name := "MyCard" } : Component).Shows
          { typed := true, enabled := .ofList [.defineOptions, .inheritAttrs] } .passesAttrs
      ∧ ({ name := "MyCard" } : Component).Shows
          { typed := true, enabled := .ofList [.defineOptions, .inheritAttrs] } .stopsAttrs := by
  have hname : "MyCard".toList.all Char.isAlphanum := by decide
  have hshows := shows_iff (c := { name := "MyCard" }) (isUnmarked_of_isAlphanum hname)
    { typed := true, enabled := .ofList [.defineOptions, .inheritAttrs] }
  exact ⟨hname, (hshows .passesAttrs).mpr (by decide), (hshows .stopsAttrs).mpr (by decide)⟩

end Scaffold.Component
