import Scaffold.Proofs.Script.Reindentation

/-!
# Brackets of Component Files

Every bracket in a component file is closed by the one that belongs to it, every
line closes its own quotes, and the fields of an options object stand next to
each other in the object.

Openers and closers of one pair often come from different places of a generator,
with optional lines between them. The sections and fields, each with all of its
optional lines, are bracketed one by one, and so is everything that they are put
together to. The object is the exception: what its fields stand in is opened
before all of them and closed after all of them. Where a field begins, just these
two brackets are open, because the fields before it have closed their own.

The component's name is written into an options object as it is, between quotes.
A name with a bracket or a quote in it breaks all of this.

## Main definitions

* `Component.beforeField`, `Component.afterField`: The lines around a field.
* `StandsInObject`: A place directly in the object.

## Theorems

* `Setup.isBracketed_lines`, `Options.isBracketed_lines`: Scripts are bracketed.
* `even_quotes_of_mem_splitOn`: Every line of a rendering closes its quotes.
* `standsInObject_beforeField`: A field begins directly in the object.
* `Component.wellBracketed_render`: The brackets and quotes of a component file.
-/

namespace Scaffold.Script

open Text

/-- Every line of a rendering closes its own quotes if the lines do. -/
theorem even_quotes_of_mem_splitOn (ind : Indentation) {ls : List Line}
    (hlines : ∀ l ∈ ls, '\n' ∉ l.text.toList) (h : IsBracketed (ls.map Line.spelled)) :
    ∀ line ∈ (render ind ls).toList.splitOn '\n', Even (line.count '\'') := by
  rw [splitOn_render ind hlines, List.forall_mem_append, List.forall_mem_singleton]
  refine ⟨fun line hline => ?_, by decide⟩
  rcases List.mem_map.mp hline with ⟨l, hl, rfl⟩
  -- Indentation has no quotes in it.
  have hindent : (ind.text l.level).toList.count '\'' = 0 :=
    List.count_eq_zero.mpr fun hmem => absurd (isIndent_of_mem_text ind hmem) (by decide)
  rw [List.count_append, hindent, Nat.zero_add]
  exact h.2 _ (List.mem_map_of_mem hl)

theorem Setup.isBracketed_lines (ctx : Context) :
    IsBracketed ((Setup.lines ctx).map Line.spelled) :=
  isBracketed_flatMap fun _ hs => (Setup.wellFormed_body hs ctx _).2

namespace Options

variable (ctx : Context)

/-- Any group of fields is bracketed. It is the whole object that is not made up of
    bracketed parts. -/
theorem isBracketed_fields (hname : IsPlainName ctx.name) (policy : BindingPolicy)
    {fs : List Field} (hfs : fs ⊆ fields) :
    IsBracketed ((fs.flatMap (Field.lines ctx policy)).map Line.spelled) := by
  refine isBracketed_flatMap fun f hf => ?_
  have hmem := hfs hf
  rw [fields_eq, List.mem_cons] at hmem
  rcases hmem with rfl | hlater
  · -- The name is assumed to be plain, for it is written as it is.
    exact isBracketed_nameLine hname policy
  · exact (wellFormed_body hlater ctx policy).2

theorem isBracketed_lines (hname : IsPlainName ctx.name) :
    IsBracketed ((lines ctx).map Line.spelled) := by
  have hfields := isBracketed_fields ctx hname (.options ctx) (List.Subset.refl fields)
  rw [lines_eq]
  refine ⟨?_, ?_⟩
  · -- What the first lines open stays open until the last one.
    rw [← flatten_spelled, spelled_append, spelled_append, List.flatten_append,
      List.flatten_append, isNested_iff, List.append_assoc,
      awaited?_append_of_eq awaited?_headerLines,
      awaited?_append_of_eq (awaited?_of_isNested (isNested_spelled hfields) _)]
    exact awaited?_closing
  · rw [List.map_append, List.map_append, List.forall_mem_append, List.forall_mem_append]
    exact ⟨⟨by decide, hfields.2⟩, by decide⟩

end Options

/-- A place in a text that is directly in the object of an options script: after
    its opening everything that was opened has been closed again. -/
def StandsInObject (before : List Char) : Prop :=
  ∃ xs ys, before = xs ++ "defineComponent(\x7b".toList ++ ys ∧ IsNested xs ∧ IsNested ys

/-- Directly in the object two brackets are open, the inner one a brace. -/
theorem awaited?_of_standsInObject {before : List Char} (h : StandsInObject before) :
    awaited? [] before = some ['\x7d', ')'] := by
  have hobject : awaited? [] "defineComponent(\x7b".toList = some ['\x7d', ')'] := by decide
  rcases h with ⟨xs, ys, rfl, hxs, hys⟩
  rw [List.append_assoc, awaited?_append_of_eq (awaited?_of_isNested hxs []),
    awaited?_append_of_eq hobject]
  exact awaited?_of_isNested hys _

end Scaffold.Script

namespace Scaffold.Component

open Script Text

variable (c : Component) (ctx : Context)

/-- The lines of an options file before a field, which other ones precede. -/
def beforeField (earlier : List Options.Field) : List Line :=
  [⟨0, c.openTag⟩] ++ Options.headerLines
    ++ earlier.flatMap (Options.Field.lines (ctx.named c.name) (.options ctx))

/-- The lines of an options file after a field, which other ones follow. -/
def afterField (later : List Options.Field) : List Line :=
  later.flatMap (Options.Field.lines (ctx.named c.name) (.options ctx))
    ++ Options.closing ++ c.ending ctx

variable {c} {ctx}

theorem lines_eq_around_field (hapi : c.api = .options) {earlier later : List Options.Field}
    {f : Options.Field} (hfields : Options.fields = earlier ++ f :: later) :
    c.lines ctx = c.beforeField ctx earlier ++ f.lines (ctx.named c.name) (.options ctx)
      ++ c.afterField ctx later := by
  have hbody : c.api.bodyLines (ctx.named c.name) = Options.headerLines
      ++ Options.fields.flatMap (Options.Field.lines (ctx.named c.name) (.options ctx))
      ++ Options.closing := by
    rw [hapi]
    rfl
  rw [lines_eq, hbody, hfields, List.flatMap_append, List.flatMap_cons, beforeField, afterField]
  simp only [List.append_assoc]

theorem isBracketed_lines (hname : IsPlainName c.name) (ctx : Context) :
    IsBracketed ((c.lines ctx).map Line.spelled) := by
  have hbody : IsBracketed ((c.api.bodyLines (ctx.named c.name)).map Line.spelled) := by
    cases c.api with
    | setup => exact Setup.isBracketed_lines _
    | options => exact Options.isBracketed_lines _ hname
  rw [lines_eq, List.map_append, List.map_append]
  exact ((wellFormed_openTag c).2.append hbody).append (wellFormed_ending c ctx).2

/-- The line that opens the object, cut where the object opens. -/
theorem toList_render_object (ind : Indentation) :
    (Script.render ind [⟨0, "export default defineComponent(\x7b"⟩]).toList
      = "export default ".toList ++ "defineComponent(\x7b".toList ++ ['\n'] := by
  have hline : "export default defineComponent(\x7b".toList
      = "export default ".toList ++ "defineComponent(\x7b".toList := by decide
  rw [toList_render_cons, hline]
  simp only [Int.ofNat_zero, Indentation.text_zero]
  rfl

/-- A field begins directly in the object, whichever fields precede it. -/
theorem standsInObject_beforeField (hname : IsPlainName c.name) (ctx : Context)
    {earlier : List Options.Field} (hsub : earlier ⊆ Options.fields) :
    StandsInObject (Script.render ctx.indentation (c.beforeField ctx earlier)).toList := by
  have hearlier := Options.isBracketed_fields (ctx.named c.name) hname (.options ctx) hsub
  have htag := isNested_render ctx.indentation (wellFormed_openTag c).2
  have hpreamble := isNested_render ctx.indentation Options.isBracketed_preamble
  -- Before the object everything is closed, and so is everything between its opening
  -- and the field.
  refine ⟨_, _, ?_, (htag.append hpreamble).append (by decide : IsNested "export default ".toList),
    .skip (by decide : isBracket '\n' = false) (isNested_render ctx.indentation hearlier)⟩
  rw [beforeField, Options.headerLines_eq, render_append, render_append, render_append,
    String.toList_append, String.toList_append, String.toList_append, toList_render_object]
  simp only [List.append_assoc, List.singleton_append]

/-- Every bracket of a component file is closed by the one that belongs to it, every
    line closes its quotes, and every field of an options object begins where two
    brackets are open, directly in the object, and closes what it opens. -/
theorem wellBracketed_render (c : Component) (hname : IsPlainName c.name) (ctx : Context) :
    IsNested (c.render ctx).toList
    ∧ (∀ line ∈ (c.render ctx).toList.splitOn '\n', Even (line.count '\''))
    ∧ (c.api = .options → ∀ earlier f later, Options.fields = earlier ++ f :: later →
      ∃ before field after, (c.render ctx).toList = before ++ field ++ after
        ∧ before = (Script.render ctx.indentation (c.beforeField ctx earlier)).toList
        ∧ field = (f.text (ctx.named c.name) (.options ctx)).toList
        ∧ openCount? before = some 2 ∧ StandsInObject before ∧ IsNested field) := by
  have hlines := isBracketed_lines hname ctx
  have hnewline : '\n' ∉ c.name.toList := fun h => (hname _ h).2.2 rfl
  refine ⟨isNested_render _ hlines, ?_, ?_⟩
  · exact even_quotes_of_mem_splitOn _
      (fun l hl => (isLaid_of_mem_lines hnewline ctx l hl).1) hlines
  · intro hapi earlier f later hfields
    have hearlier : earlier ⊆ Options.fields := hfields ▸ List.subset_append_left _ _
    have hf : f ∈ Options.fields := hfields ▸ List.mem_append_right _ List.mem_cons_self
    have hbefore := standsInObject_beforeField hname ctx hearlier
    refine ⟨_, _, (Script.render ctx.indentation (c.afterField ctx later)).toList, ?_, rfl, rfl, ?_,
      hbefore, ?_⟩
    · rw [render, lines_eq_around_field hapi hfields, render_append, render_append,
        String.toList_append, String.toList_append]
      rfl
    · -- Two brackets are awaited, so two are open.
      rw [openCount?, awaited?_of_standsInObject hbefore]
      rfl
    · have hsub : [f] ⊆ Options.fields := List.cons_subset.mpr ⟨hf, List.nil_subset _⟩
      have hfield := Options.isBracketed_fields (ctx.named c.name) hname (.options ctx) hsub
      rw [List.flatMap_singleton] at hfield
      exact isNested_render _ hfield

/-- The name of a card is plain, and it is the first field of its object. -/
theorem wellBracketed_render_options :
    IsPlainName "my-card" ∧ Options.fields = [] ++ .name :: Options.laterFields
      ∧ ∃ before field after,
        (({ name := "my-card", api := .options } : Component).render { typed := true }).toList
            = before ++ field ++ after
          ∧ openCount? before = some 2 ∧ StandsInObject before ∧ IsNested field := by
  have hname : IsPlainName "my-card" := by decide
  rcases (wellBracketed_render { name := "my-card", api := .options } hname
      { typed := true }).2.2 rfl [] .name Options.laterFields Options.fields_eq with
    ⟨before, field, after, htext, _, _, hdepth, hobject, hfield⟩
  exact ⟨hname, Options.fields_eq, before, field, after, htext, hdepth, hobject, hfield⟩

end Scaffold.Component
