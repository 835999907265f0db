import Scaffold.Proofs.Script.Annotations
import Scaffold.Proofs.Script.Form

/-!
# Erasing Types

An untyped script is the typed one without its types.

The generators decide line by line whether to write a type, so that the two
scripts belong together is not said anywhere. It is said here by what has to be
deleted from the one to get the other. That nothing else is met by the deletions
is settled for each section and field by a computation over all the texts that it
can have, and an untyped script turns out to have nothing in it that could be
deleted.

Two parts of a setup script differ by more than annotations: slots are declared by
their types, and typed props with defaults are written as an interface. In an
options script the name is written as it is, so what is deleted must not be found
in it. The quotes around the name keep the rest apart from it.

## Main definitions

* `Annotations.setup`, `Annotations.options`: The types of both kinds of scripts.

## Theorems

* `Setup.lacks_lines`, `Options.lacks_lines`: Untyped scripts lack them.
* `Setup.erases_lines`, `Options.erases_lines`: Without them scripts are untyped.
* `untyped_eq_deleteEach_typed`: An untyped script is the typed one, erased.
-/

namespace Scaffold.Script

open Text

namespace Annotations

/-- The types of setup scripts. -/
def setup : Annotations :=
  ⟨[": string | undefined", ": string", ": unknown", "<string>"], ⟨2, "type: String,"⟩⟩

/-- The types of options scripts. -/
def options : Annotations := ⟨[": any"], ⟨3, "type: String,"⟩⟩

theorem isInline_setup : setup.IsInline := by decide

theorem isInline_options : options.IsInline := by decide

end Annotations

namespace Setup

/-- Every annotation has a colon or an angle bracket, and the import line has
    neither. -/
theorem lacks_imports (ctx : Context) : Lacks .setup [(0, (importLine ctx).toList), (0, [])] := by
  have hcharacters : ':' ∉ importCharacters ∧ '<' ∉ importCharacters := by decide
  have hphrases : ∀ p ∈ Annotations.setup.phrases, ':' ∈ p.toList ∨ '<' ∈ p.toList := by
    decide
  -- None of the phrases can be on the line, and neither can the deleted line be its
  -- end.
  have hnot (p : List Char) (h : ':' ∈ p ∨ '<' ∈ p) : ¬ p <:+: (importLine ctx).toList := by
    rintro hinner
    rcases h with hcolon | hangle
    · exact hcharacters.1 (mem_importCharacters (hinner.subset hcolon))
    · exact hcharacters.2 (mem_importCharacters (hinner.subset hangle))
  rw [Lacks, List.forall_mem_cons]
  refine ⟨⟨newline_notMem_importLine ctx, fun p hp => ?_, fun hsuffix => ?_⟩, by decide⟩
  · exact deleteAll_of_not_infix (hnot p.toList (hphrases p hp))
  · exact hnot _ (.inl (by decide)) hsuffix.isInfix

theorem lacks_hook (h : Hook) (ctx : Context) (policy : BindingPolicy) :
    Lacks .setup (((Section.hook h).body ctx policy ++ [Line.blank]).map Line.spelled) := by
  simp only [Section.body, braced, block, linesIf, List.map_append, List.map_cons,
    List.map_nil, apply_ite (List.map Line.spelled), Line.spelled, Line.blank,
    String.toList_append, Annotations.setup]
  generalize policy.stopsWatcher = stops
  revert stops
  cases h <;> simp only [Hook.setupName?, Option.getD_some, Option.getD_none] <;>
    simp -index only [String.toList_ofList] <;> decide

/-- The sections after the import line lack the types where these are not written. -/
theorem lacks_body {s : Section} (hs : s ∈ laterSections) {ctx : Context}
    (hctx : ctx.typed = false) (policy : BindingPolicy) :
    Lacks .setup ((s.body ctx policy ++ [Line.blank]).map Line.spelled) := by
  cases s with
  | imports => exact absurd hs (by decide)
  | hook h => exact lacks_hook h ctx policy
  | _ =>
      simp only [Section.body, propsWithDefaults, plainProps, events, computedValue, watcher,
        watchSource, braced, block, linesIf, List.map_append, List.map_cons, List.map_nil,
        apply_ite (List.map Line.spelled), Line.spelled, Line.blank, toList_ite, toList_annotated,
        String.toList_append, hctx, Annotations.setup]
      simp -index only [String.toList_ofList]
      generalize policy.pairsPropEmit = pairs, policy.definesModel = defines,
        ctx.isOn .props = props, ctx.isOn .emits = emits, ctx.isOn .useWithDefaults = defaults
      clear hctx hs
      revert pairs defines props emits defaults
      decide

/-- Without the types they become what they are where these are not written. -/
theorem erases_body {s : Section} (hs : s ∈ laterSections) (hslots : s ≠ .defineSlots)
    {ctx : Context} (hdefaults : (s == .props && ctx.isOn .useWithDefaults) = false)
    (policy : BindingPolicy) :
    Erases .setup
      ((s.body { ctx with typed := true } policy ++ [Line.blank]).map Line.spelled)
      ((s.body { ctx with typed := false } policy ++ [Line.blank]).map Line.spelled) := by
  -- Both are spelled out for any typing, before they are told apart.
  generalize ht : true = t, hu : false = u
  change (_ && Context.isOn { ctx with typed := t } .useWithDefaults) = false at hdefaults
  cases s with
  | imports => exact absurd hs (by decide)
  | defineSlots => exact absurd rfl hslots
  | hook h => exact (lacks_hook h _ policy).erases
  | _ =>
      simp only [Section.body, propsWithDefaults, plainProps, events, computedValue, watcher,
        watchSource, braced, block, linesIf, List.map_append, List.map_cons, List.map_nil,
        apply_ite (List.map Line.spelled), Line.spelled, Line.blank, toList_ite, toList_annotated,
        String.toList_append, Annotations.setup]
      simp -index only [String.toList_ofList]
      -- The switches are the same in both contexts.
      generalize hon : Context.isOn { ctx with typed := t } = on,
        hon' : Context.isOn { ctx with typed := u } = on' at hdefaults ⊢
      obtain rfl : on = on' := hon.symm.trans hon'
      generalize policy.pairsPropEmit = pairs, policy.definesModel = defines,
        on .props = props, on .emits = emits, on .useWithDefaults = defaults at hdefaults ⊢
      clear hs hslots hon hon'
      subst ht hu
      revert pairs defines props emits defaults
      decide

theorem lacks_lines {ctx : Context} (hctx : ctx.typed = false) :
    Lacks .setup ((lines ctx).map Line.spelled) := by
  -- A section that is off has no lines at all.
  refine lacks_flatMap fun s hs => ?_
  unfold Section.lines linesIf
  split
  · rw [sections_eq, List.mem_cons] at hs
    rcases hs with rfl | hlater
    · exact lacks_imports ctx
    · exact lacks_body hlater hctx _
  · exact fun _ hl => absurd hl List.not_mem_nil

theorem erases_lines {ctx : Context} (hslots : ctx.isOn .defineSlots = false)
    (hdefaults : (ctx.isOn .props && ctx.isOn .useWithDefaults) = false) :
    Erases .setup ((lines { ctx with typed := true }).map Line.spelled)
      ((lines { ctx with typed := false }).map Line.spelled) := by
  refine erases_flatMap fun s hs => ?_
  -- The types have no influence on which sections are on.
  have hsame : s.isOn { ctx with typed := true } (.setup { ctx with typed := true })
      = s.isOn ctx (.setup ctx) := rfl
  have hsame' : s.isOn { ctx with typed := false } (.setup { ctx with typed := false })
      = s.isOn ctx (.setup ctx) := rfl
  unfold Section.lines
  rw [hsame, hsame']
  cases hon : s.isOn ctx (.setup ctx) with
  | false => exact erases_nil
  | true =>
      rw [sections_eq, List.mem_cons] at hs
      rcases hs with rfl | hlater
      · exact (lacks_imports ctx).erases
      · refine erases_body hlater ?_ ?_ _
        · rintro rfl
          exact Bool.false_ne_true (hslots.symm.trans hon)
        · -- Defaults are only an obstacle for the section of the props.
          by_cases hprops : s = .props
          · rw [hprops] at hon
            replace hon : ctx.isOn .props = true := hon
            rw [hon, Bool.true_and] at hdefaults
            rw [hdefaults, Bool.and_false]
          · rw [beq_eq_false_iff_ne.mpr hprops, Bool.false_and]

end Setup

namespace Options

/-- What may not be found in the name of a component. -/
def IsUnannotated (name : String) : Prop :=
  '\n' ∉ name.toList ∧ ¬ ": any".toList <:+: name.toList

instance (name : String) : Decidable (IsUnannotated name) :=
  inferInstanceAs (Decidable (_ ∧ _))

/-- The quotes keep the name apart from what stands around it. -/
theorem lacks_nameLine (ctx : Context) (h : IsUnannotated ctx.name) (policy : BindingPolicy) :
    Lacks .options ((Field.name.body ctx policy).map Line.spelled) := by
  have hbody : (Field.name.body ctx policy).map Line.spelled
      = [(1, "name: ".toList ++ '\'' :: (ctx.name.toList ++ '\'' :: [',']))] := by
    have hopen : "name: '".toList = "name: ".toList ++ ['\''] := by decide
    simp only [Field.body, List.map_singleton, Line.spelled, String.toList_append, hopen,
      List.append_assoc]
    rfl
  have hquote : '\'' ∉ ": any".toList := by decide
  have hphrase : ": any".toList ≠ [] := by decide
  have hdelete : deleteAll ": any".toList
      ("name: ".toList ++ '\'' :: (ctx.name.toList ++ '\'' :: [',']))
        = "name: ".toList ++ '\'' :: (ctx.name.toList ++ '\'' :: [',']) := by
    have hbefore : deleteAll ": any".toList "name: ".toList = "name: ".toList := by decide
    have hafter : deleteAll ": any".toList [','] = [','] := by decide
    rw [deleteAll_append_cons hphrase hquote, deleteAll_append_cons hphrase hquote,
      deleteAll_of_not_infix h.2, hbefore, hafter]
  rw [hbody, Lacks, List.forall_mem_singleton]
  refine ⟨?_, ?_, ?_⟩
  · simp only [List.mem_append, List.mem_cons, not_or]
    exact ⟨by decide, by decide, h.1, by decide, by decide, List.not_mem_nil⟩
  · exact List.forall_mem_singleton.mpr hdelete
  · -- The line with the name ends with a quote and a comma, the deleted one with a
    -- letter and a comma. Read backwards, they differ at the second character.
    have hends : Annotations.options.line.text.toList.reverse
        = ',' :: 'g' :: "nirtS :epyt".toList := by decide
    rw [← List.reverse_prefix, hends]
    simp only [List.reverse_append, List.reverse_cons, List.append_assoc, List.reverse_nil,
      List.nil_append, List.cons_append, List.cons_prefix_cons]
    exact fun h => absurd h.2.1 (by decide)

theorem lacks_hook (h : Hook) (ctx : Context) (policy : BindingPolicy) :
    Lacks .options (((Field.hook h).body ctx policy).map Line.spelled) := by
  simp only [Field.body, braced, block, linesIf, List.map_append, List.map_cons,
    List.map_nil, apply_ite (List.map Line.spelled), Line.spelled, String.toList_append,
    Annotations.options]
  generalize policy.stopsWatcher = stops
  revert stops
  cases h <;> simp only [Hook.optionName] <;> simp -index only [String.toList_ofList] <;>
    decide

/-- The fields after the name lack the types where these are not written. -/
theorem lacks_body {f : Field} (hf : f ∈ laterFields) {ctx : Context} (hctx : ctx.typed = false)
    (policy : BindingPolicy) : Lacks .options ((f.body ctx policy).map Line.spelled) := by
  cases f with
  | name => exact absurd hf (by decide)
  | hook h => exact lacks_hook h ctx policy
  | _ =>
      simp only [Field.body, objectField, boundProp, boundEvent, boundValue, boundHandler,
        braced, block, linesIf, List.map_append, List.map_cons, List.map_nil,
        apply_ite (List.map Line.spelled), Line.spelled, toList_annotated, String.toList_append,
        hctx, Annotations.options]
      simp -index only [String.toList_ofList]
      generalize policy.pairsPropEmit = pairs, ctx.isOn .emits = emits
      clear hctx hf
      revert pairs emits
      decide

/-- Without the types they become what they are where these are not written. -/
theorem erases_body {f : Field} (hf : f ∈ laterFields) (ctx : Context) (policy : BindingPolicy) :
    Erases .options ((f.body { ctx with typed := true } policy).map Line.spelled)
      ((f.body { ctx with typed := false } policy).map Line.spelled) := by
  -- As for sections: the two typings are kept apart from the switches until all is
  -- spelled out.
  generalize ht : true = t, hu : false = u
  cases f with
  | name => exact absurd hf (by decide)
  | hook h => exact (lacks_hook h _ policy).erases
  | _ =>
      simp only [Field.body, objectField, boundProp, boundEvent, boundValue, boundHandler,
        braced, block, linesIf, List.map_append, List.map_cons, List.map_nil,
        apply_ite (List.map Line.spelled), Line.spelled, toList_annotated, String.toList_append,
        Annotations.options]
      simp -index only [String.toList_ofList]
      generalize hon : Context.isOn { ctx with typed := t } = on,
        hon' : Context.isOn { ctx with typed := u } = on'
      obtain rfl : on = on' := hon.symm.trans hon'
      generalize policy.pairsPropEmit = pairs, on .emits = emits
      clear hf hon hon'
      subst ht hu
      revert pairs emits
      decide

theorem lacks_headerLines : Lacks .options (headerLines.map Line.spelled) := by decide

theorem lacks_closing : Lacks .options (closing.map Line.spelled) := by decide

theorem lacks_lines (ctx : Context) (hctx : ctx.typed = false) (hname : IsUnannotated ctx.name) :
    Lacks .options ((lines ctx).map Line.spelled) := by
  rw [lines_eq, List.map_append, List.map_append]
  refine (lacks_headerLines.append (lacks_flatMap fun f hf => ?_)).append lacks_closing
  unfold Field.lines linesIf
  split
  · rw [fields_eq, List.mem_cons] at hf
    rcases hf with rfl | hlater
    · exact lacks_nameLine ctx hname _
    · exact lacks_body hlater hctx _
  · exact fun _ hl => absurd hl List.not_mem_nil

theorem erases_lines (ctx : Context) (hname : IsUnannotated ctx.name) :
    Erases .options ((lines { ctx with typed := true }).map Line.spelled)
      ((lines { ctx with typed := false }).map Line.spelled) := by
  have hfields : Erases .options
      ((fields.flatMap (Field.lines { ctx with typed := true } (.options ctx))).map Line.spelled)
      ((fields.flatMap (Field.lines { ctx with typed := false } (.options ctx))).map
        Line.spelled) := by
    refine erases_flatMap fun f hf => ?_
    -- The types have no influence on which fields are on.
    have hsame : f.isOn { ctx with typed := true } = f.isOn ctx := rfl
    have hsame' : f.isOn { ctx with typed := false } = f.isOn ctx := rfl
    unfold Field.lines
    rw [hsame, hsame']
    cases f.isOn ctx with
    | false => exact erases_nil
    | true =>
        rw [fields_eq, List.mem_cons] at hf
        rcases hf with rfl | hlater
        · exact (lacks_nameLine { ctx with typed := true } hname (.options ctx)).erases
        · exact erases_body hlater ctx _
  rw [lines_eq, lines_eq, List.map_append, List.map_append, List.map_append, List.map_append]
  exact (lacks_headerLines.erases.append hfields).append lacks_closing.erases

end Options

/-- An untyped script is the typed one, with its types deleted. Of a setup script this
    is said without slots and without defaults of props, and of an options script for
    names without what is deleted. Whatever is on, nothing that would be deleted is in
    an untyped script. -/
theorem untyped_eq_deleteEach_typed (ctx : Context) (name : String) :
    (ctx.isOn .defineSlots = false → (ctx.isOn .props && ctx.isOn .useWithDefaults) = false →
      (Setup.script { ctx with typed := false }).toList
        = deleteEach (Annotations.setup.pieces ctx.indentation)
          (Setup.script { ctx with typed := true }).toList)
    ∧ (Options.IsUnannotated name →
      (Options.script name { ctx with typed := false }).toList
        = deleteEach (Annotations.options.pieces ctx.indentation)
          (Options.script name { ctx with typed := true }).toList)
    ∧ (∀ p ∈ Annotations.setup.pieces ctx.indentation,
      ¬ p <:+: (Setup.script { ctx with typed := false }).toList)
    ∧ (Options.IsUnannotated name → ∀ p ∈ Annotations.options.pieces ctx.indentation,
      ¬ p <:+: (Options.script name { ctx with typed := false }).toList) := by
  refine ⟨fun hslots hdefaults => ?_, fun hname => ?_, ?_, fun hname => ?_⟩
  · exact (deleteEach_render Annotations.isInline_setup _
      (Setup.erases_lines hslots hdefaults)).symm
  · exact (deleteEach_render Annotations.isInline_options _
      (Options.erases_lines (ctx.named name) hname)).symm
  · exact not_infix_render Annotations.isInline_setup _ (Setup.lacks_lines rfl)
  · exact not_infix_render Annotations.isInline_options _
      (Options.lacks_lines (Context.named { ctx with typed := false } name) rfl hname)

/-- Without slots and defaults both kinds of scripts are erased to untyped ones. -/
theorem untyped_eq_deleteEach_typed_plain :
    let ctx := ({ typed := true } : Context).withFeatures [] [.defineSlots, .useWithDefaults]
    ctx.isOn .defineSlots = false ∧ (ctx.isOn .props && ctx.isOn .useWithDefaults) = false
      ∧ Options.IsUnannotated "my-card"
      ∧ (Setup.script { ctx with typed := false }).toList
        = deleteEach (Annotations.setup.pieces ctx.indentation)
          (Setup.script { ctx with typed := true }).toList
      ∧ (Options.script "my-card" { ctx with typed := false }).toList
        = deleteEach (Annotations.options.pieces ctx.indentation)
          (Options.script "my-card" { ctx with typed := true }).toList := by
  intro ctx
  have hslots : ctx.isOn .defineSlots = false := by decide
  have hdefaults : (ctx.isOn .props && ctx.isOn .useWithDefaults) = false := by decide
  have hname : Options.IsUnannotated "my-card" := by decide
  have herased := untyped_eq_deleteEach_typed ctx "my-card"
  exact ⟨hslots, hdefaults, hname, herased.1 hslots hdefaults, herased.2.1 hname⟩

end Scaffold.Script
