import Scaffold.Proofs.Script.Landmarks
import Scaffold.Proofs.Script.Reindentation

/-!
# Tags Around Scripts

The script of a component file can be read back from the file: it is what stands
between the line of the first opening tag and the first closing tag. Reading it
this way is right only because no section or field has a closing tag in its text,
whatever is switched on; the name of the component is the one part that could
bring a tag in from outside.

A closing tag is the last line but one of its block, so what stands before it ends
with a line feed, and a tag that begins in there cannot leave it.

## Main definitions

* `upTo`: A text up to the first place at which a phrase begins.
* `enclosed`: What a text has between its first line and the first closing tag.
* `Component.IsBlocked`: How the blocks of a file are tagged, and what is in them.

## Theorems

* `upTo_append_of_lines`: A phrase that is not in the first lines ends them.
* `Component.enclosed_render`: The script is read back.
* `Component.render_blocked`: The blocks of every file.
-/

namespace Scaffold.Text

/-- A text up to the first place at which a phrase begins. -/
def upTo (p : List Char) : List Char → List Char
  | [] => []
  | c :: cs => if p.isPrefixOf (c :: cs) then [] else c :: upTo p cs

/-- Nothing comes before a phrase that stands at the beginning. -/
theorem upTo_of_prefix {p s : List Char} (h : p <+: s) : upTo p s = [] := by
  cases s with
  | nil => rfl
  | cons c cs => rw [upTo, if_pos (List.isPrefixOf_iff_prefix.mpr h)]

/-- What is read up to a phrase is everything before it, if no occurrence of the phrase
    begins earlier. The induction takes one character away, and with it the occurrences
    that begin there. -/
theorem upTo_append {p xs ys : List Char}
    (hfirst : ∀ before after, xs ++ (p ++ ys) = before ++ p ++ after → ∃ t, before = xs ++ t) :
    upTo p (xs ++ (p ++ ys)) = xs := by
  induction xs with
  | nil => exact upTo_of_prefix (List.prefix_append p ys)
  | cons c cs ih =>
      -- A phrase that began here would have nothing in front of it.
      have hnot : ¬ p <+: c :: (cs ++ (p ++ ys)) := by
        rintro ⟨after, hafter⟩
        rcases hfirst [] after hafter.symm with ⟨t, ht⟩
        cases ht
      rw [List.cons_append, upTo, if_neg (mt List.isPrefixOf_iff_prefix.mp hnot), ih]
      intro before after hsplit
      rcases hfirst (c :: before) after (congrArg (c :: ·) hsplit) with ⟨t, ht⟩
      exact ⟨t, List.cons_injective ht⟩

/-- The first lines of a text are what is read up to a phrase that they do not have
    and that comes right after them. -/
theorem upTo_append_of_lines {p xs : List Char} (hp : '\n' ∉ p)
    (hxs : xs = [] ∨ ∃ us, xs = us ++ ['\n']) (hnot : ¬ p <:+: xs) (ys : List Char) :
    upTo p (xs ++ (p ++ ys)) = xs :=
  upTo_append fun _ _ hsplit => exists_eq_append_of_absent hp hxs hnot hsplit

end Scaffold.Text

namespace Scaffold.Script

open Text

/-- What a text has between its first line and the first closing tag. -/
def enclosed (s : List Char) : List Char :=
  (Setup.belowFirstLine (upTo Landmark.closesScript.text.toList s)).tail

/-- A name without an angle bracket, and without the word for attributes, has no landmark
    in it. -/
theorem isUnmarked_of_absent {name : String} (hangle : '<' ∉ name.toList)
    (hattrs : ¬ "inheritAttrs".toList <:+: name.toList) : IsUnmarked name := by
  intro m hin
  cases m with
  | opensScript | closesScript => exact hangle (hin.subset (by decide))
  | stopsAttrs | passesAttrs => exact hattrs (.trans (by decide) hin)

end Scaffold.Script

namespace Scaffold.Component

open Script Text

variable {c : Component}

/-- How the blocks of a file are tagged, and what is in them. -/
structure IsBlocked (c : Component) (ctx : Context) : Prop where
  /-- Every block has a tag that opens it. There are two where a setup script
      switches the inheritance of attributes off. -/
  opened : frequency "<script".toList (c.render ctx).toList
    = if c.api = .setup ∧ ctx.isOn .inheritAttrs then 2 else 1
  /-- Every block has a tag that closes it. -/
  closed : frequency "</script>".toList (c.render ctx).toList
    = if c.api = .setup ∧ ctx.isOn .inheritAttrs then 2 else 1
  /-- The first line is the opening tag. -/
  tag : Setup.firstLine (c.render ctx).toList = c.openTag.toList
  /-- The script of the component, under its own name, stands between the tags. -/
  script : enclosed (c.render ctx).toList = (c.api.script (ctx.named c.name)).toList
  /-- The name that the context holds makes no difference. -/
  named : ∀ name, c.render (ctx.named name) = c.render ctx
  /-- The inheritance of attributes is switched off in one place, or in none. -/
  attrs : frequency "inheritAttrs: false".toList (c.render ctx).toList
    = if ctx.isOn .inheritAttrs then 1 else 0

/-- The lines down to the end of the script. -/
def beginning (c : Component) (ctx : Context) : List Line :=
  ⟨0, c.openTag⟩ :: c.api.bodyLines (ctx.named c.name)

theorem ne_newline_of_mem_openTag {c : Component} {ch : Char} (h : ch ∈ c.openTag.toList) :
    (ch != '\n') = true := by
  rw [bne_iff_ne]
  rintro rfl
  exact ((wellFormed_openTag c).1 _ List.mem_cons_self).1 h

theorem toList_render_beginning (c : Component) (ctx : Context) :
    (Script.render ctx.indentation (c.beginning ctx)).toList
      = c.openTag.toList ++ '\n' :: (c.api.script (ctx.named c.name)).toList := by
  -- Either dialect renders the lines of its body.
  have hscript : Script.render ctx.indentation (c.api.bodyLines (ctx.named c.name))
      = c.api.script (ctx.named c.name) := by
    cases c.api with
    | setup => rfl
    | options => rfl
  rw [beginning, toList_render_cons, hscript, Int.ofNat_zero, Indentation.text_zero]
  rfl

/-- A file is what comes down to the end of the script, and then a closing tag. -/
theorem toList_render_eq (c : Component) (ctx : Context) :
    ∃ ys, (c.render ctx).toList
      = (Script.render ctx.indentation (c.beginning ctx)).toList
        ++ (Landmark.closesScript.text.toList ++ ys) := by
  have hlines : c.lines ctx
      = c.beginning ctx ++ ⟨0, "</script>"⟩ :: Line.blank :: c.companion ctx := c.lines_eq ctx
  refine ⟨'\n' :: (Script.render ctx.indentation (Line.blank :: c.companion ctx)).toList, ?_⟩
  rw [render, hlines, render_append, String.toList_append, toList_render_cons, Int.ofNat_zero,
    Indentation.text_zero]
  rfl

theorem firstLine_render (c : Component) (ctx : Context) :
    Setup.firstLine (c.render ctx).toList = c.openTag.toList := by
  rcases toList_render_eq c ctx with ⟨ys, hrender⟩
  rw [hrender, toList_render_beginning, List.append_assoc, Setup.firstLine,
    List.takeWhile_append_of_pos fun ch hch => ne_newline_of_mem_openTag hch, List.cons_append,
    List.takeWhile_cons_of_neg (by decide), List.append_nil]

/-- Nothing closes the script before its end. -/
theorem closesScript_absent (hname : IsUnmarked c.name) (ctx : Context) :
    ¬ Landmark.closesScript.text.toList
      <:+: (Script.render ctx.indentation (c.beginning ctx)).toList := by
  have hinline := Landmark.closesScript.isInline_text
  -- The opening tag has an angle bracket of its own, but it does not close anything.
  have htag : total Landmark.closesScript.text.toList (spelled [⟨0, c.openTag⟩]) = 0 := by
    unfold openTag
    generalize c.api = api, c.lang = lang
    cases api <;> cases lang <;> decide
  have hbody : total Landmark.closesScript.text.toList
      (spelled (c.api.bodyLines (ctx.named c.name))) = 0 := by
    -- Neither the macro nor the field that says something about attributes has a tag.
    rw [total_body hname]
    cases c.api with
    | setup => exact Nat.mul_zero _
    | options => exact Nat.mul_zero _
  rw [← frequency_eq_zero_iff (ne_nil_of_isInline hinline), frequency_render _ hinline, beginning,
    ← List.singleton_append, spelled_append, total_append, htag, hbody]

/-- The script is read back from the file. -/
theorem enclosed_render (hname : IsUnmarked c.name) (ctx : Context) :
    enclosed (c.render ctx).toList = (c.api.script (ctx.named c.name)).toList := by
  rcases toList_render_eq c ctx with ⟨ys, hrender⟩
  -- Down to the end of the script there is no closing tag, so it is the first one that
  -- ends it.
  have hupTo : upTo Landmark.closesScript.text.toList (c.render ctx).toList
      = (Script.render ctx.indentation (c.beginning ctx)).toList := by
    rw [hrender]
    exact upTo_append_of_lines (newline_notMem_of_isInline Landmark.closesScript.isInline_text)
      (render_eq_lines ctx.indentation _) (closesScript_absent hname ctx) ys
  rw [enclosed, hupTo, toList_render_beginning, Setup.belowFirstLine,
    List.dropWhile_append_of_pos fun ch hch => ne_newline_of_mem_openTag hch,
    List.dropWhile_cons_of_neg (by decide), List.tail_cons]

/-- The name that the context holds makes no difference. -/
theorem render_named (c : Component) (ctx : Context) (name : String) :
    c.render (ctx.named name) = c.render ctx := by
  have hlines : c.lines (ctx.named name) = c.lines ctx :=
    (c.lines_indentation ctx.typed ctx.enabled ctx.indentation name).trans
      (c.lines_indentation ctx.typed ctx.enabled ctx.indentation ctx.name).symm
  rw [render, render, hlines]
  rfl

/-- The blocks of every file. -/
theorem render_blocked (hangle : '<' ∉ c.name.toList)
    (hattrs : ¬ "inheritAttrs".toList <:+: c.name.toList) (ctx : Context) : c.IsBlocked ctx := by
  have hname := isUnmarked_of_absent hangle hattrs
  have hcompanion : c.hasCompanion ctx ↔ c.api = .setup ∧ ctx.isOn .inheritAttrs := by
    rw [hasCompanion, Bool.and_eq_true, beq_iff_eq]
  exact {
    opened := by
      simp only [← hcompanion]
      exact frequency_landmark hname ctx .opensScript
    closed := by
      simp only [← hcompanion]
      exact frequency_landmark hname ctx .closesScript
    tag := firstLine_render c ctx
    script := enclosed_render hname ctx
    named := render_named c ctx
    attrs := by
      refine (frequency_landmark hname ctx .stopsAttrs).trans ?_
      rw [landmarks]
      cases ctx.isOn .inheritAttrs <;> rfl }

/-- A name may have quotes and line feeds in it. -/
theorem render_blocked_quoted :
    '<' ∉ "My'Card\n".toList ∧ ¬ "inheritAttrs".toList <:+: "My'Card\n".toList
      ∧ ({ name := "My'Card\n", api := .options } : Component).IsBlocked
          { typed := true, name := "Other" } :=
  ⟨by decide, by decide, render_blocked (by decide) (by decide) _⟩

end Scaffold.Component
