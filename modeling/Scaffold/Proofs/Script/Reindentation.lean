import Scaffold.Proofs.Script.Form

/-!
# Changing the Indentation

What a component file says does not depend on how it is indented.

The sections and fields never see the unit of indentation. They give each line
a level, and the levels are made into blanks once for the whole file. So there
are lines, determined by the component, the typing and the toggles, of which
every rendering of the file consists. That alone would say little, since a
rendering could be taken as one line at the margin, or its blanks as a part of
the text. The lines are laid out, though: no text goes on after a line feed or
begins with a blank. Of such lines a rendering with tabs shows both the levels
and the texts, which leaves no second choice.

A unit may be empty, and then the levels do not show. The texts always do, so
two renderings of a file differ in the blanks that their lines begin with and
in nothing else.

## Main definitions

* `readLine`: The number of blanks that a line begins with, and what follows.

## Theorems

* `Component.isLaid_of_mem_lines`: Every line of a file is laid out.
* `Component.lines_indentation`: The lines do not depend on the indentation.
* `map_spelled_eq_of_render_tabs`: Tabs show the levels and the texts.
* `Component.existsUnique_lines`: The lines that every rendering consists of.
-/

namespace Scaffold.Script

open Text

/-- The number of blanks that a line begins with, and what follows them. -/
def readLine (cs : List Char) : Nat × List Char :=
  ((cs.takeWhile isIndent).length, cs.dropWhile isIndent)

/-- One tab for each level. -/
def tabs : Indentation := { useTabs := true }

theorem isIndent_eq_false_of_isBlank {c : Char} (h : isBlank c = false) : isIndent c = false := by
  rw [Bool.eq_false_iff] at h ⊢
  intro hindent
  rw [isIndent, Bool.or_eq_true, beq_iff_eq, beq_iff_eq] at hindent
  rcases hindent with rfl | rfl
  · exact h rfl
  · exact h rfl

theorem isPlain_of_isLaid {l : Line} (h : IsLaid l.spelled) : l.IsPlain := by
  refine ⟨h.1, ?_⟩
  rcases h.2 with hempty | ⟨c, hhead, hblank⟩
  · have htext : l.text.toList = [] := congrArg Prod.snd hempty
    rw [htext]
    rfl
  · rcases List.head?_eq_some_iff.mp hhead with ⟨cs, htext⟩
    replace htext : l.text.toList = c :: cs := htext
    have hindent := isIndent_eq_false_of_isBlank hblank
    rw [htext, List.dropWhile_cons_of_neg (by rw [hindent]; exact Bool.false_ne_true)]

/-- A line that is laid out and indented with tabs shows its level in the number of tabs,
    and its text behind them. -/
theorem readLine_tabs {l : Line} (h : IsLaid l.spelled) :
    readLine ((tabs.text l.level).toList ++ l.text.toList) = l.spelled := by
  have hdrop := (isPlain_of_isLaid h).2
  -- The text itself begins with no tab.
  have htake : l.text.toList.takeWhile isIndent = [] := by
    have hboth := List.takeWhile_append_dropWhile (p := isIndent) (l := l.text.toList)
    rwa [hdrop, List.append_left_eq_self] at hboth
  have htabs : (tabs.text l.level).toList = List.replicate l.level '\t' := String.toList_ofList
  rw [readLine, dropWhile_text_append, hdrop,
    List.takeWhile_append_of_pos fun _ hc => isIndent_of_mem_text tabs hc, htake, List.append_nil,
    htabs, List.length_replicate]
  rfl

/-- Rendered with tabs, lines show their levels and their texts. -/
theorem map_spelled_eq_of_render_tabs {xs ys : List Line} (hxs : ∀ l ∈ xs, IsLaid l.spelled)
    (hys : ∀ l ∈ ys, IsLaid l.spelled) (h : render tabs xs = render tabs ys) :
    xs.map Line.spelled = ys.map Line.spelled := by
  -- Behind the last line feed an empty line is read, on both sides.
  have hread (ls : List Line) (hls : ∀ l ∈ ls, IsLaid l.spelled) :
      ((render tabs ls).toList.splitOn '\n').map readLine
        = ls.map Line.spelled ++ [readLine []] := by
    rw [splitOn_render tabs fun l hl => (hls l hl).1, List.map_append, List.map_map]
    exact congrArg (· ++ _) (List.map_congr_left fun l hl => readLine_tabs (hls l hl))
  have hlines := hread xs hxs
  rw [h, hread ys hys] at hlines
  exact List.append_cancel_right hlines.symm

/-- A line is determined by its level and the characters of its text. -/
theorem spelled_injective : Function.Injective Line.spelled := by
  intro l m h
  rw [Line.spelled, Line.spelled, Prod.mk.injEq, String.toList_inj] at h
  rcases l with ⟨level, text⟩
  rcases m with ⟨level', text'⟩
  exact congrArg₂ Line.mk h.1 h.2

end Scaffold.Script

namespace Scaffold.Component

open Script Text

/-- Every line of a file is laid out, if the component's name is one line. -/
theorem isLaid_of_mem_lines {c : Component} (hname : '\n' ∉ c.name.toList) (ctx : Context) :
    ∀ l ∈ c.lines ctx, IsLaid l.spelled := by
  intro l hl
  rw [lines_eq, List.mem_append, List.mem_append] at hl
  -- A line of the file is the tag, in the script, or after the script.
  rcases hl with (htag | hbody) | hending
  · exact (wellFormed_openTag c).1 _ (List.mem_map_of_mem htag)
  · cases hapi : c.api with
    | setup =>
        rw [hapi] at hbody
        exact isLaid_of_mem_flatMap (fun s hs => (Setup.wellFormed_body hs _ _).1) hbody
    | options =>
        rw [hapi] at hbody
        replace hbody : l ∈ Options.lines (ctx.named c.name) := hbody
        rw [Options.lines_eq, List.mem_append, List.mem_append] at hbody
        rcases hbody with (hopening | hfield) | hclosing
        · exact Options.isLaid_headerLines _ (List.mem_map_of_mem hopening)
        · refine isLaid_of_mem_flatMap (fun f hf => ?_) hfield
          rw [Options.fields_eq, List.mem_cons] at hf
          rcases hf with rfl | hlater
          · exact Options.isLaid_nameLine hname _
          · exact (Options.wellFormed_body hlater _ _).1
        · exact Options.isLaid_closing _ (List.mem_map_of_mem hclosing)
  · exact (wellFormed_ending c ctx).1 _ (List.mem_map_of_mem hending)

/-- The lines depend neither on the indentation nor on the name that the context
    holds. -/
theorem lines_indentation (c : Component) (typed : Bool) (enabled : FeatureSet)
    (ind : Indentation) (name : String) :
    c.lines ⟨typed, enabled, ind, name⟩ = c.lines { typed := typed, enabled := enabled } := by
  have hending : c.ending ⟨typed, enabled, ind, name⟩
      = c.ending { typed := typed, enabled := enabled } := rfl
  have hbody : c.api.bodyLines (Context.named ⟨typed, enabled, ind, name⟩ c.name)
      = c.api.bodyLines (Context.named { typed := typed, enabled := enabled } c.name) := by
    cases c.api with
    | setup => rfl
    | options => rfl
  rw [lines_eq, lines_eq, hending, hbody]

/-- Every rendering of a file consists of the same lines, each with a level and a
    text that does not begin with a blank, and there are no other such lines. So
    the indentation decides over the blanks that lines begin with, and over
    nothing else. -/
theorem existsUnique_lines (c : Component) (hname : '\n' ∉ c.name.toList) (typed : Bool)
    (enabled : FeatureSet) :
    (∃! ls : List Line, (∀ l ∈ ls, IsLaid l.spelled) ∧
      ∀ (ind : Indentation) (name : String),
        c.render ⟨typed, enabled, ind, name⟩ = Script.render ind ls)
    ∧ ∀ (ind ind' : Indentation) (name name' : String),
      readTexts (c.render ⟨typed, enabled, ind, name⟩).toList
        = readTexts (c.render ⟨typed, enabled, ind', name'⟩).toList := by
  have hlaid := isLaid_of_mem_lines hname { typed := typed, enabled := enabled }
  have hrender (ind : Indentation) (name : String) : c.render ⟨typed, enabled, ind, name⟩
      = Script.render ind (c.lines { typed := typed, enabled := enabled }) := by
    rw [render, lines_indentation]
  constructor
  · refine ⟨c.lines { typed := typed, enabled := enabled }, ⟨hlaid, hrender⟩, ?_⟩
    rintro ls ⟨hls, hall⟩
    -- Both have to be what the rendering with tabs shows.
    have htabs := (hall tabs "").symm.trans (hrender tabs "")
    exact List.map_injective_iff.mpr spelled_injective
      (map_spelled_eq_of_render_tabs hls hlaid htabs)
  · intro ind ind' name name'
    have hplain := fun l hl => isPlain_of_isLaid (hlaid l hl)
    rw [hrender, hrender, readTexts_render ind hplain, readTexts_render ind' hplain]

/-- The name of an options object is written into its file, and it is one line. -/
theorem existsUnique_lines_options :
    '\n' ∉ "my-card".toList ∧
      ∃! ls : List Line, (∀ l ∈ ls, IsLaid l.spelled) ∧
        ∀ (ind : Indentation) (name : String),
          ({ name := "my-card", api := .options } : Component).render
              ⟨true, Feature.onByDefault, ind, name⟩
            = Script.render ind ls :=
  ⟨by decide, (existsUnique_lines { name := "my-card", api := .options } (by decide) true
    Feature.onByDefault).1⟩

end Scaffold.Component
