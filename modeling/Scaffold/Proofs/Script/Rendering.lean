import Mathlib.Data.List.Basic
import Scaffold.Proofs.Text.Occurrence
import Scaffold.Script.Line

/-!
# Renderings of Lines

What the text of generated code tells about its lines, whatever they are
indented by.

Phrases that stand inside of one line occur in a rendering where they occur in
the texts of its lines (`occurrences_render`): indentation neither hides nor
makes any. In the other direction a rendering has its lines' texts as its only
reading, as long as these are plain, that is, hold no line feed and do not
begin with indentation (`map_text_eq_of_render_eq`). The levels of the lines
are not determined, since a unit of indentation may be empty.

`exists_line_of_lineFeed` cuts a rendering at a line feed. It is needed where a
text is not plain and the end of a line has to be looked for.

## Main definitions

* `Line.IsPlain`: A text without line feeds that does not begin with
  indentation.

## Theorems

* `toList_render`: The characters of a rendering.
* `render_infix_mono`: Some lines are rendered within all of them.
* `render_eq_lines`: A rendering consists of whole lines.
* `newline_render_infix`: Lines that follow others begin after a line feed.
* `occurrences_render`: Phrases occur in the lines of a rendering.
* `infix_render_iff`: The same, for one phrase.
* `splitOn_render`: A rendering is read back line by line.
* `map_text_eq_of_render_eq`: A rendering determines the texts of its lines.
* `exists_line_of_lineFeed`: A line feed of a rendering ends one of its lines.
* `dropWhile_render_cons`: What a rendering begins with, after indentation.
-/

namespace Scaffold.Script

open Text

/-- The text of a line is written as it is: it holds no line feed and does not
    begin with indentation. -/
def Line.IsPlain (l : Line) : Prop :=
  '\n' ∉ l.text.toList ∧ l.text.toList.dropWhile isIndent = l.text.toList

instance (l : Line) : Decidable l.IsPlain :=
  inferInstanceAs (Decidable (_ ∧ _))

variable (ind : Indentation)

theorem isIndent_of_mem_text {level : Int} {c : Char} (h : c ∈ (ind.text level).toList) :
    isIndent c := by
  unfold Indentation.text at h
  split at h <;> rw [String.toList_ofList] at h <;> rw [List.eq_of_mem_replicate h] <;> rfl

theorem newline_notMem_text (level : Int) : '\n' ∉ (ind.text level).toList :=
  fun h => absurd (isIndent_of_mem_text ind h) (by decide)

/-- Where indentation is dropped, it does not matter how a line is indented. -/
theorem dropWhile_text_append (level : Int) (xs : List Char) :
    ((ind.text level).toList ++ xs).dropWhile isIndent = xs.dropWhile isIndent :=
  List.dropWhile_append_of_pos fun _ hc => isIndent_of_mem_text ind hc

theorem toList_render (ls : List Line) :
    (render ind ls).toList
      = ls.flatMap fun l => (ind.text l.level).toList ++ l.text.toList ++ ['\n'] := by
  unfold render
  rw [String.toList_join, List.flatMap_map]
  refine List.flatMap_congr fun l _ => ?_
  rw [Line.render, String.toList_append, String.toList_append]
  rfl

/-- The first line of a rendering and the rest, cut at the line feed. Proofs about
    renderings by induction on the lines go through this form. -/
theorem toList_render_cons (l : Line) (ls : List Line) :
    (render ind (l :: ls)).toList
      = (ind.text l.level).toList ++ l.text.toList ++ '\n' :: (render ind ls).toList := by
  rw [toList_render, toList_render, List.flatMap_cons, List.append_assoc _ ['\n']]
  rfl

theorem render_infix_mono {xs ys : List Line} (h : xs <:+: ys) :
    (render ind xs).toList <:+: (render ind ys).toList := by
  rcases h with ⟨as, bs, rfl⟩
  rw [render_append, render_append, String.toList_append, String.toList_append]
  exact ⟨(render ind as).toList, (render ind bs).toList, rfl⟩

/-- A rendering consists of whole lines: if there is anything, it ends with a line
    feed. -/
theorem render_eq_lines (ls : List Line) :
    (render ind ls).toList = [] ∨ ∃ us, (render ind ls).toList = us ++ ['\n'] := by
  rcases ls.eq_nil_or_concat' with rfl | ⟨ls, l, rfl⟩
  · exact Or.inl rfl
  · rw [render_append, String.toList_append, toList_render_cons]
    refine Or.inr ⟨(render ind ls).toList ++ ((ind.text l.level).toList ++ l.text.toList), ?_⟩
    simp only [List.append_assoc]
    rfl

theorem newline_render_infix {xs : List Line} (hxs : xs ≠ []) (ys zs : List Line) :
    '\n' :: (render ind ys).toList <:+: (render ind (xs ++ ys ++ zs)).toList := by
  rcases xs.eq_nil_or_concat' with rfl | ⟨ls, l, rfl⟩
  · exact absurd rfl hxs
  · -- The line before ends with the line feed.
    refine ⟨(render ind ls).toList ++ ((ind.text l.level).toList ++ l.text.toList),
      (render ind zs).toList, ?_⟩
    have hlast : (render ind [l]).toList
        = (ind.text l.level).toList ++ l.text.toList ++ ['\n'] := toList_render_cons ind l []
    rw [render_append, render_append, render_append, String.toList_append, String.toList_append,
      String.toList_append, hlast]
    simp only [List.append_assoc, List.cons_append, List.nil_append]

/-- Phrases that stand inside of one line occur in a rendering where they occur
    in the texts of its lines. -/
theorem occurrences_render {α : Type} {spell : α → String} {phrases : List α}
    (h : ∀ a ∈ phrases, isInline (spell a).toList) (ls : List Line) :
    occurrences spell phrases (render ind ls).toList
      = ls.flatMap fun l => occurrences spell phrases l.text.toList := by
  induction ls with
  | nil => rfl
  | cons l ls ih =>
      -- The line feed cuts the line off, and its indentation adds nothing.
      rw [toList_render_cons, occurrences_append_newline h,
        occurrences_indent_append h fun _ hc => isIndent_of_mem_text ind hc, ih,
        List.flatMap_cons]

/-- The same for one phrase and whether it occurs. -/
theorem infix_render_iff {p : String} (hp : isInline p.toList) (ls : List Line) :
    p.toList <:+: (render ind ls).toList ↔ ∃ l ∈ ls, p.toList <:+: l.text.toList := by
  -- Whether one phrase occurs is a question about the list of that phrase alone.
  have hphrase (s : List Char) : p ∈ occurrences id [p] s ↔ p.toList <:+: s := by
    rw [mem_occurrences (ne_nil_of_isInline hp)]
    exact and_iff_right (List.mem_singleton_self p)
  rw [← hphrase, occurrences_render ind (fun q hq => List.mem_singleton.mp hq ▸ hp),
    List.mem_flatMap]
  simp only [hphrase]

/-- The lines of a rendering, with their indentation. -/
theorem splitOn_render {ls : List Line} (h : ∀ l ∈ ls, '\n' ∉ l.text.toList) :
    (render ind ls).toList.splitOn '\n'
      = ls.map (fun l => (ind.text l.level).toList ++ l.text.toList) ++ [[]] := by
  induction ls with
  | nil => rfl
  | cons l ls ih =>
      have hline : '\n' ∉ (ind.text l.level).toList ++ l.text.toList := by
        rw [List.mem_append, not_or]
        exact ⟨newline_notMem_text ind l.level, h l List.mem_cons_self⟩
      rw [toList_render_cons, List.splitOn_append_cons_self_of_not_mem hline,
        ih fun m hm => h m (List.mem_cons_of_mem l hm)]
      rfl

/-- The lines of a text, read without their indentation. -/
def readTexts (s : List Char) : List (List Char) :=
  (s.splitOn '\n').map (List.dropWhile isIndent)

/-- A rendering is read back as the texts of its lines, with an empty one after the last
    line feed. Neither side looks at the levels. -/
theorem readTexts_render {ls : List Line} (h : ∀ l ∈ ls, l.IsPlain) :
    readTexts (render ind ls).toList = ls.map (fun l => l.text.toList) ++ [[]] := by
  rw [readTexts, splitOn_render ind fun l hl => (h l hl).1, List.map_append, List.map_map]
  congr 1
  refine List.map_congr_left fun l hl => ?_
  rw [Function.comp_apply, dropWhile_text_append, (h l hl).2]

/-- A rendering determines the texts of its lines. -/
theorem map_text_eq_of_render_eq {xs ys : List Line} (hxs : ∀ l ∈ xs, l.IsPlain)
    (hys : ∀ l ∈ ys, l.IsPlain) (h : (render ind xs).toList = (render ind ys).toList) :
    xs.map (fun l => l.text.toList) = ys.map (fun l => l.text.toList) := by
  -- Both readings end with the empty text after the last line feed.
  have hread := congrArg readTexts h
  rw [readTexts_render ind hxs, readTexts_render ind hys] at hread
  exact List.append_cancel_right hread

/-- A line feed of a rendering ends one of its lines. -/
theorem exists_line_of_lineFeed {ls : List Line} (h : ∀ l ∈ ls, l.IsPlain) :
    ∀ {before after : List Char}, (render ind ls).toList = before ++ '\n' :: after →
      ∃ xs l ys, ls = xs ++ l :: ys ∧ after = (render ind ys).toList ∧
        before = (render ind xs).toList ++ (ind.text l.level).toList ++ l.text.toList := by
  -- The induction finds the line that the line feed belongs to. It is the first one, or
  -- else it belongs to the rest.
  induction ls with
  | nil =>
      intro before after heq
      exact absurd heq.symm (List.append_ne_nil_of_right_ne_nil before (List.cons_ne_nil _ _))
  | cons l ls ih =>
      intro before after heq
      have hline : '\n' ∉ (ind.text l.level).toList ++ l.text.toList := by
        rw [List.mem_append, not_or]
        exact ⟨newline_notMem_text ind l.level, (h l List.mem_cons_self).1⟩
      rw [toList_render_cons, List.append_eq_append_iff] at heq
      rcases heq with ⟨t, rfl, ht⟩ | ⟨t, ht, hafter⟩
      · -- The line feed comes at the end of the first line or after it.
        rw [List.cons_eq_append_iff] at ht
        rcases ht with ⟨rfl, hafter⟩ | ⟨u, rfl, hrest⟩
        · refine ⟨[], l, ls, rfl, ?_, ?_⟩
          · exact (List.cons.inj hafter).2
          · rw [List.append_nil]
            rfl
        · rcases ih (fun m hm => h m (List.mem_cons_of_mem l hm)) hrest with
            ⟨xs, m, ys, rfl, hafter, hu⟩
          refine ⟨l :: xs, m, ys, rfl, hafter, ?_⟩
          rw [hu, toList_render_cons]
          simp only [List.append_assoc, List.cons_append]
      · -- It cannot come before the end of the first line.
        cases t with
        | nil =>
            refine ⟨[], l, ls, rfl, ?_, ?_⟩
            · exact (List.cons.inj hafter).2
            · rw [List.append_nil] at ht
              exact ht.symm
        | cons d t =>
            have hd : '\n' = d := (List.cons.inj hafter).1
            rw [ht, ← hd] at hline
            exact absurd (List.mem_append_right before List.mem_cons_self) hline

/-- What a rendering begins with, after indentation, is the first character of its first
    text, if there is one. -/
theorem dropWhile_render_cons {l : Line} (h : l.IsPlain) (hne : l.text.toList ≠ [])
    (ls : List Line) :
    (render ind (l :: ls)).toList.dropWhile isIndent
      = l.text.toList ++ '\n' :: (render ind ls).toList := by
  rw [toList_render_cons, List.append_assoc, dropWhile_text_append]
  rcases List.exists_cons_of_ne_nil hne with ⟨c, cs, hc⟩
  -- Dropping anything would leave a shorter text than the plain one.
  have hfirst : isIndent c = false := by
    by_contra hcontra
    have hdrop := h.2
    rw [hc, List.dropWhile_cons_of_pos (by simpa only [Bool.not_eq_false] using hcontra)] at hdrop
    have hlen := congrArg List.length hdrop
    have hle := (List.dropWhile_sublist isIndent (l := cs)).length_le
    rw [List.length_cons] at hlen
    omega
  rw [hc, List.cons_append, List.dropWhile_cons_of_neg (by rw [hfirst]; decide)]

end Scaffold.Script
