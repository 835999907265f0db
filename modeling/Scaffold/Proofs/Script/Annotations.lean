import Scaffold.Proofs.Script.Marker
import Scaffold.Proofs.Script.Rendering
import Scaffold.Proofs.Text.Deletion

/-!
# Deleting Annotations

What is left of generated code when some phrases and then a line are deleted.

The types in a script are such phrases and such a line (`Annotations`). They can
be taken out as in a text editor: each phrase everywhere, one after the other, and
then the line, as it is indented. For phrases that stand inside of a line this is
done line by line, whatever the indentation. The line is another matter. With its
indentation and its line feed it could be met at the end of a line that is indented
further, or, if levels are not indented at all, at the end of any line. So of every
line that ends with its text it has to be known that it is this very line.

## Main definitions

* `Annotations`: The phrases and the line that make a script typed.
* `Annotations.pieces`: What is deleted, with the line as it is indented.
* `Erases`: Deletion makes some lines into others.
* `Lacks`: Lines in which there is nothing to be deleted.

## Theorems

* `deleteAll_layOut`, `deleteAll_line_layOut`: What is done to the lines.
* `deleteEach_render`: Deletion in a rendering is deletion in its lines.
* `not_infix_render`: Nothing is met where every line lacks it.
* `erases_flatMap`, `Lacks.erases`: Lines that are put together, or left alone.
-/

namespace Scaffold.Script

open Text

/-- What makes a script typed: phrases, in the order in which they are deleted, and
    a line. -/
structure Annotations where
  phrases : List String
  line : Line

namespace Annotations

/-- What is deleted, one after the other. -/
def pieces (a : Annotations) (ind : Indentation) : List (List Char) :=
  a.phrases.map String.toList ++ [(a.line.render ind).toList]

/-- A line without the phrases. -/
def eraseIn (a : Annotations) (l : Nat × List Char) : Nat × List Char :=
  (l.1, deleteEach (a.phrases.map String.toList) l.2)

/-- The phrases, and the text of the line, stand inside of one line. -/
def IsInline (a : Annotations) : Prop :=
  (∀ p ∈ a.phrases, isInline p.toList) ∧ isInline a.line.text.toList

end Annotations

/-- A line ends with the text of the given one only if it is the same. -/
def IsApart (line l : Nat × List Char) : Prop :=
  '\n' ∉ l.2 ∧ (l = line ∨ ¬ line.2 <:+ l.2)

/-- Deletion makes some lines into others. -/
def Erases (a : Annotations) (typed untyped : List (Nat × List Char)) : Prop :=
  (∀ l ∈ typed.map a.eraseIn, IsApart a.line.spelled l)
    ∧ (typed.map a.eraseIn).filter (· != a.line.spelled) = untyped

/-- Lines in which there is nothing to be deleted. -/
def Lacks (a : Annotations) (lines : List (Nat × List Char)) : Prop :=
  ∀ l ∈ lines, '\n' ∉ l.2 ∧ (∀ p ∈ a.phrases, deleteAll p.toList l.2 = l.2)
    ∧ ¬ a.line.text.toList <:+ l.2

instance (a : Annotations) : Decidable a.IsInline :=
  inferInstanceAs (Decidable (_ ∧ _))

instance (line l : Nat × List Char) : Decidable (IsApart line l) :=
  inferInstanceAs (Decidable (_ ∧ _))

instance (a : Annotations) (typed untyped : List (Nat × List Char)) :
    Decidable (Erases a typed untyped) :=
  inferInstanceAs (Decidable (_ ∧ _))

instance (a : Annotations) (lines : List (Nat × List Char)) : Decidable (Lacks a lines) :=
  inferInstanceAs (Decidable (∀ l ∈ lines, _))

section Lacking

variable {a : Annotations} {lines : List (Nat × List Char)} (h : Lacks a lines)

include h

/-- A line in which there is nothing to be deleted does not end as the deleted line
    does. -/
theorem Lacks.isApart : ∀ l ∈ lines, IsApart a.line.spelled l :=
  fun l hl => ⟨(h l hl).1, .inr (h l hl).2.2⟩

/-- So none of these lines is that line. -/
theorem Lacks.filter_eq_self : lines.filter (· != a.line.spelled) = lines := by
  rw [List.filter_eq_self]
  intro l hl
  rw [bne_iff_ne]
  rintro rfl
  exact (h _ hl).2.2 (List.suffix_refl _)

end Lacking

/-- Lines as they are written. -/
def layOut (ind : Indentation) (lines : List (Nat × List Char)) : List Char :=
  lines.flatMap fun l => (ind.text l.1).toList ++ l.2 ++ ['\n']

section Lines

variable (ind : Indentation)

theorem toList_render_eq_layOut (ls : List Line) :
    (render ind ls).toList = layOut ind (ls.map Line.spelled) := by
  rw [toList_render, layOut, List.flatMap_map]
  rfl

theorem layOut_cons (l : Nat × List Char) (ls : List (Nat × List Char)) :
    layOut ind (l :: ls) = (ind.text l.1).toList ++ l.2 ++ '\n' :: layOut ind ls := by
  rw [layOut, List.flatMap_cons, List.append_assoc _ ['\n']]
  rfl

/-- A phrase is deleted line by line. -/
theorem deleteAll_layOut {p : List Char} (hp : isInline p) (ls : List (Nat × List Char)) :
    deleteAll p (layOut ind ls) = layOut ind (ls.map fun l => (l.1, deleteAll p l.2)) := by
  have hnewline := newline_notMem_of_isInline hp
  -- No phrase begins within the indentation, so line feeds are where the text is cut.
  have hindent (level : Nat) (ys : List Char) :
      deleteAll p ((ind.text level).toList ++ ys)
        = (ind.text level).toList ++ deleteAll p ys := by
    cases p with
    | nil => exact absurd hp Bool.false_ne_true
    | cons q qs =>
        have hq : q ∉ (ind.text level).toList := fun hmem =>
          absurd (isIndent_of_mem_text ind hmem) (by rw [not_isIndent_of_isInline hp]; decide)
        exact deleteAll_append_of_notMem hq ys
  induction ls with
  | nil => rfl
  | cons l ls ih =>
      rw [layOut_cons, List.append_assoc, hindent,
        deleteAll_append_cons (ne_nil_of_isInline hp) hnewline, ih, List.map_cons, layOut_cons,
        List.append_assoc]

/-- Phrases are deleted one after the other, each of them line by line. -/
theorem deleteEach_layOut {ps : List (List Char)} (hps : ∀ p ∈ ps, isInline p)
    (ls : List (Nat × List Char)) :
    deleteEach ps (layOut ind ls) = layOut ind (ls.map fun l => (l.1, deleteEach ps l.2)) := by
  -- The lines are generalized, since the next phrase meets what the last one has left.
  induction ps generalizing ls with
  | nil => exact congrArg (layOut ind) (List.map_id' ls).symm
  | cons p ps ih =>
      rw [List.forall_mem_cons] at hps
      rw [deleteEach, List.foldl_cons, deleteAll_layOut ind hps.1]
      exact (ih hps.2 _).trans (by rw [List.map_map]; rfl)

/-- Indentation does not make a text end with another. -/
theorem not_suffix_indented {t : List Char} (ht : isInline t) (level : Nat) {u : List Char}
    (h : ¬ t <:+ u) : ¬ t <:+ (ind.text level).toList ++ u := by
  rintro ⟨xs, hxs⟩
  -- The text begins either within the indentation or after it.
  rcases List.append_eq_append_iff.mp hxs with ⟨v, hindent, htext⟩ | ⟨v, _, hu⟩
  · cases v with
    | nil => exact h (by rw [htext]; exact List.suffix_refl u)
    | cons d ds =>
        -- The text would begin within the indentation.
        have hmem : d ∈ (ind.text level).toList := by
          rw [hindent]
          exact List.mem_append_right xs List.mem_cons_self
        have hd := isIndent_of_mem_text ind hmem
        rw [htext, List.cons_append] at ht
        rw [not_isIndent_of_isInline ht] at hd
        exact Bool.false_ne_true hd
  · exact h ⟨v, hu.symm⟩

/-- A line is deleted as a line. -/
theorem deleteAll_line_layOut (line : Nat × List Char) (hline : isInline line.2)
    {ls : List (Nat × List Char)} (h : ∀ l ∈ ls, IsApart line l) :
    deleteAll ((ind.text line.1).toList ++ line.2 ++ ['\n']) (layOut ind ls)
      = layOut ind (ls.filter (· != line)) := by
  have hnotMem {l : Nat × List Char} (hl : '\n' ∉ l.2) :
      '\n' ∉ (ind.text l.1).toList ++ l.2 := by
    rw [List.mem_append, not_or]
    exact ⟨newline_notMem_text ind l.1, hl⟩
  have hne : (ind.text line.1).toList ++ line.2 ++ ['\n'] ≠ [] :=
    List.append_ne_nil_of_right_ne_nil _ (List.cons_ne_nil _ _)
  induction ls with
  | nil => rfl
  | cons l ls ih =>
      rw [List.forall_mem_cons] at h
      rcases h with ⟨⟨hnewline, hsame | hother⟩, hls⟩
      · -- The line itself is at hand, with the indentation that is deleted.
        rw [hsame, List.filter_cons_of_neg (by rw [bne_self_eq_false]; exact Bool.false_ne_true),
          ← ih hls, layOut, List.flatMap_cons, deleteAll_append hne]
        rfl
      · have hdiffers : l ≠ line := by
          rintro rfl
          exact hother (List.suffix_refl _)
        -- With its indentation it cannot be the end of a line that is indented further,
        -- for then its text would be.
        have hsuffix : ¬ (ind.text line.1).toList ++ line.2 <:+ (ind.text l.1).toList ++ l.2 :=
          fun hends => not_suffix_indented ind hline l.1 hother
            ((List.suffix_append _ _).trans hends)
        have hkeep : (l != line) = true := bne_iff_ne.mpr hdiffers
        rw [List.filter_cons_of_pos (p := (· != line)) hkeep, layOut_cons, layOut_cons, ← ih hls]
        exact deleteAll_line_of_not_suffix (hnotMem (newline_notMem_of_isInline hline))
          (hnotMem hnewline) hsuffix _

end Lines

section Rendering

variable {a : Annotations} (ha : a.IsInline) (ind : Indentation)

theorem toList_render_line (l : Line) :
    (l.render ind).toList = (ind.text l.level).toList ++ l.text.toList ++ ['\n'] := by
  rw [Line.render, String.toList_append, String.toList_append]
  rfl

include ha

theorem isInline_of_mem_phrases : ∀ p ∈ a.phrases.map String.toList, isInline p := by
  intro p hp
  rcases List.mem_map.mp hp with ⟨q, hq, rfl⟩
  exact ha.1 q hq

/-- Deletion in a rendering is deletion in its lines. -/
theorem deleteEach_render {xs ys : List Line}
    (h : Erases a (xs.map Line.spelled) (ys.map Line.spelled)) :
    deleteEach (a.pieces ind) (render ind xs).toList = (render ind ys).toList := by
  rw [Annotations.pieces, deleteEach, List.foldl_append, List.foldl_cons, List.foldl_nil,
    toList_render_eq_layOut, toList_render_eq_layOut, toList_render_line, ← h.2]
  -- The phrases go first. What is left of the line is then deleted as a whole.
  have hphrases := deleteEach_layOut ind (isInline_of_mem_phrases ha) (xs.map Line.spelled)
  rw [deleteEach] at hphrases
  rw [hphrases]
  exact deleteAll_line_layOut ind a.line.spelled ha.2 h.1

/-- Nothing is met where every line lacks it. -/
theorem not_infix_render {ls : List Line} (h : Lacks a (ls.map Line.spelled)) :
    ∀ p ∈ a.pieces ind, ¬ p <:+: (render ind ls).toList := by
  rw [Annotations.pieces, List.forall_mem_append, List.forall_mem_singleton,
    toList_render_eq_layOut, toList_render_line]
  refine ⟨fun p hp => ?_, ?_⟩
  · -- A phrase that occurred would be deleted, and deleting it changes nothing.
    have hinline := isInline_of_mem_phrases ha p hp
    rcases List.mem_map.mp hp with ⟨q, hq, rfl⟩
    refine not_infix_of_deleteAll_eq (ne_nil_of_isInline hinline) ?_
    rw [deleteAll_layOut ind hinline]
    refine congrArg (layOut ind) ((List.map_congr_left fun l hl => ?_).trans (List.map_id _))
    rw [(h l hl).2.1 q hq]
    rfl
  · refine not_infix_of_deleteAll_eq
      (List.append_ne_nil_of_right_ne_nil _ (List.cons_ne_nil _ _)) ?_
    exact (deleteAll_line_layOut ind a.line.spelled ha.2 h.isApart).trans
      (congrArg (layOut ind) h.filter_eq_self)

end Rendering

section Parts

variable {a : Annotations}

theorem erases_nil : Erases a [] [] := ⟨fun _ h => absurd h List.not_mem_nil, rfl⟩

/-- What is deleted in two groups of lines is deleted in both together. -/
theorem Erases.append {xs xs' ys ys' : List (Nat × List Char)} (hxs : Erases a xs xs')
    (hys : Erases a ys ys') : Erases a (xs ++ ys) (xs' ++ ys') := by
  refine ⟨?_, ?_⟩
  · rw [List.map_append, List.forall_mem_append]
    exact ⟨hxs.1, hys.1⟩
  · rw [List.map_append, List.filter_append, hxs.2, hys.2]

/-- What is put together from parts is erased part by part. -/
theorem erases_flatMap {α : Type} {parts : List α} {typed untyped : α → List Line}
    (h : ∀ b ∈ parts, Erases a ((typed b).map Line.spelled) ((untyped b).map Line.spelled)) :
    Erases a ((parts.flatMap typed).map Line.spelled)
      ((parts.flatMap untyped).map Line.spelled) := by
  induction parts with
  | nil => exact erases_nil
  | cons b bs ih =>
      rw [List.forall_mem_cons] at h
      rw [List.flatMap_cons, List.flatMap_cons, List.map_append, List.map_append]
      exact h.1.append (ih h.2)

theorem Lacks.append {xs ys : List (Nat × List Char)} (hxs : Lacks a xs) (hys : Lacks a ys) :
    Lacks a (xs ++ ys) :=
  List.forall_mem_append.mpr ⟨hxs, hys⟩

theorem lacks_flatMap {α : Type} {parts : List α} {lines : α → List Line}
    (h : ∀ b ∈ parts, Lacks a ((lines b).map Line.spelled)) :
    Lacks a ((parts.flatMap lines).map Line.spelled) := by
  intro l hl
  rw [List.map_flatMap, List.mem_flatMap] at hl
  rcases hl with ⟨b, hb, hmem⟩
  exact h b hb l hmem

/-- Phrases that do not occur are deleted without a trace. -/
theorem deleteEach_eq_self {ps : List (List Char)} {s : List Char}
    (h : ∀ p ∈ ps, deleteAll p s = s) : deleteEach ps s = s := by
  induction ps with
  | nil => rfl
  | cons p ps ih =>
      rw [List.forall_mem_cons] at h
      rw [deleteEach, List.foldl_cons, h.1]
      exact ih h.2

/-- Lines in which there is nothing to be deleted are left alone. -/
theorem Lacks.erases {lines : List (Nat × List Char)} (h : Lacks a lines) :
    Erases a lines lines := by
  have hmap : lines.map a.eraseIn = lines := by
    refine (List.map_congr_left fun l hl => ?_).trans (List.map_id lines)
    have hsame : deleteEach (a.phrases.map String.toList) l.2 = l.2 :=
      deleteEach_eq_self fun p hp => by
        rcases List.mem_map.mp hp with ⟨q, hq, rfl⟩
        exact (h l hl).2.1 q hq
    rw [Annotations.eraseIn, hsame]
    rfl
  rw [Erases, hmap]
  exact ⟨h.isApart, h.filter_eq_self⟩

end Parts

end Scaffold.Script
