import Mathlib.Data.List.Basic
import Scaffold.Proofs.Script.Rendering
import Scaffold.Proofs.Text.Places

/-!
# Markers of Generated Code

What a reader looks for in order to find the parts of generated code: a phrase
that stands somewhere in a line, or a head at the beginning of the lines of one
level.

A head of the second kind is written with the line feed before it and with the
indentation of its level, so that a line further in is not taken for it. The
unit of indentation may be empty, and then all levels look alike. `Fits` is
what rules out confusion even so: a line that begins as a marker does stands at
the marker's level. With it the markers of a rendering can be told from the
levels and the texts of its lines (`occurrences_newline_render`).

## Main definitions

* `Marker`: A phrase, or a head of the lines of a level.
* `Marker.text`: How a marker is written.
* `markersIn`: The markers in a line.
* `Fits`: A line in which no indentation makes or hides a marker.
* `Marked`: Lines with given markers.

## Theorems

* `Marked.append`, `marked_flatMap`: Lines have their markers one after the
  other.
* `occurrences_newline_render`: The markers of a rendering are those of its
  lines.
* `inOrder_of_marked`: Markers are in order where the lines have them in it.
-/

namespace Scaffold.Script

open Text

/-- A marker: a head of the lines of some level or, without a level, a phrase
    that can stand anywhere in a line. -/
structure Marker where
  level? : Option Nat := none
  head : String
  deriving DecidableEq, Repr

/-- How a marker is written. -/
def Marker.text (ind : Indentation) (m : Marker) : String :=
  match m.level? with
  | none => m.head
  | some level => "\n" ++ ind.text level ++ m.head

/-- A marker with its head in characters. -/
def Marker.spelled (m : Marker) : Option Nat × List Char := (m.level?, m.head.toList)

/-- A head that can be found: it stays in its line, it has something else than
    indentation, and it begins with that where it begins a line. -/
def IsProper (m : Option Nat × List Char) : Prop :=
  '\n' ∉ m.2 ∧ m.2.dropWhile isIndent ≠ [] ∧ (m.1 ≠ none → m.2.dropWhile isIndent = m.2)

instance (m : Option Nat × List Char) : Decidable (IsProper m) :=
  inferInstanceAs (Decidable (_ ∧ _ ∧ _))

/-- A line with its text in characters. -/
def Line.spelled (l : Line) : Nat × List Char := (l.level, l.text.toList)

section Markers

variable {α : Type}

/-- The markers in a line, looked up in a table: those that begin it, and then
    those that stand in it. -/
def markersIn (table : List (α × Option Nat × List Char)) (l : Nat × List Char) : List α :=
  (table.filter fun e => e.2.1 == some l.1 && e.2.2.isPrefixOf l.2).map Prod.fst
    ++ occurrencesIn ((table.filter fun e => e.2.1 == none).map fun e => (e.1, e.2.2)) l.2

/-- A line in which no indentation makes or hides a marker: its text is plain,
    and what it begins with is a head of its own level or a phrase that is not
    indented itself. -/
def Fits (table : List (α × Option Nat × List Char)) (l : Nat × List Char) : Prop :=
  '\n' ∉ l.2 ∧ l.2.dropWhile isIndent = l.2
    ∧ ∀ e ∈ table, e.2.2.dropWhile isIndent <+: l.2 →
      e.2.1 = some l.1 ∨ e.2.1 = none ∧ e.2.2.dropWhile isIndent = e.2.2

instance (table : List (α × Option Nat × List Char)) (l : Nat × List Char) :
    Decidable (Fits table l) :=
  inferInstanceAs (Decidable (_ ∧ _ ∧ _))

/-- Markers that can be told apart: each is there once and can be found, and no
    head begins with another. -/
def IsCatalogue (table : List (α × Option Nat × List Char)) : Prop :=
  (table.map Prod.fst).Nodup ∧ (∀ e ∈ table, IsProper e.2)
    ∧ ∀ e ∈ table, ∀ f ∈ table, e.2.2 <+: f.2.2 → e.1 = f.1

instance [DecidableEq α] (table : List (α × Option Nat × List Char)) :
    Decidable (IsCatalogue table) :=
  inferInstanceAs (Decidable (_ ∧ _ ∧ _))

/-- Lines that fit and have the given markers. -/
def Marked (table : List (α × Option Nat × List Char)) (found : List α)
    (lines : List (Nat × List Char)) : Prop :=
  (∀ l ∈ lines, Fits table l) ∧ lines.flatMap (markersIn table) = found

instance [DecidableEq α] (table : List (α × Option Nat × List Char)) (found : List α)
    (lines : List (Nat × List Char)) : Decidable (Marked table found lines) :=
  inferInstanceAs (Decidable (_ ∧ _))

/-- Two groups of lines that fit have the markers of both, one after the other. -/
theorem Marked.append {table : List (α × Option Nat × List Char)} {found found' : List α}
    {xs ys : List (Nat × List Char)} (hxs : Marked table found xs)
    (hys : Marked table found' ys) : Marked table (found ++ found') (xs ++ ys) := by
  refine ⟨List.forall_mem_append.mpr ⟨hxs.1, hys.1⟩, ?_⟩
  rw [List.flatMap_append, hxs.2, hys.2]

/-- Parts of which some are there are marked as those are. -/
theorem marked_flatMap {β : Type} {table : List (α × Option Nat × List Char)} {parts : List β}
    {lines : β → List Line} (isThere : β → Bool) (found : β → List α)
    (h : ∀ p ∈ parts, isThere p → Marked table (found p) ((lines p).map Line.spelled)) :
    Marked table ((parts.filter isThere).flatMap found)
      ((parts.flatMap fun p => linesIf (isThere p) (lines p)).map Line.spelled) := by
  induction parts with
  | nil => exact ⟨fun _ hl => absurd hl List.not_mem_nil, rfl⟩
  | cons p ps ih =>
      have hps := ih fun q hq => h q (List.mem_cons_of_mem p hq)
      rw [List.flatMap_cons, List.map_append]
      -- A part that is not there has neither lines nor markers.
      by_cases hthere : isThere p = true
      · rw [List.filter_cons_of_pos hthere, List.flatMap_cons, hthere]
        exact (h p List.mem_cons_self hthere).append hps
      · rw [List.filter_cons_of_neg hthere, Bool.eq_false_iff.mpr hthere]
        exact hps

/-- Some of the markers are those of some of the parts. -/
theorem filter_flatMap_eq {β : Type} {parts : List β} {isThere : β → Bool}
    {found : β → List α} {keep : α → Bool}
    (h : ∀ p ∈ parts, ∀ a ∈ found p, keep a = isThere p) :
    (parts.flatMap found).filter keep = (parts.filter isThere).flatMap found := by
  induction parts with
  | nil => rfl
  | cons p ps ih =>
      have hp := h p List.mem_cons_self
      rw [List.flatMap_cons, List.filter_append, ih fun q hq => h q (List.mem_cons_of_mem p hq)]
      by_cases hthere : isThere p = true
      · rw [List.filter_cons_of_pos hthere, List.flatMap_cons,
          List.filter_eq_self.mpr fun a ha => (hp a ha).trans hthere]
      · rw [List.filter_cons_of_neg hthere,
          List.filter_eq_nil_iff.mpr fun a ha => (hp a ha).trans_ne hthere, List.nil_append]

end Markers

section Reading

variable {α : Type} (marker : α → Marker) (markers : List α)

/-- The table of some markers. -/
def tableOf : List (α × Option Nat × List Char) :=
  markers.map fun a => (a, (marker a).spelled)

variable {marker markers} (ind : Indentation)

theorem text_of_none {m : Marker} (h : m.level? = none) : m.text ind = m.head := by
  rw [Marker.text, h]

/-- How a head of a level is written: after a line feed and the indentation of its
    level. -/
theorem toList_text_of_some {m : Marker} {level : Nat} (h : m.level? = some level) :
    (m.text ind).toList = '\n' :: ((ind.text level).toList ++ m.head.toList) := by
  rw [Marker.text, h, String.toList_append, String.toList_append]
  rfl

theorem head_suffix_text (m : Marker) : m.head.toList <:+ (m.text ind).toList := by
  cases hlevel : m.level? with
  | none => rw [text_of_none ind hlevel]
  | some level =>
      rw [toList_text_of_some ind hlevel]
      exact (List.suffix_append _ _).trans (List.suffix_cons _ _)

theorem isProper_of_mem (h : IsCatalogue (tableOf marker markers)) {a : α} (ha : a ∈ markers) :
    IsProper (marker a).spelled :=
  h.2.1 _ (List.mem_map_of_mem ha)

theorem head_ne_nil {m : Marker} (h : IsProper m.spelled) : m.head.toList ≠ [] := by
  intro hnil
  refine h.2.1 ?_
  rw [Marker.spelled, hnil]
  rfl

/-- A head of a level does not begin with indentation. Otherwise it could be read at
    another level. -/
theorem dropWhile_head_of_some {m : Marker} (h : IsProper m.spelled) {level : Nat}
    (hlevel : m.level? = some level) : m.head.toList.dropWhile isIndent = m.head.toList :=
  h.2.2 (by rw [Marker.spelled, hlevel]; exact Option.some_ne_none level)

/-- A marker holds a line feed at most where it begins. -/
theorem newline_notMem_tail_text {m : Marker} (h : IsProper m.spelled) :
    (m.text ind).toList ≠ [] ∧ '\n' ∉ (m.text ind).toList.tail := by
  cases hlevel : m.level? with
  | none =>
      rw [text_of_none ind hlevel]
      exact ⟨head_ne_nil h, fun hmem => h.1 (List.mem_of_mem_tail hmem)⟩
  | some level =>
      rw [toList_text_of_some ind hlevel, List.tail_cons, List.mem_append, not_or]
      exact ⟨List.cons_ne_nil _ _, newline_notMem_text ind level, h.1⟩

/-- What a line begins with, the line feed before it and its indentation
    included. -/
theorem text_prefix_line_iff {m : Marker} (h : IsProper m.spelled) {l : Line}
    (hplain : l.text.toList.dropWhile isIndent = l.text.toList)
    (hfits : m.head.toList.dropWhile isIndent <+: l.text.toList →
      m.level? = some l.level ∨ m.level? = none) :
    (m.text ind).toList <+: '\n' :: ((ind.text l.level).toList ++ l.text.toList)
      ↔ m.level? = some l.level ∧ m.head.toList <+: l.text.toList := by
  cases hlevel : m.level? with
  | none =>
      -- A phrase begins with something else than a line feed.
      rcases List.exists_cons_of_ne_nil (head_ne_nil h) with ⟨c, cs, hc⟩
      rw [text_of_none ind hlevel, hc, List.cons_prefix_cons]
      constructor
      · rintro ⟨rfl, _⟩
        have hmem : '\n' ∈ m.head.toList := by
          rw [hc]
          exact List.mem_cons_self
        exact absurd hmem h.1
      · rintro ⟨hnone, _⟩
        exact absurd hnone.symm (Option.some_ne_none _)
  | some level =>
      have hhead := dropWhile_head_of_some h hlevel
      rw [hhead, hlevel] at hfits
      rw [toList_text_of_some ind hlevel, List.cons_prefix_cons]
      constructor
      · rintro ⟨_, hpre⟩
        -- Both sides go on alike after their indentation.
        have hdrop := dropWhile_prefix_dropWhile isIndent hpre
        rw [dropWhile_text_append, dropWhile_text_append, hhead, hplain] at hdrop
        rcases hfits hdrop with hsame | hnone
        · exact ⟨hsame, hdrop⟩
        · exact absurd hnone (Option.some_ne_none level)
      · rintro ⟨hsame, hpre⟩
        rw [Option.some.inj hsame]
        exact ⟨rfl, (List.prefix_append_right_inj _).mpr hpre⟩

theorem fits_of_mem {l : Line} (hfits : Fits (tableOf marker markers) l.spelled) {a : α}
    (ha : a ∈ markers) (hpre : (marker a).head.toList.dropWhile isIndent <+: l.text.toList) :
    (marker a).level? = some l.level
      ∨ (marker a).level? = none
        ∧ (marker a).head.toList.dropWhile isIndent = (marker a).head.toList :=
  hfits.2.2 _ (List.mem_map_of_mem ha) hpre

/-- The markers that begin a line. -/
theorem filter_text_prefix_line (h : IsCatalogue (tableOf marker markers)) {l : Line}
    (hfits : Fits (tableOf marker markers) l.spelled) :
    markers.filter (fun a => ((marker a).text ind).toList.isPrefixOf
        ('\n' :: ((ind.text l.level).toList ++ l.text.toList)))
      = ((tableOf marker markers).filter fun e =>
          e.2.1 == some l.level && e.2.2.isPrefixOf l.text.toList).map Prod.fst := by
  rw [tableOf, List.filter_map, List.map_map]
  refine Eq.trans ?_ (List.map_id _).symm
  refine List.filter_congr fun a ha => ?_
  rw [Bool.eq_iff_iff, List.isPrefixOf_iff_prefix,
    text_prefix_line_iff ind (isProper_of_mem h ha) hfits.2.1
      fun hpre => (fits_of_mem hfits ha hpre).imp_right And.left]
  simp only [Function.comp_apply, Marker.spelled, Bool.and_eq_true, beq_iff_eq,
    List.isPrefixOf_iff_prefix]

/-- No marker begins in the indentation of a line that fits. -/
theorem occurrences_indented_line (h : IsCatalogue (tableOf marker markers)) {l : Line}
    (hfits : Fits (tableOf marker markers) l.spelled) :
    occurrences (fun a => (marker a).text ind) markers
        ((ind.text l.level).toList ++ l.text.toList)
      = occurrences (fun a => (marker a).text ind) markers l.text.toList := by
  refine occurrences_indent_append_of_not_prefix
    (fun a ha => (newline_notMem_tail_text ind (isProper_of_mem h ha)).1) ?_
    (fun c hc => isIndent_of_mem_text ind hc)
  intro a ha hne hpre
  have hplain : l.text.toList.dropWhile isIndent = l.text.toList := hfits.2.1
  rw [hplain] at hpre
  -- A phrase is found behind the indentation, and a head is not found there at all, for
  -- it begins with a line feed.
  cases hlevel : (marker a).level? with
  | none =>
      rw [text_of_none ind hlevel] at hne hpre
      rcases fits_of_mem hfits ha hpre with hsome | ⟨_, heq⟩
      · rw [hlevel] at hsome
        exact absurd hsome.symm (Option.some_ne_none _)
      · exact hne heq
  | some level =>
      rw [toList_text_of_some ind hlevel] at hne
      exact hne (List.dropWhile_cons_of_neg (by decide))

/-- Within a line there are phrases only. -/
theorem occurrences_phrases {s : List Char} (hs : '\n' ∉ s) :
    occurrences (fun a => (marker a).text ind) markers s
      = occurrencesIn (((tableOf marker markers).filter fun e => e.2.1 == none).map
          fun e => (e.1, e.2.2)) s := by
  -- A head cannot occur, since its line feed does not.
  have hkeep : ∀ a ∈ occurrences (fun a => (marker a).text ind) markers s,
      ((marker a).level? == none) = true := by
    intro a hmem
    cases hlevel : (marker a).level? with
    | none => rfl
    | some level =>
        have hne : ((marker a).text ind).toList ≠ [] := by
          rw [toList_text_of_some ind hlevel]
          exact List.cons_ne_nil _ _
        have hiff : a ∈ occurrences (fun a => (marker a).text ind) markers s
            ↔ a ∈ markers ∧ ((marker a).text ind).toList <:+: s :=
          mem_occurrences (by exact hne) s
        have hoccurs := (hiff.mp hmem).2
        rw [toList_text_of_some ind hlevel] at hoccurs
        exact absurd (hoccurs.subset List.mem_cons_self) hs
  have htable : ((tableOf marker markers).filter fun e => e.2.1 == none).map
        (fun e => (e.1, e.2.2))
      = (markers.filter fun a => (marker a).level? == none).map
          fun a => (a, ((marker a).text ind).toList) := by
    rw [tableOf, List.filter_map, List.map_map]
    refine List.map_congr_left fun a ha => ?_
    have hnone := beq_iff_eq.mp (List.mem_filter.mp ha).2
    rw [text_of_none ind hnone]
    rfl
  rw [htable, ← occurrences_eq_occurrencesIn, occurrences_filter, List.filter_eq_self.mpr hkeep]

/-- The markers in one line. -/
theorem occurrences_line (h : IsCatalogue (tableOf marker markers)) {l : Line}
    (hfits : Fits (tableOf marker markers) l.spelled) :
    occurrences (fun a => (marker a).text ind) markers
        ('\n' :: ((ind.text l.level).toList ++ l.text.toList))
      = markersIn (tableOf marker markers) l.spelled := by
  rw [occurrences, filter_text_prefix_line ind h hfits,
    occurrences_indented_line ind h hfits, occurrences_phrases ind (s := l.text.toList) hfits.1]
  rfl

/-- The markers of a rendering are those of its lines. -/
theorem occurrences_newline_render (h : IsCatalogue (tableOf marker markers)) {found : List α}
    {ls : List Line} (hls : Marked (tableOf marker markers) found (ls.map Line.spelled)) :
    occurrences (fun a => (marker a).text ind) markers ('\n' :: (render ind ls).toList)
      = found := by
  rcases hls with ⟨hall, rfl⟩
  have hfits : ∀ l ∈ ls, Fits (tableOf marker markers) l.spelled := fun l hl =>
    hall _ (List.mem_map_of_mem hl)
  rw [List.flatMap_map]
  clear hall
  induction ls with
  | nil =>
      -- A marker is more than a line feed.
      refine occurrences_eq_nil fun a ha => ?_
      have hproper := isProper_of_mem h ha
      rcases List.exists_cons_of_ne_nil (head_ne_nil hproper) with ⟨c, cs, hc⟩
      have hmem : c ∈ (marker a).head.toList := by
        rw [hc]
        exact List.mem_cons_self
      refine ⟨c, (head_suffix_text ind (marker a)).subset hmem, fun hfeed => ?_⟩
      replace hfeed : c = '\n' := List.mem_singleton.mp hfeed
      exact hproper.1 (hfeed ▸ hmem)
  | cons l ls ih =>
      rw [toList_render_cons, ← List.cons_append,
        occurrences_append_before fun a ha =>
          newline_notMem_tail_text ind (isProper_of_mem h ha),
        occurrences_line ind h (hfits l List.mem_cons_self),
        ih fun m hm => hfits m (List.mem_cons_of_mem l hm), List.flatMap_cons]

/-- Where one marker begins with another, so do their heads. -/
theorem head_prefix_of_prefix_text {m n : Marker} (hm : IsProper m.spelled)
    (hn : IsProper n.spelled) (h : (m.text ind).toList <+: (n.text ind).toList) :
    m.head.toList <+: n.head.toList := by
  -- Four cases: a phrase or a head, each beginning with a phrase or a head. Only two of
  -- the same kind can.
  cases hlevel : m.level? with
  | none =>
      rw [text_of_none ind hlevel] at h
      cases hlevel' : n.level? with
      | none => rwa [text_of_none ind hlevel'] at h
      | some level =>
          rcases List.exists_cons_of_ne_nil (head_ne_nil hm) with ⟨c, cs, hc⟩
          rw [toList_text_of_some ind hlevel', hc, List.cons_prefix_cons] at h
          have hmem : '\n' ∈ m.head.toList := by
            rw [hc, h.1]
            exact List.mem_cons_self
          exact absurd hmem hm.1
  | some level =>
      rw [toList_text_of_some ind hlevel] at h
      cases hlevel' : n.level? with
      | none =>
          rw [text_of_none ind hlevel'] at h
          exact absurd (h.subset List.mem_cons_self) hn.1
      | some level' =>
          rw [toList_text_of_some ind hlevel', List.cons_prefix_cons] at h
          have hdrop := dropWhile_prefix_dropWhile isIndent h.2
          rwa [dropWhile_text_append, dropWhile_text_append, dropWhile_head_of_some hm hlevel,
            dropWhile_head_of_some hn hlevel'] at hdrop

/-- Markers are in order in a text where its first line and the lines after it
    have them in it. -/
theorem inOrder_of_marked [DecidableEq α] (h : IsCatalogue (tableOf marker markers))
    {isThere : α → Bool} {first : List Char} {found found' : List α} {ls : List Line}
    (hfirst : occurrences (fun a => (marker a).text ind) markers first = found)
    (hls : Marked (tableOf marker markers) found' (ls.map Line.spelled))
    (hall : found ++ found' = markers.filter isThere) :
    InOrder (fun a => (marker a).text ind) markers isThere
      (first ++ '\n' :: (render ind ls).toList) := by
  -- The catalogue has each marker once, and so do the markers themselves.
  have hnodup : markers.Nodup := by
    have hlabels := h.1
    rw [tableOf, List.map_map] at hlabels
    exact (List.map_id markers) ▸ hlabels
  refine inOrder_of_occurrences hnodup (fun a ha b hb hpre => ?_) ?_
  · exact h.2.2 _ (List.mem_map_of_mem ha) _ (List.mem_map_of_mem hb)
      (head_prefix_of_prefix_text ind (isProper_of_mem h ha) (isProper_of_mem h hb) hpre)
  · rw [occurrences_append_before fun a ha =>
      newline_notMem_tail_text ind (isProper_of_mem h ha), hfirst,
      occurrences_newline_render ind h hls, hall]

end Reading

end Scaffold.Script
