import Mathlib.Data.List.Infix

/-!
# Occurrences in a Text

Where phrases stand in a text. `occurrences` reads a text from its beginning
and lists every phrase at every place at which it begins, so one list tells at
once whether a phrase occurs, how often, and in which order the phrases
follow each other.

Generated text is read line by line. A phrase that is written on one line and
does not begin with indentation (`isInline`) cannot begin in the indentation
of a line, and cannot reach over its end. Line feeds therefore cut the list of
occurrences, and `occurrences_append_newline` is what makes a statement about a
whole text a statement about its lines.

## Main definitions

* `isIndent`: The characters that indent a line.
* `isInline`: The phrases that stand inside of one line.
* `occurrences`: Every occurrence of some phrases, in order.
* `occurrencesIn`: The same, for phrases that are spelled out.

## Theorems

* `mem_occurrences`: The phrases that are listed are those that occur.
* `occurrences_eq_nil`: A phrase needs all of its characters to occur.
* `occurrences_filter`: Looking for fewer phrases lists those of them.
* `occurrences_sublist`: Looking for longer phrases lists some of the shorter.
* `occurrences_map`: Phrases may be named by something else.
* `line_eq_of_append_newline_eq`: A text determines its first line.
* `occurrences_append_before`, `occurrences_append_cons`: A character that
  phrases cannot reach over cuts the list.
* `occurrences_append_newline`: A line feed cuts the list.
* `occurrences_indent_append_of_not_prefix`: Indentation adds nothing to the
  list for phrases that the rest of the text does not begin with.
* `occurrences_indent_append`: Nor does it for phrases that are not indented.
* `eq_append_or_of_lines`: A phrase occurs within the first lines of a text or
  after them.
* `exists_eq_append_of_absent`, `exists_append_eq_of_absent`: It occurs in the
  one place if it does not occur in the other.
-/

namespace Scaffold.Text

/-- A character that indents a line. -/
def isIndent (c : Char) : Bool := c == ' ' || c == '\t'

/-- A phrase that stands inside of one line: there is something to it, it does
    not begin with indentation, and it holds no line feed. -/
def isInline : List Char → Bool
  | [] => false
  | c :: cs => !isIndent c && !(c :: cs).contains '\n'

/-- Every occurrence of the phrases in a text, in the order of their places. A
    phrase that occurs several times is listed as often. -/
def occurrences {α : Type} (spell : α → String) (phrases : List α) : List Char → List α
  | [] => []
  | c :: cs =>
    (phrases.filter fun a => (spell a).toList.isPrefixOf (c :: cs))
      ++ occurrences spell phrases cs

/-- Every occurrence of phrases that are given with their characters. -/
def occurrencesIn {α : Type} (table : List (α × List Char)) : List Char → List α
  | [] => []
  | c :: cs =>
    (table.filter fun e => e.2.isPrefixOf (c :: cs)).map Prod.fst ++ occurrencesIn table cs

theorem occurrencesIn_nil {α : Type} (s : List Char) :
    occurrencesIn ([] : List (α × List Char)) s = [] := by
  induction s with
  | nil => rfl
  | cons c cs ih => rw [occurrencesIn, ih]; rfl

theorem ne_nil_of_isInline {p : List Char} (h : isInline p) : p ≠ [] := by
  rintro rfl
  exact absurd h (by decide)

theorem newline_notMem_of_isInline {p : List Char} (h : isInline p) : '\n' ∉ p := by
  cases p with
  | nil => exact List.not_mem_nil
  | cons c cs =>
      simp only [isInline, Bool.and_eq_true, Bool.not_eq_true', List.contains_eq_mem,
        decide_eq_false_iff_not] at h
      exact h.2

theorem not_isIndent_of_isInline {c : Char} {cs : List Char} (h : isInline (c :: cs)) :
    isIndent c = false := by
  simp only [isInline, Bool.and_eq_true, Bool.not_eq_true'] at h
  exact h.1

theorem dropWhile_of_isInline {p : List Char} (h : isInline p) : p.dropWhile isIndent = p := by
  cases p with
  | nil => rfl
  | cons c cs => rw [List.dropWhile_cons_of_neg (by rw [not_isIndent_of_isInline h]; decide)]

section Occurrences

variable {α β : Type} {spell : α → String} {phrases : List α}

/-- It makes no difference whether phrases are spelled out. -/
theorem occurrences_eq_occurrencesIn (s : List Char) :
    occurrences spell phrases s
      = occurrencesIn (phrases.map fun a => (a, (spell a).toList)) s := by
  induction s with
  | nil => rfl
  | cons c cs ih =>
      rw [occurrences, occurrencesIn, ih, List.filter_map, List.map_map]
      congr 1
      exact (List.map_id _).symm

/-- The phrases that are listed are those that occur. -/
theorem mem_occurrences {a : α} (ha : (spell a).toList ≠ []) (s : List Char) :
    a ∈ occurrences spell phrases s ↔ a ∈ phrases ∧ (spell a).toList <:+: s := by
  induction s with
  | nil => simp only [occurrences, List.not_mem_nil, List.infix_nil, ha, and_false]
  | cons c cs ih =>
      simp only [occurrences, List.mem_append, List.mem_filter, List.isPrefixOf_iff_prefix, ih,
        List.infix_cons_iff]
      rw [← and_or_left]

theorem mem_of_mem_occurrences {a : α} {s : List Char} (h : a ∈ occurrences spell phrases s) :
    a ∈ phrases := by
  induction s with
  | nil => exact absurd h List.not_mem_nil
  | cons c cs ih =>
      rw [occurrences, List.mem_append, List.mem_filter] at h
      rcases h with hhere | hlater
      · exact hhere.1
      · exact ih hlater

/-- A phrase with a character that the text lacks is not listed. -/
theorem occurrences_eq_nil {s : List Char}
    (h : ∀ a ∈ phrases, ∃ c ∈ (spell a).toList, c ∉ s) :
    occurrences spell phrases s = [] := by
  induction s with
  | nil => rfl
  | cons d cs ih =>
      rw [occurrences, List.append_eq_nil_iff, List.filter_eq_nil_iff]
      constructor
      · -- A phrase that begins here has all its characters in the text.
        intro a ha hpre
        rcases h a ha with ⟨c, hc, hnot⟩
        exact hnot ((List.isPrefixOf_iff_prefix.mp hpre).subset hc)
      · refine ih fun a ha => ?_
        rcases h a ha with ⟨c, hc, hnot⟩
        exact ⟨c, hc, fun hcs => hnot (List.mem_cons_of_mem d hcs)⟩

/-- A phrase can be looked for alone if the others do not occur. -/
theorem occurrences_cons_of_eq_nil {a : α} {s : List Char}
    (h : occurrences spell phrases s = []) :
    occurrences spell (a :: phrases) s = occurrences spell [a] s := by
  induction s with
  | nil => rfl
  | cons c cs ih =>
      rw [occurrences, List.append_eq_nil_iff] at h
      rw [occurrences, occurrences, ih h.2, List.filter_cons, List.filter_cons, h.1]
      rfl

/-- Looking for fewer phrases lists those of them. -/
theorem occurrences_filter (keep : α → Bool) (s : List Char) :
    occurrences spell (phrases.filter keep) s
      = (occurrences spell phrases s).filter keep := by
  induction s with
  | nil => rfl
  | cons c cs ih =>
      rw [occurrences, occurrences, ih, List.filter_append, List.filter_comm]

theorem occurrences_congr {spell' : α → String} (h : ∀ a ∈ phrases, spell a = spell' a)
    (s : List Char) : occurrences spell phrases s = occurrences spell' phrases s := by
  induction s with
  | nil => rfl
  | cons c cs ih =>
      rw [occurrences, occurrences, ih]
      congr 1
      exact List.filter_congr fun a ha => by rw [h a ha]

/-- Longer phrases are listed at some of the places of shorter ones. -/
theorem occurrences_sublist {spell' : α → String}
    (h : ∀ a ∈ phrases, (spell' a).toList <+: (spell a).toList) (s : List Char) :
    (occurrences spell phrases s).Sublist (occurrences spell' phrases s) := by
  induction s with
  | nil => exact List.nil_sublist []
  | cons c cs ih =>
      rw [occurrences, occurrences]
      refine List.Sublist.append ?_ ih
      -- Where the longer phrase begins, the shorter one does.
      have hboth : phrases.filter (fun a => (spell a).toList.isPrefixOf (c :: cs))
          = (phrases.filter fun a => (spell' a).toList.isPrefixOf (c :: cs)).filter
            fun a => (spell a).toList.isPrefixOf (c :: cs) := by
        rw [List.filter_filter]
        refine List.filter_congr fun a ha => ?_
        rw [Bool.eq_iff_iff, Bool.and_eq_true, List.isPrefixOf_iff_prefix,
          List.isPrefixOf_iff_prefix]
        exact ⟨fun hpre => ⟨hpre, (h a ha).trans hpre⟩, And.left⟩
      rw [hboth]
      exact List.filter_sublist

theorem occurrences_map (f : β → α) (labels : List β) (s : List Char) :
    occurrences spell (labels.map f) s
      = (occurrences (fun b => spell (f b)) labels s).map f := by
  induction s with
  | nil => rfl
  | cons c cs ih =>
      rw [occurrences, occurrences, ih, List.map_append, List.filter_map]
      rfl

end Occurrences

section Lines

variable {α : Type} {spell : α → String} {phrases : List α}

/-- A phrase that lacks a character begins a text before the first one. -/
theorem prefix_append_cons_iff {c : Char} {p : List Char} (hp : c ∉ p) (xs ys : List Char) :
    p <+: xs ++ c :: ys ↔ p <+: xs := by
  constructor
  · intro h
    rcases List.prefix_or_prefix_of_prefix h (List.prefix_append xs _) with hle | ⟨r, rfl⟩
    · exact hle
    · -- Whatever the phrase has beyond that begins with the character.
      rw [List.prefix_append_right_inj, List.prefix_cons_iff] at h
      rcases h with rfl | ⟨t, rfl, _⟩
      · rw [List.append_nil]
      · exact absurd (List.mem_append_right xs List.mem_cons_self) hp
  · exact List.prefix_append_of_prefix

/-- A text determines its first line. -/
theorem line_eq_of_append_newline_eq {xs ys zs ws : List Char} (hxs : '\n' ∉ xs)
    (hys : '\n' ∉ ys) (h : xs ++ '\n' :: zs = ys ++ '\n' :: ws) : xs = ys := by
  have hle : xs <+: ys := by
    rw [← prefix_append_cons_iff hxs ys ws, ← h]
    exact List.prefix_append xs _
  -- Each of the two is a beginning of the other.
  have hge : ys <+: xs := by
    rw [← prefix_append_cons_iff hys xs zs, h]
    exact List.prefix_append ys _
  exact hle.eq_of_length_le hge.length_le

/-- A text can be cut before a character that the phrases hold at most where
    they begin. -/
theorem occurrences_append_before {c : Char}
    (h : ∀ a ∈ phrases, (spell a).toList ≠ [] ∧ c ∉ (spell a).toList.tail)
    (xs ys : List Char) :
    occurrences spell phrases (xs ++ c :: ys)
      = occurrences spell phrases xs ++ occurrences spell phrases (c :: ys) := by
  induction xs with
  | nil => rfl
  | cons d ds ih =>
      rw [List.cons_append, occurrences, occurrences, ih, List.append_assoc]
      congr 1
      refine List.filter_congr fun a ha => ?_
      rcases h a ha with ⟨hne, htail⟩
      rcases List.exists_cons_of_ne_nil hne with ⟨e, es, he⟩
      -- What the phrase has after its first character stays in the text.
      rw [he, List.tail_cons] at htail
      rw [he, Bool.eq_iff_iff, List.isPrefixOf_iff_prefix, List.isPrefixOf_iff_prefix,
        List.cons_prefix_cons, List.cons_prefix_cons, prefix_append_cons_iff htail]

/-- A text can be cut at a character that the phrases do not hold. -/
theorem occurrences_append_cons {c : Char}
    (h : ∀ a ∈ phrases, (spell a).toList ≠ [] ∧ c ∉ (spell a).toList) (xs ys : List Char) :
    occurrences spell phrases (xs ++ c :: ys)
      = occurrences spell phrases xs ++ occurrences spell phrases ys := by
  -- No phrase begins with the character itself.
  have hnone : phrases.filter (fun a => (spell a).toList.isPrefixOf (c :: ys)) = [] := by
    rw [List.filter_eq_nil_iff]
    intro a ha hpre
    rw [List.isPrefixOf_iff_prefix, List.prefix_cons_iff] at hpre
    rcases hpre with hnil | ⟨t, ht, _⟩
    · exact (h a ha).1 hnil
    · exact (h a ha).2 (ht ▸ List.mem_cons_self)
  rw [occurrences_append_before fun a ha =>
    ⟨(h a ha).1, fun hmem => (h a ha).2 (List.mem_of_mem_tail hmem)⟩]
  congr 1
  rw [occurrences, hnone, List.nil_append]

/-- A line feed cuts the list of occurrences. -/
theorem occurrences_append_newline (h : ∀ a ∈ phrases, isInline (spell a).toList)
    (xs ys : List Char) :
    occurrences spell phrases (xs ++ '\n' :: ys)
      = occurrences spell phrases xs ++ occurrences spell phrases ys :=
  occurrences_append_cons
    (fun a ha => ⟨ne_nil_of_isInline (h a ha), newline_notMem_of_isInline (h a ha)⟩) xs ys

theorem dropWhile_prefix_dropWhile {α : Type} (p : α → Bool) {xs ys : List α}
    (h : xs <+: ys) : xs.dropWhile p <+: ys.dropWhile p := by
  rcases h with ⟨zs, rfl⟩
  rw [List.dropWhile_append]
  split
  · rename_i hempty
    rw [List.isEmpty_iff.mp hempty]
    exact List.nil_prefix
  · exact List.prefix_append _ zs

/-- Indentation adds nothing to the list for phrases that are indented
    themselves, if none of them goes on as the rest of the text begins. -/
theorem occurrences_indent_append_of_not_prefix
    {xs ys : List Char} (hne : ∀ a ∈ phrases, (spell a).toList ≠ [])
    (h : ∀ a ∈ phrases, (spell a).toList.dropWhile isIndent ≠ (spell a).toList →
      ¬ (spell a).toList.dropWhile isIndent <+: ys.dropWhile isIndent)
    (hxs : ∀ c ∈ xs, isIndent c) :
    occurrences spell phrases (xs ++ ys) = occurrences spell phrases ys := by
  induction xs with
  | nil => rfl
  | cons c cs ih =>
      have hnone : phrases.filter
          (fun a => (spell a).toList.isPrefixOf (c :: (cs ++ ys))) = [] := by
        rw [List.filter_eq_nil_iff]
        intro a ha hpre
        rw [List.isPrefixOf_iff_prefix] at hpre
        rcases List.exists_cons_of_ne_nil (hne a ha) with ⟨d, ds, hd⟩
        have hindent : isIndent d := by
          rw [hd, List.cons_prefix_cons] at hpre
          rw [hpre.1]
          exact hxs c List.mem_cons_self
        -- Without the indentation on both sides, the phrase still begins the text.
        have hdrop := dropWhile_prefix_dropWhile isIndent hpre
        rw [← List.cons_append, List.dropWhile_append_of_pos hxs] at hdrop
        refine h a ha (fun heq => ?_) hdrop
        -- A phrase that begins with indentation gets shorter without it.
        rw [hd, List.dropWhile_cons_of_pos hindent] at heq
        have hlen := congrArg List.length heq
        have hle := (List.dropWhile_sublist isIndent (l := ds)).length_le
        rw [List.length_cons] at hlen
        omega
      rw [List.cons_append, occurrences, hnone, List.nil_append]
      exact ih fun d hd => hxs d (List.mem_cons_of_mem c hd)

/-- Indentation adds nothing to the list for phrases that are not indented. -/
theorem occurrences_indent_append (h : ∀ a ∈ phrases, isInline (spell a).toList)
    {xs : List Char} (hxs : ∀ c ∈ xs, isIndent c) (ys : List Char) :
    occurrences spell phrases (xs ++ ys) = occurrences spell phrases ys := by
  refine occurrences_indent_append_of_not_prefix (fun a ha => ne_nil_of_isInline (h a ha)) ?_ hxs
  exact fun a ha hne => absurd (dropWhile_of_isInline (h a ha)) hne

/-- A phrase occurs within the first lines of a text or after them. -/
theorem eq_append_or_of_lines {q xs ys before after : List Char} (hq : '\n' ∉ q)
    (hxs : xs = [] ∨ ∃ us, xs = us ++ ['\n']) (h : xs ++ ys = before ++ q ++ after) :
    (∃ t, xs = before ++ q ++ t) ∨ ∃ t, before = xs ++ t := by
  rw [List.append_assoc, List.append_eq_append_iff] at h
  rcases h with ⟨t, ht, _⟩ | ⟨t, rfl, ht⟩
  · exact Or.inr ⟨t, ht⟩
  · -- A phrase that begins within the first lines cannot leave them.
    rcases t.eq_nil_or_concat' with rfl | ⟨u, d, rfl⟩
    · exact Or.inr ⟨[], by rw [List.append_nil, List.append_nil]⟩
    · have hd : d = '\n' := by
        rcases hxs with hnil | ⟨us, hus⟩
        · simp only [List.append_eq_nil_iff, reduceCtorEq, and_false] at hnil
        · rw [← List.append_assoc] at hus
          exact List.singleton_inj.mp (List.append_inj_right' hus rfl)
      rw [hd, List.append_assoc, List.singleton_append] at ht
      -- The line feed that ends the lines is not in the phrase, so it comes after it.
      have hpre : q <+: u := by
        rw [← prefix_append_cons_iff hq u ys, ← ht]
        exact List.prefix_append q after
      rcases hpre with ⟨w, rfl⟩
      exact Or.inl ⟨w ++ [d], by simp only [List.append_assoc]⟩

/-- A phrase that does not occur in the first lines of a text comes after
    them. -/
theorem exists_eq_append_of_absent {q xs ys before after : List Char} (hq : '\n' ∉ q)
    (hxs : xs = [] ∨ ∃ us, xs = us ++ ['\n']) (hnot : ¬ q <:+: xs)
    (h : xs ++ ys = before ++ q ++ after) : ∃ t, before = xs ++ t := by
  rcases eq_append_or_of_lines hq hxs h with ⟨t, rfl⟩ | hafter
  · exact absurd ⟨before, t, rfl⟩ hnot
  · exact hafter

/-- A phrase that does not occur after the first lines of a text stands within
    them. -/
theorem exists_append_eq_of_absent {q xs ys before after : List Char} (hq : '\n' ∉ q)
    (hxs : xs = [] ∨ ∃ us, xs = us ++ ['\n']) (hnot : ¬ q <:+: ys)
    (h : xs ++ ys = before ++ q ++ after) : ∃ t, xs = before ++ q ++ t := by
  rcases eq_append_or_of_lines hq hxs h with hwithin | ⟨t, rfl⟩
  · exact hwithin
  · rw [List.append_assoc, List.append_assoc, List.append_cancel_left_eq] at h
    refine absurd ⟨t, after, ?_⟩ hnot
    rw [List.append_assoc]
    exact h.symm

end Lines

end Scaffold.Text
