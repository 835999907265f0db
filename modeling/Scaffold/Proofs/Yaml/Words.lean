import Mathlib.Data.List.Basic
import Scaffold.Yaml.Token

/-!
# Words

The plain texts that are read back as they stand.

What a character means depends on what is around it. A hyphen can begin the item of
a list or a line of three, a hash begins a comment unless it stands inside of a
text, and a colon ends a key if a gap follows. A word begins with a character of
which none of this is true and has no colon, so it is read in full whatever
surrounds it (`plainText_word`). What remains to be shown is where the text
ends. At the end of a line it need not: the next line belongs to it too, if that
is indented far enough. So it takes something about the next line to know that a
value has ended, and by then its indentation has been passed over
(`plainText_before_line`).

## Main definitions

* `isOrdinary`: The characters that can stand anywhere in a text.
* `isLeading`: Those that only a text can begin with.
* `IsWord`: The texts of such characters.
* `BeginsWord`: The texts that go on with a word, or end.

## Theorems

* `Cursor.skip_append`: What is passed over, and the place after it.
* `plainText_word`: A word is read in full.
* `plainText_before_colon`: A word before a colon is all that is read.
* `plainText_before_line`: A word is all that is read of its line.
-/

namespace Scaffold.Yaml

/-- Whether a character belongs to a plain text wherever it stands in one. -/
def isOrdinary (c : Char) : Bool :=
  isDocumentChar c && !isGap c && !(['\r', ':', '\ufeff'].contains c)

/-- Whether such a character can only be the beginning of a plain text, and not of
    anything that is more than a text. -/
def isLeading (c : Char) : Bool :=
  isOrdinary c && !isFlowMark c && !Lexing.isIndicator c && !(['-', '?', '.', '<'].contains c)

/-- A text of such characters that is short enough to be a key. -/
structure IsWord (w : List Char) : Prop where
  nonempty : w ≠ []
  short : w.length ≤ keySpan
  ordinary : ∀ c ∈ w, isOrdinary c
  leading : ∀ c ∈ w.head?, isLeading c

instance (w : List Char) : Decidable (IsWord w) :=
  decidable_of_iff (w ≠ [] ∧ w.length ≤ keySpan ∧ w.all isOrdinary ∧ w.head?.all isLeading) <| by
    rw [List.all_eq_true, Option.all_eq_true]
    exact ⟨fun h => ⟨h.1, h.2.1, h.2.2.1, h.2.2.2⟩,
      fun h => ⟨h.nonempty, h.short, h.ordinary, h.leading⟩⟩

/-- A text that is at its end or goes on with a word. -/
def BeginsWord (cs : List Char) : Prop := ∀ c ∈ cs.head?, isLeading c

section Characters

variable {c d : Char}

theorem ne_of_isOrdinary (h : isOrdinary c) (hd : isOrdinary d = false) : c ≠ d := by
  rintro rfl
  rw [h] at hd
  exact absurd hd nofun

theorem isOrdinary_of_isLeading (h : isLeading c) : isOrdinary c := by
  simp only [isLeading, Bool.and_eq_true] at h
  exact h.1.1.1

theorem ne_of_isLeading (h : isLeading c) (hd : isLeading d = false) : c ≠ d := by
  rintro rfl
  rw [h] at hd
  exact absurd hd nofun

theorem beq_of_isLeading (h : isLeading c) (hd : isLeading d = false) : (c == d) = false :=
  beq_eq_false_iff_ne.mpr (ne_of_isLeading h hd)

theorem isGap_of_isOrdinary (h : isOrdinary c) : isGap c = false := by
  simp only [isOrdinary, Bool.and_eq_true, Bool.not_eq_true'] at h
  exact h.1.2

theorem isDocumentChar_of_isOrdinary (h : isOrdinary c) : isDocumentChar c := by
  simp only [isOrdinary, Bool.and_eq_true, Bool.not_eq_true'] at h
  exact h.1.1

theorem isGap_of_isLeading (h : isLeading c) : isGap c = false :=
  isGap_of_isOrdinary (isOrdinary_of_isLeading h)

theorem breakText?_of_isLeading (h : isLeading c) : breakText? c = none := by
  have hgap := isGap_of_isLeading h
  rw [isGap, Bool.or_eq_false_iff, isBreak, Option.isSome_eq_false_iff,
    Option.isNone_iff_eq_none] at hgap
  exact hgap.2

/-- A line that begins with a word does not begin or end a document. -/
theorem isMarker_of_isLeading (h : isLeading c) (cs : List Char) : isMarker (c :: cs) = false := by
  unfold isMarker
  split
  · next heq => exact absurd (List.cons.inj heq).1 (ne_of_isLeading h (by decide))
  · next heq => exact absurd (List.cons.inj heq).1 (ne_of_isLeading h (by decide))
  · rfl

end Characters

namespace BeginsWord

variable {cs : List Char} (h : BeginsWord cs)

include h

/-- A text that begins with a word begins with nothing that is not part of one. -/
theorem head?_beq {d : Char} (hd : isLeading d = false) : (cs.head? == some d) = false := by
  cases cs with
  | nil => rfl
  | cons c cs => exact beq_of_isLeading (h c rfl) hd

theorem bind_breakText? : cs.head?.bind breakText? = none :=
  Option.bind_eq_none_iff.mpr fun c hc => breakText?_of_isLeading (h c hc)

end BeginsWord

namespace Cursor

/-- Characters other than line breaks and marks move the place along the line. -/
theorem advance_append {xs : List Char} (h : ∀ c ∈ xs, c ≠ '\n' ∧ c ≠ '\ufeff') (ys : List Char)
    (i l k : Nat) :
    advance xs.length ⟨xs ++ ys, i, l, k⟩ = ⟨ys, i + xs.length, l, k + xs.length⟩ := by
  induction xs generalizing i k with
  | nil => rfl
  | cons c xs ih =>
      rw [List.forall_mem_cons] at h
      have hnext : next ⟨c :: (xs ++ ys), i, l, k⟩ = ⟨xs ++ ys, i + 1, l, k + 1⟩ := by
        simp only [next, beq_eq_false_iff_ne.mpr h.1.1, beq_eq_false_iff_ne.mpr h.1.2,
          Bool.false_eq_true, if_false]
      rw [List.cons_append, List.length_cons, advance, hnext, ih h.2, Nat.add_right_comm,
        Nat.add_assoc i, Nat.add_right_comm k, Nat.add_assoc k]

/-- The characters for which a condition holds are passed over. -/
theorem skip_append {xs ys : List Char} {cond : Char → Bool}
    (hxs : ∀ c ∈ xs, cond c ∧ c ≠ '\n' ∧ c ≠ '\ufeff') (hys : ∀ c ∈ ys.head?, cond c = false)
    (i l k : Nat) :
    skip ⟨xs ++ ys, i, l, k⟩ cond = ⟨ys, i + xs.length, l, k + xs.length⟩ := by
  have hrest : ys.takeWhile cond = [] := by
    cases ys with
    | nil => rfl
    | cons c cs => rw [List.takeWhile_cons_of_neg (by rw [hys c rfl]; exact Bool.false_ne_true)]
  -- What is passed over is exactly what comes before the first other character.
  have hrun : run ⟨xs ++ ys, i, l, k⟩ cond = xs := by
    rw [run, List.takeWhile_append_of_pos fun c hc => (hxs c hc).1, hrest, List.append_nil]
  rw [skip, hrun, advance_append fun c hc => (hxs c hc).2]

end Cursor

/-- A line break and the indentation after it count as one blank. -/
theorem plainGap_line {n : Nat} {after : List Char} (hafter : BeginsWord after)
    (fuel i l k : Nat) :
    plainGap (fuel + 1) ⟨'\n' :: (List.replicate n ' ' ++ after), i, l, k⟩
      = (some [' '], ⟨after, i + 1 + n, l + 1, n⟩, true) := by
  have hskip : Cursor.skip ⟨List.replicate n ' ' ++ after, i + 1, l + 1, 0⟩ (· == ' ')
      = ⟨after, i + 1 + n, l + 1, n⟩ := by
    rw [Cursor.skip_append]
    · rw [List.length_replicate, Nat.zero_add]
    · intro c hc
      rw [List.eq_of_mem_replicate hc]
      decide
    · exact fun c hc => beq_of_isLeading (hafter c hc) (by decide)
  have hbreak : Cursor.break? ⟨after, i + 1 + n, l + 1, n⟩ = none := hafter.bind_breakText?
  -- A marker stands at the beginning of its line and is not indented.
  have hmarker : isMarker (List.replicate n ' ' ++ after) = false := by
    cases n with
    | succ n => rfl
    | zero =>
        cases after with
        | nil => rfl
        | cons c cs => exact isMarker_of_isLeading (hafter c rfl) cs
  -- There are no more breaks after the first, so it counts as a blank.
  have hstop : plainBreaks (fuel + 1) ⟨List.replicate n ' ' ++ after, i + 1, l + 1, 0⟩ []
      = (some [], ⟨after, i + 1 + n, l + 1, n⟩) := by
    rw [plainBreaks]
    simp only [hmarker, hskip, hbreak, Bool.false_eq_true, if_false]
  change ((plainBreaks (fuel + 1) ⟨List.replicate n ' ' ++ after, i + 1, l + 1, 0⟩ []).1.map
      (foldedBreaks '\n'),
    (plainBreaks (fuel + 1) ⟨List.replicate n ' ' ++ after, i + 1, l + 1, 0⟩ []).2, true) = _
  rw [hstop]
  rfl

section PlainTexts

variable {w : List Char} (hw : IsWord w)

include hw

theorem ne_breaks_of_isWord : ∀ c ∈ w, c ≠ '\n' ∧ c ≠ '\ufeff' := fun c hc =>
  ⟨ne_of_isOrdinary (hw.ordinary c hc) (by decide), ne_of_isOrdinary (hw.ordinary c hc) (by decide)⟩

theorem exists_cons_of_isWord : ∃ c cs, w = c :: cs ∧ isLeading c := by
  rcases List.exists_cons_of_ne_nil hw.nonempty with ⟨c, cs, rfl⟩
  exact ⟨c, cs, rfl, hw.leading c rfl⟩

theorem beginsWord_append (after : List Char) : BeginsWord (w ++ after) := by
  rcases exists_cons_of_isWord hw with ⟨c, cs, hcs, hc⟩
  intro d hd
  rw [hcs, List.cons_append, List.head?_cons, Option.mem_some_iff] at hd
  exact hd ▸ hc

/-- As long as there is a word, the text goes on. -/
theorem plainLength_append (ys : List Char) :
    plainLength false (w ++ ys) = w.length + plainLength false ys := by
  -- Where a word begins does not matter for its length, so the induction is on any
  -- ordinary characters.
  have hordinary := hw.ordinary
  clear hw
  induction w with
  | nil => exact (Nat.zero_add _).symm
  | cons c cs ih =>
      rw [List.forall_mem_cons] at hordinary
      have hcolon : (c == ':') = false :=
        beq_eq_false_iff_ne.mpr (ne_of_isOrdinary hordinary.1 (by decide))
      rw [List.cons_append, plainLength, isGap_of_isOrdinary hordinary.1, hcolon, ih hordinary.2,
        List.length_cons, Nat.add_right_comm]
      rfl

/-- A word is read as a plain text up to a place where no text can go on. What is
    after that place may be another gap, but then the text ends with it. -/
theorem plainText_word {ys : List Char} (hys : plainLength false ys = 0) {indent : Int}
    {fuel i l k : Nat} {gap : Option (List Char)} {p : Cursor} {broke : Bool}
    (hgap : plainGap fuel ⟨ys, i + w.length, l, k + w.length⟩ = (gap, p, broke))
    (hends : gap = none ∨ p.column < indent) :
    plainText false indent (fuel + 1) ⟨w ++ ys, i, l, k⟩ = ⟨w, p, broke⟩ := by
  have hhash : ((w ++ ys).head? == some '#') = false :=
    (beginsWord_append hw ys).head?_beq (by decide)
  have hlength : plainLength false (w ++ ys) = w.length := by
    rw [plainLength_append hw, hys, Nat.add_zero]
  have hne : w.length ≠ 0 := by
    rw [Ne, List.length_eq_zero_iff]
    exact hw.nonempty
  rw [plainText, plainTextFrom]
  simp only [hhash, Bool.false_eq_true, if_false, hlength, hne, List.nil_append,
    List.take_left', Cursor.advance_append (ne_breaks_of_isWord hw), hgap]
  -- Either there is no gap, or what comes after it is too far left.
  rcases hends with rfl | hcolumn
  · rfl
  · cases gap with
    | none => rfl
    | some gap =>
        simp only [hcolumn, Bool.not_false, Bool.true_and, decide_true, Bool.or_true, if_true]

/-- A word before a colon is read as a plain text. -/
theorem plainText_before_colon {g : Char} (hg : isGap g) (after : List Char) (indent : Int)
    (fuel i l k : Nat) :
    plainText false indent (fuel + 1) ⟨w ++ ':' :: g :: after, i, l, k⟩
      = ⟨w, ⟨':' :: g :: after, i + w.length, l, k + w.length⟩, false⟩ := by
  have hlength : plainLength false (':' :: g :: after) = 0 := by
    rw [plainLength, atGap, hg]
    rfl
  exact plainText_word hw hlength rfl (.inl rfl)

/-- A word at the end of a line is read as a plain text, with the indentation of the
    next line, if that is not indented as far as the text would have to be. -/
theorem plainText_before_line {n : Nat} {indent : Int} (hn : (n : Int) < indent)
    {after : List Char} (hafter : BeginsWord after) (fuel i l k : Nat) :
    plainText false indent (fuel + 2) ⟨w ++ '\n' :: (List.replicate n ' ' ++ after), i, l, k⟩
      = ⟨w, ⟨after, i + w.length + 1 + n, l + 1, n⟩, true⟩ :=
  plainText_word hw rfl (plainGap_line hafter fuel _ l _) (.inr hn)

end PlainTexts

end Scaffold.Yaml
