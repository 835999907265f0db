import Scaffold.Proofs.Yaml.Words

/-!
# Lines of Words

What the reader of tokens does with the lines of a simple document: a word and a
colon, and then either a word or nothing.

Between two lines the reader is in a state of which little has to be known
(`ready`): the tokens so far and the columns of the blocks. It remains in doubt
about a word until the colon after it, and puts in the tokens of a key at the
place before the word, which by then is one token back (`run_key`). After a value
it is at the first word of the next line already, since the end of the value has
shown only there (`run_value`); after a key without a value it takes two steps to
get there (`run_newLine`).

## Main definitions

* `ready`, `keyed`, `pending`: The states between tokens of a line.
* `blockAt`: What becomes of the blocks where a key is.

## Theorems

* `step_of_isLeading`: A word is read where it begins.
* `step_pending`: The colon after a word makes it a key.
* `run_key`: A key is read with its colon.
* `run_newLine`: The line after a key without a value is reached.
* `run_value`: A value is read, and the next line is reached.
-/

namespace Scaffold.Yaml.Lexing

/-- Between tokens in a block, where a key may begin. -/
def ready (p : Cursor) (done : List Token) (indent : Int) (outer : List Int) (tokenLine : Nat) :
    Lexing :=
  { place := p, done, count := done.length, indent, outer, tokenLine }

/-- After a key and its colon. -/
def keyed (p : Cursor) (done : List Token) (indent : Int) (outer : List Int) : Lexing :=
  { place := p, done, count := done.length, indent, outer, keyAllowed := false
    tokenLine := p.line }

/-- After a word that can be a key. -/
def pending (p : Cursor) (done : List Token) (indent : Int) (outer : List Int)
    (k : KeyCandidate) : Lexing :=
  { keyed p done indent outer with candidate := some k }

/-- What is put in before a key at some column, and the columns of the blocks from
    then on. -/
def blockAt (indent : Int) (outer : List Int) (column : Nat) : List Token × Int × List Int :=
  if indent < column then ([.key, .blockMappingStart], column, indent :: outer)
  else ([.key], indent, outer)

section Steps

variable {s t : Lexing} {c : Char} {cs : List Char}

theorem run_succ (hstale : s.dropStale = .ok s) (hrest : s.place.rest = c :: cs) {fuel : Nat}
    (hstep : s.step c cs fuel = .ok t) : s.run false (fuel + 1) = t.run false fuel := by
  rw [run, hstale]
  simp only [hrest, hstep, Bool.false_and, Bool.false_eq_true, if_false]

/-- Blocks are only closed by what stands further left. -/
theorem closeBlocks_of_le {column : Int} (h : s.indent ≤ column) : s.closeBlocks column = s := by
  unfold closeBlocks
  split
  · rfl
  · cases s.outer with
    | nil => rfl
    | cons i outer => exact if_neg (Int.not_lt.mpr h)

/-- At a character that is neither a blank, a break nor a hash there is no gap. -/
theorem skipGap?_eq_none (hrest : s.place.rest = c :: cs) (hblank : isBlank c = false)
    (hhash : (c == '#') = false) (hbreak : breakText? c = none) : s.skipGap? = none := by
  rw [isBlank, Bool.or_eq_false_iff] at hblank
  have hskip : s.place.skip (fun c => c == ' ' || (s.inFlow && c == '\t')) = s.place := by
    have hrun : s.place.run (fun c => c == ' ' || (s.inFlow && c == '\t')) = [] := by
      rw [Cursor.run, hrest, List.takeWhile_cons, hblank.1, hblank.2, Bool.and_false]
      rfl
    rw [Cursor.skip, hrun]
    rfl
  unfold skipGap?
  simp only [hskip, Cursor.break?, hrest, List.head?_cons, Option.some_beq_some, hhash, hbreak,
    Option.bind_some, Option.isSome_none, beq_self_eq_true, Bool.false_eq_true, if_false, if_true]

/-- What only a text can begin with is the beginning of a text. -/
theorem startingWith_of_isLeading (hrest : s.place.rest = c :: cs) (hc : isLeading c)
    (fuel : Nat) : s.startingWith c cs fuel = s.plain fuel := by
  have hmarker : s.place.atMarker = false := by
    rw [Cursor.atMarker, hrest, isMarker_of_isLeading hc, Bool.and_false]
  have hplain : s.beginsPlain c cs = true := by
    -- None of the characters that mean something else is a leading one.
    have hkinds := hc
    simp only [isLeading, Bool.and_eq_true, Bool.not_eq_true'] at hkinds
    simp (disch := decide) only [beginsPlain, List.contains_cons, List.contains_nil,
      beq_of_isLeading hc, isGap_of_isLeading hc, hkinds.1.1.2, hkinds.1.2, Bool.or_self,
      Bool.false_eq_true, if_false, Bool.not_false, Bool.and_self]
  unfold startingWith
  simp (disch := decide) only [hmarker, hplain, beq_of_isLeading hc, Bool.false_and,
    Bool.or_self, Bool.false_eq_true, if_false, if_true]

theorem startingWith_colon (hmarker : s.place.atMarker = false)
    (hvalue : s.isValueMark cs = true) (fuel : Nat) :
    s.startingWith ':' cs fuel = s.valueMark := by
  unfold startingWith
  rw [hmarker, hvalue]
  rfl

/-- Where a word begins, the blocks further right are closed, and it is read. -/
theorem step_of_isLeading (hrest : s.place.rest = c :: cs) (hc : isLeading c)
    (hclose : s.closeBlocks s.place.column = t) (hplace : t.place = s.place) (fuel : Nat) :
    s.step c cs fuel = t.plain fuel := by
  have hblank : isBlank c = false := by
    have hgap := isGap_of_isLeading hc
    rw [isGap, Bool.or_eq_false_iff] at hgap
    exact hgap.1
  rw [step, skipGap?_eq_none hrest hblank (beq_of_isLeading hc (by decide))
    (breakText?_of_isLeading hc), hclose]
  exact startingWith_of_isLeading (hplace ▸ hrest) hc fuel

end Steps

section Runs

variable {w : List Char} (hw : IsWord w) {i l k : Nat} {done : List Token} {indent : Int}
  {outer : List Int}

include hw

/-- A word where a key may begin is read, and can be a key. -/
theorem plain_ready {g : Char} (hg : isGap g) (after : List Char) (tokenLine fuel : Nat) :
    (ready ⟨w ++ ':' :: g :: after, i, l, k⟩ done indent outer tokenLine).plain (fuel + 1)
      = .ok (pending ⟨':' :: g :: after, i + w.length, l, k + w.length⟩ (.scalar w true :: done)
          indent outer ⟨done.length, indent == (k : Int), i, l, k⟩) := by
  have htext := plainText_before_colon hw hg after (indent + 1) fuel i l k
  -- The text stands in several places of the state, and is rewritten in all at once.
  let t := plainText false (indent + 1) (fuel + 1) ⟨w ++ ':' :: g :: after, i, l, k⟩
  change Except.ok (emit { ready ⟨w ++ ':' :: g :: after, i, l, k⟩ done indent outer tokenLine with
    candidate := some ⟨done.length, indent == (k : Int), i, l, k⟩
    place := t.stop
    keyAllowed := t.brokeLine } (.scalar t.chars true)) = _
  simp only [t, htext]
  rfl

end Runs

/-- The mark of a value makes the word before it a key. -/
theorem valueMark_pending (p : Cursor) (t : Token) (done : List Token) (indent : Int)
    (outer : List Int) (required : Bool) (i l k : Nat) :
    (pending p (t :: done) indent outer ⟨done.length, required, i, l, k⟩).valueMark
      = .ok ((keyed p (.value :: t :: ((blockAt indent outer k).1 ++ done))
          (blockAt indent outer k).2.1 (blockAt indent outer k).2.2).take 1) := by
  have hafter : done.length + 1 - done.length = 1 := Nat.add_sub_cancel_left _ _
  -- The tokens are put in before the word, that is after all but one of them.
  unfold blockAt
  split
  · next h =>
    simp [valueMark, pending, keyed, insertKey, inFlow, openBlock, h, hafter, emit, take]
  · next h =>
    simp [valueMark, pending, keyed, insertKey, inFlow, openBlock, h, hafter, emit, take]

/-- The colon after a word makes it a key. -/
theorem step_pending {g : Char} (hg : isGap g) (after : List Char) (t : Token)
    (done : List Token) {indent : Int} (outer : List Int) (required : Bool) (i j l k : Nat)
    {m : Nat} (hindent : indent ≤ m) (fuel : Nat) :
    (pending ⟨':' :: g :: after, j, l, m⟩ (t :: done) indent outer
        ⟨done.length, required, i, l, k⟩).step ':' (g :: after) fuel
      = .ok (keyed ⟨g :: after, j + 1, l, m + 1⟩
          (.value :: t :: ((blockAt indent outer k).1 ++ done))
          (blockAt indent outer k).2.1 (blockAt indent outer k).2.2) := by
  have hgap : (pending ⟨':' :: g :: after, j, l, m⟩ (t :: done) indent outer
      ⟨done.length, required, i, l, k⟩).skipGap? = none :=
    skipGap?_eq_none rfl rfl rfl rfl
  have hmarker : (pending ⟨':' :: g :: after, j, l, m⟩ (t :: done) indent outer
      ⟨done.length, required, i, l, k⟩).place.atMarker = false := Bool.and_false _
  have hvalue : (pending ⟨':' :: g :: after, j, l, m⟩ (t :: done) indent outer
      ⟨done.length, required, i, l, k⟩).isValueMark (g :: after) = true := hg
  rw [step, hgap]
  simp only
  rw [closeBlocks_of_le hindent, startingWith_colon hmarker hvalue,
    valueMark_pending ⟨':' :: g :: after, j, l, m⟩]
  rfl

/-- A word can be a key as long as it is on the line and near enough. -/
theorem dropStale_pending {p : Cursor} {k : KeyCandidate} (hline : k.line = p.line)
    (hspan : p.index - k.index ≤ keySpan) (done : List Token) (indent : Int) (outer : List Int) :
    (pending p done indent outer k).dropStale = .ok (pending p done indent outer k) := by
  -- A candidate that is alive is not dropped.
  have hlive : (pending p done indent outer k).isLive k = true := by
    rw [isLive, Bool.and_eq_true]
    exact ⟨beq_iff_eq.mpr hline, decide_eq_true hspan⟩
  unfold dropStale
  simp only [pending, keyed] at hlive ⊢
  simp [hlive]

/-- A key is read with its colon, after the blocks further right have been closed. -/
theorem run_key {w : List Char} (hw : IsWord w) {g : Char} (hg : isGap g) {after : List Char}
    {i l k tokenLine tokenLine' : Nat} {done done' : List Token} {indent indent' : Int}
    {outer outer' : List Int}
    (hclose : (ready ⟨w ++ ':' :: g :: after, i, l, k⟩ done indent outer tokenLine).closeBlocks k
      = ready ⟨w ++ ':' :: g :: after, i, l, k⟩ done' indent' outer' tokenLine')
    (hindent : indent' ≤ k) (fuel : Nat) :
    (ready ⟨w ++ ':' :: g :: after, i, l, k⟩ done indent outer tokenLine).run false (fuel + 2)
      = (keyed ⟨g :: after, i + w.length + 1, l, k + w.length + 1⟩
          (.value :: .scalar w true :: ((blockAt indent' outer' k).1 ++ done'))
          (blockAt indent' outer' k).2.1 (blockAt indent' outer' k).2.2).run false fuel := by
  rcases exists_cons_of_isWord hw with ⟨c, cs, hcs, hc⟩
  have hrest : w ++ ':' :: g :: after = c :: (cs ++ ':' :: g :: after) := by
    rw [hcs, List.cons_append]
  have hword := step_of_isLeading hrest hc hclose rfl (fuel + 1)
  rw [plain_ready hw hg] at hword
  have hspan : i + w.length - i ≤ keySpan := by
    rw [Nat.add_sub_cancel_left]
    exact hw.short
  have hfurther : indent' ≤ (k + w.length : Nat) := by omega
  -- One step reads the word, and another one the colon.
  rw [run_succ rfl hrest hword, run_succ (dropStale_pending rfl hspan _ _ _) rfl
    (step_pending hg after (.scalar w true) done' outer' _ i _ l k hfurther fuel)]

theorem step_of_skipGap? {s t : Lexing} (h : s.skipGap? = some t) (c : Char) (cs : List Char)
    (fuel : Nat) : s.step c cs fuel = .ok t := by
  rw [step, h]

/-- Blanks before a word or the end are passed over. -/
theorem skipGap?_of_blanks {s : Lexing} {n : Nat} (hn : 0 < n) {after : List Char}
    (hafter : BeginsWord after) {i l k : Nat}
    (hplace : s.place = ⟨List.replicate n ' ' ++ after, i, l, k⟩) (hflow : s.flow = []) :
    s.skipGap? = some { s with place := ⟨after, i + n, l, k + n⟩ } := by
  have hskip : s.place.skip (fun c => c == ' ' || (s.inFlow && c == '\t'))
      = ⟨after, i + n, l, k + n⟩ := by
    rw [hplace, Cursor.skip_append]
    · rw [List.length_replicate]
    · intro c hc
      rw [List.eq_of_mem_replicate hc]
      exact ⟨rfl, by decide, by decide⟩
    · intro c hc
      rw [beq_of_isLeading (hafter c hc) (by decide), inFlow, hflow]
      rfl
  have hhash : (after.head? == some '#') = false := hafter.head?_beq (by decide)
  -- At least one blank is passed over, so the place is another one.
  have hmoved : (i + n == s.place.index) = false := by
    rw [hplace, beq_eq_false_iff_ne]
    exact Nat.ne_of_gt (Nat.lt_add_of_pos_right hn)
  unfold skipGap?
  simp only [hskip, Cursor.break?, hhash, hafter.bind_breakText?, hmoved, Option.isSome_none,
    Bool.false_eq_true, if_false]

section Values

variable {n : Nat} {after : List Char} (hafter : BeginsWord after) (done : List Token)
  (indent : Int) (outer : List Int) (i l k fuel : Nat)

include hafter

/-- The line after a key without a value is indented, and begins a block. -/
theorem run_newLine (hn : 0 < n) :
    (keyed ⟨'\n' :: (List.replicate n ' ' ++ after), i, l, k⟩ done indent outer).run false
        (fuel + 2)
      = (ready ⟨after, i + 1 + n, l + 1, n⟩ done indent outer l).run false fuel := by
  rcases Nat.exists_eq_add_of_lt hn with ⟨m, rfl⟩
  rw [Nat.zero_add]
  have hbreak : (keyed ⟨'\n' :: (List.replicate (m + 1) ' ' ++ after), i, l, k⟩ done indent
      outer).skipGap?
      = some (ready ⟨List.replicate (m + 1) ' ' ++ after, i + 1, l + 1, 0⟩ done indent outer l) :=
    rfl
  have hblanks := skipGap?_of_blanks (Nat.succ_pos m) hafter
    (s := ready ⟨List.replicate (m + 1) ' ' ++ after, i + 1, l + 1, 0⟩ done indent outer l) rfl rfl
  rw [run_succ rfl rfl (step_of_skipGap? hbreak _ _ _),
    run_succ rfl rfl (step_of_skipGap? hblanks _ _ _), ready, Nat.zero_add]
  rfl

/-- A word where no key may begin is read with the line break after it. -/
theorem plain_keyed {v : List Char} (hv : IsWord v) (hn : (n : Int) ≤ indent) :
    (keyed ⟨v ++ '\n' :: (List.replicate n ' ' ++ after), i, l, k⟩ done indent outer).plain
        (fuel + 2)
      = .ok (ready ⟨after, i + v.length + 1 + n, l + 1, n⟩ (.scalar v true :: done) indent outer
          (l + 1)) := by
  have htext := plainText_before_line hv (Int.lt_add_one_of_le hn) hafter fuel i l k
  let t := plainText false (indent + 1) (fuel + 2)
    ⟨v ++ '\n' :: (List.replicate n ' ' ++ after), i, l, k⟩
  change Except.ok (emit { keyed ⟨v ++ '\n' :: (List.replicate n ' ' ++ after), i, l, k⟩ done indent
    outer with place := t.stop, keyAllowed := t.brokeLine } (.scalar t.chars true)) = _
  simp only [t, htext]
  rfl

/-- A value is read up to the word that begins the next line. -/
theorem run_value {v : List Char} (hv : IsWord v) (hn : (n : Int) ≤ indent) (hindent : indent ≤ k) :
    (keyed ⟨' ' :: (v ++ '\n' :: (List.replicate n ' ' ++ after)), i, l, k⟩ done indent
        outer).run false (fuel + 4)
      = (ready ⟨after, i + 1 + v.length + 1 + n, l + 1, n⟩ (.scalar v true :: done) indent outer
          (l + 1)).run false (fuel + 2) := by
  rcases exists_cons_of_isWord hv with ⟨c, cs, hcs, hc⟩
  have hrest : v ++ '\n' :: (List.replicate n ' ' ++ after)
      = c :: (cs ++ '\n' :: (List.replicate n ' ' ++ after)) := by
    rw [hcs, List.cons_append]
  have hblank : (keyed ⟨' ' :: (v ++ '\n' :: (List.replicate n ' ' ++ after)), i, l, k⟩ done indent
      outer).skipGap?
      = some (keyed ⟨v ++ '\n' :: (List.replicate n ' ' ++ after), i + 1, l, k + 1⟩ done indent
          outer) :=
    skipGap?_of_blanks Nat.one_pos (beginsWord_append hv _) rfl rfl
  have hfurther : indent ≤ (k + 1 : Nat) := by omega
  have hword := step_of_isLeading (s := keyed
    ⟨v ++ '\n' :: (List.replicate n ' ' ++ after), i + 1, l, k + 1⟩ done indent outer) hrest hc
    (closeBlocks_of_le hfurther) rfl (fuel + 2)
  rw [plain_keyed hafter done indent outer (i + 1) l (k + 1) fuel hv hn] at hword
  rw [run_succ rfl rfl (step_of_skipGap? hblank _ _ _), run_succ rfl hrest hword]

end Values

end Scaffold.Yaml.Lexing
