import Mathlib.Algebra.BigOperators.Group.List.Basic
import Mathlib.Algebra.GroupWithZero.Nat
import Scaffold.Proofs.Yaml.Lines
import Scaffold.Settings.Value

/-!
# Documents of Groups

What the tokens of a simple document are: groups of values, each under a name of
its own, with every value on a line of its own.

Nothing on a line says that a block ends. It is the next group that ends the one
before it, by standing further left, and the end of the text ends the last. So
what holds after each group is that its block is still open (`run_group`), and
the token that closes it is counted as the next group's (`run_groups`).

Every round of the reader takes something off its fuel, of which there is as much
as there are characters. A line takes four rounds, and a line of a value has more
characters than that. The line of a group's name may have only three, which the
lines below it make up for. That is where a group has to hold something
(`Group.steps_le_length`).

## Main definitions

* `Pair`, `Group`: Values with names, and groups of them.
* `written`: A document of groups.
* `Pair.tokens`, `Group.tokens`: The tokens that they should be read as.
* `Pair.IsPlain`, `Group.IsPlain`: What is written in words alone.

## Theorems

* `run_pairs`: The lines of values are read one after the other.
* `run_group`: A group is read, and its block stays open.
* `run_groups`: Further groups are read.
* `tokens_written`: The tokens of a document are those of its groups.
-/

namespace Scaffold.Yaml

open Lexing
open Settings (Value)

/-- A value with its name. -/
abbrev Pair : Type := String × Value

/-- Some values together under a name of their own. -/
abbrev Group : Type := String × List Pair

namespace Pair

/-- A name and a value in front of a text. -/
def before (d : Pair) (after : List Char) : List Char :=
  d.1.toList ++ ':' :: ' ' :: (d.2.shown.toList ++ '\n' :: after)

/-- The line of a value, which is indented. -/
def line (d : Pair) : List Char := ' ' :: ' ' :: d.before []

/-- The tokens of the line. -/
def tokens (d : Pair) : List Token :=
  [.key, .scalar d.1.toList true, .value, .scalar d.2.shown.toList true]

/-- A value that is written as a word, with a word for a name. -/
structure IsPlain (d : Pair) : Prop where
  name : IsWord d.1.toList
  value : IsWord d.2.shown.toList

end Pair

namespace Group

/-- The lines of a group. -/
def lines (g : Group) : List Char := g.1.toList ++ ':' :: '\n' :: g.2.flatMap Pair.line

/-- The tokens of a group. -/
def tokens (g : Group) : List Token :=
  .key :: .scalar g.1.toList true :: .value :: .blockMappingStart
    :: (g.2.flatMap Pair.tokens ++ [.blockEnd])

/-- A group of at least one such value, with a word for a name. -/
structure IsPlain (g : Group) : Prop where
  name : IsWord g.1.toList
  nonempty : g.2 ≠ []
  pairs : ∀ d ∈ g.2, d.IsPlain

/-- The steps in which the lines of a group are read. -/
def steps (g : Group) : Nat := 4 * (g.2.length + 1)

end Group

/-- A document of groups, one after the other. -/
def written (gs : List Group) : List Char := gs.flatMap Group.lines

section Texts

variable {d : Pair} {g : Group} {ds : List Pair} {gs : List Group}

theorem Pair.line_append (d : Pair) (after : List Char) :
    d.line ++ after = List.replicate 2 ' ' ++ d.before after := by
  simp only [Pair.line, Pair.before, List.cons_append, List.append_assoc, List.nil_append]
  rfl

theorem Group.lines_append (g : Group) (after : List Char) :
    g.lines ++ after = g.1.toList ++ ':' :: '\n' :: (g.2.flatMap Pair.line ++ after) := by
  simp only [Group.lines, List.cons_append, List.append_assoc]

theorem Pair.beginsWord_before (h : d.IsPlain) (after : List Char) :
    BeginsWord (d.before after) :=
  beginsWord_append h.name _

theorem beginsWord_written (h : ∀ g ∈ gs, g.IsPlain) : BeginsWord (written gs) := by
  cases gs with
  | nil => exact nofun
  | cons g gs =>
      rw [written, List.flatMap_cons, Group.lines_append]
      exact beginsWord_append (h g List.mem_cons_self).name _

end Texts

section Runs

variable {d : Pair} {g : Group} {ds : List Pair} {gs : List Group} {rest : List Char}
  {put : List Token} {indent : Int} {outer outer' : List Int}

/-- The line of a value is read from its name on. -/
theorem run_pair (hd : d.IsPlain) {n : Nat} (hn : n ≤ 2) (hrest : BeginsWord rest)
    (hblock : blockAt indent outer 2 = (put, 2, outer')) (hindent : indent ≤ 2)
    (done : List Token) (i l tokenLine fuel : Nat) :
    ∃ i' l', (ready ⟨d.before (List.replicate n ' ' ++ rest), i, l, 2⟩ done indent outer
        tokenLine).run false (fuel + 2 + 4)
      = (ready ⟨rest, i', l', n⟩ (.scalar d.2.shown.toList true :: .value
          :: .scalar d.1.toList true :: (put ++ done)) 2 outer' l').run false (fuel + 2) := by
  -- No block is further right than the values, so none is closed.
  have hclose : (ready ⟨d.before (List.replicate n ' ' ++ rest), i, l, 2⟩ done indent outer
      tokenLine).closeBlocks 2
      = ready ⟨d.before (List.replicate n ' ' ++ rest), i, l, 2⟩ done indent outer tokenLine :=
    closeBlocks_of_le hindent
  have hkey := run_key hd.name rfl hclose hindent (fuel + 4)
  rw [hblock] at hkey
  have hvalue := run_value hrest (.value :: .scalar d.1.toList true :: (put ++ done)) 2 outer'
    (i + d.1.toList.length + 1) l (2 + d.1.toList.length + 1) fuel hd.value
    (by exact_mod_cast hn : (n : Int) ≤ 2) (by omega)
  exact ⟨_, _, hkey.trans hvalue⟩

/-- At the column of a block, a key goes on with it. -/
theorem blockAt_self (column : Nat) (outer : List Int) :
    blockAt column outer column = ([Token.key], (column : Int), outer) :=
  if_neg (Int.lt_irrefl _)

/-- The lines of values in one block are read, the first one from its name on. -/
theorem run_pairs (hd : d.IsPlain) (hds : ∀ e ∈ ds, e.IsPlain) (hrest : BeginsWord rest)
    (hblock : blockAt indent outer 2 = (put, 2, outer')) (hindent : indent ≤ 2)
    (done : List Token) (i l tokenLine fuel : Nat) :
    ∃ i' l', (ready ⟨d.before (ds.flatMap Pair.line ++ rest), i, l, 2⟩ done indent outer
        tokenLine).run false (fuel + 2 + 4 * (ds.length + 1))
      = (ready ⟨rest, i', l', 0⟩ ((ds.flatMap Pair.tokens).reverse ++ .scalar d.2.shown.toList true
          :: .value :: .scalar d.1.toList true :: (put ++ done)) 2 outer' l').run false
            (fuel + 2) := by
  -- Each line begins where the one before has left the reader.
  induction ds generalizing d done put indent outer i l tokenLine with
  | nil => exact run_pair hd (Nat.zero_le 2) hrest hblock hindent done i l tokenLine fuel
  | cons e es ih =>
      have he := hds e List.mem_cons_self
      have hnext := Pair.beginsWord_before he (es.flatMap Pair.line ++ rest)
      rcases run_pair hd (Nat.le_refl 2) hnext hblock hindent done i l tokenLine
        (fuel + 4 * (es.length + 1)) with ⟨i₁, l₁, hfirst⟩
      -- The block is open from the first line on.
      rcases ih he (fun e he => hds e (List.mem_cons_of_mem _ he)) (blockAt_self 2 outer')
        (Int.le_refl 2) _ i₁ l₁ l₁ with ⟨i₂, l₂, hothers⟩
      refine ⟨i₂, l₂, ?_⟩
      rw [List.flatMap_cons, List.append_assoc, Pair.line_append, List.length_cons]
      rw [Nat.add_right_comm fuel] at hfirst
      refine (hfirst.trans hothers).trans ?_
      simp only [List.flatMap_cons, Pair.tokens, List.reverse_append, List.append_assoc]
      rfl

/-- The lines of a group are read, and all blocks stay open. -/
theorem run_group (hg : g.IsPlain) (hrest : BeginsWord rest) {i l tokenLine tokenLine' : Nat}
    {done done' : List Token} {indent' : Int}
    (hclose : (ready ⟨g.lines ++ rest, i, l, 0⟩ done indent outer tokenLine).closeBlocks 0
      = ready ⟨g.lines ++ rest, i, l, 0⟩ done' indent' outer' tokenLine')
    (hblock : blockAt indent' outer' 0 = (put, 0, [-1])) (hindent : indent' ≤ 0) (fuel : Nat) :
    ∃ i' l', (ready ⟨g.lines ++ rest, i, l, 0⟩ done indent outer tokenLine).run false
        (fuel + 2 + g.steps)
      = (ready ⟨rest, i', l', 0⟩ ((g.2.flatMap Pair.tokens).reverse ++ .blockMappingStart
          :: .value :: .scalar g.1.toList true :: (put ++ done')) 2 [0, -1] l').run false
            (fuel + 2) := by
  rcases hg with ⟨hname, hne, hplain⟩
  obtain ⟨name, pairs⟩ := g
  cases pairs with
  | nil => exact absurd rfl hne
  | cons d ds =>
      rw [List.forall_mem_cons] at hplain
      have htext : Group.lines (name, d :: ds) ++ rest = name.toList ++ ':' :: '\n'
          :: (List.replicate 2 ' ' ++ d.before (ds.flatMap Pair.line ++ rest)) := by
        rw [Group.lines_append, List.flatMap_cons, List.append_assoc, Pair.line_append]
      rw [htext] at hclose
      -- First the name with its colon, then the way to the next line, and then the
      -- values.
      have hkey := run_key hname rfl hclose hindent (fuel + 2 + 4 * (ds.length + 1) + 2)
      rw [hblock] at hkey
      have hnext := Pair.beginsWord_before hplain.1 (ds.flatMap Pair.line ++ rest)
      have hline := run_newLine hnext (.value :: .scalar name.toList true :: (put ++ done')) 0 [-1]
        (i + name.toList.length + 1) l (0 + name.toList.length + 1)
        (fuel + 2 + 4 * (ds.length + 1)) Nat.two_pos
      rcases run_pairs hplain.1 hplain.2 hrest (rfl : blockAt 0 [-1] 2 = _) (by decide) _
        (i + name.toList.length + 1 + 1 + 2) (l + 1) l fuel with ⟨i', l', hpairs⟩
      refine ⟨i', l', ?_⟩
      rw [htext]
      refine ((hkey.trans hline).trans hpairs).trans ?_
      simp only [List.flatMap_cons, Pair.tokens, List.reverse_append, List.append_assoc]
      rfl

/-- Further groups are read. Each one closes the block of the one before. -/
theorem run_groups (hgs : ∀ g ∈ gs, g.IsPlain) (done : List Token) (i l tokenLine fuel : Nat) :
    ∃ p tokenLine' done', (ready ⟨written gs, i, l, 0⟩ done 2 [0, -1] tokenLine).run false
        (fuel + 2 + (gs.map Group.steps).sum) = (ready p done' 2 [0, -1] tokenLine', none)
      ∧ .blockEnd :: done' = (gs.flatMap Group.tokens).reverse ++ .blockEnd :: done := by
  -- What is done is one block's end behind, so it is stated with that in front.
  induction gs generalizing done i l tokenLine with
  | nil => exact ⟨_, _, done, rfl, rfl⟩
  | cons g gs ih =>
      have hg := hgs g List.mem_cons_self
      have hothers : ∀ g ∈ gs, g.IsPlain := fun g hg => hgs g (List.mem_cons_of_mem _ hg)
      have hclose : (ready ⟨g.lines ++ written gs, i, l, 0⟩ done 2 [0, -1] tokenLine).closeBlocks 0
          = ready ⟨g.lines ++ written gs, i, l, 0⟩ (.blockEnd :: done) 0 [-1] l := rfl
      rcases run_group hg (beginsWord_written hothers) hclose (blockAt_self 0 [-1]) (Int.le_refl 0)
        (fuel + (gs.map Group.steps).sum) with ⟨i', l', hfirst⟩
      rcases ih hothers _ i' l' l' with ⟨p, line, done', hrun, hdone⟩
      refine ⟨p, line, done', ?_, ?_⟩
      · have hfuel : fuel + 2 + ((g :: gs).map Group.steps).sum
            = fuel + 2 + (gs.map Group.steps).sum + g.steps := by
          rw [List.map_cons, List.sum_cons, Nat.add_comm g.steps, Nat.add_assoc (fuel + 2)]
        rw [written, List.flatMap_cons, hfuel]
        rw [Nat.add_right_comm fuel] at hfirst
        exact hfirst.trans hrun
      · rw [hdone]
        simp only [List.flatMap_cons, Group.tokens, List.reverse_append, List.reverse_cons,
          List.append_assoc, List.reverse_nil, List.nil_append]
        rfl

end Runs

section Documents

variable {d : Pair} {g : Group} {gs : List Group}

theorem length_pos_of_isWord {w : List Char} (h : IsWord w) : 0 < w.length :=
  List.length_pos_iff.mpr h.nonempty

/-- The reader takes no more steps than there are characters. -/
theorem Group.steps_le_length (h : g.IsPlain) : g.steps ≤ g.lines.length := by
  -- Besides its words, the line of a value has five characters.
  have hpairs : ∀ ds : List Pair, (∀ d ∈ ds, d.IsPlain) →
      5 * ds.length ≤ (ds.flatMap Pair.line).length := by
    intro ds hds
    induction ds with
    | nil => exact Nat.le_refl 0
    | cons d ds ih =>
        rw [List.forall_mem_cons] at hds
        have hothers := ih hds.2
        simp only [List.flatMap_cons, Pair.line, Pair.before, List.length_append, List.length_cons]
        omega
  have hlines := hpairs g.2 h.pairs
  have hname := length_pos_of_isWord h.name
  have hsome : 0 < g.2.length := List.length_pos_iff.mpr h.nonempty
  simp only [Group.steps, Group.lines, List.length_append, List.length_cons]
  omega

/-- All groups together take no more steps than there are characters. -/
theorem sum_steps_le_length (hgs : ∀ g ∈ gs, g.IsPlain) :
    (gs.map Group.steps).sum ≤ (written gs).length := by
  induction gs with
  | nil => exact Nat.le_refl 0
  | cons g gs ih =>
      rw [List.forall_mem_cons] at hgs
      rw [List.map_cons, List.sum_cons, written, List.flatMap_cons, List.length_append]
      exact Nat.add_le_add (Group.steps_le_length hgs.1) (ih hgs.2)

/-- Without a carriage return there is nothing to normalize. -/
theorem normalizeBreaks_eq_self {cs : List Char} (h : '\r' ∉ cs) : normalizeBreaks cs = cs := by
  induction cs using normalizeBreaks.induct with
  | case1 => rfl
  | case2 cs ih => exact absurd List.mem_cons_self h
  | case3 c cs hother ih =>
      rw [List.mem_cons, not_or] at h
      have hc : (c == '\r') = false := beq_eq_false_iff_ne.mpr (Ne.symm h.1)
      rw [normalizeBreaks, ih h.2, hc]
      · rfl
      · exact hother

/-- Besides words, there are only blanks, colons and line feeds. -/
def IsWritten (c : Char) : Prop := isOrdinary c ∨ c ∈ [' ', ':', '\n']

theorem forall_isWritten_append {w after : List Char} (hw : IsWord w)
    (hafter : ∀ c ∈ after, IsWritten c) : ∀ c ∈ w ++ after, IsWritten c :=
  List.forall_mem_append.mpr ⟨fun c hc => .inl (hw.ordinary c hc), hafter⟩

theorem forall_isWritten_cons {c : Char} {after : List Char} (hc : c ∈ [' ', ':', '\n'])
    (hafter : ∀ c ∈ after, IsWritten c) : ∀ d ∈ c :: after, IsWritten d :=
  List.forall_mem_cons.mpr ⟨.inr hc, hafter⟩

theorem isWritten_of_mem_line (hd : d.IsPlain) : ∀ c ∈ d.line, IsWritten c := by
  have hvalue := forall_isWritten_append hd.value
    (forall_isWritten_cons (c := '\n') (by decide) (List.forall_mem_nil IsWritten))
  have hname := forall_isWritten_append hd.name
    (forall_isWritten_cons (c := ':') (by decide)
      (forall_isWritten_cons (c := ' ') (by decide) hvalue))
  exact forall_isWritten_cons (by decide) (forall_isWritten_cons (by decide) hname)

theorem isWritten_of_mem_written (hgs : ∀ g ∈ gs, g.IsPlain) : ∀ c ∈ written gs, IsWritten c := by
  intro c hc
  rcases List.mem_flatMap.mp hc with ⟨g, hg, hc⟩
  have hpairs : ∀ c ∈ g.2.flatMap Pair.line, IsWritten c := by
    intro c hc
    rcases List.mem_flatMap.mp hc with ⟨d, hd, hc⟩
    exact isWritten_of_mem_line ((hgs g hg).pairs d hd) c hc
  exact forall_isWritten_append (hgs g hg).name
    (forall_isWritten_cons (c := ':') (by decide)
      (forall_isWritten_cons (c := '\n') (by decide) hpairs)) c hc

theorem isDocumentChar_of_isWritten {c : Char} (h : IsWritten c) : isDocumentChar c := by
  rcases h with h | h
  · exact isDocumentChar_of_isOrdinary h
  · simp only [List.mem_cons, List.not_mem_nil, or_false] at h
    rcases h with rfl | rfl | rfl <;> decide

theorem ne_of_isWritten {c d : Char} (h : IsWritten c) (hd : isOrdinary d = false)
    (hother : d ∉ [' ', ':', '\n']) : c ≠ d := by
  rcases h with h | h
  · exact ne_of_isOrdinary h hd
  · rintro rfl
    exact hother h

/-- Nothing in a document is changed before it is read. -/
theorem scan_written (hgs : ∀ g ∈ gs, g.IsPlain) :
    scan false (written gs)
      = (ready ⟨written gs, 0, 0, 0⟩ [] (-1) [] 0).run false ((written gs).length + 2) := by
  have hchars := isWritten_of_mem_written hgs
  -- Neither a mark in front nor a carriage return is among the characters of a document.
  have hmark : dropByteOrderMark (written gs) = written gs := by
    unfold dropByteOrderMark
    split
    · next heq =>
        rw [heq] at hchars
        exact absurd rfl (ne_of_isWritten (hchars _ List.mem_cons_self) (by decide) (by decide))
    · rfl
  have hbreaks : normalizeBreaks (written gs) = written gs := by
    refine normalizeBreaks_eq_self fun hmem => ?_
    exact absurd rfl (ne_of_isWritten (hchars _ hmem) (by decide) (by decide))
  have hall : (written gs).all isDocumentChar = true :=
    List.all_eq_true.mpr fun c hc => isDocumentChar_of_isWritten (hchars c hc)
  unfold scan
  rw [hmark, hbreaks, if_pos hall]
  rfl

/-- The tokens of a document are those of its groups. -/
theorem tokens_written (hgs : ∀ g ∈ gs, g.IsPlain) (hne : gs ≠ []) :
    tokens (written gs)
      = ⟨.blockMappingStart :: (gs.flatMap Group.tokens ++ [.blockEnd]), none⟩ := by
  -- The fuel is as long as the document, and this is what is left of it in the end.
  rcases Nat.exists_eq_add_of_le (sum_steps_le_length hgs) with ⟨fuel, hfuel⟩
  have hscan := scan_written hgs
  cases gs with
  | nil => exact absurd rfl hne
  | cons g gs =>
      rw [List.forall_mem_cons] at hgs
      have hsteps : (written (g :: gs)).length + 2
          = fuel + 2 + (gs.map Group.steps).sum + g.steps := by
        rw [hfuel, List.map_cons, List.sum_cons]
        omega
      have hclose : (ready ⟨g.lines ++ written gs, 0, 0, 0⟩ [] (-1) [] 0).closeBlocks 0
          = ready ⟨g.lines ++ written gs, 0, 0, 0⟩ [] (-1) [] 0 := rfl
      rcases run_group hgs.1 (beginsWord_written hgs.2) hclose (rfl : blockAt (-1) [] 0 = _)
        (by decide) (fuel + (gs.map Group.steps).sum) with ⟨i, l, hfirst⟩
      rw [Nat.add_right_comm fuel] at hfirst
      -- The first group has no block before it to close, so it is read apart from the
      -- others.
      rcases run_groups hgs.2 _ i l l fuel with ⟨p, line, done, hothers, hdone⟩
      rw [hsteps] at hscan
      have hrun := hscan.trans (hfirst.trans hothers)
      -- Both blocks that are still open end with the text.
      have hend : tokens (written (g :: gs))
          = ⟨(.blockEnd :: .blockEnd :: done).reverse, none⟩ := by
        rw [tokens, hrun]
        rfl
      rw [hend, List.reverse_cons, hdone]
      simp only [List.flatMap_cons, Group.tokens, List.reverse_append, List.reverse_cons,
        List.reverse_reverse, List.append_assoc, List.cons_append, List.nil_append,
        List.reverse_nil]

end Documents

end Scaffold.Yaml
