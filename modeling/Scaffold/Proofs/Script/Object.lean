import Mathlib.Data.List.TakeWhile
import Scaffold.Proofs.Script.Block

/-!
# Objects in a Text

Object literals as a reader finds them: from an opening phrase to the brace
that closes what the phrase has opened.

A block between an opening and a closing phrase is found by its words, which
will do where nothing else in the text can look like them. An object is found
by its braces. The text between them is balanced, so an object ends in one
place only, and whatever stands before it or after it cannot reach into it.
Text that is not known can hold the beginning of an object; `Balanced` is what
tells that the known text after it does not hold the end
(`infix_of_object`).

## Main definitions

* `depth?`: The depth that a text leads to, if no brace is closed too early.
* `Balanced`: A text that closes what it opens, and nothing else.
* `HasObject`: A text holds an object with an opening phrase.
* `Encloses`: Lines that an object can hold, with the fields they declare.

## Theorems

* `depth?_add`: A text reads the same within further braces.
* `depth?_render`: The depth is a matter of the lines.
* `exists_object_of_encloses`: Lines in braces are rendered as an object.
* `infix_of_mem_fields`: A field that is declared occurs.
* `infix_of_object`: An object that begins before balanced text ends there as
  well.
-/

namespace Scaffold.Script

open Text

/-- The depth after one more character. There is none if a brace is closed that
    has not been opened. -/
def step? (depth : Nat) (c : Char) : Option Nat :=
  if c = '\x7b' then some (depth + 1)
  else if c = '\x7d' then
    match depth with
    | 0 => none
    | d + 1 => some d
  else some depth

/-- The depth that a text leads to, if no brace is closed too early. -/
def depth? (depth : Nat) (cs : List Char) : Option Nat := cs.foldlM step? depth

/-- A text that closes every brace that it opens, and no other. -/
def Balanced (cs : List Char) : Prop := depth? 0 cs = some 0

instance (cs : List Char) : Decidable (Balanced cs) :=
  inferInstanceAs (Decidable (_ = _))

theorem depth?_cons (d : Nat) (c : Char) (cs : List Char) :
    depth? d (c :: cs) = (step? d c).bind fun e => depth? e cs :=
  rfl

theorem depth?_append (d : Nat) (xs ys : List Char) :
    depth? d (xs ++ ys) = (depth? d xs).bind fun e => depth? e ys :=
  List.foldlM_append

/-- A character that is read at some depth is read the same further in. The converse
    fails: what closes too early at one depth need not do so at a greater one. -/
theorem step?_add {d e : Nat} {c : Char} (h : step? d c = some e) (k : Nat) :
    step? (d + k) c = some (e + k) := by
  unfold step? at h ⊢
  -- There are three kinds of characters, and only a closing brace looks at the depth.
  by_cases hopen : c = '\x7b'
  · rw [if_pos hopen, Option.some_inj] at h
    rw [if_pos hopen, Option.some_inj]
    omega
  · rw [if_neg hopen] at h ⊢
    by_cases hclose : c = '\x7d'
    · rw [if_pos hclose] at h ⊢
      cases d with
      | zero => exact absurd h (by simp only [reduceCtorEq, not_false_eq_true])
      | succ d =>
          rw [Nat.add_right_comm]
          exact congrArg some (congrArg (· + k) (Option.some_inj.mp h))
    · rw [if_neg hclose, Option.some_inj] at h
      rw [if_neg hclose, h]

/-- A text reads the same within further braces. -/
theorem depth?_add {d e : Nat} {cs : List Char} (h : depth? d cs = some e) (k : Nat) :
    depth? (d + k) cs = some (e + k) := by
  -- The depth is generalized, since every character may change it.
  induction cs generalizing d with
  | nil => exact congrArg some (congrArg (· + k) (Option.some_inj.mp h))
  | cons c cs ih =>
      rw [depth?_cons, Option.bind_eq_some_iff] at h
      rcases h with ⟨f, hstep, hrest⟩
      rw [depth?_cons, step?_add hstep k]
      exact ih hrest

/-- A balanced text leads back to where it begins, whatever the depth. -/
theorem Balanced.depth? {cs : List Char} (h : Balanced cs) (d : Nat) :
    depth? d cs = some d := by
  have hadd := depth?_add h d
  rwa [Nat.zero_add] at hadd

theorem Balanced.append {xs ys : List Char} (hxs : Balanced xs) (hys : Balanced ys) :
    Balanced (xs ++ ys) := by
  rw [Balanced, depth?_append, hxs]
  exact hys

theorem depth?_newline (d : Nat) (cs : List Char) : depth? d ('\n' :: cs) = depth? d cs := rfl

/-- A text without braces leads back as well, whatever else is in it. -/
theorem depth?_of_notMem {cs : List Char} (h : ∀ c ∈ cs, c ≠ '\x7b' ∧ c ≠ '\x7d') (d : Nat) :
    depth? d cs = some d := by
  induction cs with
  | nil => rfl
  | cons c cs ih =>
      rw [List.forall_mem_cons] at h
      have hstep : step? d c = some d := by
        unfold step?
        rw [if_neg h.1.1, if_neg h.1.2]
      rw [depth?_cons, hstep]
      exact ih h.2

theorem depth?_indent {cs : List Char} (h : ∀ c ∈ cs, isIndent c) (d : Nat) :
    depth? d cs = some d := by
  refine depth?_of_notMem (fun c hc => ⟨?_, ?_⟩) d <;> rintro rfl <;>
    exact absurd (h _ hc) (by decide)

variable (ind : Indentation)

/-- The depth is a matter of the lines, whatever they are indented by. -/
theorem depth?_render (d : Nat) (ls : List Line) :
    depth? d (render ind ls).toList = depth? d (spelled ls).flatten := by
  induction ls generalizing d with
  | nil => rfl
  | cons l ls ih =>
      have hindent (d : Nat) : depth? d (ind.text l.level).toList = some d :=
        depth?_indent (fun c hc => isIndent_of_mem_text ind hc) d
      rw [toList_render_cons, depth?_append, depth?_append, hindent, Option.bind_some, spelled,
        List.flatten_cons, depth?_append]
      refine Option.bind_congr fun e _ => ?_
      rw [depth?_newline, ih]

/-- A text holds an opening phrase, which opens a brace, and then the block up
    to the brace that closes it. -/
def HasObject (opening : String) (block s : List Char) : Prop :=
  opening.toList ++ block ++ "\x7d,".toList <:+: s ∧ Balanced block

theorem HasObject.mono {opening : String} {block s t : List Char}
    (h : HasObject opening block s) (hst : s <:+: t) : HasObject opening block t :=
  ⟨h.1.trans hst, h.2⟩

/-- Indentation at the end of a block, before the brace that closes it, declares no
    field. -/
theorem fields_append_indent {xs ys : List Char} (hys : ∀ c ∈ ys, isIndent c) :
    fields (xs ++ '\n' :: ys) = fields (xs ++ ['\n']) := by
  have hfeed : '\n' ∉ ys := fun hmem => absurd (hys _ hmem) (by decide)
  have hread : readTexts (xs ++ '\n' :: ys) = readTexts (xs ++ ['\n']) := by
    rw [readTexts, readTexts, List.splitOn_append_cons_self, List.splitOn_append_cons_self,
      List.splitOn_eq_singleton hfeed, List.map_append, List.map_append, List.map_singleton,
      List.dropWhile_eq_nil_iff.mpr hys]
    rfl
  rw [fields, fields, hread]

/-- Every part is in the whole. It is needed to find a line in the text that it was cut
    from. -/
theorem infix_intercalate {α : Type} (sep : List α) {part : List α} {parts : List (List α)}
    (h : part ∈ parts) : part <:+: sep.intercalate parts := by
  induction parts with
  | nil => exact absurd h List.not_mem_nil
  | cons p ps ih =>
      cases ps with
      | nil =>
          rw [List.intercalate_singleton, List.mem_singleton.mp h]
      | cons q qs =>
          rw [List.intercalate_cons_cons]
          rcases List.mem_cons.mp h with rfl | hrest
          · -- A part stands at the beginning, or else in what comes after a separator.
            rw [List.append_assoc]
            exact (List.prefix_append part _).isInfix
          · exact (ih hrest).trans (List.suffix_append _ _).isInfix

theorem prefix_of_fieldName? {name line : List Char} (h : fieldName? line = some name) :
    name <+: line := by
  unfold fieldName? at h
  split at h
  · rw [← Option.some_inj.mp h]
    exact List.takeWhile_prefix _
  · rw [← Option.some_inj.mp h]
    exact List.takeWhile_prefix _
  · exact absurd h (by simp only [reduceCtorEq, not_false_eq_true])

/-- A declared field stands in one of the lines, at whatever depth these are read. -/
theorem infix_of_mem_fieldsFrom {name : List Char} {depth : Nat} {lines : List (List Char)}
    (h : name ∈ fieldsFrom depth lines) : ∃ line ∈ lines, name <:+: line := by
  induction lines generalizing depth with
  | nil => exact absurd h List.not_mem_nil
  | cons line lines ih =>
      rw [fieldsFrom, List.mem_append] at h
      rcases h with hhere | hlater
      · have hfield : fieldName? line = some name := by
          split at hhere
          · exact Option.mem_toList.mp hhere
          · exact absurd hhere List.not_mem_nil
        exact ⟨line, List.mem_cons_self, (prefix_of_fieldName? hfield).isInfix⟩
      · rcases ih hlater with ⟨l, hl, hoccurs⟩
        exact ⟨l, List.mem_cons_of_mem line hl, hoccurs⟩

/-- A field that is declared occurs. -/
theorem infix_of_mem_fields {name block : List Char} (h : name ∈ fields block) :
    name <:+: block := by
  rcases infix_of_mem_fieldsFrom h with ⟨line, hline, hoccurs⟩
  rcases List.mem_map.mp hline with ⟨part, hpart, rfl⟩
  -- From the line without its indentation to the line, and from there to the block.
  have hblock := infix_intercalate ['\n'] hpart
  rw [List.intercalate_splitOn] at hblock
  exact (hoccurs.trans (List.dropWhile_suffix _).isInfix).trans hblock

/-- Lines, as they are spelled, that an object can hold: they are plain,
    together they are balanced, and they declare the given fields. -/
def Encloses (names lines : List (List Char)) : Prop :=
  (∀ cs ∈ lines, '\n' ∉ cs ∧ cs.dropWhile isIndent = cs) ∧ Balanced lines.flatten
    ∧ fieldsFrom 0 lines = names

instance (names lines : List (List Char)) : Decidable (Encloses names lines) :=
  inferInstanceAs (Decidable (_ ∧ _ ∧ _))

/-- Lines in braces are rendered as an object that declares their fields. -/
theorem exists_object_of_encloses {head opening : String} {body : List Line}
    {names : List (List Char)} (hopening : head ++ "\x7b" = opening)
    (h : Encloses names (spelled body)) :
    ∃ block, HasObject ("\n" ++ ind.text 1 ++ opening) block
        ('\n' :: (render ind (braced 1 head body ",")).toList)
      ∧ fields block = names ∧ (render ind body).toList <:+: block := by
  rcases h with ⟨hplain, hbalanced, hfields⟩
  have hindent : ∀ c ∈ (ind.text 1).toList, isIndent c := fun c hc => isIndent_of_mem_text ind hc
  -- The block ends with the indentation of the closing brace.
  refine ⟨'\n' :: (render ind body).toList ++ (ind.text 1).toList, ⟨⟨[], ['\n'], ?_⟩, ?_⟩, ?_, ?_⟩
  · -- The object begins after the line feed and ends before the last one.
    have hlines : braced 1 head body "," = ⟨1, opening⟩ :: (body ++ [⟨1, "\x7d,"⟩]) := by
      rw [braced, hopening]
      rfl
    rw [hlines, toList_render_cons, render_append]
    simp only [String.toList_append, toList_render_cons, List.append_assoc, List.cons_append,
      List.nil_append]
    rfl
  · rw [Balanced, depth?_append, depth?_newline, depth?_render, hbalanced]
    exact depth?_indent hindent 0
  · -- The fields are read from a text that ends with a line feed, which the indentation
    -- has to be cut off from.
    have hends : ∃ us, '\n' :: (render ind body).toList = us ++ ['\n'] := by
      rcases render_eq_lines ind body with hnil | ⟨us, hus⟩
      · exact ⟨[], congrArg (List.cons '\n') hnil⟩
      · exact ⟨'\n' :: us, congrArg (List.cons '\n') hus⟩
    rcases hends with ⟨us, hus⟩
    rw [hus, List.append_assoc, List.singleton_append, fields_append_indent hindent, ← hus,
      fields_render ind (forall_text_of_spelled hplain), hfields]
  · exact ⟨['\n'], (ind.text 1).toList, rfl⟩

/-- Where balanced text is followed by a brace without a comma, an object that
    begins before that text ends before it as well. -/
theorem infix_of_object {opening block xs ys rest after : List Char} (hblock : Balanced block)
    (hys : Balanced ys) (hrest : ',' ∉ rest)
    (h : opening ++ xs ++ (ys ++ '\x7d' :: rest)
      = opening ++ block ++ '\x7d' :: ',' :: after) : block <:+: xs := by
  rw [List.append_assoc, List.append_assoc, List.append_cancel_left_eq] at h
  rcases List.append_eq_append_iff.mp h with ⟨w, rfl, hw⟩ | ⟨w, rfl, _⟩
  · exfalso
    -- The block would reach into the balanced text from some depth `d`.
    rw [Balanced, depth?_append, Option.bind_eq_some_iff] at hblock
    rcases hblock with ⟨d, _, hdepth⟩
    rcases List.append_eq_append_iff.mp hw with ⟨r, rfl, hr⟩ | ⟨r, rfl, hr⟩
    · -- It cannot end after that text, where no comma follows,
      have hcomma : ',' ∈ '\x7d' :: rest := by
        rw [hr]
        exact List.mem_append_right r (List.mem_cons_of_mem _ List.mem_cons_self)
      rw [List.mem_cons] at hcomma
      exact hcomma.elim (by decide) hrest
    · -- nor within it, where that brace would close something else.
      have hdown := hys.depth? d
      rw [depth?_append, hdepth, Option.bind_some] at hdown
      cases r with
      | nil =>
          rw [List.nil_append, List.cons.injEq] at hr
          exact hrest (hr.2 ▸ List.mem_cons_self)
      | cons c r =>
          rw [List.cons_append, List.cons.injEq] at hr
          rw [← hr.1] at hdown
          exact absurd hdown (by simp [depth?_cons, step?])
  · exact (List.prefix_append block w).isInfix

end Scaffold.Script
