import Mathlib.Data.List.Basic

/-!
# Brackets

Texts in which brackets of three kinds close each other as they should.

`IsNested` says what that means, as a grammar: any other character may be put in
front, and a pair of brackets of one kind may be put around a nested text, with
another behind it. The grammar does not say how to find out whether a text is of
that form, nor what can be said of a text that is only the beginning of one.
Both are answered by reading the text once and keeping the closing brackets that
are still awaited, the innermost first (`awaited?`). Reading is compatible with
putting texts together, so what is known of the parts of a text is enough to
know the whole, and the two descriptions agree (`isNested_iff`).

How deep a place in a text is nested is the number of brackets that are awaited
there, and which ones they are says what the place is inside of.

## Main definitions

* `closer?`, `isCloser`: The brackets that open and those that close.
* `IsNested`: Texts whose brackets close each other as they should.
* `awaited?`: The closing brackets that are awaited after a text.
* `openCount?`: How many these are.

## Theorems

* `awaited?_append`: Texts are read one after the other.
* `awaited?_of_plain`: A text without brackets changes nothing.
* `awaited?_of_isNested`: Neither does a nested one, wherever it stands.
* `isNested_iff`: A text is nested if nothing is awaited in the end.
-/

namespace Scaffold.Text

/-- The bracket that closes an opening one. -/
def closer? (c : Char) : Option Char :=
  if c = '(' then some ')'
  else if c = '[' then some ']'
  else if c = '\x7b' then some '\x7d'
  else none

/-- Whether a character is a closing bracket. -/
def isCloser (c : Char) : Bool := c == ')' || c == ']' || c == '\x7d'

/-- Whether a character is a bracket. -/
def isBracket (c : Char) : Bool := (closer? c).isSome || isCloser c

/-- A text whose brackets close each other as they should. -/
inductive IsNested : List Char → Prop
  | nil : IsNested []
  | skip {c : Char} {cs : List Char} (hc : isBracket c = false) (hcs : IsNested cs) :
      IsNested (c :: cs)
  | pair {o c : Char} {xs ys : List Char} (hpair : closer? o = some c) (hxs : IsNested xs)
      (hys : IsNested ys) : IsNested (o :: (xs ++ c :: ys))

/-- The closing brackets that are awaited after one more character, the innermost
    first. There are none if a bracket is closed that is not awaited. -/
def await? (stack : List Char) (c : Char) : Option (List Char) :=
  match closer? c with
  | some d => some (d :: stack)
  | none =>
    if isCloser c then
      match stack with
      | [] => none
      | d :: ds => if c = d then some ds else none
    else some stack

/-- The closing brackets that are awaited after a text. -/
def awaited? (stack : List Char) (cs : List Char) : Option (List Char) := cs.foldlM await? stack

/-- How many brackets are open after a text, if none was closed that was not
    awaited. -/
def openCount? (cs : List Char) : Option Nat := (awaited? [] cs).map List.length

theorem await?_of_plain {c : Char} (h : isBracket c = false) (stack : List Char) :
    await? stack c = some stack := by
  rw [isBracket, Bool.or_eq_false_iff, Option.isSome_eq_false_iff, Option.isNone_iff_eq_none] at h
  unfold await?
  rw [h.1, h.2]
  rfl

/-- A bracket that opens is answered by its own closing one. -/
theorem await?_of_closer {o c : Char} (h : closer? o = some c) (stack : List Char) :
    await? stack o = some (c :: stack) := by
  unfold await?
  rw [h]

/-- A closing bracket does not open anything. -/
theorem closer?_of_isCloser {c : Char} (h : isCloser c) : closer? c = none := by
  simp only [isCloser, Bool.or_eq_true, beq_iff_eq] at h
  rcases h with (rfl | rfl) | rfl <;> rfl

theorem isCloser_of_closer? {o c : Char} (h : closer? o = some c) : isCloser c := by
  unfold closer? at h
  split at h
  · rw [← Option.some_inj.mp h]; rfl
  · split at h
    · rw [← Option.some_inj.mp h]; rfl
    · split at h
      · rw [← Option.some_inj.mp h]; rfl
      · exact absurd h (by simp only [reduceCtorEq, not_false_eq_true])

theorem await?_self {c : Char} (h : isCloser c) (stack : List Char) :
    await? (c :: stack) c = some stack := by
  unfold await?
  rw [closer?_of_isCloser h]
  simp only [h, if_true]

@[simp]
theorem awaited?_nil (stack : List Char) : awaited? stack [] = some stack := rfl

theorem awaited?_cons (stack : List Char) (c : Char) (cs : List Char) :
    awaited? stack (c :: cs) = (await? stack c).bind fun s => awaited? s cs :=
  rfl

/-- Texts are read one after the other. -/
theorem awaited?_append (stack xs ys : List Char) :
    awaited? stack (xs ++ ys) = (awaited? stack xs).bind fun s => awaited? s ys :=
  List.foldlM_append

theorem awaited?_append_of_eq {stack stack' xs : List Char} (h : awaited? stack xs = some stack')
    (ys : List Char) : awaited? stack (xs ++ ys) = awaited? stack' ys := by
  rw [awaited?_append, h, Option.bind_some]

/-- A text without brackets changes nothing. -/
theorem awaited?_of_plain {cs : List Char} (h : ∀ c ∈ cs, isBracket c = false)
    (stack : List Char) : awaited? stack cs = some stack := by
  induction cs with
  | nil => rfl
  | cons c cs ih =>
      rw [List.forall_mem_cons] at h
      rw [awaited?_cons, await?_of_plain h.1, Option.bind_some]
      exact ih h.2

/-- A nested text changes nothing, wherever it stands. -/
theorem awaited?_of_isNested {cs : List Char} (h : IsNested cs) (stack : List Char) :
    awaited? stack cs = some stack := by
  -- Induction on the grammar, for any brackets around the text.
  induction h generalizing stack with
  | nil => rfl
  | skip hc _ ih => rw [awaited?_cons, await?_of_plain hc, Option.bind_some, ih]
  | pair hpair _ _ ihxs ihys =>
      rw [awaited?_cons, await?_of_closer hpair, Option.bind_some, awaited?_append_of_eq (ihxs _),
        awaited?_cons, await?_self (isCloser_of_closer? hpair), Option.bind_some, ihys]

/-- A text that closes the given brackets, one after the other, and is nested
    between them. -/
def Closes : List Char → List Char → Prop
  | [], cs => IsNested cs
  | d :: ds, cs => ∃ xs ys, cs = xs ++ d :: ys ∧ IsNested xs ∧ Closes ds ys

/-- Other characters can be put in front of what closes the brackets. -/
theorem closes_cons_of_plain {c : Char} (hc : isBracket c = false) {stack cs : List Char}
    (h : Closes stack cs) : Closes stack (c :: cs) := by
  cases stack with
  | nil => exact .skip hc h
  | cons d ds =>
      rcases h with ⟨xs, ys, rfl, hxs, hys⟩
      exact ⟨c :: xs, ys, rfl, .skip hc hxs, hys⟩

/-- A pair is put in front of what closes the brackets around it. -/
theorem closes_pair {o c : Char} (hpair : closer? o = some c) {stack xs ys : List Char}
    (hxs : IsNested xs) (h : Closes stack ys) : Closes stack (o :: (xs ++ c :: ys)) := by
  cases stack with
  | nil => exact .pair hpair hxs h
  | cons d ds =>
      rcases h with ⟨us, vs, rfl, hus, hvs⟩
      refine ⟨o :: (xs ++ c :: us), vs, ?_, .pair hpair hxs hus, hvs⟩
      simp only [List.cons_append, List.append_assoc]

/-- What is read until nothing is awaited closes what was awaited. -/
theorem closes_of_awaited? {stack cs : List Char} (h : awaited? stack cs = some []) :
    Closes stack cs := by
  -- Induction on the text, since brackets that are open in between have to be allowed
  -- for.
  induction cs generalizing stack with
  | nil =>
      rw [awaited?_nil, Option.some_inj] at h
      rw [h]
      exact .nil
  | cons c cs ih =>
      rw [awaited?_cons, Option.bind_eq_some_iff] at h
      rcases h with ⟨s, hstep, hrest⟩
      have hcloses := ih hrest
      unfold await? at hstep
      split at hstep
      · -- The bracket that opens is closed first, and the rest closes what was awaited
        -- before.
        next d hopen =>
          rw [← Option.some_inj.mp hstep] at hcloses
          rcases hcloses with ⟨xs, ys, rfl, hxs, hys⟩
          exact closes_pair hopen hxs hys
      · next hopen =>
          by_cases hcloser : isCloser c = true
          · -- A closing bracket has to be the one that is awaited.
            rw [if_pos hcloser] at hstep
            split at hstep
            · exact absurd hstep (by simp only [reduceCtorEq, not_false_eq_true])
            · split at hstep
              · next hcd =>
                  rw [← Option.some_inj.mp hstep] at hcloses
                  exact ⟨[], cs, by rw [hcd, List.nil_append], .nil, hcloses⟩
              · exact absurd hstep (by simp only [reduceCtorEq, not_false_eq_true])
          · rw [if_neg hcloser, Option.some_inj] at hstep
            rw [← hstep] at hcloses
            refine closes_cons_of_plain ?_ hcloses
            rw [isBracket, hopen, Bool.eq_false_iff.mpr hcloser]
            rfl

/-- A text is nested if nothing is awaited in the end. -/
theorem isNested_iff {cs : List Char} : IsNested cs ↔ awaited? [] cs = some [] :=
  ⟨fun h => awaited?_of_isNested h [], fun h => closes_of_awaited? h⟩

instance (cs : List Char) : Decidable (IsNested cs) := decidable_of_iff _ isNested_iff.symm

theorem IsNested.append {xs ys : List Char} (hxs : IsNested xs) (hys : IsNested ys) :
    IsNested (xs ++ ys) := by
  rw [isNested_iff, awaited?_append_of_eq (awaited?_of_isNested hxs [])]
  exact awaited?_of_isNested hys []

-- Brackets of different kinds may not cross.
example : IsNested "f(\x7b a: [] \x7d)".toList ∧ ¬ IsNested "(\x7b ) \x7d".toList := by decide

end Scaffold.Text
