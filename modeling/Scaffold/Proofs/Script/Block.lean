import Scaffold.Proofs.Script.Rendering
import Scaffold.Proofs.Script.Spelling

/-!
# Blocks of Generated Code

Blocks as a reader of code finds them in a text: what stands between an
opening phrase and the closing phrase that comes first after it.

Lines between braces are rendered as such a block. The fields that a block
declares are read from its lines, at its own depth: the depth goes up and
down with the braces, so the fields of an object inside of the block are not
taken for fields of the block, whatever the lines are indented by.

## Main definitions

* `HasBlock`: A text holds a block between two phrases.
* `fields`: The fields that a block declares.
* `Declares`: Lines that declare given fields in a block.

## Theorems

* `HasBlock.mono`: A longer text holds the same blocks.
* `fields_render`: The fields of rendered lines.
* `hasBlock_braced`: Lines between braces are a block.
* `exists_block_of_declares`: Lines between braces declare their fields.
-/

namespace Scaffold.Script

open Text

/-- A text holds an opening phrase, then the block, and then the first closing
    phrase after the opening. -/
def HasBlock (opening closing : String) (block s : List Char) : Prop :=
  opening.toList ++ block ++ closing.toList <:+: s ∧ ¬ closing.toList <:+: block

/-- A longer text holds the same blocks: whether the closing phrase comes first is a
    matter of the block. -/
theorem HasBlock.mono {opening closing : String} {block s t : List Char}
    (h : HasBlock opening closing block s) (hst : s <:+: t) :
    HasBlock opening closing block t :=
  ⟨h.1.trans hst, h.2⟩

/-- The field that a line declares: a word, a question mark if the field is
    optional, and a colon. -/
def fieldName? (line : List Char) : Option (List Char) :=
  match line.dropWhile Char.isAlpha with
  | ':' :: _ => some (line.takeWhile Char.isAlpha)
  | '?' :: ':' :: _ => some (line.takeWhile Char.isAlpha)
  | _ => none

/-- The depth after a line, from the braces in it. -/
def depthAfter (depth : Nat) (line : List Char) : Nat :=
  depth + line.count '\x7b' - line.count '\x7d'

/-- The fields that lines declare at depth zero. -/
def fieldsFrom : Nat → List (List Char) → List (List Char)
  | _, [] => []
  | depth, line :: lines =>
    (if depth = 0 then (fieldName? line).toList else [])
      ++ fieldsFrom (depthAfter depth line) lines

/-- The fields that a block declares. -/
def fields (block : List Char) : List (List Char) := fieldsFrom 0 (readTexts block)

/-- An empty line at the end declares nothing. -/
theorem fieldsFrom_append_blank (depth : Nat) (lines : List (List Char)) :
    fieldsFrom depth (lines ++ [[]]) = fieldsFrom depth lines := by
  induction lines generalizing depth with
  | nil =>
      rw [List.nil_append, fieldsFrom, fieldsFrom, fieldsFrom]
      split <;> rfl
  | cons line lines ih => rw [List.cons_append, fieldsFrom, fieldsFrom, ih]

variable (ind : Indentation)

/-- The fields of rendered lines are read from the texts, so indentation does not
    matter. -/
theorem fields_render {body : List Line} (h : ∀ l ∈ body, l.IsPlain) :
    fields ('\n' :: (render ind body).toList) = fieldsFrom 0 (spelled body) := by
  -- The block begins and ends with an empty line, neither of which has a field.
  have hread : readTexts ('\n' :: (render ind body).toList) = [] :: (spelled body ++ [[]]) := by
    rw [spelled_eq_map, ← readTexts_render ind h]
    rfl
  rw [fields, hread, fieldsFrom]
  exact fieldsFrom_append_blank 0 (spelled body)

-- A nested line and the closing brace of a field are not fields.
example : fields "\n  value?: \x7b\n    nested: 1,\n  \x7d,\n  other: 0,\n".toList =
    ["value".toList, "other".toList] := by rfl

/-- Lines between braces are a block. -/
theorem hasBlock_braced {opening head tail closing : String} {body : List Line}
    (hopening : head ++ "\x7b" = opening) (hclosing : "\x7d" ++ tail = closing)
    (htail : '\n' ∉ tail.toList) (hbody : ∀ l ∈ body, ¬ closing.toList <:+: l.text.toList) :
    HasBlock opening closing ('\n' :: (render ind body).toList)
      (render ind (braced 0 head body tail)).toList := by
  have hlevel : (ind.text ((0 : Nat) : Int)).toList = [] := by
    rw [Int.ofNat_zero, Indentation.text_zero]
    rfl
  have hbrace : closing.toList = '\x7d' :: tail.toList := by
    rw [← hclosing, String.toList_append]
    rfl
  constructor
  · refine ⟨[], ['\n'], ?_⟩
    have hlast : (render ind [⟨0, closing⟩]).toList = closing.toList ++ ['\n'] := by
      rw [toList_render_cons, hlevel]
      rfl
    rw [braced, block, hopening, hclosing, List.cons_append, toList_render_cons, hlevel,
      render_append]
    simp only [String.toList_append, hlast, List.nil_append, List.append_assoc,
      List.cons_append]
  · -- The closing phrase would have to begin in one of the lines.
    have hinline : isInline closing.toList := by
      rw [hbrace, isInline, List.contains_cons]
      simpa [isIndent] using htail
    rw [List.infix_cons_iff, not_or]
    constructor
    · rw [hbrace, List.cons_prefix_cons]
      exact fun h => absurd h.1 (by decide)
    · rw [infix_render_iff ind hinline]
      rintro ⟨l, hl, hinfix⟩
      exact hbody l hl hinfix

/-- Lines, as they are spelled, that declare the given fields in a block with
    the given closing: they are plain, and do not close the block. -/
def Declares (closing : List Char) (names lines : List (List Char)) : Prop :=
  (∀ cs ∈ lines, '\n' ∉ cs ∧ cs.dropWhile isIndent = cs ∧ ¬ closing <:+: cs)
    ∧ fieldsFrom 0 lines = names

instance (closing : List Char) (names lines : List (List Char)) :
    Decidable (Declares closing names lines) :=
  inferInstanceAs (Decidable (_ ∧ _))

/-- Lines between braces declare their fields. -/
theorem exists_block_of_declares {opening head tail closing : String} {body : List Line}
    {names : List (List Char)} (hopening : head ++ "\x7b" = opening)
    (hclosing : "\x7d" ++ tail = closing) (htail : '\n' ∉ tail.toList)
    (h : Declares closing.toList names (spelled body)) :
    ∃ block, HasBlock opening closing block (render ind (braced 0 head body tail)).toList
      ∧ fields block = names := by
  have htext := forall_text_of_spelled h.1
  have hplain : ∀ l ∈ body, l.IsPlain := fun l hl => ⟨(htext l hl).1, (htext l hl).2.1⟩
  refine ⟨'\n' :: (render ind body).toList, hasBlock_braced ind hopening hclosing htail ?_, ?_⟩
  · exact fun l hl => (htext l hl).2.2
  · exact (fields_render ind hplain).trans h.2

end Scaffold.Script
