import Scaffold.Text.Blank
import Scaffold.Text.Quoted

/-!
# Component Names

A component is asked for by a loosely written name, such as `my-button` or
`user_card.vue`, and is known by one in Pascal case. A name is trimmed and a
trailing `.vue` is taken off; what is left has to be letters, digits, hyphens
and underscores after a first letter.

The end of a name is also found before one last line feed, so a name such as
`a`, line feed, `.vue` is accepted; the line feed ends a word and leaves no
trace in the normal form.

## Main definitions

* `NameProblem`: Why a name is refused.
* `cleanName`: A name without surrounding blanks and without its suffix.
* `nameProblem?`: The first thing that is wrong with a name.
* `pascalCase`: Words joined, each with a capital.
* `normalizeName`: The name that a component goes by.
-/

namespace Scaffold

/-- Why a name is refused. -/
inductive NameProblem where
  | empty
  | malformed
  deriving DecidableEq, Repr

/-- What the user is told. -/
def NameProblem.message : NameProblem → String
  | empty => "Component name cannot be empty"
  | malformed =>
    "Component name must start with a letter and contain only "
      ++ "alphanumeric characters, hyphens, or underscores"

/-- A refused name, with the reason. -/
structure NameError where
  problem : NameProblem
  name : String
  deriving DecidableEq, Repr

/-- What the user is told, with the name as it was written. -/
def NameError.message (e : NameError) : String :=
  e.problem.message ++ ": " ++ Text.quote e.name

/-- A text without a trailing `.vue` in any letter case; at most one is
    taken off. -/
def dropVueSuffix (cs : List Char) : List Char :=
  match cs.reverse with
  | e :: u :: v :: '.' :: rest =>
    -- The text is matched from its end, so the letters come in reverse.
    if [v, u, e].map Char.toLower = ['v', 'u', 'e'] then rest.reverse else cs
  | _ => cs

/-- A name without surrounding blanks and then without its suffix. -/
def cleanName (name : String) : List Char :=
  dropVueSuffix (Text.trim name.toList)

/-- An ASCII letter. -/
def isNameStart (c : Char) : Bool := c.isAlpha

/-- An ASCII letter or digit, a hyphen or an underscore. -/
def isNameChar (c : Char) : Bool := c.isAlphanum || c == '-' || c == '_'

/-- Whether characters follow the grammar of names: one letter, then name
    characters, and possibly a line feed at the very end. -/
def isNameText : List Char → Bool
  | [] => false
  | c :: cs => isNameStart c && isNameTail cs
where
  /-- The part after the first letter. -/
  isNameTail : List Char → Bool
    | [] => true
    | ['\n'] => true
    | c :: cs => isNameChar c && isNameTail cs

/-- The first thing that is wrong with a name, if anything is. -/
def nameProblem? (name : String) : Option NameProblem :=
  let clean := cleanName name
  if clean.isEmpty then some .empty
  else if isNameText clean then none
  else some .malformed

/-- Whether a character ends a word: a hyphen, an underscore or a blank. -/
def isWordBreak (c : Char) : Bool := c == '-' || c == '_' || Text.isBlank c

/-- The words of a text joined, each with a capital and otherwise in lower
    case. The flag says whether the next character begins a word. -/
def pascalCase (begins : Bool) : List Char → List Char
  | [] => []
  | c :: cs =>
    if isWordBreak c then pascalCase true cs
    else (if begins then c.toUpper else c.toLower) :: pascalCase false cs

/-- The name that a component goes by: its words in Pascal case. -/
def normalizeName (name : String) : Except NameError String :=
  match nameProblem? name with
  | some problem => .error ⟨problem, name⟩
  | none => .ok (String.ofList (pascalCase true (cleanName name)))

end Scaffold
