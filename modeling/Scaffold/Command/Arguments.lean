/-!
# Command Line Arguments

How a list of arguments divides into options and the rest. A command has a
catalogue of options; each is a flag or takes a value, which is attached by an
equals sign or is the next argument, whatever that looks like. Two hyphens end
the options.

## Main definitions

* `OptionKind`, `OptionTable`: The options of a command.
* `Refusal`: What is wrong with an option.
* `Arguments`: Options in the order given, and the other arguments.
* `Arguments.read`: The division of a list of arguments.
* `Arguments.names`, `Arguments.value?`: The options that were given.
-/

namespace Scaffold.Command

/-- Whether an option takes a value. -/
inductive OptionKind where
  | flag
  | valued
  deriving DecidableEq, Repr

/-- The options of a command, by name. -/
abbrev OptionTable : Type := List (String × OptionKind)

/-- What is wrong with an option. -/
inductive Refusal where
  | unknown (name : String)
  | needsValue (name : String)
  | takesNoValue (name : String)
  deriving DecidableEq, Repr

/-- Options in the order given, with their values, and the other arguments. -/
structure Arguments where
  options : List (String × String) := []
  others : List String := []
  deriving Repr

namespace Arguments

/-- Whether an argument is an option: it has a hyphen and something after it. -/
def isOption (a : String) : Bool :=
  match a.toList with
  | '-' :: _ :: _ => true
  | _ => false

/-- The name of an option, and the value attached to it. -/
def split (a : String) : String × Option String :=
  let cs := a.toList
  let name := String.ofList (cs.takeWhile (· != '='))
  match cs.dropWhile (· != '=') with
  | [] => (name, none)
  | _ :: value => (name, some (String.ofList value))

/-- The name by which an unknown option is refused. After a single hyphen every
    letter would be an option of its own, so the first letter is unknown. -/
def unknownName (a : String) : String :=
  match a.toList with
  | '-' :: '-' :: _ => (split a).1
  | cs => String.ofList (cs.take 2)

/-- One more option in front. -/
def withOption (name value : String) (as : Arguments) : Arguments :=
  { as with options := (name, value) :: as.options }

/-- One more argument in front that is no option. -/
def withOther (a : String) (as : Arguments) : Arguments :=
  { as with others := a :: as.others }

/-- The division of a list of arguments. Where options may not be mixed with other
    arguments, the first other argument ends them. -/
def read (table : OptionTable) (mixed : Bool) : List String → Except Refusal Arguments
  | [] => .ok {}
  | a :: rest =>
    if a = "--" then .ok { others := rest }
    else if isOption a then
      let (name, attached?) := split a
      match table.lookup name, attached? with
      | none, _ => .error (.unknown (unknownName a))
      | some .flag, some _ => .error (.takesNoValue name)
      | some .flag, none => (read table mixed rest).map (withOption name "")
      | some .valued, some value => (read table mixed rest).map (withOption name value)
      | some .valued, none =>
        -- The next argument is the value, be it an option or two hyphens.
        match rest with
        | [] => .error (.needsValue name)
        | value :: rest => (read table mixed rest).map (withOption name value)
    else if mixed then (read table mixed rest).map (withOther a)
    else .ok { others := a :: rest }

/-- Whether an option was given. -/
def has (as : Arguments) (name : String) : Bool := as.options.any (·.1 == name)

/-- The value of an option. Of several, the last one counts. -/
def value? (as : Arguments) (name : String) : Option String :=
  as.options.reverse.lookup name

/-- The names of the options given, in the order in which each was first given. -/
def names (as : Arguments) : List String := (as.options.map Prod.fst).eraseDups

end Arguments

end Scaffold.Command
