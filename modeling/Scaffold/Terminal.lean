/-!
# Terminal Messages

Coloured lines of output. A message is wrapped in the codes of its styles and
one reset; each kind of message has styles and a sign of its own.

## Main definitions

* `Style`, `Style.code`: The styles and the codes that switch them on.
* `paint`: A text in some styles.
* `Message`, `Message.line`: The kinds of messages, as lines of output.
-/

namespace Scaffold.Terminal

/-- A style of terminal output. -/
inductive Style where
  | header
  | cyan
  | green
  | yellow
  | red
  | reset
  | bold
  | dim
  deriving DecidableEq, Repr

/-- The code that switches a style on. -/
def Style.code : Style → String
  | header => "\x1b[95m"
  | cyan => "\x1b[96m"
  | green => "\x1b[92m"
  | yellow => "\x1b[93m"
  | red => "\x1b[91m"
  | reset => "\x1b[0m"
  | bold => "\x1b[1m"
  | dim => "\x1b[2m"

/-- A text in some styles, which end with it. -/
def paint (text : String) (styles : List Style) : String :=
  String.join (styles.map Style.code) ++ text ++ Style.reset.code

/-- A message to the user. -/
inductive Message where
  | header (text : String)
  | info (text : String)
  /-- A remark of less weight, such as the path of a file. -/
  | aside (text : String)
  | success (text : String)
  /-- Something to look at, though the work goes on. -/
  | warning (text : String)
  | failure (text : String)
  deriving DecidableEq, Repr

/-- The line that a message is shown as. -/
def Message.line : Message → String
  | header text => paint text [.header, .bold] ++ "\n"
  | info text => paint text [.cyan] ++ "\n"
  | aside text => paint text [.dim] ++ "\n"
  | success text => paint ("✓ " ++ text) [.green] ++ "\n"
  | warning text => paint ("⚠️  " ++ text) [.yellow] ++ "\n"
  | failure text => paint ("❌ " ++ text) [.red] ++ "\n"

end Scaffold.Terminal
