import HttpWorkbench.Assoc
import HttpWorkbench.Number.Typed
import HttpWorkbench.Text.Case
import HttpWorkbench.Text.Quoted
import HttpWorkbench.Text.Search
import HttpWorkbench.Value.Basic

/-!
# Command grammars

Which options a command takes, what follows each of them, and what may stand beside the options.
An option may be shortened to any beginning of its long name that no other option shares.
-/

namespace HttpWorkbench.CommandLine

/-- An argument as it was read. -/
inductive Argument where
  | present
  | text (s : Text)
  | number (n : Int)
  /-- Nothing, where only the separator stood in place of the argument. -/
  | emptied
  deriving DecidableEq, Repr

/-- The argument as a value. -/
def Argument.value : Argument → Value
  | .present => .bool true
  | .text s => .str s
  | .number n => .int n
  | .emptied => .list []

/-- The text of an argument that is one. -/
def Argument.text? : Argument → Option Text
  | .text s => some s
  | _ => none

/-- What the argument of an option has to be. -/
inductive Conversion where
  | any
  /-- One of the words, in any case. -/
  | choice (words : List Text)
  | integer
  deriving DecidableEq, Repr

/-- What an option does. -/
inductive OptionKind where
  | flag
  | argument (conversion : Conversion)
  /-- Show what the command takes, and end. -/
  | help
  /-- Show the version, and end. -/
  | version
  deriving DecidableEq, Repr

/-- An option with its names; the values are kept under the key. -/
structure OptionSpec where
  key : Text
  names : List Text
  kind : OptionKind
  deriving DecidableEq, Repr

/-- Whether the option takes an argument. -/
def OptionSpec.takesArgument (spec : OptionSpec) : Bool :=
  match spec.kind with
  | .argument _ => true
  | _ => false

/-- The option as messages name it. -/
def OptionSpec.shownName (spec : OptionSpec) : Text := Text.join "/" spec.names

/-- What may stand beside the options. -/
inductive Positional where
  | nothing
  /-- One optional argument, kept under the key. -/
  | one (key : Text)
  /-- The name of a command, followed by the command's own arguments. -/
  | command (names : List Text)
  deriving DecidableEq, Repr

/-- What a command takes. -/
structure Grammar where
  options : List OptionSpec
  positional : Positional
  deriving DecidableEq, Repr

namespace Grammar

/-- Every name of an option, in the order in which they are declared. -/
def names (g : Grammar) : List (Text × OptionSpec) :=
  g.options.flatMap fun spec => spec.names.map fun name => (name, spec)

/-- The option with exactly this name. -/
def option? (g : Grammar) (name : Text) : Option OptionSpec := Assoc.get? name g.names

/-- The options of which this is a beginning. -/
def startingWith (g : Grammar) (beginning : Text) : List (Text × OptionSpec) :=
  g.names.filter fun e => beginning.isPrefixOf e.1

end Grammar

/-- Why a command line is refused. -/
inductive UsageFault where
  | ambiguous (word : Text) (names : List Text)
  | unrecognized (words : List Text)
  | missingArgument (option : Text)
  | extraArgument (option explicit : Text)
  | badChoice (option given : Text) (words : List Text)
  | badInteger (option given : Text)
  deriving DecidableEq, Repr

/-- The fault in words. -/
def UsageFault.message : UsageFault → Text
  | .ambiguous word names =>
    "ambiguous option: " ++ word ++ " could match " ++ Text.join ", " names
  | .unrecognized words => "unrecognized arguments: " ++ Text.join " " words
  | .missingArgument option => "argument " ++ option ++ ": expected one argument"
  | .extraArgument option explicit =>
    "argument " ++ option ++ ": ignored explicit argument " ++ Text.quoted explicit
  | .badChoice option given words =>
    "argument " ++ option ++ ": invalid choice: " ++ Text.quoted given ++ " (choose from " ++
      Text.join ", " (words.map Text.quoted) ++ ")"
  | .badInteger option given =>
    "argument " ++ option ++ ": invalid int value: " ++ Text.quoted given

/-- How reading a command line ends early. -/
inductive Stop where
  | help
  | version
  | fault (fault : UsageFault)
  deriving DecidableEq, Repr

end HttpWorkbench.CommandLine
