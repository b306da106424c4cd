/-
# Forms of commands

A command takes switches, some of them with a value, and operands. A line of arguments that does
not fit its form is refused with a message, in which arguments stand as a terminal shows them. What
switches, operands and commands are for is said in their forms, for the help texts.

Key definitions: `Switch`, `Operand`, `Form`, `UsageError`, `UsageError.message`,
`UsageError.advice`.
-/
import Lexgen.Text.Similarity
import Lexgen.Text.Terminal

namespace Lexgen.Command

open Lexgen.Text (isSimilar shown)

/-- The name of the program. -/
def programName : String := "pac"

/-- The version of the program. -/
def programVersion : String := "0.1.0"

/-- What a switch does when it is met. -/
inductive Effect where
  /-- It counts as given. -/
  | mark
  /-- It takes a value, which goes by a name in messages. -/
  | value (name : String)
  /-- It asks for help. -/
  | help
  /-- It asks for the version. -/
  | version
deriving DecidableEq, Repr

/-- A switch, written with two hyphens or, by its letter, with one. -/
structure Switch where
  long : String
  letter : Option Char := none
  effect : Effect := .mark
  /-- What it is for. -/
  about : String
  /-- The value that it has if it is not given. -/
  initial : Option String := none
deriving DecidableEq, Repr

/-- A switch in messages. -/
def Switch.label (s : Switch) : String :=
  match s.effect with
  | .value name => "--" ++ s.long ++ " <" ++ name ++ ">"
  | _ => "--" ++ s.long

/-- The operand of a command: one that has to be there, or any number. -/
structure Operand where
  name : String
  /-- What it is. -/
  about : String
  many : Bool := false
  /-- The only values that it may have, if not all. -/
  choices : Option (List String) := none
deriving DecidableEq, Repr

/-- An operand in messages. -/
def Operand.label (o : Operand) : String :=
  if o.many then "[" ++ o.name ++ "]..." else "<" ++ o.name ++ ">"

/-- The form of a command. -/
structure Form where
  name : String
  /-- What the command does. -/
  about : String
  switches : List Switch
  operand : Option Operand := none
deriving DecidableEq, Repr

/-- Whether a name that no switch of the command has is one misspelled. -/
def Form.resembles (f : Form) (name : String) : Bool :=
  f.switches.any fun s => isSimilar name s.long

/-- Why a line of arguments is refused. -/
inductive UsageError where
  | unexpected (argument : String)
  /-- There is no such switch; it may have been meant as an operand. -/
  | unknownSwitch (argument : String) (maybeOperand : Bool)
  | unrecognized (command : String)
  | noValue (label : String)
  | repeated (label : String)
  | surplusValue (value label : String)
  | invalidValue (value label : String)
  | missing (label : String)
  | noCommand
deriving DecidableEq, Repr

/-- The wording of a refusal. -/
def UsageError.message : UsageError → String
  | .unexpected argument => "unexpected argument '" ++ shown argument ++ "' found"
  | .unknownSwitch argument _ => "unexpected argument '" ++ shown argument ++ "' found"
  | .unrecognized command => "unrecognized subcommand '" ++ shown command ++ "'"
  | .noValue label => "a value is required for '" ++ label ++ "' but none was supplied"
  | .repeated label => "the argument '" ++ label ++ "' cannot be used multiple times"
  | .surplusValue value label =>
    "unexpected value '" ++ shown value ++ "' for '" ++ label ++ "' found; no more were expected"
  | .invalidValue value label => "invalid value '" ++ shown value ++ "' for '" ++ label ++ "'"
  | .missing label => "the following required arguments were not provided:\n  " ++ label
  | .noCommand => "'" ++ programName ++ "' requires a subcommand but one was not provided"

/-- The lines of advice behind the wording. -/
def UsageError.advice : UsageError → List String
  | .unknownSwitch argument true =>
    ["", "  tip: to pass '" ++ shown argument ++ "' as a value, use '" ++
      shown ("-- " ++ argument) ++ "'"]
  | _ => []

end Lexgen.Command
