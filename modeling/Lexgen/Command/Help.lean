/-
# Help texts

A help text says what a command does and how it is called. Then it lists what may follow in
sections, each of them a column of labels with a column of explanations beside it.

Key definitions: `Row`, `sectionLines`, `Form.usage`, `Form.help`.
-/
import Lexgen.Command.Form

namespace Lexgen.Command

/-- A line of a section: a label and its explanation, with a mark in front of the label. -/
structure Row where
  mark : String := ""
  label : String
  text : String
deriving DecidableEq, Repr

/-- The width of the widest label. -/
def widest (rows : List Row) : Nat :=
  rows.foldl (fun width row => max width row.label.length) 0

/-- The lines of a section; one without rows is left out, and a blank line goes before the
others. -/
def sectionLines (title : String) (rows : List Row) : List String :=
  let line (row : Row) : String :=
    "  " ++ row.mark ++ row.label.pushn ' ' (widest rows + 2 - row.label.length) ++ row.text
  if rows.isEmpty then [] else "" :: (title ++ ":") :: rows.map line

/-- The row of a command. -/
def Form.row (f : Form) : Row := { label := f.name, text := f.about }

/-- The row of an operand. -/
def Operand.row (o : Operand) : Row :=
  let choices := match o.choices with
    | none => ""
    | some values => " [possible values: " ++ ", ".intercalate values ++ "]"
  { label := o.label, text := o.about ++ choices }

/-- The row of a switch. -/
def Switch.row (s : Switch) : Row :=
  let mark := match s.letter with
    | none => "    "
    | some c => String.ofList ['-', c, ',', ' ']
  let initial := match s.initial with
    | none => ""
    | some value => " [default: " ++ value ++ "]"
  { mark, label := s.label, text := s.about ++ initial }

/-- How a command is called; one without an operand goes before another command. -/
def Form.usage (f : Form) : String :=
  let caller := if f.name = programName then "" else programName ++ " "
  let options := if f.switches.isEmpty then "" else " [OPTIONS]"
  let rest := match f.operand with
    | none => "<COMMAND>"
    | some o => o.label
  "Usage: " ++ caller ++ f.name ++ options ++ " " ++ rest

/-- The lines of the help text of a command with the commands that it goes before. -/
def Form.help (f : Form) (commands : List Form) : List String :=
  [f.about, "", f.usage] ++ sectionLines "Commands" (commands.map Form.row) ++
    sectionLines "Arguments" (f.operand.toList.map Operand.row) ++
    sectionLines "Options" (f.switches.map Switch.row)

end Lexgen.Command
