/-
# Text as a terminal shows it

A text may hold control sequences, which a terminal obeys and does not show: the escape character
and what belongs to it, up to a final character or to the end of a string. Outside of them the
blank control characters show and the other ones do not. A blank control character inside a
sequence of the short kind shows too, and with it all text up to the next character that does not
show; only there the sequence goes on, unless the text had a character outside of ASCII, which ends
it.

Key definitions: `Sequence`, `Sequence.next`, `Scan`, `Scan.shows`, `Scan.step`, `shown`.
-/
namespace Lexgen.Text

/-- How much of a control sequence has been read. -/
inductive Sequence where
  | nothing
  /-- The escape character. -/
  | escape
  /-- Marks between the escape character and the final one. -/
  | marks
  /-- An opening bracket and perhaps parameters. -/
  | control
  /-- The start of a device control. -/
  | device
  /-- The parameters of a device control. -/
  | deviceParameters
  /-- Marks behind the parameters of a device control. -/
  | deviceMarks
  /-- A string that ends with the byte 9C. -/
  | string
  /-- A string that ends with a bell. -/
  | title
deriving DecidableEq, Repr

namespace Sequence

/-- The sequence behind its escape character and one more that may show. -/
def opened (c : Char) : Sequence :=
  if c ≤ '/' then .marks
  else match c with
    | '[' => .control
    | ']' => .title
    | 'P' => .device
    | 'X' => .string
    | '^' => .string
    | '_' => .string
    | _ => .nothing

/-- The sequence behind one more character from the space to the tilde. -/
def plainNext (s : Sequence) (c : Char) : Sequence :=
  match s with
  | .nothing => .nothing
  | .escape => opened c
  | .marks => if c ≤ '/' then .marks else .nothing
  | .control => if c ≤ '?' then .control else .nothing
  | .device => if c ≤ '/' then .deviceMarks else if c ≤ '?' then .deviceParameters else .string
  | .deviceParameters =>
    if c ≤ '/' then .deviceMarks else if c ≤ ';' then .deviceParameters else .string
  | .deviceMarks => if c ≤ '/' then .deviceMarks else .string
  | .string => .string
  | .title => .title

/-- The sequence behind one more character. An escape character starts anew, and two control
characters break off. -/
def next (s : Sequence) (c : Char) : Sequence :=
  if c = '\x1b' then .escape
  else if c = '\x18' ∨ c = '\x1a' then .nothing
  else if ' ' ≤ c ∧ c ≤ '~' then s.plainNext c
  else match s with
    | .title => if c = '\x07' then .nothing else s
    | .string => if (String.utf8EncodeChar c).contains 0x9C then .nothing else s
    | _ => s

/-- Whether control characters inside the sequence take effect. -/
def obeysControls : Sequence → Bool
  | .escape => true
  | .marks => true
  | .control => true
  | _ => false

end Sequence

/-- Whether a character is a blank control character. -/
def isBlankControl (c : Char) : Bool := c == '\t' || c == '\n' || c == '\x0c' || c == '\r'

/-- Whether a character is outside of ASCII. -/
def isWide (c : Char) : Bool := 0x80 ≤ c.toNat

/-- The state of reading a text. -/
structure Scan where
  sequence : Sequence := .nothing
  /-- Whether text shows although the sequence has not ended. -/
  passing : Bool := false
deriving DecidableEq, Repr

namespace Scan

/-- Whether text shows. -/
def isOpen (r : Scan) : Bool := r.sequence == .nothing || r.passing

/-- Whether a character shows. -/
def shows (r : Scan) (c : Char) : Bool :=
  if r.isOpen then isBlankControl c || isWide c || (' ' ≤ c && c ≤ '~')
  else isBlankControl c && r.sequence.obeysControls

/-- The state behind one more character. -/
def step (r : Scan) (c : Char) : Scan :=
  if r.shows c then if isWide c then {} else { r with passing := true }
  else { sequence := r.sequence.next c }

end Scan

/-- The characters that show behind those that have been read. -/
def shownFrom (r : Scan) : List Char → List Char
  | [] => []
  | c :: cs => if r.shows c then c :: shownFrom (r.step c) cs else shownFrom (r.step c) cs

/-- What a terminal shows of a text. -/
def shown (s : String) : String := String.ofList (shownFrom {} s.toList)

end Lexgen.Text
