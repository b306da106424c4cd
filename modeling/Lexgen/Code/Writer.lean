/-
# Writing code with indentation

A writer holds the text so far, the indentation of one level and the current level. Lines get the
indentation of the level. A blank line is written only below some text, and never twice in a row.
Writing a fragment leaves the level as it was and only appends.

Key definitions: `Indent`, `Writer`, `Writer.line`, `Writer.blank`, `Writer.put`.
-/
import Lexgen.Code.Fragment

namespace Lexgen.Code

/-- The indentation of one level. -/
inductive Indent where
  | spaces (width : Nat)
  | tab
deriving DecidableEq, Repr

namespace Indent

/-- Two spaces, the indentation of generated TypeScript. -/
def standard : Indent := .spaces 2

/-- The characters of one level. -/
def unit : Indent → String
  | .spaces width => String.ofList (List.replicate width ' ')
  | .tab => "\t"

/-- The characters of several levels. -/
def levels (i : Indent) (level : Nat) : String :=
  String.join (List.replicate level i.unit)

end Indent

/-- Code as far as it is written. -/
structure Writer where
  indent : Indent := Indent.standard
  level : Nat := 0
  text : String := ""
deriving Repr

/-- Whether a text ends with an empty line. -/
def endsBlank (s : String) : Bool :=
  ['\n', '\n'].isSuffixOf s.toList

namespace Writer

/-- A writer at the start of a text. -/
def start (indent : Indent) : Writer := ⟨indent, 0, ""⟩

/-- Write a line at the current level. -/
def line (w : Writer) (s : String) : Writer :=
  { w with text := w.text ++ (w.indent.levels w.level ++ s ++ "\n") }

/-- Write a blank line, unless the text is empty or ends with one. -/
def blank (w : Writer) : Writer :=
  if w.text.isEmpty || endsBlank w.text then w else { w with text := w.text ++ "\n" }

/-- Go one level deeper. -/
def deeper (w : Writer) : Writer := { w with level := w.level + 1 }

/-- Go back one level; the outermost level stays. -/
def shallower (w : Writer) : Writer := { w with level := w.level - 1 }

/-- Write a doc comment on one line. -/
def doc (w : Writer) (text : String) : Writer := w.line (docComment text)

/-- Write a closing line, if there is one. -/
def close (w : Writer) : Option String → Writer
  | none => w
  | some s => w.line s

mutual

/-- Write a fragment. -/
def put (w : Writer) : Fragment → Writer
  | .line s => w.line s
  | .blank => w.blank
  | .doc s => w.doc s
  | .block header body c => (putAll (w.line header).deeper body).shallower.close c

/-- Write fragments one after the other. -/
def putAll (w : Writer) : List Fragment → Writer
  | [] => w
  | f :: fs => putAll (put w f) fs

end

/-! ### The fields of a writer after a step -/

section
variable (w : Writer) (s : String)

@[simp] theorem indent_line : (w.line s).indent = w.indent := rfl

@[simp] theorem level_line : (w.line s).level = w.level := rfl

@[simp] theorem indent_deeper : w.deeper.indent = w.indent := rfl

@[simp] theorem level_deeper : w.deeper.level = w.level + 1 := rfl

@[simp] theorem text_deeper : w.deeper.text = w.text := rfl

@[simp] theorem indent_shallower : w.shallower.indent = w.indent := rfl

@[simp] theorem level_shallower : w.shallower.level = w.level - 1 := rfl

@[simp] theorem text_shallower : w.shallower.text = w.text := rfl

end

end Writer

/-- The text of fragments that stand alone. -/
def render (fragments : List Fragment) (indent : Indent := Indent.standard) : String :=
  ((Writer.start indent).putAll fragments).text

end Lexgen.Code
