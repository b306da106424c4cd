/-
# Writing TOML strings

A text is written in the first of six forms that fits: between double quotes as it stands, with
tabs escaped, between single quotes as it stands, between three double or three single quotes,
and finally with everything escaped that needs it.

Key definitions: `Features`, `StringForm`, `StringForm.of`, `writeString`.
-/
namespace Lexgen.Toml

/-! ### What decides the form -/

/-- Whether a character is plain everywhere. -/
def isPlain (c : Char) : Bool := c.isAlphanum || "_-./ :".toList.contains c

/-- Whether a character must be escaped in every form: a control character other than tab and line
feed. -/
def isControl (c : Char) : Bool :=
  (c.toNat < 0x20 && c != '\t' && c != '\n') || c.toNat == 0x7F

/-- The length of the longest run of a character. -/
def longestRun (x : Char) : Nat → List Char → Nat
  | current, [] => current
  | current, c :: cs =>
    if c = x then longestRun x (current + 1) cs else max current (longestRun x 0 cs)

/-- What decides how a text is written. -/
structure Features where
  plain : Bool
  control : Bool
  newline : Bool
  backslash : Bool
  doubleQuotes : Nat
  singleQuotes : Nat
deriving DecidableEq, Repr

/-- The features of a text. -/
def Features.of (cs : List Char) : Features where
  plain := cs.all isPlain
  control := cs.any isControl
  newline := cs.contains '\n'
  backslash := cs.contains '\\'
  doubleQuotes := longestRun '"' 0 cs
  singleQuotes := longestRun '\'' 0 cs

/-- The ways to write a text. -/
inductive StringForm where
  /-- Between double quotes, with nothing to escape. -/
  | bare
  /-- Between double quotes, with tabs escaped. -/
  | tabbed
  /-- Between single quotes, as it stands. -/
  | literal
  /-- Between three double quotes. -/
  | multiline
  /-- Between three single quotes, as it stands. -/
  | multilineLiteral
  /-- Between double quotes, with everything escaped. -/
  | escaped
deriving DecidableEq, Repr

/-- The first form that fits. -/
def StringForm.of (f : Features) : StringForm :=
  if f.plain then .bare
  else if !f.control && !f.backslash && f.doubleQuotes == 0 && !f.newline then .tabbed
  else if !f.control && f.singleQuotes == 0 && !f.newline then .literal
  else if !f.control && !f.backslash && f.doubleQuotes < 3 then .multiline
  else if !f.control && f.singleQuotes < 3 then .multilineLiteral
  else if f.newline then .multiline
  else .escaped

/-! ### Escaping -/

/-- The four upper case hexadecimal digits of a number. -/
def hexFour (n : Nat) : List Char :=
  [n / 4096, n / 256, n / 16, n].map fun d => (Nat.digitChar (d % 16)).toUpper

/-- How a character other than the quote is written between double quotes. -/
def escapeChar (keepNewline : Bool) (c : Char) : List Char :=
  if c = '\x08' then ['\\', 'b']
  else if c = '\t' then ['\\', 't']
  else if c = '\n' then if keepNewline then ['\n'] else ['\\', 'n']
  else if c = '\x0c' then ['\\', 'f']
  else if c = '\r' then ['\\', 'r']
  else if c = '\\' then ['\\', '\\']
  else if isControl c then '\\' :: 'u' :: hexFour c.toNat
  else [c]

/-- A text between double quotes with every quote escaped. -/
def escapeLine (cs : List Char) : List Char :=
  cs.flatMap fun c => if c = '"' then ['\\', '"'] else escapeChar false c

/-- A text between three double quotes, where every third quote in a row is escaped; `run` quotes
stand right before. -/
def escapeLines : Nat → List Char → List Char
  | _, [] => []
  | run, c :: cs =>
    if c = '"' then
      if run = 2 then '\\' :: '"' :: escapeLines 0 cs else '"' :: escapeLines (run + 1) cs
    else escapeChar true c ++ escapeLines 0 cs

/-- Whether the text of a form with three quotes starts on a line of its own. -/
def lead (f : Features) : List Char := if f.newline then ['\n'] else []

/-- A text in a form. -/
def StringForm.write (form : StringForm) (cs : List Char) : List Char :=
  let three (q : Char) := [q, q, q]
  match form with
  | bare => '"' :: cs ++ ['"']
  | tabbed => '"' :: escapeLine cs ++ ['"']
  | literal => '\'' :: cs ++ ['\'']
  | multiline => three '"' ++ lead (Features.of cs) ++ escapeLines 0 cs ++ three '"'
  | multilineLiteral => three '\'' ++ lead (Features.of cs) ++ cs ++ three '\''
  | escaped => '"' :: escapeLine cs ++ ['"']

/-- A text as a TOML string. -/
def writeString (s : String) : String :=
  String.ofList ((StringForm.of (Features.of s.toList)).write s.toList)

end Lexgen.Toml
