/-
# Reading arguments

Arguments are read one by one. What starts with hyphens is a switch, until two hyphens alone end
the switches; a switch with a value takes it from behind an equals sign, from the rest of its
letters or from the next argument. The last value or operand stays pending until the next switch
or operand, so that an unknown switch right behind it is reported first.

Key definitions: `Given`, `Stop`, `Reading`, `Reading.settle`, `Reading.step`, `readArguments`.
-/
import Lexgen.Command.Form

namespace Lexgen.Command

/-- What a line of arguments gives to a command. -/
structure Given where
  marks : List String := []
  values : List (String × String) := []
  operands : List String := []
deriving DecidableEq, Repr

/-- What ends the reading of arguments early. -/
inductive Stop where
  | refused (error : UsageError)
  | help (form : Form)
  | version
  /-- Nothing was asked for at all. -/
  | idle
deriving DecidableEq, Repr

/-- What has been read but not been looked at yet. -/
inductive Pending where
  | nothing
  /-- A switch and its value, if that has been read. -/
  | switch (s : Switch) (value : Option String)
  | operands (values : List String)
deriving DecidableEq, Repr

/-- The state of reading arguments. -/
structure Reading where
  given : Given := {}
  pending : Pending := .nothing
  /-- Whether two hyphens have ended the switches. -/
  operandsOnly : Bool := false
deriving DecidableEq, Repr

namespace Reading

/-- Whether the next argument is the value of a switch. -/
def awaitsValue (r : Reading) : Option Switch :=
  match r.pending with
  | .switch s none => if r.operandsOnly then none else some s
  | _ => none

/-- Set the value of a switch. -/
def giveValue (r : Reading) (s : Switch) (value : String) : Except Stop Reading :=
  if (r.given.values.lookup s.long).isSome then .error (.refused (.repeated s.label))
  else if value.isEmpty then .error (.refused (.noValue s.label))
  else .ok { r with given := { r.given with values := r.given.values ++ [(s.long, value)] } }

/-- Refuse a value that an operand cannot have. -/
def checkOperand (o : Operand) (value : String) : Except Stop Unit :=
  match o.choices with
  | none => if value.isEmpty then .error (.refused (.noValue o.label)) else .ok ()
  | some choices =>
    if value ∈ choices then .ok ()
    else if value.isEmpty then .error (.refused (.noValue o.label))
    else .error (.refused (.invalidValue value o.label))

/-- Look at what is pending. -/
def settle (form : Form) (r : Reading) : Except Stop Reading :=
  let done := { r with pending := .nothing }
  match r.pending with
  | .nothing => .ok r
  | .switch s none => .error (.refused (.noValue s.label))
  | .switch s (some value) => done.giveValue s value
  | .operands values => do
    if let some o := form.operand then values.forM (checkOperand o)
    .ok { done with given := { r.given with operands := r.given.operands ++ values } }

/-- A switch that takes no value. -/
def mark (form : Form) (r : Reading) (s : Switch) : Except Stop Reading := do
  let r ← r.settle form
  match s.effect with
  | .help => .error (.help form)
  | .version => .error .version
  | _ =>
    if s.long ∈ r.given.marks then .error (.refused (.repeated s.label))
    else .ok { r with given := { r.given with marks := r.given.marks ++ [s.long] } }

/-- A switch that takes a value, with the value if it is attached. -/
def takeValue (form : Form) (r : Reading) (s : Switch) (attached : Option String) :
    Except Stop Reading := do
  let r ← r.settle form
  match attached with
  | some value => r.giveValue s value
  | none => .ok { r with pending := .switch s none }

/-- Whether a switch takes a value. -/
def hasValue (s : Switch) : Bool :=
  match s.effect with
  | .value _ => true
  | _ => false

/-- An argument behind two hyphens. -/
def long (form : Form) (r : Reading) (cs : List Char) : Except Stop Reading :=
  let name := String.ofList (cs.takeWhile (· != '='))
  let attached := match cs.dropWhile (· != '=') with
    | [] => none
    | _ :: value => some (String.ofList value)
  match form.switches.find? (·.long == name) with
  | none =>
    let maybeOperand := form.operand.isSome && !form.resembles name
    .error (.refused (.unknownSwitch ("--" ++ name) maybeOperand))
  | some s =>
    if hasValue s then r.takeValue form s attached
    else match attached with
      | some value => .error (.refused (.surplusValue value s.label))
      | none => r.mark form s

/-- Letters behind one hyphen. -/
def letters (form : Form) (r : Reading) : List Char → Except Stop Reading
  | [] => .ok r
  | c :: cs =>
    match form.switches.find? (·.letter == some c) with
    | none => .error (.refused (.unknownSwitch (String.ofList ['-', c]) form.operand.isSome))
    | some s =>
      if hasValue s then
        match cs with
        | [] => r.takeValue form s none
        | '=' :: value => r.takeValue form s (some (String.ofList value))
        | value => r.takeValue form s (some (String.ofList value))
      else do letters form (← r.mark form s) cs

/-- Whether an operand has been read before. -/
def hasOperand (r : Reading) : Bool :=
  !r.given.operands.isEmpty ||
    match r.pending with
    | .operands _ => true
    | _ => false

/-- An operand. -/
def operand (form : Form) (r : Reading) (value : String) : Except Stop Reading :=
  match form.operand with
  | none => .error (.refused (.unrecognized value))
  | some o =>
    match o.many, r.pending with
    | true, .operands values => .ok { r with pending := .operands (values ++ [value]) }
    | many, _ =>
      if !many && r.hasOperand then .error (.refused (.unexpected value))
      else do
        let r ← r.settle form
        .ok { r with pending := .operands [value] }

/-- One argument. -/
def step (form : Form) (r : Reading) (argument : String) : Except Stop Reading :=
  if r.operandsOnly then r.operand form argument
  else match argument.toList with
    | ['-', '-'] => .ok { r with operandsOnly := true }
    | '-' :: '-' :: cs => r.long form cs
    | '-' :: c :: cs => r.letters form (c :: cs)
    | _ =>
      match r.awaitsValue with
      | some s => .ok { r with pending := .switch s (some argument) }
      | none => r.operand form argument

/-- The end of the arguments. -/
def finish (form : Form) (r : Reading) : Except Stop Given := do
  let r ← r.settle form
  match form.operand with
  | some o =>
    if !o.many && r.given.operands.isEmpty then .error (.refused (.missing o.label))
    else .ok r.given
  | none => .ok r.given

end Reading

/-- All arguments of a command. -/
def readArguments (form : Form) (arguments : List String) : Except Stop Given := do
  (← arguments.foldlM (Reading.step form) {}).finish form

end Lexgen.Command
