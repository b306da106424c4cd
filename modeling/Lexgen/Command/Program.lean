/-
# The program

The first argument that is no switch of the program names a command, and the arguments behind it
are those of the command. The answer of the program is its exit status with what it says on the
two streams.

Key definitions: `Request`, `readRequest`, `Answer`, `run`.
-/
import Lexgen.Command.Arguments
import Lexgen.Command.Generate
import Lexgen.Command.Help

namespace Lexgen.Command

open Lexgen.Files

/-! ### The forms of the commands -/

/-- The switch for full reports, known to every command. -/
def debugSwitch : Switch where
  long := "debug"
  about := "Enable debug logging and full error reports"

/-- The switch that asks for help. -/
def helpSwitch : Switch where
  long := "help"
  letter := some 'h'
  effect := .help
  about := "Print help"

/-- The switch that asks for the version. -/
def versionSwitch : Switch where
  long := "version"
  letter := some 'V'
  effect := .version
  about := "Print version"

/-- The name of the switch that keeps all files as they are. -/
def dryRunName : String := "dry-run"

/-- The switch that keeps all files as they are and shows the ones generated. -/
def dryRunSwitch (shown : String) : Switch where
  long := dryRunName
  about := "Print the generated " ++ shown

/-- The name of the switch for the path of the generated file. -/
def outputName : String := "output"

/-- The switch for the path of the generated file, and where that is if it is not given. -/
def outputSwitch (initial : String) : Switch where
  long := outputName
  letter := some 'o'
  effect := .value "OUTPUT"
  about := "Output path (defaults to " ++ initial ++ ")"

/-- The root of the project if none is given. -/
def defaultRoot : String := "."

/-- The switch for the root of the project. -/
def rootSwitch : Switch where
  long := "project-root"
  letter := some 'r'
  effect := .value "PROJECT_ROOT"
  about := "Project root directory"
  initial := some defaultRoot

/-- The program without a command. -/
def programForm : Form where
  name := programName
  about := "Generate TypeScript types and client helpers from ATProto lexicons"
  switches := [debugSwitch, helpSwitch, versionSwitch]

/-- The command for types. -/
def typesForm : Form where
  name := "typegen"
  about := "Generate TypeScript types from a lexicon"
  switches := [
    debugSwitch, outputSwitch "<lexicon dir>/<lexicon name>_types.ts",
    dryRunSwitch "module instead of writing it", helpSwitch]
  operand := some { name := "LEXICON", about := "Lexicon JSON file" }

/-- The command for clients. -/
def clientForm : Form where
  name := "clientgen"
  about := "Generate client helpers for a record lexicon"
  switches := [
    debugSwitch, rootSwitch, dryRunSwitch "files instead of writing them", helpSwitch]
  operand := some { name := "LEXICON", about := "Lexicon JSON file of a record collection" }

/-- The command for routes. -/
def routesForm : Form where
  name := "routegen"
  about := "Generate the data route configuration from client modules"
  switches := [
    debugSwitch, rootSwitch, outputSwitch "the configured route config path",
    dryRunSwitch "module instead of writing it", helpSwitch]
  operand := some {
    name := "FILES"
    about := "Client modules to include (defaults to every *_client.ts in the api directory)"
    many := true }

/-- The shells that can complete commands. -/
def shells : List String := ["bash", "elvish", "fish", "powershell", "zsh"]

/-- The command for completions. -/
def completionsForm : Form where
  name := "completions"
  about := "Generate shell completions"
  switches := [debugSwitch, helpSwitch]
  operand := some {
    name := "SHELL"
    about := "Shell to generate completions for"
    choices := some shells }

/-- The command that shows help. -/
def helpForm : Form where
  name := "help"
  about := "Print this message or the help of the given subcommand(s)"
  switches := []
  operand := some { name := "COMMAND", about := "Print help for the subcommand(s)", many := true }

/-- All commands. -/
def forms : List Form := [typesForm, clientForm, routesForm, completionsForm, helpForm]

/-- The command of a name. -/
def form? (name : String) : Option Form := forms.find? (·.name == name)

/-! ### Requests -/

/-- What the program is asked to do. -/
inductive Request where
  | types (options : TypesOptions)
  | client (options : ClientOptions)
  | routes (options : RoutesOptions)
  | completions (shell : String)
deriving DecidableEq, Repr

/-- Help for the command that some names lead to. -/
def helpOn : List String → Stop
  | [] => .help programForm
  | name :: names =>
    match form? name, names with
    | some form, [] => .help form
    | some _, name :: _ => .refused (.unrecognized name)
    | none, _ => .refused (.unrecognized name)

/-- The request that a command makes of what it is given. -/
def requestOf (form : Form) (g : Given) : Request :=
  let operand := g.operands.headD ""
  let dryRun := g.marks.contains dryRunName
  let output := g.values.lookup outputName
  let root := (g.values.lookup rootSwitch.long).getD defaultRoot
  if form = typesForm then .types { lexicon := operand, output, dryRun }
  else if form = clientForm then .client { lexicon := operand, root, dryRun }
  else if form = routesForm then .routes { files := g.operands, root, output, dryRun }
  else .completions operand

/-- Whether nothing at all was given. -/
def Given.isEmpty (g : Given) : Bool := g == {}

/-- The request in the arguments of the program, from the ones that `r` has not read. -/
def readRequest (r : Reading) : List String → Except Stop Request
  | [] => do
    let g ← r.finish programForm
    .error (if g.isEmpty then .idle else .refused .noCommand)
  | argument :: rest => do
    match form? argument with
    | some form =>
      if r.operandsOnly then .error (.refused (.unexpected argument))
      else if form = helpForm then .error (helpOn rest)
      else do
        let r ← r.settle programForm
        let g ← readArguments form rest
        .ok (requestOf form { g with marks := r.given.marks ++ g.marks })
    | none => do readRequest (← r.step programForm argument) rest

/-! ### Answers -/

/-- What the program says and how it ends. -/
structure Answer where
  exit : Nat := 0
  output : String := ""
  errors : String := ""
deriving DecidableEq, Repr

/-- Lines as a text, each with its end. -/
def textOf (lines : List String) : String := String.join (lines.map (· ++ "\n"))

/-- The lines of the help text of a command. -/
def helpLines (form : Form) : List String :=
  form.help (if form = programForm then forms else [])

/-- The answer to arguments that are no request. -/
def Stop.answer : Stop → Answer
  | .refused error => { exit := 2, errors := textOf (("error: " ++ error.message) :: error.advice) }
  | .help form => { output := textOf (helpLines form) }
  | .version => { output := textOf [programName ++ " " ++ programVersion] }
  | .idle => { exit := 2, errors := textOf (helpLines programForm) }

/-- The words that complete a command. -/
def completionLines : List String := forms.map (·.name)

/-- The answer of a command that generates files. -/
def answerOf : Except Failure Report → Answer
  | .ok report => { output := textOf report.lines, errors := textOf report.warningLines }
  | .error failure => { exit := 1, errors := textOf [failure.line] }

variable {m : Type → Type} [Monad m] [Access m]

/-- Make a plan and carry it out. -/
def generate (dryRun : Bool) (plan : ExceptT Failure m Plan) : m (Except Failure Report) :=
  (plan >>= Plan.carryOut dryRun).run

/-- The answer to a request. -/
def serve : Request → m Answer
  | .types o => answerOf <$> generate o.dryRun (planTypes o)
  | .client o => answerOf <$> generate o.dryRun (planClient o)
  | .routes o => answerOf <$> generate o.dryRun (planRoutes o)
  | .completions _ => return { output := textOf completionLines }

/-- The answer of the program to its arguments. -/
def run (arguments : List String) : m Answer :=
  match readRequest {} arguments with
  | .ok request => serve request
  | .error stop => return stop.answer

end Lexgen.Command
