/-
# Plans

A command first makes a plan, and only reads while it does so. Then the files of the plan are stored
one after the other, or shown if nothing is to be written. A failure names the stage it belongs to.

Key definitions: `Stage`, `Cause`, `Failure`, `Plan`, `Plan.carryOut`.
-/
import Lexgen.Command.Report
import Lexgen.Lexicon.Error
import Lexgen.Project.Store

namespace Lexgen.Command

open Lexgen.Files Lexgen.Project

/-! ### Failures -/

/-- The stages of a command. -/
inductive Stage where
  | parse
  | emit
  | write
deriving DecidableEq, Repr

/-- The name of a stage. -/
def Stage.word : Stage → String
  | .parse => "parse"
  | .emit => "emit"
  | .write => "write"

/-- Why a command fails. -/
inductive Cause where
  | lexicon (error : Lexicon.Error)
  | project (problem : Problem)
deriving DecidableEq, Repr

/-- The wording of a cause. -/
def Cause.message : Cause → String
  | .lexicon error => error.message
  | .project problem => problem.message

/-- A failed command. -/
structure Failure where
  stage : Stage
  cause : Cause
deriving DecidableEq, Repr

/-- The line of a failure. -/
def Failure.line (f : Failure) : String :=
  "error: " ++ f.stage.word ++ " failed: " ++ f.cause.message

variable {m : Type → Type} [Monad m] [Access m]

/-- A step on lexicons in a stage. -/
def lexiconStep {α : Type} (stage : Stage) (step : Except Lexicon.Error α) :
    ExceptT Failure m α :=
  ExceptT.mk (pure (step.mapError fun e => ⟨stage, .lexicon e⟩))

/-- A step on the files of the project in a stage. -/
def projectStep {α : Type} (stage : Stage) (step : ExceptT Problem m α) : ExceptT Failure m α :=
  ExceptT.mk ((·.mapError fun p => ⟨stage, .project p⟩) <$> step.run)

/-! ### Plans -/

/-- A file to be generated. -/
structure Output where
  path : String
  text : String
deriving DecidableEq, Repr

/-- What a command is going to do. -/
structure Plan where
  /-- What the files are generated from. -/
  source : String
  collections : List String := []
  warnings : List String := []
  outputs : List Output
deriving DecidableEq, Repr

/-- Store a file, or show it. -/
def Output.deliver (dryRun : Bool) (o : Output) : ExceptT Problem m (String × Outcome) := do
  if dryRun then return (o.path, .preview o.text)
  else return (o.path, .written (← store (m := m) o.path o.text))

/-- Carry out a plan. -/
def Plan.carryOut (dryRun : Bool) (p : Plan) : ExceptT Failure m Report := do
  let files ← projectStep .write (p.outputs.mapM (Output.deliver (m := m) dryRun))
  return ⟨p.source, p.collections, p.warnings, files⟩

end Lexgen.Command
