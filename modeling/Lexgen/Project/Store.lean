/-
# Reading and storing the files of a project

A file of settings may be missing. A file is stored by making its directory and putting it whole
in its place, so that a failure leaves what was there.

Key definitions: `orProblem`, `readSettings`, `store`.
-/
import Lexgen.Files.Access
import Lexgen.Project.Problem

namespace Lexgen.Project

open Lexgen.Files

variable {m : Type → Type} [Monad m] [Access m]

/-- A file operation whose fault makes a problem. -/
def orProblem {α : Type} (problem : Fault → Problem) (answer : m (Except Fault α)) :
    ExceptT Problem m α :=
  ExceptT.mk ((·.mapError problem) <$> answer)

/-- The settings that a file holds, or `missing` if nothing is there. -/
def readSettings {α : Type} (path : String) (missing : α) (decode : String → Option α) :
    ExceptT Problem m α := do
  if ← isThere (m := m) path then
    match decode (← orProblem (.unreadable path) (readText (m := m) path)) with
    | some settings => return settings
    | none => throw (.malformed path)
  else return missing

/-- Store a file: its directory is made first. -/
def store (path text : String) : ExceptT Problem m Written := do
  let existed ← isThere (m := m) path
  let directory := directoryOf path
  orProblem (.noDirectory directory) (makeDirectories (m := m) directory)
  orProblem (.unwritable path) (Access.replace (m := m) path text.toUTF8)
  return if existed then .overwritten else .created

end Lexgen.Project
