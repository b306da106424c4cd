/-
# The command line

The program works on the files of the system. A file is written beside its place under a name of its
own and then moved there.

Key definitions: `main`.
-/
import Lexgen.Command.Program

namespace Lexgen.Main

open Lexgen.Files

/-- The fault behind an error of the system. -/
def faultOfCode (code : UInt32) (details : String) : Fault :=
  match code.toNat with
  | 2 => .notFound
  | 16 => .busy
  | 17 => .exists
  | 20 => .notDirectory
  | 21 => .isDirectory
  | 36 => .nameTooLong
  | n => .other (details ++ " (os error " ++ toString n ++ ")")

/-- The fault behind a failed operation. -/
def faultOf : IO.Error → Fault
  | .alreadyExists _ code details => faultOfCode code details
  | .noFileOrDirectory _ code details => faultOfCode code details
  | .inappropriateType _ code details => faultOfCode code details
  | .resourceBusy code details => faultOfCode code details
  | .invalidArgument _ code details => faultOfCode code details
  | .permissionDenied _ code details => faultOfCode code details
  | .noSuchThing _ code details => faultOfCode code details
  | .resourceExhausted _ code details => faultOfCode code details
  | .resourceVanished code details => faultOfCode code details
  | .unsatisfiedConstraints code details => faultOfCode code details
  | .otherError code details => faultOfCode code details
  | error => .other (toString error)

/-- The answer of an operation, with its fault if it failed. -/
def attempt {α : Type} (operation : IO α) : IO (Except Fault α) := do
  match ← operation.toBaseIO with
  | .ok a => return .ok a
  | .error e => return .error (faultOf e)

/-- Write a file beside its place and move it there. -/
def moveInto (path : String) (content : ByteArray) : IO Unit := do
  let mark ← IO.rand 0 0xFFFFFFFF
  let beside := join (directoryOf path) (".tmp" ++ toString mark)
  IO.FS.writeBinFile beside content
  try IO.FS.rename beside path
  catch e =>
    IO.FS.removeFile beside
    throw e

/-- The answer of an operation on a path that the system can be given. -/
def attemptOn {α : Type} (path : String) (operation : IO α) : IO (Except Fault α) :=
  if holdsNul path then return .error .nulInPath else attempt operation

instance : Access IO where
  kind path := attemptOn path do
    let data ← (System.mkFilePath [path]).metadata
    match data.type with
    | .dir => return .directory
    | _ => return .file
  read path := attemptOn path (IO.FS.readBinFile path)
  list path := attemptOn path do
    return (← (System.mkFilePath [path]).readDir).toList.map (·.fileName)
  makeDirectory path := attemptOn path (IO.FS.createDir path)
  replace path content :=
    if holdsNul path then return .error .invalidTarget else attempt (moveInto path content)

end Lexgen.Main

/-- Run the program on its arguments. -/
def main (arguments : List String) : IO UInt32 := do
  let answer ← Lexgen.Command.run (m := IO) arguments
  IO.eprint answer.errors
  IO.print answer.output
  return answer.exit.toUInt32
