/-
# Why a file operation fails

Key definitions: `Fault`, `Fault.message`.
-/
namespace Lexgen.Files

/-- A reason why a file operation fails. -/
inductive Fault where
  | notFound
  | exists
  | notDirectory
  | isDirectory
  | busy
  | nameTooLong
  /-- The path to follow holds the character with the number zero. -/
  | nulInPath
  /-- The path to move a file to holds the character with the number zero. -/
  | invalidTarget
  /-- The content is no UTF-8. -/
  | notText
  /-- Any other reason, in the words of the system. -/
  | other (text : String)
deriving DecidableEq, Repr

/-- The wording of a fault. -/
def Fault.message : Fault → String
  | .notFound => "No such file or directory (os error 2)"
  | .exists => "File exists (os error 17)"
  | .notDirectory => "Not a directory (os error 20)"
  | .isDirectory => "Is a directory (os error 21)"
  | .busy => "Device or resource busy (os error 16)"
  | .nameTooLong => "File name too long (os error 36)"
  | .nulInPath => "file name contained an unexpected NUL byte"
  | .invalidTarget => "Invalid argument (os error 22)"
  | .notText => "stream did not contain valid UTF-8"
  | .other text => text

end Lexgen.Files
