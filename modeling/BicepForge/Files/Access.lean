import BicepForge.Files.Path

/-!
# Access to files

How a program reads and writes files, and how that can fail. Programs are written over an access,
so that they run on real files as well as on a tree that is only data.
-/

namespace BicepForge

inductive FileError where
  | notFound
  | alreadyThere
  | notADirectory
  | isADirectory
  | nameTooLong
  /-- A path holds a null character. -/
  | nullInPath
  /-- The contents are not UTF-8. -/
  | notText
  /-- Any other failure, in the words of the system. -/
  | other (text : String)
deriving DecidableEq, Repr

namespace FileError

/-- The wording of a failure with its number. -/
def numbered (text : String) (code : Nat) : String :=
  text ++ " (os error " ++ toString code ++ ")"

def message : FileError → String
  | notFound => numbered "No such file or directory" 2
  | alreadyThere => numbered "File exists" 17
  | notADirectory => numbered "Not a directory" 20
  | isADirectory => numbered "Is a directory" 21
  | nameTooLong => numbered "File name too long" 36
  | nullInPath => "file name contained an unexpected NUL byte"
  | notText => "stream did not contain valid UTF-8"
  | other text => text

/-- The file error that a system tells by its number, with its wording. -/
def ofNumber (code : Nat) (text : String) : FileError :=
  match code with
  | 2 => notFound
  | 17 => alreadyThere
  | 20 => notADirectory
  | 21 => isADirectory
  | 36 => nameTooLong
  | _ => other (numbered text code)

end FileError

/-- What a program can do to files, in a monad. -/
structure FileAccess (m : Type → Type) where
  /-- The text of a file. -/
  read : String → m (Except FileError String)
  /-- Writes a text to a file, which is made if it is not there. -/
  write : String → String → m (Except FileError Unit)
  /-- Makes a directory with all that hold it, as far as they are not there. -/
  ensureDirectory : String → m (Except FileError Unit)

end BicepForge
