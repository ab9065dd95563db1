/-!
# File errors

Why a request to the file system fails, with the wording and the number that the system gives it.
-/

namespace VectorBench

inductive FileError where
  | noEntry
  | busy
  | alreadyExists
  | notDirectory
  | isDirectory
  | nameTooLong
  | notEmpty
  /-- A path holds the character that ends a path for the system. -/
  | nulInPath
  /-- The text of a file is not UTF-8. -/
  | notText
  /-- A stream took less than all of a text. -/
  | shortWrite
  /-- Anything else, in the system's words. -/
  | other (reason : String)
  deriving DecidableEq, Repr

namespace FileError

def message : FileError → String
  | noEntry => "No such file or directory (os error 2)"
  | busy => "Device or resource busy (os error 16)"
  | alreadyExists => "File exists (os error 17)"
  | notDirectory => "Not a directory (os error 20)"
  | isDirectory => "Is a directory (os error 21)"
  | nameTooLong => "File name too long (os error 36)"
  | notEmpty => "Directory not empty (os error 39)"
  | nulInPath => "file name contained an unexpected NUL byte"
  | notText => "stream did not contain valid UTF-8"
  | shortWrite => "failed to write whole buffer"
  | other reason => reason

end FileError

end VectorBench
