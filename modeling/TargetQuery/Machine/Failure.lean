/-!
# System failures

Why the operating system refuses something: the kind, and the wording that people know.
-/

namespace TargetQuery

/-- A refusal of the operating system. -/
inductive SystemFailure where
  | notFound
  | permissionDenied
  | alreadyExists
  | notADirectory
  | isADirectory
  | nameTooLong
  | notAProgram
  /-- Scripts are run by each other more often than the system puts up with. -/
  | tooManyLevels
  | argumentsTooLong
  | noSpace
  /-- A path for a file holds a zero byte. -/
  | zeroByteInPath
  /-- A command line holds a zero byte. -/
  | zeroByteInCommand
  /-- What should be text is not UTF-8. -/
  | notText
  /-- Something is not there, said in other words than the system has for it. -/
  | absent (text : String)
  /-- Anything else, in its own words. -/
  | other (text : String)
deriving DecidableEq, Repr

namespace SystemFailure

def kind : SystemFailure → String
  | .notFound | .absent _ => "NotFound"
  | .permissionDenied => "PermissionDenied"
  | .alreadyExists => "AlreadyExists"
  | .notADirectory => "NotADirectory"
  | .isADirectory => "IsADirectory"
  | .nameTooLong => "InvalidFilename"
  | .notAProgram => "Uncategorized"
  | .tooManyLevels => "FilesystemLoop"
  | .argumentsTooLong => "ArgumentListTooLong"
  | .noSpace => "StorageFull"
  | .zeroByteInPath | .zeroByteInCommand => "InvalidInput"
  | .notText => "InvalidData"
  | .other _ => "Other"

def message : SystemFailure → String
  | .notFound => "No such file or directory (os error 2)"
  | .permissionDenied => "Permission denied (os error 13)"
  | .alreadyExists => "File exists (os error 17)"
  | .notADirectory => "Not a directory (os error 20)"
  | .isADirectory => "Is a directory (os error 21)"
  | .nameTooLong => "File name too long (os error 36)"
  | .notAProgram => "Exec format error (os error 8)"
  | .argumentsTooLong => "Argument list too long (os error 7)"
  | .tooManyLevels => "Too many levels of symbolic links (os error 40)"
  | .noSpace => "No space left on device (os error 28)"
  | .zeroByteInPath => "file name contained an unexpected NUL byte"
  | .zeroByteInCommand => "nul byte found in provided data"
  | .notText => "stream did not contain valid UTF-8"
  | .absent text | .other text => text

end SystemFailure

end TargetQuery
