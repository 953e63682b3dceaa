/-!
# Errors of the operating system

Why a file could not be read or written, or a message not be handed over. Each
cause has one wording; a cause that only its wording names is `other`.
-/

namespace CommitReports

/-- Why an operation on files or on a child's input failed. -/
inductive SystemError where
  | notFound
  | deviceBusy
  | notDirectory
  | isDirectory
  | invalidArgument
  | brokenPipe
  | nameTooLong
  | tooManyLinks
  | notUtf8
  | nulInName
  | nulInCommand
  | other (text : String)
  deriving DecidableEq, Repr, Inhabited

namespace SystemError

/-- What went wrong, in words. -/
def reason : SystemError → String
  | .notFound => "No such file or directory"
  | .deviceBusy => "Device or resource busy"
  | .notDirectory => "Not a directory"
  | .isDirectory => "Is a directory"
  | .invalidArgument => "Invalid argument"
  | .brokenPipe => "Broken pipe"
  | .nameTooLong => "File name too long"
  | .tooManyLinks => "Too many levels of symbolic links"
  | .notUtf8 => "stream did not contain valid UTF-8"
  | .nulInName => "file name contained an unexpected NUL byte"
  | .nulInCommand => "nul byte found in provided data"
  | .other text => text

/-- The number that the system gives an error. -/
def number? : SystemError → Option Nat
  | .notFound => some 2
  | .deviceBusy => some 16
  | .notDirectory => some 20
  | .isDirectory => some 21
  | .invalidArgument => some 22
  | .brokenPipe => some 32
  | .nameTooLong => some 36
  | .tooManyLinks => some 40
  | _ => none

/-- The wording of an error. -/
def message (error : SystemError) : String :=
  match error.number? with
  | some n => s!"{error.reason} (os error {n})"
  | none => error.reason

end SystemError

end CommitReports
