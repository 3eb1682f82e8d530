/-!
# Failures

A text can always be analysed. What can fail lies around it: the name of a path mode may be none,
and a file may be absent, no text, or blank.
-/

namespace Diagnosis

/-- The cause of a failure. -/
inductive Failure where
  /-- The name of a path mode is not one of the two. -/
  | unknownPathMode (name : String)
  /-- There is no such file. -/
  | fileNotFound
  /-- The bytes of a file are not the UTF-8 form of a text. -/
  | invalidEncoding
  /-- A file holds nothing but blanks. -/
  | emptyInput (file : String)
  deriving DecidableEq

namespace Failure

/-- The message of a failure. -/
def message : Failure → String
  | unknownPathMode name =>
    "unknown path mode `" ++ name ++ "` (expected `monotonic` or `indented`)"
  | fileNotFound => "I/O error: No such file or directory (os error 2)"
  | invalidEncoding => "I/O error: stream did not contain valid UTF-8"
  | emptyInput file => "no diagnostic text in " ++ file

/-- Whether there was merely nothing to analyse. -/
def isEmptyInput : Failure → Bool
  | emptyInput _ => true
  | _ => false

end Failure

end Diagnosis
