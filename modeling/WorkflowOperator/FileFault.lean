/-!
# Faults of files

Why a file cannot be read or written, in the words and with the numbers of the system.
-/

namespace WorkflowOperator

/-- A reason why a file cannot be read or written. -/
inductive FileFault
  | missing
  /-- Something is there already. -/
  | present
  /-- A directory is needed where there is a file. -/
  | notDirectory
  /-- A file is needed where there is a directory. -/
  | isDirectory
  /-- The bytes are no text. -/
  | notText
  /-- Any other reason, in words. -/
  | other (reason : String)
deriving DecidableEq, Repr

namespace FileFault

def message : FileFault → String
  | missing => "No such file or directory (os error 2)"
  | present => "File exists (os error 17)"
  | notDirectory => "Not a directory (os error 20)"
  | isDirectory => "Is a directory (os error 21)"
  | notText => "stream did not contain valid UTF-8"
  | other reason => reason

/-- The text that bytes stand for, or the reason why there is none. -/
def textOf : Option ByteArray → Except FileFault String
  | none => .error .missing
  | some bytes =>
    match String.fromUTF8? bytes with
    | some s => .ok s
    | none => .error .notText

end FileFault

end WorkflowOperator
