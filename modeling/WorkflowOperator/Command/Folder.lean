import WorkflowOperator.Command.Program
import WorkflowOperator.Text.Lines

/-!
# Folders in memory

A folder with files and directories in it, on which a program can be tried out.
-/

namespace WorkflowOperator.Command

/-- A path in a folder, as the names on the way. -/
abbrev Way := List String

/-- A folder: its files with their texts, and its directories beside those that hold files. -/
structure Folder where
  files : List (Way × String)
  directories : List Way

namespace Folder

def file? (f : Folder) (way : Way) : Option String :=
  (f.files.find? fun e => e.1 == way).map Prod.snd

def isDirectory (f : Folder) (way : Way) : Bool :=
  way.isEmpty || f.directories.any (way.isPrefixOf ·) ||
    f.files.any fun e => way.isPrefixOf e.1 && e.1 != way

/-- The names in a path. -/
def names (path : String) : List String := (Text.parts '/' path.toList).map String.ofList

/-- The place that names lead to.  All but the last must lead into directories. -/
def walk (f : Folder) : Way → List String → Except FileFault Way
  | way, [] => .ok way
  | way, name :: rest =>
    if !f.isDirectory way then
      .error (if (f.file? way).isSome then .notDirectory else .missing)
    else if name == "" || name == "." then walk f way rest
    else if name == ".." then walk f way.dropLast rest
    else walk f (way ++ [name]) rest

/-- The place of a path.  What is outside of the folder is not there. -/
def place (f : Folder) (path : String) : Except FileFault Way :=
  if path.toList.head? == some '/' || path.isEmpty then .error .missing
  else f.walk [] (names path)

def holds (f : Folder) (path : String) : Bool :=
  match f.place path with
  | .ok way => f.isDirectory way || (f.file? way).isSome
  | .error _ => false

def read (f : Folder) (path : String) : Except FileFault String := do
  let way ← f.place path
  match f.file? way with
  | some text => return text
  | none => throw (if f.isDirectory way then .isDirectory else .missing)

/-- A path without slashes at its end. -/
def withoutSlash (path : String) : String :=
  String.ofList (path.toList.reverse.dropWhile (· == '/')).reverse

/-- The folder with a file written at a path.  A path with a slash at its end can only be that of a
directory. -/
def write (f : Folder) (path text : String) : Except FileFault Folder := do
  let way ← f.place (withoutSlash path)
  if withoutSlash path != path || f.isDirectory way then throw .isDirectory
  return { f with files := (f.files.filter fun e => e.1 != way) ++ [(way, text)] }

/-- The folder with a directory at the place that names lead to, and with all directories on the
way. -/
def makeDirectories : Folder → Way → List String → Except FileFault Folder
  | f, _, [] => .ok f
  | f, way, name :: rest =>
    if name == "" || name == "." then makeDirectories f way rest
    else if name == ".." then makeDirectories f way.dropLast rest
    else
      let way := way ++ [name]
      if (f.file? way).isSome then
        .error (if rest.all (· == "") then .present else .notDirectory)
      else makeDirectories { f with directories := way :: f.directories } way rest

def makeDirectory (f : Folder) (path : String) : Except FileFault Folder :=
  if path.toList.head? == some '/' then .error (.other "Permission denied (os error 13)")
  else f.makeDirectories [] (names path)

/-- The files that are not in another folder with the same text, with their paths. -/
def changes (f before : Folder) : List (String × String) :=
  (f.files.filter fun e => before.file? e.1 != some e.2).map fun e => ("/".intercalate e.1, e.2)

def ofFiles (files : List (String × String)) : Folder :=
  ⟨files.map fun e => ((names e.1).filter (· != ""), e.2), []⟩

end Folder

/-- What came of a program on a folder. -/
structure Tried (α : Type) where
  result : Except Failure α
  printed : String
  folder : Folder

/-- Carries out a program on a folder. -/
def Program.tryOn {α : Type} (supply : Supply) : Program α → String → Folder → Tried α
  | .done a, out, f => ⟨.ok a, out, f⟩
  | .fail e, out, f => ⟨.error e, out, f⟩
  | .isThere path next, out, f => (next (f.holds path)).tryOn supply out f
  | .read path next, out, f => (next (f.read path)).tryOn supply out f
  | .makeDirectory path next, out, f =>
    match f.makeDirectory path with
    | .ok f => (next (.ok ())).tryOn supply out f
    | .error fault => (next (.error fault)).tryOn supply out f
  | .write path text next, out, f =>
    match f.write path text with
    | .ok f => (next (.ok ())).tryOn supply out f
    | .error fault => (next (.error fault)).tryOn supply out f
  | .print text next, out, f => next.tryOn supply (out ++ text) f
  | .fresh next, out, f => (next supply).tryOn supply out f

end WorkflowOperator.Command
