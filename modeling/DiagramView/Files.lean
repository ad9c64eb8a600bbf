import DiagramView.Text.Blank
import DiagramView.Text.Utf8

/-!
# Files

A working folder with what is in it, the way a path leads to an entry, and why a file cannot be
read or a program cannot be run.
-/

namespace DiagramView

/-- Why a file cannot be read or run. -/
inductive FileError where
  | notFound
  | permissionDenied
  | notAFolder
  | isAFolder
  | nameTooLong
  /-- The path has a null character in it. -/
  | nullInPath
  /-- A program or an argument of it has a null character in it. -/
  | nullInCommand
  /-- The file holds something that is not text. -/
  | notText
  deriving DecidableEq, Repr

/-- The wording of a file error. -/
def FileError.message : FileError → String
  | .notFound => "No such file or directory (os error 2)"
  | .permissionDenied => "Permission denied (os error 13)"
  | .notAFolder => "Not a directory (os error 20)"
  | .isAFolder => "Is a directory (os error 21)"
  | .nameTooLong => "File name too long (os error 36)"
  | .nullInPath => "file name contained an unexpected NUL byte"
  | .nullInCommand => "nul byte found in provided data"
  | .notText => "stream did not contain valid UTF-8"

/-- The text that some bytes encode. -/
def textOfBytes (bytes : List UInt8) : Except FileError String :=
  match Text.decode? bytes with
  | some text => .ok text
  | none => .error .notText

/-- Something in a folder. -/
inductive Entry where
  | file (bytes : List UInt8) (executable : Bool)
  | folder
  deriving DecidableEq, Repr

/-- A working folder: each entry in it, at any depth, under the names that lead to it. -/
structure Folder where
  entries : List (List String × Entry)
  deriving DecidableEq, Repr

namespace Folder

/-- The entry under some names. A folder that holds an entry need not be listed. -/
def entry? (folder : Folder) (names : List String) : Option Entry :=
  match folder.entries.find? fun e => e.1 == names with
  | some e => some e.2
  | none =>
    if names.isEmpty || folder.entries.any fun e => names.isPrefixOf e.1 then some .folder
    else none

/-- The names of a path, in order. -/
def namesOf (path : String) : List String :=
  (Text.cutAt '/' path.toList).map String.ofList

/-- The longest name of an entry, in bytes. -/
def maxNameLength : Nat := 255

/-- The longest path, in bytes. -/
def maxPathLength : Nat := 4095

/-- Follows the names of a path. The place that was reached is given by the names that lead there
from the working folder, or by nothing once the path has left it; outside there are only folders
without entries. -/
def follow (folder : Folder) : Option (List String) → List String → Except FileError Entry
  | none, [] => .ok .folder
  | some place, [] =>
    match folder.entry? place with
    | some entry => .ok entry
    | none => .error .notFound
  | place, name :: rest =>
    match place.bind folder.entry? with
    | some (.file _ _) => .error .notAFolder
    | _ =>
      if name = "" ∨ name = "." then follow folder place rest
      else if name = ".." then
        match place with
        | some (parent :: names) => follow folder (some (parent :: names).dropLast) rest
        | _ => follow folder none rest
      else if name.utf8ByteSize > maxNameLength then .error .nameTooLong
      else
        match place.map (· ++ [name]) with
        | none => .error .notFound
        | some place =>
          match folder.entry? place with
          | none => .error .notFound
          | some _ => follow folder (some place) rest

/-- The entry that a path leads to. -/
def resolve (folder : Folder) (path : String) : Except FileError Entry :=
  if path.isEmpty then .error .notFound
  else if path.utf8ByteSize > maxPathLength then .error .nameTooLong
  else folder.follow (if Text.startsWith path "/" then none else some []) (namesOf path)

/-- Reads a file. -/
def read (folder : Folder) (path : String) : Except FileError (List UInt8) :=
  if path.toList.contains '\x00' then .error .nullInPath
  else
    match folder.resolve path with
    | .error e => .error e
    | .ok .folder => .error .isAFolder
    | .ok (.file bytes _) => .ok bytes

/-- Whether an entry can be run as a program. -/
def checkEntry : Entry → Except FileError Unit
  | .file _ true => .ok ()
  | _ => .error .permissionDenied

/-- Looks for a program of the given name in one place after the other. Where it is missing or may
not be run the search goes on, and in the end a program that may not be run is reported rather than
a missing one. -/
def searchProgram (folder : Folder) (name : String) (denied : Bool) :
    List (Option (List String)) → Except FileError Unit
  | [] => .error (if denied then .permissionDenied else .notFound)
  | place :: rest =>
    match (folder.follow place [name]).bind checkEntry with
    | .error .notFound | .error .notAFolder => searchProgram folder name denied rest
    | .error .permissionDenied => searchProgram folder name true rest
    | result => result

/-- Whether a program can be run. A name without a slash is looked up in the places where programs
are searched, which are outside the folder unless that is `searched` too. -/
def checkProgram (folder : Folder) (searched : Bool) (program : String) : Except FileError Unit :=
  if program.isEmpty then .error .notFound
  else if program.toList.contains '/' then (folder.resolve program).bind checkEntry
  else folder.searchProgram program false (if searched then [some [], none] else [none])

end Folder

end DiagramView
