/-!
# Files

A path is read from left to right, name by name, starting in the folder where the command runs. A
blank name and `.` stay where they are, `..` goes up, and any other name goes to a file or a folder
of that name. Only a folder leads on, so nothing may follow the name of a file, not even a slash.
What lies above the folder, or is named from the top, holds no files.
-/

namespace Scriptlet

/-- Why a file cannot be read. -/
inductive FileFault where
  | missing
  | denied
  /-- Something follows the name of a file. -/
  | notFolder
  /-- The path leads to a folder. -/
  | isFolder
  | nameTooLong
  | zeroInPath
  /-- The bytes of the file are no text. -/
  | notText
  deriving DecidableEq, Inhabited, Repr

/-- What the system says. -/
def FileFault.message : FileFault → String
  | .missing => "No such file or directory (os error 2)"
  | .denied => "Permission denied (os error 13)"
  | .notFolder => "Not a directory (os error 20)"
  | .isFolder => "Is a directory (os error 21)"
  | .nameTooLong => "File name too long (os error 36)"
  | .zeroInPath => "file name contained an unexpected NUL byte"
  | .notText => "stream did not contain valid UTF-8"

/-- Gives the content of a file by its path. -/
abbrev Files := String → Except FileFault String

/-- Where a path has led. -/
inductive Place where
  /-- A folder, by the names that lead to it. -/
  | folder (names : List String)
  /-- A folder that is not below the first one. -/
  | outside
  | file (content : String)
  deriving DecidableEq, Inhabited, Repr

/-- The files in a folder and below it, each with the names that lead to it and its content. -/
abbrev Folder := List (List String × String)

namespace Folder

/-- Whether a name stays in the folder. -/
def stays (name : String) : Bool := name = "" || name = "."

/-- The number of bytes that a name may have. -/
def nameLimit : Nat := 255

/-- The number of bytes that a path has less than. -/
def pathLimit : Nat := 4096

/-- Follows one name. -/
def enter (folder : Folder) : Place → String → Except FileFault Place
  | .file _, _ => .error .notFolder
  | .outside, name =>
    if stays name ∨ name = ".." then .ok .outside
    else if nameLimit < name.utf8ByteSize then .error .nameTooLong
    else .error .missing
  | .folder names, name =>
    if stays name then .ok (.folder names)
    else if name = ".." then .ok (if names.isEmpty then .outside else .folder names.dropLast)
    else if nameLimit < name.utf8ByteSize then .error .nameTooLong
    else
      let names := names ++ [name]
      match folder.find? (·.1 = names) with
      | some (_, content) => .ok (.file content)
      | none =>
        if folder.any fun file => names.isPrefixOf file.1 then .ok (.folder names)
        else .error .missing

/-- Follows a path that is not blank. -/
def follow (folder : Folder) (path : String) : Except FileFault Place :=
  let start := if path.startsWith "/" then Place.outside else .folder []
  (path.splitOn "/").foldlM folder.enter start

/-- Reads a file by its path. -/
def read (folder : Folder) : Files := fun path =>
  if path.toList.contains '\x00' then .error .zeroInPath
  else if path.isEmpty then .error .missing
  else if pathLimit ≤ path.utf8ByteSize then .error .nameTooLong
  else
    match folder.follow path with
    | .ok (.file content) => .ok content
    | .ok _ => .error .isFolder
    | .error fault => .error fault

/-- The folder of files that are given by their paths. -/
def ofFiles (files : List (String × String)) : Folder :=
  files.map fun file => ((file.1.splitOn "/").filter (!stays ·), file.2)

end Folder

end Scriptlet
