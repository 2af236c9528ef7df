import UnitCalculus.Settings

/-! # Files

The files that can be read: names with contents, in a directory from which relative paths start.  A
path may pass through directories, which are there if a file is in them.  Contents are bytes; they
are a text when they encode one in UTF-8. -/

namespace UnitCalculus

open UnitCalculus.Text

/-- Names of files with their contents. -/
abbrev Files := List (String × ByteArray)

/-- Why a file cannot be opened. -/
inductive FileFault where
  | notFound (path : String)
  | isDirectory (path : String)
  | notADirectory (path : String)
  deriving DecidableEq, Repr

/-- The reason with its number, and the path. -/
def FileFault.message : FileFault → String
  | notFound path => "[Errno 2] No such file or directory: " ++ quoted path
  | isDirectory path => "[Errno 21] Is a directory: " ++ quoted path
  | notADirectory path => "[Errno 20] Not a directory: " ++ quoted path

/-- Why no text can be read from a file. -/
inductive TextFault where
  | file (f : FileFault)
  /-- The bytes of the file are no text. -/
  | undecodable
  deriving DecidableEq, Repr

/-- What a path leads to. -/
inductive FileEntry where
  | file (content : ByteArray)
  | directory
  | blocked
  | nothing

namespace Files

/-- The parts of a path, the root of an absolute one first. -/
def partsOf (path : String) : List (List Char) :=
  let cs := path.toList
  let root := Settings.pathRoot cs
  if root.isEmpty then Settings.pathParts cs else root :: Settings.pathParts cs

/-- What the directory of the given parts is or holds. -/
def entryAt (fs : Files) (parts : List (List Char)) : FileEntry :=
  match fs.find? fun f => partsOf f.1 == parts with
  | some f => .file f.2
  | none =>
    if parts.isEmpty || fs.any fun f => parts.isPrefixOf (partsOf f.1) then .directory
    else .nothing

/-- Follow the parts of a path from the directory `here`. -/
def follow (fs : Files) (here : List (List Char)) : List (List Char) → FileEntry
  | [] => fs.entryAt here
  | p :: ps =>
    match fs.entryAt here with
    | .directory =>
      if p == ['.', '.'] then
        if here.isEmpty then .nothing else fs.follow here.dropLast ps
      else fs.follow (here ++ [p]) ps
    | .file _ => .blocked
    | e => e

/-- What a path leads to; a slash at its end asks for a directory. -/
def entry (fs : Files) (path : String) : FileEntry :=
  let cs := path.toList
  let root := Settings.pathRoot cs
  let found := fs.follow (if root.isEmpty then [] else [root]) (Settings.pathParts cs)
  match found with
  | .file content => if cs.getLast? == some '/' then .blocked else .file content
  | e => if path == "" then .nothing else e

/-- The text of the file at a path in normal form. -/
def read (fs : Files) (path : String) : Except TextFault String :=
  match fs.entry path with
  | .file content =>
    match String.fromUTF8? content with
    | some text => .ok text
    | none => .error .undecodable
  | .directory => .error (.file (.isDirectory path))
  | .blocked => .error (.file (.notADirectory path))
  | .nothing => .error (.file (.notFound path))

end Files

end UnitCalculus
