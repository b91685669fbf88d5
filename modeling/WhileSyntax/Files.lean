namespace WhileSyntax

/-! # Files

What reading a file can come to, and a tree of files and directories in which paths are looked up
the way an operating system does it.
-/

/-- What a call of the file system fails with. -/
inductive FileError where
  /-- Nothing has this name. -/
  | missing
  /-- The path goes through a file as if it were a directory. -/
  | notDirectory
  /-- The path leads to a directory. -/
  | isDirectory
  /-- A part of the path is longer than names may be. -/
  | nameTooLong
  /-- The file holds something else than text in UTF-8. -/
  | notText
  /-- Another refusal, with its description and number. -/
  | system (description : String) (code : Nat)
  deriving DecidableEq, Repr

def FileError.message : FileError → String
  | missing => "No such file or directory (os error 2)"
  | notDirectory => "Not a directory (os error 20)"
  | isDirectory => "Is a directory (os error 21)"
  | nameTooLong => "File name too long (os error 36)"
  | notText => "stream did not contain valid UTF-8"
  | system description code => description ++ " (os error " ++ toString code ++ ")"

/-- Why there is no text at a path. A path is followed first, to ask for the metadata of what it
leads to, and what is there is read then; each can fail with any error. -/
inductive ReadFault where
  /-- The path cannot be followed, so nothing is known to exist there. -/
  | unreachable (error : FileError)
  /-- Something exists there, but it cannot be read. -/
  | unreadable (error : FileError)
  deriving DecidableEq, Repr

/-- The fault as it is reported, which does not say where it occurred. -/
def ReadFault.message : ReadFault → String
  | unreachable error | unreadable error => error.message

def decodeText (bytes : ByteArray) : Except FileError String :=
  match String.fromUTF8? bytes with
  | some s => .ok s
  | none => .error .notText

/-- The text at each path, or why there is none. -/
abbrev Reader := String → Except ReadFault String

/-! ## Trees of files -/

inductive FileTree where
  | file (bytes : ByteArray)
  | directory (members : List (String × FileTree))

namespace FileTree

def empty : FileTree :=
  .directory []

/-- The parts of a path between its slashes; an empty part at the end stands for a slash there. -/
def parts (path : String) : List String :=
  path.splitOn "/"

/-- Replaces the member of the given name, or adds it. -/
def setMember (name : String) (t : FileTree) :
    List (String × FileTree) → List (String × FileTree)
  | [] => [(name, t)]
  | (n, u) :: rest => if n = name then (n, t) :: rest else (n, u) :: setMember name t rest

/-- Puts something at the end of a path of names, making directories on the way. -/
def put (new : FileTree) : List String → FileTree → FileTree
  | [], _ => new
  | name :: rest, .directory members =>
    .directory (setMember name (put new rest ((members.lookup name).getD empty)) members)
  | _ :: _, .file bytes => .file bytes

/-- Makes the directories along a path of names where there are none. -/
def ensure : List String → FileTree → FileTree
  | [], t => t
  | name :: rest, .directory members =>
    .directory (setMember name (ensure rest ((members.lookup name).getD empty)) members)
  | _ :: _, .file bytes => .file bytes

/-- The parts of a path from the root on; a path without a slash in front starts at the working
directory, which is given as a path of names. -/
def steps (working : List String) (path : String) : List String :=
  match parts path with
  | "" :: rest => rest
  | ps => working ++ ps

/-- The places, as paths of names, to which the parts of a path lead one after the other when its
dots are followed; `here` is the present place, from the inside out. -/
def visits (here : List String) : List String → List (List String)
  | [] => []
  | part :: rest =>
    if part = "" || part = "." then visits here rest
    else if part = ".." then here.tail.reverse :: visits here.tail rest
    else (part :: here).reverse :: visits (part :: here) rest

/-- Puts something at a path, making every directory that the path goes through. -/
def place (t : FileTree) (working : List String) (path : String) (new : FileTree) : FileTree :=
  let places := visits [] (steps working path)
  match places.getLast? with
  | none => t
  | some last => put new last (places.dropLast.foldl (fun t dir => ensure dir t) t)

/-- The longest name that a file may have, in bytes. -/
def longestName : Nat :=
  255

/-- The longest path that can be followed, in bytes. -/
def longestPath : Nat :=
  4095

/-- Follows the parts of a path. The directories above the present place are `above`, the nearest
first; the root is above itself. -/
def follow (above : List FileTree) (t : FileTree) : List String → Except FileError FileTree
  | [] => .ok t
  | part :: rest =>
    match t with
    | .file _ => .error .notDirectory
    | .directory members =>
      if part = "" || part = "." then follow above t rest
      else if part = ".." then
        match above with
        | [] => follow [] t rest
        | up :: above => follow above up rest
      else if longestName < part.utf8ByteSize then .error .nameTooLong
      else
        match members.lookup part with
        | none => .error .missing
        | some u => follow (t :: above) u rest

/-- Reads the text at a path. The empty path leads nowhere. -/
def read (t : FileTree) (working : List String) : Reader := fun path =>
  if longestPath < path.utf8ByteSize then .error (.unreachable .nameTooLong)
  else if path = "" then .error (.unreachable .missing)
  else
    match follow [] t (steps working path) with
    | .error e => .error (.unreachable e)
    | .ok (.directory _) => .error (.unreadable .isDirectory)
    | .ok (.file bytes) => (decodeText bytes).mapError .unreadable

end FileTree

end WhileSyntax
