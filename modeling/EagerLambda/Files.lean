import EagerLambda.RunError

/-!
# Files

What comes of opening a file, and how a path leads to it. A path is followed one
name at a time, each time from a folder: a file leads nowhere, not even to itself.
-/

namespace EagerLambda

/-- What comes of opening a file. -/
inductive Source where
  | closed (cause : Fault)
  /-- It can be opened and not read. -/
  | unreadable (cause : Fault)
  | bytes (content : List UInt8)
  deriving DecidableEq, Repr

inductive Entry where
  | file (content : List UInt8)
  | folder
  deriving DecidableEq, Repr

/-- A place: the names that lead to it from the root. -/
abbrev Place := List String

abbrev Files := List (Place × Entry)

/-- The names between the slashes of a path. -/
def pathNames (path : String) : List String :=
  (path.toList.splitOn '/').map String.ofList

def maxNameBytes : Nat := 255

def maxPathBytes : Nat := 4095

namespace Files

def entry? (files : Files) (place : Place) : Option Entry :=
  if place = [] then some .folder else files.lookup place

/-- The place that names lead to, starting from another. -/
def follow (files : Files) (place : Place) : List String → Except Fault Place
  | [] => .ok place
  | name :: names =>
    match files.entry? place with
    | none => .error .notFound
    | some (.file _) => .error .notDirectory
    | some .folder =>
      if name = "" ∨ name = "." then files.follow place names
      else if name = ".." then files.follow place.dropLast names
      else if maxNameBytes < name.utf8ByteSize then .error .nameTooLong
      else files.follow (place ++ [name]) names

def sourceAt (files : Files) (place : Place) : Source :=
  match files.entry? place with
  | none => .closed .notFound
  | some .folder => .unreadable .isDirectory
  | some (.file content) => .bytes content

/-- Opens what a path leads to. A path that starts with a slash is followed from
the root, any other from the folder `here`. -/
def source (files : Files) (here : Place) (path : String) : Source :=
  if path = "" then .closed .notFound
  else if maxPathBytes < path.utf8ByteSize then .closed .nameTooLong
  else
    match files.follow (if path.startsWith "/" then [] else here) (pathNames path) with
    | .error cause => .closed cause
    | .ok place => files.sourceAt place

end Files

end EagerLambda
