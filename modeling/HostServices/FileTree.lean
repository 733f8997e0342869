import HostServices.Text.Split

/-!
# File trees

Files and the directories they lie in, and which paths name one of them.
-/

namespace HostServices

/-- Files with their components from the root, and the current directory. -/
structure FileTree where
  files : List (List String)
  current : List String

namespace FileTree

/-- The components of a path. -/
def components (path : String) : List String :=
  (Text.split '/' path.toList).map String.ofList

/-- A directory: what the current directory or a file lies in, up to the root. -/
def isDirectory (t : FileTree) (place : List String) : Bool :=
  place.isPrefixOf t.current || t.files.any fun f => place != f && place.isPrefixOf f

/-- A directory or a file. -/
def isEntry (t : FileTree) (place : List String) : Bool :=
  t.isDirectory place || t.files.contains place

/-- Where components lead from an entry. -/
def walk (t : FileTree) (place : List String) : List String → Option (List String)
  | [] => some place
  | c :: rest =>
    if !t.isDirectory place then none
    else if c = "" ∨ c = "." then walk t place rest
    else if c = ".." then walk t place.dropLast rest
    else if t.isEntry (place ++ [c]) then walk t (place ++ [c]) rest
    else none

/-- A path names an entry. -/
def contains (t : FileTree) (path : String) : Bool :=
  path != "" && path.utf8ByteSize < 4096 &&
    match components path with
    | "" :: rest => (t.walk [] rest).isSome
    | cs => (t.walk t.current cs).isSome

end FileTree

end HostServices
