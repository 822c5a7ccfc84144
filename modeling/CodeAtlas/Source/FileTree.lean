import CodeAtlas.Text.Split

/-! Files in a tree of directories, put there and read by their paths. -/
namespace CodeAtlas

namespace Path

/-- Whether a name on a path stays where it is. -/
def stays (name : String) : Bool := name == "" || name == "."

/-- The most bytes in a name. -/
def nameLimit : Nat := 255

/-- The most bytes in a path from the top of a tree. A path may have 4095 bytes in all, and 32 of them
are left to the path of the top itself. -/
def limit : Nat := 4095 - 32

def isFileName (name : String) : Bool :=
  !stays name && name != ".." && name.utf8ByteSize ≤ nameLimit

/-- Whether a path can be looked for in a tree at all: it starts at the top, is not too long and
holds no null character. -/
def isRelative (path : String) : Bool :=
  path.toList.head? != some '/' && path.utf8ByteSize ≤ limit && !path.toList.contains '\x00'

def names (path : String) : List String := Text.splitOn '/' path

/-- The path without its last name. Names that stay do not count at its end. -/
def parent (path : String) : String :=
  let above := ((names path).reverse.dropWhile stays).drop 1
  String.intercalate "/" (above.dropWhile stays).reverse

end Path

/-- A place in a tree of directories: the names that lead there from the top, the last one first. -/
abbrev Place := List String

/-- Where a name leads. Two points go up, out of the tree too. -/
def Place.enter (place : Place) (name : String) : Place :=
  if Path.stays name then place
  else if name = ".." then
    match place with
    | [] => [".."]
    | last :: above => if last = ".." then ".." :: place else above
  else name :: place

inductive FileTree.Entry where
  | directory
  | file (text : String)
  deriving Repr

/-- A tree of directories. Of several entries at one place the first counts. -/
structure FileTree where
  entries : List (Place × FileTree.Entry) := []
  deriving Repr

namespace FileTree

/-- Whether a place is a directory. The top and what lies above it are. -/
def isDirectory (t : FileTree) (place : Place) : Bool :=
  place.all (· == "..") || match t.entries.lookup place with
    | some .directory => true
    | _ => false

def textAt? (t : FileTree) (place : Place) : Option String :=
  match t.entries.lookup place with
  | some (.file text) => some text
  | _ => none

/-- Follows names from a place; each must be looked for in a directory. -/
def follow? (t : FileTree) : Place → List String → Option Place
  | place, [] => some place
  | place, name :: names =>
    if t.isDirectory place then t.follow? (place.enter name) names else none

/-- The place of the file that a path names. -/
def target? (t : FileTree) (path : String) : Option Place :=
  let names := Path.names path
  if Path.isRelative path && names.getLast?.any Path.isFileName then t.follow? [] names else none

/-- Makes the directories that are missing along names from a place on, up to the first name that a
file has or that none can have. -/
def makeWay : FileTree → Place → List String → FileTree
  | t, _, [] => t
  | t, place, name :: names =>
    let next := place.enter name
    if t.isDirectory next then t.makeWay next names
    else if (t.textAt? next).isSome || !Path.isFileName name then t
    else makeWay ⟨(next, .directory) :: t.entries⟩ next names

/-- Puts a file under a path, in the place of one that is there, and makes the directories on the way
to it. Where it cannot stand, the directories are all that is made. -/
def put (t : FileTree) (path text : String) : FileTree :=
  let way := Path.parent path
  let t := if Path.isRelative way then t.makeWay [] (Path.names way) else t
  match t.target? path with
  | some place => if t.isDirectory place then t else ⟨(place, .file text) :: t.entries⟩
  | none => t

def ofFiles (files : List (String × String)) : FileTree :=
  files.foldl (fun t (path, text) => t.put path text) {}

def read? (t : FileTree) (path : String) : Option String := (t.target? path).bind t.textAt?

end FileTree
end CodeAtlas
