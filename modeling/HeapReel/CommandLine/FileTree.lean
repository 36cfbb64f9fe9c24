/-
A disk that is a value.

Files and folders are known by their path, the names on the way to them from the folder
that the command works in.  A path is walked name by name, and every place that it leaves
by a name must be a folder.  The folder that holds the working folder is named `..` here,
and so on upwards.

Names and paths have limits, counted in bytes.  A path is measured before it is walked, and
a name when a folder is asked for it.
-/
import HeapReel.CommandLine.Disk

namespace HeapReel.CommandLine

/-- The names on the way to a place. -/
abbrev Path : Type :=
  List String

/-- Files with their bytes, and folders.  The folders on the way to a file or to another
folder need no mention. -/
structure FileTree where
  files : List (Path × ByteArray)
  folders : List Path

namespace FileTree

/-- The bytes of the file at a place. -/
def bytes? (t : FileTree) (p : Path) : Option ByteArray :=
  t.files.lookup p

/-- There is a folder at the place. -/
def isFolder (t : FileTree) (p : Path) : Bool :=
  p.all (· == "..") || p == ["/"]
    || t.folders.any p.isPrefixOf
    || t.files.any fun (q, _) => p.isPrefixOf q && p != q

/-- The place that a name leads to. -/
def next (p : Path) (name : String) : Path :=
  if name = "" ∨ name = "." then p
  else if name = ".." then
    if p.all (· == "..") then p ++ [".."] else if p = ["/"] then p else p.dropLast
  else p ++ [name]

/-- How long a name may be. -/
def nameLimit : Nat :=
  255

/-- How long a path may be. -/
def pathLimit : Nat :=
  4095

/-- The place at the end of some names. -/
def walk (t : FileTree) (p : Path) : List String → Except FileError Path
  | [] => .ok p
  | name :: names =>
      if t.isFolder p then
        if name.utf8ByteSize ≤ nameLimit then t.walk (next p name) names
        else .error .nameTooLong
      else if (t.bytes? p).isSome then .error .notFolder
      else .error .missing

/-- Where a path starts, and its names. -/
def split (path : String) : Path × List String :=
  let names := (path.toList.splitOn '/').map String.ofList
  if path.toList.head? = some '/' then (["/"], names) else ([], names)

/-- Where a path starts, and its names, if it is not too long. -/
def split? (path : String) : Except FileError (Path × List String) :=
  if path.utf8ByteSize ≤ pathLimit then .ok (split path) else .error .nameTooLong

/-- The place of a path. -/
def locate (t : FileTree) (path : String) : Except FileError Path := do
  let (start, names) ← split? path
  t.walk start names

/-- The place of a file that may not be there yet.  A path that ends in a slash can only
lead to a folder, so its last name is not even looked up. -/
def locateNew (t : FileTree) (path : String) : Except FileError Path := do
  let (start, names) ← split? path
  let solid := (names.reverse.dropWhile (· = "")).reverse
  if solid = names then t.walk start names
  else
    let _ ← t.walk start (solid.dropLast ++ [""])
    throw .isFolder

/-- The bytes of the file at a path. -/
def read (t : FileTree) (path : String) : Except FileError ByteArray := do
  let p ← t.locate path
  match t.bytes? p with
  | some bytes => return bytes
  | none => if t.isFolder p then .error .isFolder else .error .missing

/-- The tree with these bytes at a place. -/
def put (t : FileTree) (p : Path) (bytes : ByteArray) : FileTree :=
  { t with files := (p, bytes) :: t.files.filter fun (q, _) => q ≠ p }

/-- The tree with an empty file at a path. -/
def create (t : FileTree) (path : String) : Except FileError FileTree := do
  let p ← t.locateNew path
  if t.isFolder p then .error .isFolder else return t.put p ByteArray.empty

/-- The tree with bytes in the file at a path. -/
def fill (t : FileTree) (path : String) (bytes : ByteArray) : FileTree :=
  match t.locate path with
  | .ok p => t.put p bytes
  | .error _ => t

/-- The disk whose state is a tree. -/
def disk : Disk (StateM FileTree) FileError where
  read path := do return (← get).read path
  create path := do
    match (← get).create path with
    | .ok t => set t; return .ok ()
    | .error e => return .error e
  fill path bytes := modify fun t => t.fill path bytes

end FileTree

end HeapReel.CommandLine
