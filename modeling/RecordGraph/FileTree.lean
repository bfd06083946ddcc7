import RecordGraph.FileName
import RecordGraph.ReadError

/-!
# File trees

Directories and files held in memory, and reading the text at a path. A path is followed piece by
piece, and every piece needs a directory to start from: the first piece that fails decides the
error, so a path goes wrong where a name is missing and not at a worse fault behind it.
-/

namespace RecordGraph

abbrev Place := List String

structure FileTree where
  files : List (Place × ByteArray)
  directories : List Place
  /-- The directory where a path begins that does not begin at the root. -/
  current : Place

namespace FileTree

def longestName : Nat := 255

def longestPath : Nat := 4095

def isDirectory (tree : FileTree) (place : Place) : Bool :=
  place.isEmpty || tree.directories.contains place ||
    tree.files.any fun file => place.isPrefixOf file.1 && place ≠ file.1

def isFile (tree : FileTree) (place : Place) : Bool :=
  tree.files.any fun file => file.1 = place

def step (tree : FileTree) (place : Place) (piece : String) : Except ReadError Place :=
  if !tree.isDirectory place then .error .notDirectory
  else if piece = "" || piece = "." then .ok place
  else if piece = ".." then .ok place.dropLast
  else if longestName < piece.utf8ByteSize then .error .nameTooLong
  else
    let next := place ++ [piece]
    if tree.isDirectory next || tree.isFile next then .ok next else .error .missing

def follow (tree : FileTree) : Place → List String → Except ReadError Place
  | place, [] => .ok place
  | place, piece :: pieces =>
    match tree.step place piece with
    | .error failure => .error failure
    | .ok next => tree.follow next pieces

def locate (tree : FileTree) (path : String) : Except ReadError Place :=
  if path = "" then .error .missing
  else if path.toList.contains '\x00' then .error .nulInName
  else if longestPath < path.utf8ByteSize then .error .nameTooLong
  else
    let start := if path.startsWith "/" then [] else tree.current
    tree.follow start ((FileName.pieces '/' path.toList).map String.ofList)

def read (tree : FileTree) (path : String) : Except ReadError String :=
  match tree.locate path with
  | .error failure => .error failure
  | .ok place =>
    match tree.files.lookup place with
    | none => .error .isDirectory
    | some content => textOfBytes content

def rootDirectories : List String :=
  ["bin", "boot", "dev", "etc", "home", "lib", "media", "mnt", "opt", "proc", "root", "run", "sbin",
   "srv", "sys", "tmp", "usr", "var"]

def freshDirectory : Place := ["tmp", "documents"]

/-- Files in a fresh directory of a Linux system, which paths begin at. Of what lies outside it the
tree holds only what every such system has: the directories at the root, and the null device, which
reads as an empty file. -/
def ofFiles (files : List (String × ByteArray)) : FileTree where
  files := (["dev", "null"], ByteArray.empty) :: files.map fun (path, content) =>
    (freshDirectory ++ (FileName.parts path.toList).map String.ofList, content)
  directories := freshDirectory :: rootDirectories.map ([·])
  current := freshDirectory

private def sample : FileTree := ofFiles [("a.lsf", "x".toUTF8)]

example : (sample.locate "./a.lsf").toOption = some ["tmp", "documents", "a.lsf"] := by
  decide +kernel

example : (sample.locate "../../dev/null").toOption = some ["dev", "null"] := by decide +kernel

example : (sample.locate "a.lsf/" matches .error .notDirectory) = true := by decide +kernel

example : (sample.locate "b/../a.lsf" matches .error .missing) = true := by decide +kernel

end FileTree
end RecordGraph
