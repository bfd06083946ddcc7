/-!
# File names

The parts of a path stand between slashes. A part that is empty or a single point names no step, and
the last part that is left is the name of the file.
-/

namespace RecordGraph.FileName

def pieces (mark : Char) : List Char → List (List Char)
  | [] => [[]]
  | character :: rest =>
    if character = mark then [] :: pieces mark rest
    else
      match pieces mark rest with
      | [] => [[character]]
      | first :: others => (character :: first) :: others

def parts (path : List Char) : List (List Char) :=
  (pieces '/' path).filter fun part => part ≠ [] && part ≠ ['.']

def dropExtension (file : List Char) : List Char :=
  let afterLast := file.reverse.takeWhile (· != '.')
  let stem := (file.reverse.drop (afterLast.length + 1)).reverse
  if stem.isEmpty then file else stem

def stem (path : String) : String :=
  match (parts path.toList).getLast? with
  | none => ""
  | some file => if file = ['.', '.'] then "" else String.ofList (dropExtension file)

example : stem "./archive.tar.gz" = "archive.tar" := by decide +kernel
example : stem ".hidden" = ".hidden" := by decide +kernel
example : stem "plain." = "plain" := by decide +kernel
example : stem "up/.." = "" := by decide +kernel

end RecordGraph.FileName
