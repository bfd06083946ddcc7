/-!
# Failures to read a file

Why no text can be read at a path: the operating system refuses, under a number of its own, or what
the file holds is not text.
-/

namespace RecordGraph

inductive ReadError where
  | missing
  | denied
  | notDirectory
  | isDirectory
  | nameTooLong
  | linkLoop
  | system (number : Nat)
  | nulInName
  | notText
deriving DecidableEq, Repr

namespace ReadError

def ofNumber : Nat → ReadError
  | 2 => missing
  | 13 => denied
  | 20 => notDirectory
  | 21 => isDirectory
  | 36 => nameTooLong
  | 40 => linkLoop
  | number => system number

def message : ReadError → String
  | missing => "No such file or directory (os error 2)"
  | denied => "Permission denied (os error 13)"
  | notDirectory => "Not a directory (os error 20)"
  | isDirectory => "Is a directory (os error 21)"
  | nameTooLong => "File name too long (os error 36)"
  | linkLoop => "Too many levels of symbolic links (os error 40)"
  | system number => "Input/output error (os error " ++ number.repr ++ ")"
  | nulInName => "file name contained an unexpected NUL byte"
  | notText => "stream did not contain valid UTF-8"

end ReadError

def textOfBytes (content : ByteArray) : Except ReadError String :=
  match String.fromUTF8? content with
  | some text => .ok text
  | none => .error .notText

end RecordGraph
