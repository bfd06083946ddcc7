import RecordGraph.Powers

/-!
# Warnings about documents

A document that is not well formed is read as far as it goes. Each thing that had to be passed over
is reported with the line on which it begins.
-/

namespace RecordGraph.Document

inductive Problem where
  /-- An opening brace has no record in front of it, or one whose block is open. -/
  | unmatchedOpen
  | unmatchedClose
  | unexpectedEnd
  | invalidName (name : String)
  | invalidType (typeName : String)
  | unexpectedCharacter (character : Char)
  | unknownType (typeName : String)
deriving DecidableEq, Repr

def Problem.message : Problem → String
  | unmatchedOpen => "mismatched braces: nothing to open"
  | unmatchedClose => "mismatched braces: nothing to close"
  | unexpectedEnd => "unexpected end of input"
  | invalidName name => "invalid name `" ++ name ++ "`"
  | invalidType typeName => "invalid type `" ++ typeName ++ "`"
  | unexpectedCharacter character =>
    "unexpected character `" ++ String.singleton character ++ "`"
  | unknownType typeName => "unknown type `" ++ typeName ++ "`"

structure Warning where
  line : Nat
  problem : Problem
deriving DecidableEq, Repr

def Warning.lastLine : Nat := pow2 32 - 1

def Warning.on (line : Nat) (problem : Problem) : Warning :=
  ⟨min line lastLine, problem⟩

def Warning.message (warning : Warning) : String :=
  "line " ++ warning.line.repr ++ ": " ++ warning.problem.message

example : (Warning.mk 3 (.invalidName "-x")).message = "line 3: invalid name `-x`" := by
  decide +kernel

end RecordGraph.Document
