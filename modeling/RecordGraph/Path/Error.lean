import RecordGraph.DepthLimit

/-!
# Failures of paths

A path that cannot be resolved has one reason. Positions count the bytes of the text that was being
read.
-/

namespace RecordGraph.Path

inductive Error where
  | badIndex (position : Nat)
  | unclosedIndex (position : Nat)
  | unclosedParen (position : Nat)
  | trailingInput (position : Nat)
  | paddingTooLarge (index : Nat) (max : Nat)
  | tooDeep (excess : DepthExceeded)
deriving DecidableEq, Repr

def Error.message : Error → String
  | badIndex position => "bad index at byte " ++ position.repr
  | unclosedIndex position => "expected `]` at byte " ++ position.repr
  | unclosedParen position => "expected `)` at byte " ++ position.repr
  | trailingInput position => "unexpected trailing input at byte " ++ position.repr
  | paddingTooLarge index max =>
    "index " ++ index.repr ++ " would pad a child list past " ++ max.repr ++ " entries"
  | tooDeep excess => excess.message

end RecordGraph.Path
