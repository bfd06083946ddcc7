import RecordGraph.Value.Basic

/-!
# Literals without quotes

An unquoted literal that begins with a digit or a sign is a number: a real if a point or an `e`
stands behind its first character, an integer otherwise. Any other literal is a text.
-/

namespace RecordGraph
open Text

def beginsNumber : Char → Bool
  | '+' | '-' => true
  | character => isDigit character

def marksReal : Char → Bool
  | '.' | 'e' | 'E' => true
  | _ => false

namespace Value

def ofLiteral (literal : String) : Value :=
  match literal.toList with
  | [] => text ""
  | first :: rest =>
    if beginsNumber first then
      if rest.any marksReal then real (realPrefix literal.toList)
      else int (integerPrefix literal.toList)
    else text literal

example : ofLiteral "12abc" = int 12 := by decide +kernel
example : ofLiteral "abc" = text "abc" := by decide +kernel
example : ofLiteral "-" = int 0 := by decide +kernel

end Value
end RecordGraph
