import RecordGraph.Text.LetterCase
import RecordGraph.Value.Basic

/-!
# Order of values

Two values of different variants are compared in the wider of the two forms: a text beats a real, a
real beats a handle, and a handle beats an integer. An absent value equals an absent value and is
in no order with any other.
-/

namespace RecordGraph.Value

def compare? : Value → Value → Option Ordering
  | absent, absent => some .eq
  | absent, _ | _, absent => none
  | text left, right => some (compare left right.toText)
  | left, text right => some (compare left.toText right)
  | real left, right => left.compare? right.toReal
  | left, real right => left.toReal.compare? right
  | handle left, right => some (compare left right.toWord)
  | left, handle right => some (compare left.toWord right)
  | int left, int right => some (compare left right)

def equals (left right : Value) : Bool :=
  left.compare? right == some .eq

end RecordGraph.Value

namespace RecordGraph

inductive Comparison where
  | equal
  | notEqual
  | less
  | greater
  | lessOrEqual
  | greaterOrEqual
deriving DecidableEq, Repr

namespace Comparison

def all : List Comparison :=
  [equal, notEqual, less, greater, lessOrEqual, greaterOrEqual]

def ofName? (name : String) : Option Comparison :=
  match Text.asciiUpperCase name with
  | "==" | "EQ" => some equal
  | "!=" | "NE" => some notEqual
  | "<" | "LT" => some less
  | ">" | "GT" => some greater
  | "<=" | "LE" => some lessOrEqual
  | ">=" | "GE" => some greaterOrEqual
  | _ => none

def holds (comparison : Comparison) (left right : Value) : Bool :=
  match comparison, left.compare? right with
  | equal, order => order == some .eq
  | notEqual, order => order != some .eq
  | less, order => order == some .lt
  | greater, order => order == some .gt
  | lessOrEqual, order => order == some .lt || order == some .eq
  | greaterOrEqual, order => order == some .gt || order == some .eq

end Comparison
end RecordGraph
