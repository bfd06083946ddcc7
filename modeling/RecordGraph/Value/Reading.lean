import RecordGraph.Binary64.Numeral
import RecordGraph.Text.Blank

/-!
# Numbers at the front of a text

A text that is asked for its number gives the longest number at its front, after blanks. What
follows the number does not matter, and a text without a number reads as zero.
-/

namespace RecordGraph
open Text

def leastInt : Int := -(pow2 63 : Int)

def greatestInt : Int := (pow2 63 : Int) - 1

def clampInt (value : Int) : Int64 :=
  Int64.ofInt (max leastInt (min greatestInt value))

def exactIntegerPrefix (characters : List Char) : Int :=
  let (negative, unsigned) := takeSign (dropBlanks characters)
  let size := number (unsigned.takeWhile isDigit)
  if negative then -(size : Int) else size

/-- The integer at the front of a text; beyond 64 bits it is the nearest end of the range. Digits
are counted no further than to the size of the least integer. -/
def integerPrefix (characters : List Char) : Int64 :=
  let (negative, unsigned) := takeSign (dropBlanks characters)
  let size := boundedNumber (pow2 63) (unsigned.takeWhile isDigit)
  clampInt (if negative then -(size : Int) else size)

theorem integerPrefix_eq (characters : List Char) :
    integerPrefix characters = clampInt (exactIntegerPrefix characters) := by
  simp only [integerPrefix, exactIntegerPrefix, boundedNumber_eq, clampInt, leastInt, greatestInt]
  congr 1
  split <;> omega

def realPrefix (characters : List Char) : Binary64 :=
  let characters := dropBlanks characters
  match Binary64.ofWord? (dropBlanksEnd characters) with
  | some value => value
  | none =>
    match Numeral.scan? characters with
    | some (numeral, _) => numeral.toBinary64
    | none => .zero

example : integerPrefix [' ', '-', '1', '2', 'x', '3'] = -12 := by decide
example : integerPrefix ['1', '.', '9'] = 1 := by decide
example : integerPrefix "99999999999999999999".toList = 9223372036854775807 := by decide +kernel
example : integerPrefix [] = 0 := by decide

end RecordGraph
