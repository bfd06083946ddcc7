import RecordGraph.Binary64.Arithmetic
import RecordGraph.Binary64.Shortest
import RecordGraph.Value.Reading

/-!
# Values

A value is what an attribute of a record holds: nothing, an integer or a real of 64 bits, a text,
or a handle, which is a word that is passed through untouched. Each value can be asked for each
form, so the conversions are total.
-/

namespace RecordGraph
open Text

inductive Value where
  | absent
  | int (value : Int64)
  | real (value : Binary64)
  | text (value : String)
  | handle (word : UInt64)
deriving DecidableEq, Repr

namespace Value

instance : Inhabited Value := ⟨absent⟩

def variantName : Value → String
  | absent => "absent"
  | int _ => "integer"
  | real _ => "real"
  | text _ => "string"
  | handle _ => "opaque"

def isAbsent : Value → Bool
  | absent => true
  | _ => false

def isText : Value → Bool
  | text _ => true
  | _ => false

def toText : Value → String
  | absent => ""
  | int value => String.ofList (decimalText value.toInt)
  | real value => String.ofList value.text
  | text value => value
  | handle word => String.ofList (hexText word.toNat)

/-- The integer form: a real is truncated into range, a text gives the integer at its front, and a
handle the integer with the same bits. -/
def toInt : Value → Int64
  | absent => 0
  | int value => value
  | real value => Int64.ofInt (value.truncate leastInt greatestInt)
  | text value => integerPrefix value.toList
  | handle word => word.toInt64

def toReal : Value → Binary64
  | absent => .notANumber
  | int value => .ofInt value.toInt
  | real value => value
  | text value => realPrefix value.toList
  | handle word => .ofInt word.toNat

def toWord : Value → UInt64
  | absent => 0
  | int value => value.toUInt64
  | real value => (Int64.ofInt (value.truncate leastInt greatestInt)).toUInt64
  | text _ => 0
  | handle word => word

def isTruthy : Value → Bool
  | absent => false
  | int value => value != 0
  | real value => !value.isZero && !value.isNaN
  | text value => !value.isEmpty
  | handle word => word != 0

def textLength (value : Value) : Value :=
  int (Int64.ofInt value.toText.utf8ByteSize)

@[simp] theorem toText_text (value : String) : (text value).toText = value := rfl

end Value
end RecordGraph
