import RecordGraph.Path.Error
import RecordGraph.Text.Digits

/-!
# Reading along a path

A cursor stands between two characters of a text: it knows what is left of the text and how many
bytes precede it. A reader moves the cursor and gives a result or a failure; the cursor stays where
a failure was met.
-/

namespace RecordGraph.Path

structure Cursor where
  position : Nat
  rest : List Char
deriving DecidableEq, Repr

namespace Cursor

def ofText (text : String) : Cursor := ⟨0, text.toList⟩

def next : Cursor → Cursor
  | ⟨position, []⟩ => ⟨position, []⟩
  | ⟨position, character :: rest⟩ => ⟨position + character.utf8Size, rest⟩

def skipPast (mark : Char) : Nat → List Char → Cursor
  | position, [] => ⟨position, []⟩
  | position, character :: rest =>
    if character = mark then ⟨position + character.utf8Size, rest⟩
    else skipPast mark (position + character.utf8Size) rest

def takeWhile (test : Char → Bool) : Nat → List Char → List Char × Cursor
  | position, [] => ([], ⟨position, []⟩)
  | position, character :: rest =>
    if test character then
      let (taken, cursor) := takeWhile test (position + character.utf8Size) rest
      (character :: taken, cursor)
    else ([], ⟨position, character :: rest⟩)

def takeBytes : Nat → List Char → List Char
  | 0, _ | _, [] => []
  | bytes, character :: rest => character :: takeBytes (bytes - character.utf8Size) rest

def textUpTo (start finish : Cursor) : List Char :=
  takeBytes (finish.position - start.position) start.rest

theorem next_rest_length (cursor : Cursor) :
    cursor.next.rest.length = cursor.rest.length - 1 := by
  obtain ⟨position, rest⟩ := cursor
  cases rest <;> rfl

theorem takeWhile_fst (test : Char → Bool) (position : Nat) (rest : List Char) :
    (takeWhile test position rest).1 = rest.takeWhile test := by
  induction rest generalizing position with
  | nil => rfl
  | cons character rest induction =>
    by_cases passes : test character <;> simp [takeWhile, passes, induction]

theorem takeWhile_rest (test : Char → Bool) (position : Nat) (rest : List Char) :
    (takeWhile test position rest).2.rest = rest.dropWhile test := by
  induction rest generalizing position with
  | nil => rfl
  | cons character rest induction =>
    by_cases passes : test character <;> simp [takeWhile, passes, induction]

example : skipPast ')' 0 ['a', ')', 'b'] = ⟨2, ['b']⟩ := rfl

end Cursor

abbrev Reader := EStateM Error Cursor

namespace Reader

def peek : Reader (Option Char) := do
  return (← get).rest.head?

def advance : Reader Unit :=
  modify Cursor.next

def takeWhile (test : Char → Bool) : Reader (List Char) :=
  modifyGet fun cursor => Cursor.takeWhile test cursor.position cursor.rest

def skipPast (mark : Char) : Reader Unit :=
  modify fun cursor => Cursor.skipPast mark cursor.position cursor.rest

def readText (reader : Reader α) (text : String) : Reader α :=
  match reader.run (Cursor.ofText text) with
  | .ok result _ => pure result
  | .error failure _ => throw failure

end Reader
end RecordGraph.Path
