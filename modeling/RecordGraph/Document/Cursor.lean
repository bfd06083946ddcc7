import RecordGraph.Document.Warning

/-!
# Places in a document

A cursor knows what is left of a document and the line it stands on. A scanner moves the cursor and
gives a piece of the document or a problem; after a problem the cursor stays where it was met.
-/

namespace RecordGraph.Document

structure Cursor where
  line : Nat
  rest : List Char
deriving DecidableEq, Repr

def isGap (character : Char) : Bool :=
  character == ' ' || character == '\t'

def isGapOrLineEnd (character : Char) : Bool :=
  isGap character || character == '\r' || character == '\n'

namespace Cursor

def ofText (text : String) : Cursor := ⟨1, text.toList⟩

def past (cursor : Cursor) (taken : List Char) : Cursor :=
  ⟨cursor.line + taken.count '\n', cursor.rest.drop taken.length⟩

def next (cursor : Cursor) : Cursor :=
  cursor.past (cursor.rest.take 1)

def ahead (cursor : Cursor) (test : Char → Bool) : List Char :=
  cursor.rest.takeWhile test

def skip (cursor : Cursor) (test : Char → Bool) : Cursor :=
  cursor.past (cursor.ahead test)

def peek (cursor : Cursor) : Option Char :=
  cursor.rest.head?

def isAt (cursor : Cursor) (character : Char) : Bool :=
  cursor.peek == some character

def isAtEnd (cursor : Cursor) : Bool :=
  cursor.rest.isEmpty

theorem drop_length_takeWhile (test : Char → Bool) (characters : List Char) :
    characters.drop (characters.takeWhile test).length = characters.dropWhile test := by
  induction characters with
  | nil => rfl
  | cons character rest induction =>
    by_cases passes : test character <;> simp [passes, induction]

@[simp] theorem rest_skip (cursor : Cursor) (test : Char → Bool) :
    (cursor.skip test).rest = cursor.rest.dropWhile test :=
  drop_length_takeWhile test cursor.rest

example : (Cursor.ofText "a\n b").next.skip isGapOrLineEnd = ⟨2, ['b']⟩ := by decide

end Cursor

abbrev Scanner := EStateM Problem Cursor

namespace Scanner

def advance : Scanner Unit :=
  modify Cursor.next

def skip (test : Char → Bool) : Scanner Unit :=
  modify (·.skip test)

def takeUntil (stops : List Char) : Scanner (List Char) :=
  modifyGet fun cursor =>
    let taken := cursor.ahead fun character => !stops.contains character
    (taken, cursor.past taken)

def expect (allowed : List Char) : Scanner Unit := do
  match (← get).peek with
  | none => return ()
  | some character =>
    if allowed.contains character then return () else throw (.unexpectedCharacter character)

end Scanner
end RecordGraph.Document
