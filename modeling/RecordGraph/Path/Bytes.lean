import RecordGraph.Path.Interpolation

/-!
# Paths byte by byte

A text is stored as the bytes of its UTF-8 form, and a place in it is an offset. Most steps along a
path look at one byte and pass over one byte. A part of the text is cut out between two offsets; it
has to begin and end between characters, and the program stops where it does not.

The readers of paths and of running texts stand here once more, as steps over bytes. A byte is given
as the character with its code.
-/

namespace RecordGraph.Path.Bytes

inductive Stop where
  | failed (failure : Error)
  /-- A part of the text was asked for that begins or ends inside a character or outside the
  text. -/
  | torn
  | endless
deriving DecidableEq, Repr

abbrev Scanner := EStateM Stop Nat

section

variable (text : String)

def byteAt (offset : Nat) : Option Char :=
  text.toByteArray.data[offset]?.map Char.ofUInt8

def peek : Scanner (Option Char) := do
  return byteAt text (← get)

def advance : Scanner Unit :=
  modify (· + 1)

def endOf (test : Char → Bool) (offset : Nat) : Nat :=
  if offset < text.utf8ByteSize ∧ (byteAt text offset).any test then endOf test (offset + 1)
  else offset
termination_by text.utf8ByteSize - offset

def passWhile (test : Char → Bool) : Scanner Unit :=
  modify (endOf text test)

def skipPast (mark : Char) : Scanner Unit := do
  passWhile text (· != mark)
  modify fun offset => min (offset + 1) text.utf8ByteSize

def slice (start finish : Nat) : Scanner String :=
  if start ≤ finish ∧ String.Pos.Raw.IsValid text ⟨start⟩ ∧
      String.Pos.Raw.IsValid text ⟨finish⟩ then
    pure (String.Pos.Raw.extract text ⟨start⟩ ⟨finish⟩)
  else throw .torn

def cut (start : Nat) (test : Char → Bool) : Scanner String := do
  passWhile text test
  slice text start (← get)

def remainder : Scanner (List Char) := do
  return (← slice text (← get) text.utf8ByteSize).toList

def advanceCharacter : Scanner Unit := do
  let width := (← remainder text).head?.elim 1 Char.utf8Size
  modify fun offset => min (offset + width) text.utf8ByteSize

def readText (scanner : Scanner α) : Scanner α := fun offset =>
  match scanner 0 with
  | .ok result _ => .ok result offset
  | .error stop _ => .error stop offset

def leadingIdentifier : Scanner String :=
  if (byteAt text 0).any beginsIdentifier then slice text 0 (endOf text continuesIdentifier 0)
  else return ""

end

section Grammar

variable (table : SymbolTable) (arena : Arena) (deeper : String → Bool → Scanner Target)
  (text : String)

def expect (mark : Char) (failure : Nat → Error) : Scanner Unit := do
  if (← peek text) = some mark then advance
  else if table.robust then skipPast text mark
  else throw (.failed (failure (← get)))

def insideParens : Scanner Value := do
  advance
  let target ← deeper text true
  if target.node.isNone || target.attr.isNone then return .absent
  expect table text ')' .unclosedParen
  return target.value arena

def identifier : Scanner String := do
  match ← peek text with
  | none => return ""
  | some '$' =>
    advance
    if (← peek text) = some '(' then
      leadingIdentifier (← insideParens table arena deeper text).toText
    else return ""
  | some byte =>
    if beginsIdentifier byte then
      let start ← get
      advance
      cut text start continuesIdentifier
    else
      advanceCharacter text
      return ""

def badIndex (offset : Nat) : Scanner (Option Nat) :=
  if table.robust then pure none else throw (.failed (.badIndex offset))

def indexOfValue (value : Value) (offset : Nat) : Scanner (Option Nat) :=
  match indexInteger? value with
  | some integer =>
    if 0 ≤ integer then pure (some integer.toInt.toNat) else badIndex table offset
  | none => badIndex table offset

def indexValue : Scanner (Option Nat) := do
  let start ← get
  match ← peek text with
  | some byte =>
    if Text.isDigit byte then
      let digits ← cut text start Text.isDigit
      let index := Text.boundedNumber indexBound digits.toList
      if index < indexBound then return some index else badIndex table start
    else if byte = '$' then
      advance
      let target ← deeper text true
      indexOfValue table (target.value arena) start
    else if beginsIdentifier byte then
      let target ← deeper text true
      indexOfValue table (target.value arena) start
    else badIndex table start
  | none => badIndex table start

def closeBracket : Scanner Unit :=
  expect table text ']' .unclosedIndex

def indices : Nat → Option NodeId → Scanner (Option NodeId)
  | 0, _ => throw .endless
  | rounds + 1, current => do
    if (← peek text) = some '[' then
      advance
      let index ← indexValue table arena deeper text
      closeBracket table text
      indices rounds (current.bind fun node => index.bind (arena.child? node))
    else return current

def primary : Scanner (Option NodeId) := do
  let key ← identifier table arena deeper text
  if key = "" then return none
  else indices table arena deeper text (text.utf8ByteSize + 1) (table.lookup key)

def attrPart : Scanner (Option AttrId) := do
  if (← peek text) = some '.' then
    advance
    let name ← identifier table arena deeper text
    if name = "" then return none else return arena.names.query name
  else return some .value

def pathOver (nested : Bool) : Scanner Target := do
  let start ← get
  if text.utf8ByteSize ≤ start then return .nothing
  else if byteAt text start = some '$' ∧ byteAt text (start + 1) ≠ some '(' then
    advance
    let inner ← deeper text nested
    readText (deeper (inner.value arena).toText nested)
  else
    let node ← primary table arena deeper text
    let attr ← attrPart table arena deeper text
    let finish ← get
    if !nested && !table.robust && finish < text.utf8ByteSize then
      throw (.failed (.trailingInput finish))
    else return ⟨node, attr⟩

end Grammar

section

variable (table : SymbolTable) (arena : Arena)

def below : Nat → String → Bool → Scanner Target
  | 0, _, _ => throw (.failed (.tooDeep ⟨table.limit.max + 1, table.limit.max⟩))
  | levels + 1, text, nested => pathOver table arena (below levels) text nested

def path (text : String) (nested : Bool) : Scanner Target :=
  pathOver table arena (below table arena table.limit.max) text nested

variable (text : String)

def valueHere : Scanner Value := fun start =>
  match path table arena text true start with
  | .ok target finish => .ok (target.value arena) finish
  | .error (.failed _) finish => .ok .absent finish
  | .error stop finish => .error stop finish

def fillFrom : Nat → Scanner (List Char)
  | 0 => throw .endless
  | rounds + 1 => do
    match ← remainder text with
    | [] => return []
    | '\\' :: _ =>
      advance
      match ← remainder text with
      | [] => fillFrom rounds
      | escaped :: _ =>
        modify (· + escaped.utf8Size)
        return escaped :: (← fillFrom rounds)
    | '$' :: _ =>
      let start ← get
      advance
      let value ← valueHere table arena text
      let filled ← if value.isAbsent then slice text start (← get) else pure value.toText
      return filled.toList ++ (← fillFrom rounds)
    | character :: _ =>
      modify (· + character.utf8Size)
      return character :: (← fillFrom rounds)

def fillIn : Scanner String := do
  return String.ofList (← fillFrom table arena text (text.utf8ByteSize + 1))

end

end RecordGraph.Path.Bytes
