import RecordGraph.Document.Loading
import RecordGraph.Path.Bytes

/-!
# Documents byte by byte

A document is stored as the bytes of its UTF-8 form, and a place in it is an offset. All signs of a
document are ASCII, so a byte tells whether it is one of them; names, types, keys and literals are
cut out between two offsets. Wherever the cursor goes it has to come between two characters, and
what is cut out has to begin and end there: reading stops where it does not.

The scanners of items and the loop of a load stand here once more, as steps over bytes. A byte is
given as the character with its code.
-/

namespace RecordGraph.Document.Bytes

open Path.Bytes (byteAt endOf)

inductive Stop where
  | failed (problem : Problem)
  /-- The cursor came inside a character or outside the text, or a part was asked for that begins or
  ends there. -/
  | torn
  | endless
deriving DecidableEq, Repr

abbrev Scanner := EStateM Stop Nat

variable (text : String)

def lineOf (offset : Nat) : Nat :=
  1 + (text.toByteArray.data.toList.take offset).count '\n'.toUInt8

/-! ## Moves -/

def moveTo (offset : Nat) : Scanner Unit :=
  if String.Pos.Raw.IsValid text ⟨offset⟩ then set offset else throw .torn

def peek : Scanner (Option Char) := do
  return byteAt text (← get)

def advance : Scanner Unit := do
  let offset ← get
  if offset < text.utf8ByteSize then moveTo text (offset + 1)

def passWhile (test : Char → Bool) : Scanner Unit := do
  moveTo text (endOf text test (← get))

def slice (start finish : Nat) : Scanner String :=
  if start ≤ finish ∧ String.Pos.Raw.IsValid text ⟨start⟩ ∧
      String.Pos.Raw.IsValid text ⟨finish⟩ then
    pure (String.Pos.Raw.extract text ⟨start⟩ ⟨finish⟩)
  else throw .torn

def takeUntil (stops : List Char) : Scanner String := do
  let start ← get
  passWhile text fun byte => !stops.contains byte
  slice text start (← get)

def character? : Scanner (Option Char) := do
  return (← slice text (← get) text.utf8ByteSize).toList.head?

def advanceCharacter : Scanner Unit := do
  match ← character? text with
  | some character => moveTo text ((← get) + character.utf8Size)
  | none => pure ()

def expect (allowed : List Char) : Scanner Unit := do
  match ← peek text with
  | none => pure ()
  | some byte =>
    if !allowed.contains byte then
      match ← character? text with
      | some character => throw (.failed (.unexpectedCharacter character))
      | none => throw .torn

/-! ## Values -/

def unescaped : Char → List Char
  | 'n' => ['\n']
  | 't' => ['\t']
  | '\r' | '\n' => []
  | character => [character]

def textFrom : Nat → Bool → List Char → Scanner (List Char)
  | 0, _, _ => throw .endless
  | rounds + 1, quoted, read => do
    match ← character? text with
    | none => return read.reverse
    | some '\\' =>
      advance text
      match ← character? text with
      | none => return read.reverse
      | some escaped =>
        if escaped = '\r' ∧ byteAt text ((← get) + 1) = some '\n' then advance text
        advanceCharacter text
        textFrom rounds quoted (unescaped escaped ++ read)
    | some '"' =>
      advanceCharacter text
      textFrom rounds (!quoted) read
    | some character =>
      if character = '\r' ∨ character = '\n' then return read.reverse
      else if quoted then
        advanceCharacter text
        textFrom rounds quoted (character :: read)
      else if isGap character then
        advanceCharacter text
        textFrom rounds quoted read
      else if textStops.contains character then return read.reverse
      else
        advanceCharacter text
        textFrom rounds quoted (character :: read)

def value : Scanner Value := do
  if (← peek text).any beginsText then
    return .text (String.ofList (← textFrom text (text.utf8ByteSize + 1) false []))
  else return .ofLiteral (← takeUntil text literalStops)

/-! ## Records -/

def pair : Scanner (Option (String × Value)) := do
  passWhile text isGap
  let key ← takeUntil text keyStops
  passWhile text isGap
  if (← peek text) = some '=' then
    advance text
    passWhile text isGap
    return some (key, ← value text)
  else if key = "" then return none
  else return some (key, .text "")

def pairs : Nat → Scanner (List (String × Value) × Bool)
  | 0 => throw .endless
  | rounds + 1 => do
    if text.utf8ByteSize ≤ (← get) then return ([], false)
    else
      let first ← pair text
      passWhile text isGap
      if (← peek text) = some ',' then
        advance text
        passWhile text isGapOrLineEnd
        if text.utf8ByteSize ≤ (← get) then return (first.toList, true)
        else
          let (others, unfinished) ← pairs rounds
          return (first.toList ++ others, unfinished)
      else return (first.toList, false)

def attributes : Scanner (List (String × Value) × Bool) := do
  if (← peek text) = some ',' then
    advance text
    passWhile text isGapOrLineEnd
  else passWhile text isGap
  pairs text (text.utf8ByteSize + 1)

def headed (stops : List Char) (begins : Char → Bool) (problem : String → Problem) :
    Scanner String := do
  let taken ← takeUntil text stops
  match taken.toList.head? with
  | some first => if !begins first then throw (.failed (problem taken))
  | none => pure ()
  passWhile text isGap
  expect text headerEnds
  return taken

def name : Scanner String := do
  passWhile text isGap
  headed text nameStops beginsName .invalidName

def typeName : Scanner String := do
  if (← peek text) = some '=' then
    advance text
    passWhile text isGap
  headed text typeStops Text.isAlphabetic .invalidType

def record (options : Options) : Scanner Record := do
  let name ← name text
  let typeName ← if options.typed then typeName text else pure ""
  let (attrs, unfinished) ← attributes text
  return ⟨name, typeName, attrs, unfinished⟩

/-! ## Items -/

def recover : Nat → Scanner Unit
  | 0 => throw .endless
  | rounds + 1 => do
    let _ ← takeUntil text recordEnds
    passWhile text isGapOrLineEnd
    if (← peek text) = some ',' then
      advance text
      recover rounds

def ofRecord (options : Options) : Scanner Item := fun start =>
  match record text options start with
  | .ok found finish => .ok (.record found) finish
  | .error (.failed problem) finish =>
    (do recover text (text.utf8ByteSize + 1); return .malformed problem : Scanner Item) finish
  | .error stop finish => .error stop finish

def begun (options : Options) : Char → Scanner Item
  | '#' => do
    passWhile text (· != '\n')
    return .nothing
  | ';' => do
    advance text
    return .nothing
  | '{' | '<' => do
    advance text
    return .opening
  | '}' | '>' => do
    advance text
    return .closing
  | _ => ofRecord text options

def turn (options : Options) : Scanner (Option (Nat × Item)) := do
  passWhile text isGapOrLineEnd
  let start ← get
  match ← peek text with
  | none => return none
  | some byte => return some (start, ← begun text options byte)

/-! ## Loading -/

def addAll (registry : Registry) (options : Options) : Nat → Load → Scanner Load
  | 0, _ => throw .endless
  | rounds + 1, load => do
    match ← turn text options with
    | none => return load.finish (lineOf text (← get))
    | some (start, item) =>
      addAll registry options rounds (load.add registry (lineOf text start) item)

def load (arena : Arena) (registry : Registry) (parent : NodeId) (options : Options) :
    Scanner (List Warning × Arena) := do
  if arena.contains parent then
    let start : Load := ⟨arena.ensureChildren parent, parent, [], none, #[]⟩
    let load ← addAll text registry options (text.utf8ByteSize + 1) start
    return (load.warnings.toList, load.arena)
  else return ([], arena)

end RecordGraph.Document.Bytes
