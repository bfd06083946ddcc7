import RecordGraph.Document.Cursor
import RecordGraph.Text.Alphanumeric
import RecordGraph.Value.Literal

/-!
# Items of a document

A document is a row of records, braces, comments and separators:

    record    = [ name ] [ "=" [ type ] ] { "," [ key ] [ "=" value ] }
    block     = "{" document "}" | "<" document ">"
    comment   = "#" up to the line end
    separator = ";" or a line end

A record ends at its line end, but a comma at the end of a line continues the attributes on the
next one. Without typed headers the value behind a name belongs to the record's default attribute.

A value that begins with a letter or a sign of text is a text: quotes and backslashes are read, and
spaces outside quotes are dropped. Any other value is a literal.

A header that is not well formed makes its record malformed. Reading goes on at the next brace, line
end or `;`, except that a comma found there continues the malformed record.
-/

namespace RecordGraph.Document

structure Options where
  typed : Bool
deriving DecidableEq, Repr

structure Record where
  name : String
  typeName : String
  attrs : List (String × Value)
  unfinished : Bool
deriving DecidableEq, Repr

inductive Item where
  | record (record : Record)
  | malformed (problem : Problem)
  | opening
  | closing
  | nothing
deriving DecidableEq, Repr

/-! ## Stops -/

def nameStops : List Char := ['=', ',', '#', '{', '}', '<', '>', ';', '\r', '\n', ' ', '\t']

def headerEnds : List Char := ['\r', '\n', '#', ';', '$', ',', '=', '{', '}', '<', '>']

def typeStops : List Char := ['=', ',', '#', ';', '{', '}', '<', '>', '\r', '\n', ' ', '\t']

def keyStops : List Char := ['=', ',', ';', '#', '{', '}', '<', '>', '\r', '\n', ' ', '\t']

def literalStops : List Char := [',', ';', '#', '{', '}', '<', '>', '\r', '\n', ' ', '\t']

def textStops : List Char := [',', ';', '#', '{', '}', '<', '>']

def recordEnds : List Char := ['{', '}', '<', '>', ';', '\r', '\n']

def textSigns : List Char :=
  ['"', '$', '_', '.', '/', '!', '?', '@', '#', '%', '^', '&', '*', '(', ')']

def beginsName (character : Char) : Bool :=
  Text.isAlphanumeric character || character == '$' || character == '_'

def beginsText (character : Char) : Bool :=
  character.isAlpha || 128 ≤ character.toNat || textSigns.contains character

/-! ## Values -/

/-- A text value. Line ends stop it even inside quotes, unless a backslash stands before them; a
backslash at the end of the document stands for nothing. The characters read so far are kept last
one first. -/
def readText (quoted : Bool) (line : Nat) (read : List Char) : List Char → List Char × Cursor
  | [] => (read.reverse, ⟨line, []⟩)
  | '\\' :: [] => (read.reverse, ⟨line, []⟩)
  | '\\' :: 'n' :: rest => readText quoted line ('\n' :: read) rest
  | '\\' :: 't' :: rest => readText quoted line ('\t' :: read) rest
  | '\\' :: '\r' :: '\n' :: rest => readText quoted (line + 1) read rest
  | '\\' :: '\r' :: rest => readText quoted line read rest
  | '\\' :: '\n' :: rest => readText quoted (line + 1) read rest
  | '\\' :: escaped :: rest => readText quoted line (escaped :: read) rest
  | '"' :: rest => readText (!quoted) line read rest
  | character :: rest =>
    if character = '\r' ∨ character = '\n' then (read.reverse, ⟨line, character :: rest⟩)
    else if quoted then readText quoted line (character :: read) rest
    else if isGap character then readText quoted line read rest
    else if textStops.contains character then (read.reverse, ⟨line, character :: rest⟩)
    else readText quoted line (character :: read) rest

namespace Scanner

def text : Scanner Value :=
  modifyGet fun cursor =>
    let (characters, cursor) := readText false cursor.line [] cursor.rest
    (.text (String.ofList characters), cursor)

def literal : Scanner Value := do
  return .ofLiteral (String.ofList (← takeUntil literalStops))

def value : Scanner Value := do
  match (← get).peek with
  | some character => if beginsText character then text else literal
  | none => literal

/-! ## Records -/

/-- One attribute. A key without a value has the empty text; without a key a value belongs to the
default attribute; without either there is no attribute. -/
def pair : Scanner (Option (String × Value)) := do
  skip isGap
  let key := String.ofList (← takeUntil keyStops)
  skip isGap
  if (← get).isAt '=' then
    advance
    skip isGap
    return some (key, ← value)
  else if key = "" then return none
  else return some (key, .text "")

/-- The attributes from here on, and whether the document ends behind a comma. Each round takes a
comma, so the characters that are left bound the rounds. -/
def pairs : List Char → Scanner (List (String × Value) × Bool)
  | [] => return ([], false)
  | _ :: rounds => do
    if (← get).isAtEnd then return ([], false)
    else
      let first ← pair
      skip isGap
      if (← get).isAt ',' then
        advance
        skip isGapOrLineEnd
        if (← get).isAtEnd then return (first.toList, true)
        else
          let (others, unfinished) ← pairs rounds
          return (first.toList ++ others, unfinished)
      else return (first.toList, false)

def attributes : Scanner (List (String × Value) × Bool) := do
  if (← get).isAt ',' then
    advance
    skip isGapOrLineEnd
  else skip isGap
  pairs (← get).rest

def name : Scanner String := do
  skip isGap
  let name ← takeUntil nameStops
  match name.head? with
  | some first =>
    if !beginsName first then throw (.invalidName (String.ofList name))
  | none => pure ()
  skip isGap
  expect headerEnds
  return String.ofList name

def typeName : Scanner String := do
  if (← get).isAt '=' then
    advance
    skip isGap
  let typeName ← takeUntil typeStops
  match typeName.head? with
  | some first =>
    if !Text.isAlphabetic first then throw (.invalidType (String.ofList typeName))
  | none => pure ()
  skip isGap
  expect headerEnds
  return String.ofList typeName

def record (options : Options) : Scanner Record := do
  let name ← name
  let typeName ← if options.typed then typeName else pure ""
  let (attrs, unfinished) ← attributes
  return ⟨name, typeName, attrs, unfinished⟩

end Scanner

def Cursor.recover : List Char → Cursor → Cursor
  | [], cursor => cursor
  | _ :: rounds, cursor =>
    let cursor := cursor.skip fun character => !recordEnds.contains character
    let cursor := cursor.skip isGapOrLineEnd
    if cursor.isAt ',' then recover rounds cursor.next else cursor

def Item.ofRecord (options : Options) (cursor : Cursor) : Item × Cursor :=
  match (Scanner.record options).run cursor with
  | .ok found cursor => (.record found, cursor)
  | .error problem cursor => (.malformed problem, cursor.recover cursor.rest)

def Item.next? (options : Options) (cursor : Cursor) : Option (Item × Nat × Cursor) :=
  let cursor := cursor.skip isGapOrLineEnd
  match cursor.peek with
  | none => none
  | some '#' => some (.nothing, cursor.line, cursor.skip (· != '\n'))
  | some ';' => some (.nothing, cursor.line, cursor.next)
  | some '{' | some '<' => some (.opening, cursor.line, cursor.next)
  | some '}' | some '>' => some (.closing, cursor.line, cursor.next)
  | some _ =>
    let (item, finish) := ofRecord options cursor
    some (item, cursor.line, finish)

end RecordGraph.Document
