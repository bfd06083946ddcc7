import RecordGraph.Path.Cursor
import RecordGraph.SymbolTable.Basic

/-!
# Paths

A path names a node and an attribute of it:

    path       = "$" path | primary [ "." attribute ]
    primary    = identifier { "[" index "]" }
    index      = digits | [ "$" ] path
    attribute  = identifier
    identifier = letter or digit { letter or digit or "-" or "_" } | "$(" path ")"

Letters and digits are those of ASCII. A leading `$` resolves the rest of the path to a value and
reads the text of that value as another path. `$( )` resolves the path inside and takes the
identifier at the front of its text. An index is a literal or the value of a path.

A strict table refuses a malformed path. A robust one mends it: a bad index selects no node, and a
missing `]` or `)` is looked for further on. Text after a path is refused only at the outermost
path of a strict table.

Nothing here changes the table or the arena.
-/

namespace RecordGraph.Path

structure Target where
  node : Option NodeId
  attr : Option AttrId
deriving DecidableEq, Repr

namespace Target

def nothing : Target := ⟨none, none⟩

def value? (target : Target) (arena : Arena) : Option Value :=
  match target.node, target.attr with
  | some node, some attr => arena.attrById? node attr
  | _, _ => none

def value (target : Target) (arena : Arena) : Value :=
  (target.value? arena).getD .absent

end Target

/-! ## Identifiers -/

def beginsIdentifier (character : Char) : Bool :=
  character.isAlphanum

def continuesIdentifier (character : Char) : Bool :=
  character.isAlphanum || character == '-' || character == '_'

def leadingIdentifier (characters : List Char) : List Char :=
  match characters with
  | [] => []
  | first :: _ =>
    if beginsIdentifier first then characters.takeWhile continuesIdentifier else []

section Grammar

variable (table : SymbolTable) (arena : Arena)

/-! The readers below are given `deeper`, the reader of paths one level further inside. Its argument
says whether the path inside is exempt from the check for text after it. -/

variable (deeper : Bool → Reader Target)

/-- The value of the path between parentheses; the cursor is at the opening one. Without a node and
an attribute the closing parenthesis is not asked for. -/
def insideParens : Reader Value := do
  Reader.advance
  let target ← deeper true
  if target.node.isNone || target.attr.isNone then return .absent
  if (← Reader.peek) = some ')' then
    Reader.advance
  else if table.robust then
    Reader.skipPast ')'
  else
    throw (.unclosedParen (← get).position)
  return target.value arena

def identifier : Reader String := do
  match ← Reader.peek with
  | none => return ""
  | some '$' =>
    Reader.advance
    if (← Reader.peek) = some '(' then
      let value ← insideParens table arena deeper
      return String.ofList (leadingIdentifier value.toText.toList)
    else return ""
  | some character =>
    if beginsIdentifier character then
      return String.ofList (← Reader.takeWhile continuesIdentifier)
    else
      Reader.advance
      return ""

def badIndex (position : Nat) : Reader (Option Nat) :=
  if table.robust then pure none else throw (.badIndex position)

/-- The integer that a value stands for as an index: integers themselves, reals without a fraction,
and texts that are the decimal form of an integer. -/
def indexInteger? : Value → Option Int64
  | .int number => some number
  | .real number =>
    let integer := (Value.real number).toInt
    if (Binary64.ofInt integer.toInt).compare? number = some .eq then some integer else none
  | .text text =>
    let integer := (Value.text text).toInt
    if (Value.int integer).toText = text then some integer else none
  | _ => none

def indexOfValue (value : Value) (position : Nat) : Reader (Option Nat) :=
  match indexInteger? value with
  | some integer =>
    if 0 ≤ integer then pure (some integer.toInt.toNat) else badIndex table position
  | none => badIndex table position

def indexBound : Nat := pow2 64

def indexValue : Reader (Option Nat) := do
  let position := (← get).position
  match ← Reader.peek with
  | some character =>
    if Text.isDigit character then
      let index := Text.boundedNumber indexBound (← Reader.takeWhile Text.isDigit)
      if index < indexBound then return some index else badIndex table position
    else if character = '$' then
      Reader.advance
      let target ← deeper true
      indexOfValue table (target.value arena) position
    else if beginsIdentifier character then
      let target ← deeper true
      indexOfValue table (target.value arena) position
    else badIndex table position
  | none => badIndex table position

def closeBracket : Reader Unit := do
  if (← Reader.peek) = some ']' then
    Reader.advance
  else if table.robust then
    Reader.skipPast ']'
  else
    throw (.unclosedIndex (← get).position)

/-- The node reached from another one by the indices that follow. Each index takes a character at
least, so the characters that are left bound the rounds. -/
def indices : List Char → Option NodeId → Reader (Option NodeId)
  | [], current => return current
  | _ :: rounds, current => do
    if (← Reader.peek) = some '[' then
      Reader.advance
      let index ← indexValue table arena deeper
      closeBracket table
      match current, index with
      | some node, some index => indices rounds (arena.child? node index)
      | _, _ => indices rounds none
    else return current

def primary : Reader (Option NodeId) := do
  let key ← identifier table arena deeper
  if key = "" then return none
  else indices table arena deeper (← get).rest (table.lookup key)

def attrPart : Reader (Option AttrId) := do
  if (← Reader.peek) = some '.' then
    Reader.advance
    let name ← identifier table arena deeper
    if name = "" then return none else return arena.names.query name
  else return some .value

def beginsIndirection : List Char → Bool
  | ['$'] => true
  | '$' :: second :: _ => second != '('
  | _ => false

def pathOver (nested : Bool) : Reader Target := do
  let cursor ← get
  if cursor.rest.isEmpty then return .nothing
  else if beginsIndirection cursor.rest then
    Reader.advance
    let inner ← deeper nested
    Reader.readText (deeper nested) (inner.value arena).toText
  else
    let node ← primary table arena deeper
    let attr ← attrPart table arena deeper
    let cursor ← get
    if !nested && !table.robust && !cursor.rest.isEmpty then
      throw (.trailingInput cursor.position)
    else return ⟨node, attr⟩

end Grammar

variable (table : SymbolTable) (arena : Arena)

def below : Nat → Bool → Reader Target
  | 0, _ => throw (.tooDeep ⟨table.limit.max + 1, table.limit.max⟩)
  | levels + 1, nested => pathOver table arena (below levels) nested

def inner : Bool → Reader Target :=
  below table arena table.limit.max

def path (nested : Bool) : Reader Target :=
  pathOver table arena (inner table arena) nested

def resolve (text : String) : Except Error Target :=
  match (path table arena false).run (Cursor.ofText text) with
  | .ok target _ => .ok target
  | .error failure _ => .error failure

end RecordGraph.Path
