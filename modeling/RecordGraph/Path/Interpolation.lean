import RecordGraph.Path.Lookup

/-!
# Paths in running text

In a running text a `$` and the path behind it stand for the text of the value there, and a
backslash stands before a character that is meant as itself. A path without a value stays as it is
written.
-/

namespace RecordGraph.Path

inductive Fragment where
  | plain (characters : List Char)
  | path (written : List Char) (value : Value)
deriving DecidableEq, Repr

namespace Fragment

def filled : Fragment → List Char
  | plain characters => characters
  | path written value => if value.isAbsent then written else value.toText.toList

end Fragment

variable (table : SymbolTable) (arena : Arena)

/-- The value of the path at a cursor and the place behind the path. A malformed path has no
value, and ends where its failure was met. -/
def valueAt (cursor : Cursor) : Value × Cursor :=
  match (path table arena true).run cursor with
  | .ok target cursor => (target.value arena, cursor)
  | .error _ cursor => (.absent, cursor)

def fragments : Nat → Cursor → List Fragment
  | 0, _ => []
  | rounds + 1, cursor =>
    match cursor.rest with
    | [] => []
    | '\\' :: [] => []
    | '\\' :: escaped :: _ => .plain [escaped] :: fragments rounds cursor.next.next
    | '$' :: _ =>
      let (value, finish) := valueAt table arena cursor.next
      .path (cursor.textUpTo finish) value :: fragments rounds finish
    | character :: _ => .plain [character] :: fragments rounds cursor.next

def fillIn (text : String) : String :=
  let fragments := fragments table arena text.toList.length (Cursor.ofText text)
  String.ofList (fragments.flatMap Fragment.filled)

end RecordGraph.Path
