/-!
# Pages

A page is text under construction that knows the column of its next character. Only the line ends
that are written as such begin a new line.
-/

namespace RecordGraph

structure Page where
  text : String
  column : Nat
deriving DecidableEq, Repr

namespace Page

def blank : Page := ⟨"", 0⟩

instance : Inhabited Page := ⟨blank⟩

def write (page : Page) (piece : String) : Page :=
  ⟨page.text ++ piece, page.column + piece.length⟩

def endLine (page : Page) : Page :=
  ⟨page.text ++ "\n", 0⟩

def space (page : Page) (count : Nat) : Page :=
  page.write (String.ofList (List.replicate count ' '))

@[simp] theorem text_write (page : Page) (piece : String) :
    (page.write piece).text = page.text ++ piece := rfl

@[simp] theorem text_endLine (page : Page) : page.endLine.text = page.text ++ "\n" := rfl

end Page
end RecordGraph
