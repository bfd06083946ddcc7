import RecordGraph.Text.CodePoints

/-!
# Blank characters

The Unicode property *White_Space*, and texts without the blanks at one end. Numbers are read after
the blanks in front of them.
-/

namespace RecordGraph.Text

def blankCodes : CodePoints :=
  [(0x9, 0xD), (0x20, 0x20), (0x85, 0x85), (0xA0, 0xA0), (0x1680, 0x1680), (0x2000, 0x200A),
   (0x2028, 0x2029), (0x202F, 0x202F), (0x205F, 0x205F), (0x3000, 0x3000)]

def isBlank (character : Char) : Bool :=
  blankCodes.includes character.toNat

def dropBlanks (characters : List Char) : List Char :=
  characters.dropWhile isBlank

def dropBlanksEnd (characters : List Char) : List Char :=
  (characters.reverse.dropWhile isBlank).reverse

example : dropBlanks [' ', '\t', 'a', ' '] = ['a', ' '] := by decide

example : dropBlanksEnd [' ', 'a', '\n'] = [' ', 'a'] := by decide

end RecordGraph.Text
