import RecordGraph.Text.LetterCase.Context
import RecordGraph.Text.LetterCase.Mapping

/-!
# Upper and lower case of texts

Upper case maps each character on its own. Lower case does so too but for the capital sigma, which
becomes `ς` at the end of a word and `σ` elsewhere; and ASCII upper case touches nothing but the
letters `a` to `z`.
-/

namespace RecordGraph.Text

def upperCase (text : String) : String :=
  String.ofList (text.toList.flatMap capitals.apply)

/-- The lower-case form of one character after `before` (last character first) and in front of
`after`: a capital sigma ends a word when a letter comes before it and none comes after. -/
def lowerCharacter (before : List Char) (character : Char) (after : List Char) : List Char :=
  if character = 'Σ' then
    if meetsCased before && !meetsCased after then ['ς'] else ['σ']
  else smallLetters.apply character

def lowerFrom (before : List Char) : List Char → List Char
  | [] => []
  | character :: after =>
    lowerCharacter before character after ++ lowerFrom (character :: before) after

def lowerCase (text : String) : String :=
  String.ofList (lowerFrom [] text.toList)

def asciiUpperCase (text : String) : String :=
  String.ofList (text.toList.map Char.toUpper)

def asciiLowerCase (text : String) : String :=
  String.ofList (text.toList.map Char.toLower)

example : upperCase "straße" = "STRASSE" := by decide +kernel
example : lowerCase "ΟΔΟΣ ΣΑ" = "οδος σα" := by decide +kernel
example : asciiUpperCase "é1a" = "é1A" := by decide +kernel

end RecordGraph.Text
