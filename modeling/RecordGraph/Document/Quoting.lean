import RecordGraph.Text.Alphanumeric
import RecordGraph.Value.Basic

/-!
# Quoted texts

A text is written bare if it is empty or a word, that is letters, numbers, `_` and `-` after a
first letter. Any other text stands between quotes, with a backslash before quotes and backslashes
and with `\n` and `\t` for line ends and tabs. A carriage return has no written form and is left
out.
-/

namespace RecordGraph
open Text

def isWordCharacter (character : Char) : Bool :=
  isAlphanumeric character || character == '_' || character == '-'

def needsQuotes : List Char → Bool
  | [] => false
  | first :: rest =>
    !(isAlphabetic first && (first :: rest).all isWordCharacter)

def escape : Char → List Char
  | '\\' => ['\\', '\\']
  | '"' => ['\\', '"']
  | '\n' => ['\\', 'n']
  | '\t' => ['\\', 't']
  | '\r' => []
  | character => [character]

def quote (characters : List Char) : List Char :=
  '"' :: (characters.flatMap escape ++ ['"'])

def Value.written : Value → String
  | .text value =>
    if needsQuotes value.toList then String.ofList (quote value.toList) else value
  | value => value.toText

example : (Value.text "a-b").written = "a-b" := by decide +kernel
example : (Value.text "1").written = "\"1\"" := by decide +kernel
example : (Value.text "a\r\nb").written = "\"a\\nb\"" := by decide +kernel

end RecordGraph
