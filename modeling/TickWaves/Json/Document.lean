import TickWaves.Text.Hex

/-!
# JSON documents

The values that are written as JSON, and their two layouts: `compact` without any
blank, and `pretty` with one item per line, indented by two blanks per level.  A text
stands between quotes.  Quote, backslash and control characters are escaped in it; every
other character stands for itself.
-/

namespace TickWaves.Json

/-- How one character is written inside quotes. -/
def escaped (char : Char) : List Char :=
  match char with
  | '"' => ['\\', '"']
  | '\\' => ['\\', '\\']
  | '\x08' => ['\\', 'b']
  | '\x0c' => ['\\', 'f']
  | '\n' => ['\\', 'n']
  | '\r' => ['\\', 'r']
  | '\t' => ['\\', 't']
  | _ => if char < ' ' then ['\\', 'u'] ++ Hex.digits 4 char.toNat else [char]

def quoted (text : String) : String :=
  "\"" ++ String.ofList (text.toList.flatMap escaped) ++ "\""

/-- A JSON value as this program writes it. -/
inductive Document
  | number (value : Nat)
  | flag (value : Bool)
  | text (value : String)
  | list (items : List Document)
  /-- Named values, in the order in which they are written. -/
  | record (fields : List (String × Document))
  deriving Inhabited

namespace Document

def commaSeparated (texts : List String) : String :=
  String.intercalate "," texts

mutual

/-- The layout on one line, without blanks. -/
def compact : Document → String
  | number value => toString value
  | flag value => if value then "true" else "false"
  | text value => quoted value
  | list items => "[" ++ commaSeparated (compactItems items) ++ "]"
  | record fields => "\x7b" ++ commaSeparated (compactFields fields) ++ "\x7d"

def compactItems : List Document → List String
  | [] => []
  | item :: items => compact item :: compactItems items

def compactFields : List (String × Document) → List String
  | [] => []
  | field :: fields => compactField field :: compactFields fields

def compactField : String × Document → String
  | (name, value) => quoted name ++ ":" ++ compact value

end

/-- Ends the last line of an item with a comma. -/
def withComma : List String → List String
  | [] => []
  | [line] => [line ++ ","]
  | line :: lines => line :: withComma lines

/-- Ends the last line of every item but the last one with a comma. -/
def punctuated : List (List String) → List String
  | [] => []
  | [item] => item
  | item :: items => withComma item ++ punctuated items

/-- Items between brackets, indented; brackets without items stay on one line. -/
def bracketed (opening closing : String) (items : List (List String)) : List String :=
  if items.isEmpty then [opening ++ closing]
  else [opening] ++ (punctuated items).map ("  " ++ ·) ++ [closing]

/-- Puts a text before the first line. -/
def headed (head : String) : List String → List String
  | [] => [head]
  | line :: lines => (head ++ line) :: lines

mutual

/-- The lines of the layout with one item per line. -/
def prettyLines : Document → List String
  | number value => [toString value]
  | flag value => [if value then "true" else "false"]
  | text value => [quoted value]
  | list items => bracketed "[" "]" (prettyItems items)
  | record fields => bracketed "\x7b" "\x7d" (prettyFields fields)

def prettyItems : List Document → List (List String)
  | [] => []
  | item :: items => prettyLines item :: prettyItems items

def prettyFields : List (String × Document) → List (List String)
  | [] => []
  | field :: fields => prettyField field :: prettyFields fields

/-- The lines of a field: its name stands before the first line of its value. -/
def prettyField : String × Document → List String
  | (name, value) => headed (quoted name ++ ": ") (prettyLines value)

end

/-- The layout with one item per line. -/
def pretty (document : Document) : String :=
  String.intercalate "\n" (prettyLines document)

end Document

end TickWaves.Json
