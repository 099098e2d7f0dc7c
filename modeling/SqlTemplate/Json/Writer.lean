import SqlTemplate.Json
import SqlTemplate.Number.Layout

/-!
The two written forms of a JSON value: without any space, and over several lines.
-/

namespace SqlTemplate.Json

def hexLetter (n : Nat) : Char := Nat.digitChar n

def writeChar (c : Char) : List Char :=
  match c with
  | '"' => ['\\', '"']
  | '\\' => ['\\', '\\']
  | '\x08' => ['\\', 'b']
  | '\x0c' => ['\\', 'f']
  | '\n' => ['\\', 'n']
  | '\r' => ['\\', 'r']
  | '\t' => ['\\', 't']
  | c =>
    if c.toNat < 0x20 then
      ['\\', 'u', '0', '0', hexLetter (c.toNat / 16), hexLetter (c.toNat % 16)]
    else [c]

def writeString (s : String) : String :=
  String.ofList ('"' :: (s.toList.flatMap writeChar ++ ['"']))

def writeNumber : JsonNumber → String
  | .whole n => toString n
  | .real x => Layout.row.text x

def indentation (level : Nat) : String := String.ofList (List.replicate (2 * level) ' ')

mutual

def compact : Json → String
  | .null => "null"
  | .bool b => if b then "true" else "false"
  | .number n => writeNumber n
  | .string s => writeString s
  | .array items => "[" ++ ",".intercalate (compactItems items) ++ "]"
  | .object ⟨fields⟩ => "\x7b" ++ ",".intercalate (compactFields fields) ++ "\x7d"

def compactItems : List Json → List String
  | [] => []
  | item :: items => item.compact :: compactItems items

def compactFields : List (String × Json) → List String
  | [] => []
  | (name, value) :: fields => (writeString name ++ ":" ++ value.compact) :: compactFields fields

end

/-- Lines between brackets, one for each text, or just the brackets. -/
def block (level : Nat) (opening closing : String) (texts : List String) : String :=
  if texts.isEmpty then opening ++ closing
  else opening ++ "\n" ++ (",\n").intercalate (texts.map (indentation (level + 1) ++ ·)) ++ "\n" ++
    indentation level ++ closing

mutual

/-- A value over several lines, from a given level of indentation. -/
def pretty (level : Nat) : Json → String
  | .null => "null"
  | .bool b => if b then "true" else "false"
  | .number n => writeNumber n
  | .string s => writeString s
  | .array items => block level "[" "]" (prettyItems (level + 1) items)
  | .object ⟨fields⟩ => block level "\x7b" "\x7d" (prettyFields (level + 1) fields)

def prettyItems (level : Nat) : List Json → List String
  | [] => []
  | item :: items => item.pretty level :: prettyItems level items

def prettyFields (level : Nat) : List (String × Json) → List String
  | [] => []
  | (name, value) :: fields =>
    (writeString name ++ ": " ++ value.pretty level) :: prettyFields level fields

end

end SqlTemplate.Json
