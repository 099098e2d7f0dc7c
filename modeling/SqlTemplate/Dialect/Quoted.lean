namespace SqlTemplate

/-- Writes every `mark` twice. -/
def doubled (mark : Char) : List Char → List Char
  | [] => []
  | c :: cs => if c = mark then mark :: mark :: doubled mark cs else c :: doubled mark cs

/-- A text between two marks, the closing one doubled inside. -/
def quoted (opening closing : Char) (cs : List Char) : List Char :=
  opening :: (doubled closing cs ++ [closing])

/-- The letter that stands for a character after a backslash. -/
def backslashLetter? : Char → Option Char
  | '\x00' => some '0'
  | '\x08' => some 'b'
  | '\t' => some 't'
  | '\n' => some 'n'
  | '\r' => some 'r'
  | '\x1a' => some 'Z'
  | '"' => some '"'
  | '\'' => some '\''
  | '\\' => some '\\'
  | _ => none

def backslashed : List Char → List Char
  | [] => []
  | c :: cs =>
    match backslashLetter? c with
    | some letter => '\\' :: letter :: backslashed cs
    | none => c :: backslashed cs

end SqlTemplate
