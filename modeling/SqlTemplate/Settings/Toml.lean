import SqlTemplate.Json.Reader

/-!
Settings files are written in TOML. No setting takes a number, a truth value, a date or a list of
items, so only texts and tables are read, and a file with anything else is refused.
-/

namespace SqlTemplate.Toml

/-- What a setting can be set to: a text, or a choice written as a table with one empty entry. -/
inductive Value where
  | text (s : String)
  | empty
  | choice (name : String)
deriving DecidableEq, Repr

/-- A line `key = value` under the header of its table. -/
structure Entry where
  header : List String
  key : List String
  value : Value
deriving DecidableEq, Repr

structure Document where
  headers : List (List String)
  entries : List Entry
deriving DecidableEq, Repr

def isSpace (c : Char) : Bool := c == ' ' || c == '\t'

def skipSpace (cs : List Char) : List Char := cs.dropWhile isSpace

/-- Tabs, spaces and everything printable. -/
def isPrintable (c : Char) : Bool := c == '\t' || (0x20 ≤ c.toNat && c.toNat != 0x7F)

/-- A line feed, perhaps after a carriage return. -/
def newline? : List Char → Option (List Char)
  | '\n' :: rest => some rest
  | '\r' :: '\n' :: rest => some rest
  | _ => none

def skipComment : List Char → List Char
  | '#' :: rest => rest.dropWhile isPrintable
  | cs => cs

/-- Spaces and a comment up to the end of the line or of the text. -/
def endOfLine (cs : List Char) : Option (List Char) :=
  match skipComment (skipSpace cs) with
  | [] => some []
  | cs => newline? cs

/-- The character with the code point that the digits give. -/
def codePoint? (digits : List Char) : Option Char := do
  let n ← digits.foldlM (fun n c => do return n * 16 + (← Json.hexDigit? c)) 0
  if n < 0xD800 || (0xE000 ≤ n && n < 0x110000) then some (Char.ofNat n) else none

def escaped? : Char → Option Char
  | 'b' => some '\x08'
  | 't' => some '\t'
  | 'n' => some '\n'
  | 'f' => some '\x0c'
  | 'r' => some '\r'
  | '"' => some '"'
  | '\\' => some '\\'
  | _ => none

/-- What stands after a backslash. -/
def readEscape : List Char → Option (Char × List Char)
  | 'u' :: cs =>
    if cs.length < 4 then none else (codePoint? (cs.take 4)).map fun c => (c, cs.drop 4)
  | 'U' :: cs =>
    if cs.length < 8 then none else (codePoint? (cs.take 8)).map fun c => (c, cs.drop 8)
  | c :: cs => (escaped? c).map fun d => (d, cs)
  | [] => none

/-- A text on one line, up to its closing quote. Only in double quotes a backslash is special. -/
def readLine (quote : Char) : (fuel : Nat) → List Char → Option (List Char × List Char)
  | 0, _ | _, [] => none
  | fuel + 1, c :: cs =>
    if c = quote then some ([], cs)
    else if c = '\\' && quote == '"' then do
      let (d, rest) ← readEscape cs
      let (text, rest) ← readLine quote fuel rest
      return (d :: text, rest)
    else if isPrintable c then do
      let (text, rest) ← readLine quote fuel cs
      return (c :: text, rest)
    else none

/-- White space of all kinds. -/
def skipLines (fuel : Nat) (cs : List Char) : List Char :=
  match fuel with
  | 0 => cs
  | fuel + 1 =>
    match newline? (skipSpace cs) with
    | some rest => skipLines fuel rest
    | none => skipSpace cs

/-- A text over several lines, up to its closing quotes. One or two quotes belong to the text, also
just before the closing three. A backslash at the end of a line joins it to the next text. -/
def readLines (quote : Char) : (fuel : Nat) → List Char → Option (List Char × List Char)
  | 0, _ => none
  | fuel + 1, cs =>
    let quotes := cs.takeWhile (· == quote)
    if 6 ≤ quotes.length then none
    else if 3 ≤ quotes.length then some (quotes.drop 3, cs.drop quotes.length)
    else if 1 ≤ quotes.length then do
      let (text, rest) ← readLines quote fuel (cs.drop quotes.length)
      return (quotes ++ text, rest)
    else match newline? cs, cs with
      | some rest, _ => do
        let (text, rest) ← readLines quote fuel rest
        return ('\n' :: text, rest)
      | none, [] => none
      | none, c :: cs =>
        if c = '\\' && quote == '"' then
          match newline? (skipSpace cs) with
          | some rest => readLines quote fuel (skipLines rest.length rest)
          | none => do
            let (d, rest) ← readEscape cs
            let (text, rest) ← readLines quote fuel rest
            return (d :: text, rest)
        else if isPrintable c then do
          let (text, rest) ← readLines quote fuel cs
          return (c :: text, rest)
        else none

/-- A text in quotes, the first of which has just been read. -/
def readText (quote : Char) (cs : List Char) : Option (String × List Char) := do
  let (text, rest) ←
    if [quote, quote].isPrefixOf cs then
      let cs := cs.drop 2
      let cs := (newline? cs).getD cs
      readLines quote (cs.length + 1) cs
    else readLine quote (cs.length + 1) cs
  return (String.ofList text, rest)

def isBareKeyChar (c : Char) : Bool := c.isAlphanum || c == '_' || c == '-'

/-- One part of a key: bare, or a text on one line. -/
def readKeyPart : List Char → Option (String × List Char)
  | [] => none
  | c :: cs =>
    if c = '"' || c = '\'' then
      (readLine c (cs.length + 1) cs).map fun (text, rest) => (String.ofList text, rest)
    else
      let key := (c :: cs).takeWhile isBareKeyChar
      if key.isEmpty then none else some (String.ofList key, (c :: cs).dropWhile isBareKeyChar)

/-- A key: parts with points between them. -/
def readKey : (fuel : Nat) → List Char → Option (List String × List Char)
  | 0, _ => none
  | fuel + 1, cs => do
    let (part, rest) ← readKeyPart (skipSpace cs)
    match skipSpace rest with
    | '.' :: rest =>
      let (parts, rest) ← readKey fuel rest
      return (part :: parts, rest)
    | rest => return ([part], rest)

/-- Spaces, comments and line ends inside a list. -/
def skipBlank : (fuel : Nat) → List Char → List Char
  | 0, cs => cs
  | fuel + 1, cs =>
    match newline? (skipComment (skipSpace cs)) with
    | some rest => skipBlank fuel rest
    | none => skipSpace cs

/-- An empty list or table, whose bracket has just been read. -/
def readEmpty : List Char → Option (List Char)
  | '[' :: cs =>
    match skipBlank (cs.length + 1) cs with
    | ']' :: rest => some rest
    | _ => none
  | '\x7b' :: cs =>
    match skipSpace cs with
    | '\x7d' :: rest => some rest
    | _ => none
  | _ => none

/-- A value at the start of a text. -/
def readValue (cs : List Char) : Option (Value × List Char) :=
  match cs, readEmpty cs with
  | _, some rest => some (.empty, rest)
  | '"' :: cs, none => (readText '"' cs).map fun (s, rest) => (.text s, rest)
  | '\'' :: cs, none => (readText '\'' cs).map fun (s, rest) => (.text s, rest)
  | '\x7b' :: cs, none => do
    let (name, rest) ← readKeyPart (skipSpace cs)
    let '=' :: rest := skipSpace rest | none
    let rest ← readEmpty (skipSpace rest)
    let '\x7d' :: rest := skipSpace rest | none
    return (.choice name, rest)
  | _, none => none

/-- The lines of a file under the given header. -/
def readLinesUnder (header : List String) : (fuel : Nat) → List Char → Option Document
  | 0, _ => none
  | fuel + 1, cs =>
    match skipSpace cs with
    | [] => some ⟨[], []⟩
    | '[' :: cs => do
      let (path, rest) ← readKey cs.length cs
      let ']' :: rest := rest | none
      let rest ← endOfLine rest
      let document ← readLinesUnder path fuel rest
      return { document with headers := path :: document.headers }
    | c :: cs =>
      match endOfLine (c :: cs) with
      | some rest => readLinesUnder header fuel rest
      | none => do
        let (key, rest) ← readKey (cs.length + 1) (c :: cs)
        let '=' :: rest := rest | none
        let (value, rest) ← readValue (skipSpace rest)
        let rest ← endOfLine rest
        let document ← readLinesUnder header fuel rest
        return { document with entries := ⟨header, key, value⟩ :: document.entries }

/-- Reads a file. A byte order mark may stand in front. -/
def read (text : String) : Option Document :=
  let cs := match text.toList with
    | '\ufeff' :: cs => cs
    | cs => cs
  readLinesUnder [] (cs.length + 1) cs

/-- The value of a setting that must be a text. -/
def Document.text? (d : Document) (name : String) : Option (Option String) :=
  match d.entries.filter (fun e => (e.header ++ e.key).head? == some name),
      d.headers.filter (·.head? == some name) with
  | [], [] => some none
  | [⟨[], [_], .text s⟩], [] => some (some s)
  | _, _ => none

/-- The value of a setting that is a choice: a text, or the one name in a table, whose entry is
empty. A table is written inline, by a key of two parts, or under a header. -/
def Document.choice? (d : Document) (name : String) : Option (Option String) :=
  match d.entries.filter (fun e => (e.header ++ e.key).head? == some name),
      d.headers.filter (·.head? == some name) with
  | [], [] => some none
  | [⟨[], [_], .text s⟩], [] => some (some s)
  | [⟨[], [_], .choice s⟩], [] => some (some s)
  | [⟨[], [_, s], .empty⟩], [] => some (some s)
  | [⟨[_], [s], .empty⟩], [[_]] => some (some s)
  | [], [[_, s]] => some (some s)
  | [], [[_], [_, s]] => some (some s)
  | [], [[_, s], [_]] => some (some s)
  | _, _ => none

/-- The names of the settings in a file. -/
def Document.names (d : Document) : List String :=
  (d.headers ++ d.entries.map fun e => e.header ++ e.key).filterMap List.head?

end SqlTemplate.Toml
