import SqlTemplate.Text.Padding

namespace SqlTemplate.Reference

/-- A kind of placeholder, described in four words or phrases. -/
structure Entry where
  written : String
  name : String
  function : String
  renders : String

def titles : Entry := ⟨"Syntax", "Name", "Function", "Renders"⟩

def entries : List Entry :=
  [⟨":?", "Anon", "Next value from the \"?\" list", "5"⟩,
    ⟨":name", "Static", "Escaped scalar or list", "'john', (1, 2)"⟩,
    ⟨":!name", "Raw", "Scalar text, unescaped", "created_at"⟩,
    ⟨":~name", "Dynamic", "Condition parts joined", "a = 1 AND b = 2"⟩,
    ⟨":$name\x7ba, b\x7d", "Insert", "Record values in key order", "(1, 'x')"⟩,
    ⟨":@name\x7ba, b\x7d", "Update", "Record assignments", "a = 1, b = 'x'"⟩,
    ⟨":*name\x7bx = *\x7d", "Optional", "Fragment or nothing", "x = 3"⟩,
    ⟨"::", "Cast", "Left alone", "id::text"⟩]

def Entry.line (e : Entry) : String :=
  Text.padded 16 e.written ++ " " ++ Text.padded 10 e.name ++ " " ++ Text.padded 30 e.function ++
    " " ++ e.renders

def lines : List String :=
  ["plainsql Placeholder Reference", "", titles.line, String.ofList (List.replicate 80 '─')] ++
    entries.map Entry.line

end SqlTemplate.Reference
