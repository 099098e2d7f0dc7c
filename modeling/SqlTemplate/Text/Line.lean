namespace SqlTemplate.Text

/-- A line without the carriage return that belongs to its line end. -/
def withoutReturn (line : List Char) : List Char :=
  if line.getLast? = some '\r' then line.dropLast else line

/-- Every piece but the last was ended by a line feed; a last piece that is empty is no line. -/
def endedLines : List (List Char) → List (List Char)
  | [] => []
  | [last] => if last.isEmpty then [] else [last]
  | line :: rest => withoutReturn line :: endedLines rest

/-- The lines of a text. A line ends at a line feed or at a carriage return and a line feed; the
last line may lack its end, and then keeps a carriage return. -/
def lines (text : List Char) : List (List Char) :=
  endedLines (text.splitOn '\n')

/-- Lines put back together, one line feed between each two. -/
def unlines (ls : List (List Char)) : List Char :=
  ['\n'].intercalate ls

example : lines "a\r\nb\n\nc\r".toList = ["a".toList, "b".toList, [], "c\r".toList] := by decide

end SqlTemplate.Text
