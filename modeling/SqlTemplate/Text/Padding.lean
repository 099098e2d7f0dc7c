namespace SqlTemplate.Text

def spaces (count : Nat) : String := String.ofList (List.replicate count ' ')

/-- The text with spaces after it, up to the given number of characters. A longer text stays whole. -/
def padded (width : Nat) (text : String) : String := text ++ spaces (width - text.length)

/-- The largest width that is taken from a value. -/
def maxWidth : Nat := 0xFFFF

/-- Padding to a width that is not known before the run. One that does not fit 16 bits is refused. -/
def padded? (width : Nat) (text : String) : Option String :=
  if width ≤ maxWidth then some (padded width text) else none

@[simp]
theorem length_spaces (count : Nat) : (spaces count).length = count := by
  simp [spaces, String.length_ofList]

theorem length_padded (width : Nat) (text : String) :
    (padded width text).length = max width text.length := by
  rw [padded, String.length_append, length_spaces]
  omega

end SqlTemplate.Text
