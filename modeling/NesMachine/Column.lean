/-!
# Columns

Text that is filled up with blanks to the width of a column. Text that is wider than its column is left
as it is.
-/

namespace NesMachine.Column

def blanks (count : Nat) : String :=
  String.ofList (List.replicate count ' ')

/-- Blanks on the right. -/
def left (width : Nat) (text : String) : String :=
  text ++ blanks (width - text.length)

/-- Blanks on the left. -/
def right (width : Nat) (text : String) : String :=
  blanks (width - text.length) ++ text

@[simp] theorem length_blanks (count : Nat) : (blanks count).length = count := by
  simp [blanks]

/-- A column is as wide as asked for, and wider when the text does not fit. -/
theorem length_left (width : Nat) (text : String) :
    (left width text).length = max width text.length := by
  rw [left, String.length_append, length_blanks]
  omega

theorem length_right (width : Nat) (text : String) :
    (right width text).length = max width text.length := by
  rw [right, String.length_append, length_blanks]
  omega

end NesMachine.Column
