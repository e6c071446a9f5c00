import FourRings.Screen.Console

/-!
# The unbounded terminal

A terminal with a first line and no last one. What is printed on it stays where it was printed: a
terminal wraps at the end of a line as a console does, but never scrolls.
-/

namespace FourRings

open Screen

/-- A terminal without an end. -/
structure Terminal where
  /-- The cell at a line and a column. Lines have as many columns as the screen. -/
  lines : Nat → Nat → Cell
  row : Nat
  col : Nat

namespace Terminal

/-- The terminal that starts with the rows of a console and goes on with blank lines. -/
def ofConsole (c : Console) : Terminal where
  lines line col := if line < rows then (c.cell? line col).getD .blank else .blank
  row := c.row
  col := c.col

def setCell (t : Terminal) (cell : Cell) : Terminal :=
  { t with lines := fun line col => if line = t.row ∧ col = t.col then cell else t.lines line col }

/-- Moves the cursor one column on, to the next line after the last column. -/
def nextColumn (t : Terminal) : Terminal :=
  if t.col + 1 < cols then { t with col := t.col + 1 } else { t with row := t.row + 1, col := 0 }

/-- Writes one character at the cursor and moves on. A line feed moves to the start of the next
line, and a carriage return to the start of this one. -/
def feed (t : Terminal) (color byte : Byte) : Terminal :=
  if byte = 0x0A then { t with row := t.row + 1, col := 0 }
  else if byte = 0x0D then { t with col := 0 }
  else (t.setCell (.of byte color)).nextColumn

def feedAll (t : Terminal) (color : Byte) (text : List Byte) : Terminal :=
  text.foldl (·.feed color ·) t

/-- The first line that a screen shows which has scrolled as little as the cursor allows. -/
def top (t : Terminal) : Nat := t.row - (rows - 1)

end Terminal

end FourRings
