import FourRings.Screen.Color
import FourRings.Text.Utf8

/-!
# The text console

A screen of 25 rows and 80 columns over an array of cells, row by row. Text advances a cursor, wraps
at the end of a row and scrolls at the end of the screen. A listener, if there is one, is told of
every move of the cursor.

An operation gives no console if it touches a cell outside the array. On a console made by
`Console.ofCells?` with the cursor on the screen this does not happen.
-/

namespace FourRings

/-- A character on the screen: its attribute in the high byte, its code in the low one. -/
abbrev Cell := BitVec 16

def Cell.of (byte color : Byte) : Cell := color ++ byte

/-- The cell of an empty place. -/
def Cell.blank : Cell := .of 0x20 Palette.default

namespace Screen

def rows : Nat := 25

def cols : Nat := 80

/-- The number of cells. -/
def size : Nat := rows * cols

end Screen

/-- A text console. -/
structure Console where
  cells : Array Cell
  row : Nat := 0
  col : Nat := 0
  /-- Whether somebody listens to the moves of the cursor. -/
  listening : Bool := false
  /-- The positions that the listener was told, the latest last. -/
  moves : List Nat := []
deriving DecidableEq, Repr

namespace Console

open Screen

/-- The console over an array that holds a screen, with the cursor in the first place. -/
def ofCells? (cells : Array Cell) (listening : Bool) : Option Console :=
  if size ≤ cells.size then some { cells, listening } else none

/-- The index of the cell under the cursor. -/
def position (c : Console) : Nat := c.row * cols + c.col

/-- Tells the listener where the cursor is. -/
def notify (c : Console) : Console :=
  if c.listening then { c with moves := c.moves ++ [c.position] } else c

/-- Moves the cursor to the place of the screen nearest to the given one. -/
def moveCursor (c : Console) (row col : Nat) : Console :=
  { c with row := min row (rows - 1), col := min col (cols - 1) }.notify

/-- The cell at a place. -/
def cell? (c : Console) (row col : Nat) : Option Cell := c.cells[row * cols + col]?

def setCell (c : Console) (index : Nat) (cell : Cell) : Option Console :=
  if h : index < c.cells.size then some { c with cells := c.cells.set index cell } else none

/-- Empties the screen and moves the cursor to the first place. -/
def clear (c : Console) : Option Console :=
  if size ≤ c.cells.size then
    let cells := Array.replicate size Cell.blank ++ c.cells.extract size
    some { c with cells, row := 0, col := 0 }.notify
  else none

/-- Moves all rows up by one, the cursor with them, and empties the last row. -/
def scrollUp (c : Console) : Option Console :=
  if size ≤ c.cells.size then
    let cells :=
      c.cells.extract cols size ++ Array.replicate cols Cell.blank ++ c.cells.extract size
    some { c with cells, row := c.row - 1 }
  else none

/-- Moves the cursor one column on, to the next row after the last column. -/
def nextColumn (c : Console) : Console :=
  if c.col + 1 < cols then { c with col := c.col + 1 } else { c with col := 0, row := c.row + 1 }

/-- Scrolls if the cursor is below the last row. -/
def scrollIntoView (c : Console) : Option Console :=
  if rows ≤ c.row then c.scrollUp else some c

/-- Writes one character at the cursor and moves on. A line feed moves to the start of the next row,
and a carriage return to the start of this one. -/
def feed (c : Console) (color byte : Byte) : Option Console :=
  if byte = 0x0A then { c with row := c.row + 1, col := 0 }.scrollIntoView
  else if byte = 0x0D then { c with col := 0 }.scrollIntoView
  else do
    let c ← c.setCell c.position (.of byte color)
    c.nextColumn.scrollIntoView

def feedAll (c : Console) (color : Byte) (text : List Byte) : Option Console :=
  text.foldlM (·.feed color ·) c

def writeByte (c : Console) (byte color : Byte) : Option Console :=
  (c.feed color byte).map notify

/-- Prints at the cursor. -/
def writeBytes (c : Console) (text : List Byte) (color : Byte) : Option Console :=
  (c.feedAll color text).map notify

/-- Prints at a place of the screen and puts the cursor back. Does nothing if the place is off
the screen. -/
def writeBytesAt (c : Console) (text : List Byte) (color : Byte) (row col : Nat) : Option Console :=
  if row < rows ∧ col < cols then do
    let printed ← { c with row, col }.feedAll color text
    return { printed with row := c.row, col := c.col }.notify
  else some c

/-- Writes one cell of the screen. The cursor stays. -/
def writeCell (c : Console) (row col : Nat) (byte color : Byte) : Option Console :=
  if row < rows ∧ col < cols then c.setCell (row * cols + col) (.of byte color) else some c

/-- Prints a string in the bytes of its UTF-8 encoding. -/
def write (c : Console) (text : String) (color : Byte) : Option Console :=
  c.writeBytes (Text.utf8 text) color

/-! ### Rows as text -/

/-- White space among the first 256 characters. -/
def isBlank (ch : Char) : Bool :=
  (0x09 ≤ ch.toNat && ch.toNat ≤ 0x0D) || ch.toNat = 0x20 || ch.toNat = 0x85 || ch.toNat = 0xA0

/-- The character of a cell: its code is a code point, and an empty cell reads as a space. -/
def charOf (cell : Cell) : Char :=
  let code := (cell.extractLsb' 0 8).toNat
  if code = 0 then ' ' else Char.ofNat code

/-- The text of a row, without the white space at its end. -/
def textOfRow? (c : Console) (row : Nat) : Option String :=
  if (row + 1) * cols ≤ c.cells.size then
    let chars := (c.cells.extract (row * cols) ((row + 1) * cols)).toList.map charOf
    some (String.ofList (chars.reverse.dropWhile isBlank).reverse)
  else none

end Console

end FourRings
