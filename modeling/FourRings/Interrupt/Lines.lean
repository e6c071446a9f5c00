import FourRings.Selector

/-!
# Interrupt lines

Devices raise interrupts on sixteen lines, eight on each of two controllers in a row. `lineVector`
is the vector that a line arrives at, and `LineTable` holds the handlers that device drivers bind to
lines.
-/

namespace FourRings

/-- The number of interrupt lines. -/
def lineCount : Nat := 16

/-- The line of the keyboard. -/
def keyboardLine : Nat := 1

/-- The first vector of the first controller. -/
def firstControllerVector : Byte := 0x20

/-- The first vector of the second controller. -/
def secondControllerVector : Byte := 0x28

/-- The lines of the first controller that are masked: all but the keyboard's. -/
def firstControllerMask : Byte := ~~~(1#8 <<< keyboardLine)

/-- The lines of the second controller that are masked: all of them. -/
def secondControllerMask : Byte := 0xFF

/-- The line that is pending when there is none. -/
def noLine : Word := 0xFFFFFFFF

/-- The vector that a line arrives at. -/
def lineVector (line : Byte) : Byte :=
  if line < 8 then firstControllerVector + line else secondControllerVector + line - 8

/-- Handlers of type `α`, by line. -/
structure LineTable (α : Type) where
  handlers : Vector (Option α) lineCount

namespace LineTable

variable {α : Type}

/-- A table without handlers. -/
def empty : LineTable α := ⟨.replicate lineCount none⟩

/-- Binds a line to a handler, in place of an earlier one. There is no table if there is no such
line. -/
def bind? (t : LineTable α) (line : Nat) (handler : α) : Option (LineTable α) :=
  if h : line < lineCount then some ⟨t.handlers.set line (some handler)⟩ else none

/-- The handler of a line. -/
def handler? (t : LineTable α) (line : Nat) : Option α := t.handlers[line]?.join

end LineTable

end FourRings
