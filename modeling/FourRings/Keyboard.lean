import FourRings.Selector

/-!
# The keyboard

The keyboard sends a scan code for each key that is pressed, and the same code with its high bit set
when it is released. `Keyboard.character?` gives the character of a pressed key.
-/

namespace FourRings.Keyboard

/-- The characters of the scan codes, row by row of the keys. Keys that print nothing have the zero
character. -/
def characters : List Char :=
  "\x00\x001234567890-=\x08\t".toList ++
    "qwertyuiop[]\n\x00".toList ++
    "asdfghjkl;'`\x00".toList ++
    "\\zxcvbnm,./\x00*\x00 ".toList

/-- The character of a scan code. Keys that are released give none, nor do keys without one. -/
def character? (code : Byte) : Option Byte :=
  (characters[code.toNat]?.filter (· ≠ '\x00')).map (BitVec.ofNat 8 ·.toNat)

end FourRings.Keyboard
