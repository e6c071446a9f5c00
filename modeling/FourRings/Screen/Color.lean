import FourRings.Selector

/-!
# Colours

The sixteen colours of the text screen and the attribute bytes made of them: the background in the
high nibble, the foreground in the low one.
-/

namespace FourRings

/-- A colour of the text screen. -/
inductive Color where
  | black
  | blue
  | green
  | cyan
  | red
  | magenta
  | brown
  | lightGray
  | darkGray
  | lightBlue
  | lightGreen
  | lightCyan
  | lightRed
  | pink
  | yellow
  | white
deriving DecidableEq, Repr

namespace Color

/-- The colours in the order of their codes. -/
def all : List Color :=
  [.black, .blue, .green, .cyan, .red, .magenta, .brown, .lightGray, .darkGray, .lightBlue,
    .lightGreen, .lightCyan, .lightRed, .pink, .yellow, .white]

def nibble : Color → BitVec 4
  | .black => 0x0
  | .blue => 0x1
  | .green => 0x2
  | .cyan => 0x3
  | .red => 0x4
  | .magenta => 0x5
  | .brown => 0x6
  | .lightGray => 0x7
  | .darkGray => 0x8
  | .lightBlue => 0x9
  | .lightGreen => 0xA
  | .lightCyan => 0xB
  | .lightRed => 0xC
  | .pink => 0xD
  | .yellow => 0xE
  | .white => 0xF

/-- The attribute byte of `c` on a background. -/
def on (c background : Color) : Byte := background.nibble ++ c.nibble

end Color

namespace Palette

/-- Text without a colour of its own, and blank cells. -/
def default : Byte := Color.green.on .black

/-- Reports of faults. -/
def fault : Byte := Color.red.on .black

/-- The greeting of the core. -/
def banner : Byte := Color.white.on .black

def devs : Byte := Color.yellow.on .black

def libs : Byte := Color.lightCyan.on .black

def users : Byte := Color.lightBlue.on .black

def logo : Byte := Color.white.on .black

def prompt : Byte := Color.green.on .black

/-- The line that says that the machine is ready. -/
def sys : Byte := Color.black.on .green

end Palette

end FourRings
