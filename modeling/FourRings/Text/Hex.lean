/-!
# Hexadecimal text

Numbers in reports and messages are written in base sixteen. `hex` writes the fewest digits that
hold the number, `hexPad` fills with zeros on the left up to a least width, and `hexUpper` does the
same with capital digits.
-/

namespace FourRings.Text

/-- The text of `s` with `fill` in front up to `width` characters. -/
def padLeft (fill : Char) (width : Nat) (s : String) : String :=
  String.ofList (List.replicate (width - s.length) fill) ++ s

/-- The text of `s` with blanks behind up to `width` characters. -/
def padRight (width : Nat) (s : String) : String :=
  s ++ String.ofList (List.replicate (width - s.length) ' ')

/-- The hexadecimal digits of `n`, small letters, no leading zeros; zero is `0`. -/
def hex (n : Nat) : String :=
  String.ofList (Nat.toDigits 16 n)

/-- The hexadecimal digits of `n`, at least `width` of them. -/
def hexPad (width n : Nat) : String :=
  padLeft '0' width (hex n)

/-- The hexadecimal digits of `n` in capitals, at least `width` of them. -/
def hexUpper (width n : Nat) : String :=
  (hexPad width n).map Char.toUpper

end FourRings.Text
