import FourRings.Gate.Request
import FourRings.Screen.Console

/-!
# Serving print requests

A message ends at its first zero byte, and only so much of it is printed as fits on the screen.
-/

namespace FourRings

/-- The bytes of a message that are printed. -/
def messageText (bytes : List Byte) : List Byte :=
  (bytes.takeWhile (· ≠ 0)).take PrintRequest.maxLength

/-- Prints the text of a request. -/
def Console.serve (c : Console) (q : PrintRequest) (text : List Byte) : Option Console :=
  match q.position with
  | none => c.writeBytes text q.color
  | some p => c.writeBytesAt text q.color p.row.toNat p.col.toNat

end FourRings
