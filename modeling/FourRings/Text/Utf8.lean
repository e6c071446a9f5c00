import FourRings.Selector

/-!
# Text as bytes
-/

namespace FourRings.Text

/-- The bytes of the UTF-8 encoding of a string. -/
def utf8 (s : String) : List Byte :=
  s.toList.flatMap fun c => (String.utf8EncodeChar c).map (·.toBitVec)

end FourRings.Text
