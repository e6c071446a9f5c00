import FourRings.Descriptor.Text
import FourRings.Table.Basic

/-!
# Table errors as text
-/

namespace FourRings.TableError

/-- What went wrong, without the particulars. -/
def description : TableError → String
  | .indexOutOfRange .. => "descriptor index out of range"
  | .nullSlot => "null descriptor slot is read-only"
  | .typeMismatch .. => "slot holds a different descriptor type"

def message (e : TableError) : String :=
  match e with
  | .indexOutOfRange index capacity => s!"{e.description}: {index} >= {capacity}"
  | .nullSlot => e.description
  | .typeMismatch index expected found =>
    s!"{e.description}: slot {index} expected {expected}, access byte {found.text}"

end FourRings.TableError
