import FourRings.Selector
import FourRings.Text.Hex

/-!
# Refused edits of the page map
-/

namespace FourRings

/-- Why an edit of the page map is refused. -/
inductive PagingError where
  | misaligned (addr required : Word)
  /-- The block leaves the pool. -/
  | outOfRange (start size : Word)
  /-- The block does not end below the last 32-bit address. -/
  | sizeOverflow (start : Word) (pages : Nat)
  | invalidFlags (flags : Nat)
deriving DecidableEq, Repr

namespace PagingError

/-- What went wrong, without the particulars. -/
def description : PagingError → String
  | .misaligned .. => "address is not properly aligned"
  | .outOfRange .. => "range outside the identity map"
  | .sizeOverflow .. => "size calculation overflow"
  | .invalidFlags _ => "invalid page table flags combination"

def message (e : PagingError) : String :=
  match e with
  | .misaligned addr required =>
    s!"{e.description}: address 0x{Text.hex addr.toNat}" ++
      s!" must be aligned to 0x{Text.hex required.toNat}"
  | .outOfRange start size =>
    s!"{e.description}: 0x{Text.hex start.toNat} + 0x{Text.hex size.toNat}"
  | .sizeOverflow start pages =>
    s!"{e.description}: start 0x{Text.hex start.toNat} + {pages} pages overflows"
  | .invalidFlags flags => s!"{e.description}: 0x{Text.hex flags}"

end PagingError

end FourRings
