import FourRings.Selector

/-!
# The mode of the processor

Three bits of a control register say whether segments are protected, whether pages are mapped, and
whether the inner rings honour read-only pages.
-/

namespace FourRings

/-- The mode that a control register reports. -/
structure ProcessorMode where
  isProtected : Bool
  paging : Bool
  writeProtect : Bool
deriving DecidableEq, Repr

namespace ProcessorMode

def ofCr0 (cr0 : Word) : ProcessorMode where
  isProtected := cr0.getLsbD 0
  paging := cr0.getLsbD 31
  writeProtect := cr0.getLsbD 16

/-- Whether segments are protected and pages mapped. -/
def isPagedProtected (m : ProcessorMode) : Bool := m.isProtected && m.paging

def text (m : ProcessorMode) : String :=
  s!"ModeReport \x7b protected: {m.isProtected}, paging: {m.paging}" ++
    s!", write_protect: {m.writeProtect} \x7d"

end ProcessorMode

end FourRings
