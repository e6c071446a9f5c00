import FourRings.Selector

/-!
# The selector map

The slots of the global table that the machine gives a fixed meaning, under the selector that names
each: two flat segments and a local table for every ring, the tasks, the data windows and the call
gates. Selectors of local slots follow the rule "code in slot 0, data in slot 1".
-/

namespace FourRings

namespace Ring

/-- The code segment that a handler of the ring runs in. -/
def codeSelector (r : Ring) : Selector := .ofGlobal (BitVec.ofNat 13 (2 * r.level + 1)) r

/-- The data segment of the ring, which the processor loads for the stack on a switch to the
ring. -/
def dataSelector (r : Ring) : Selector := .ofGlobal (BitVec.ofNat 13 (2 * r.level + 2)) r

/-- The local table that the tasks of the ring run with. -/
def ldtSelector (r : Ring) : Selector :=
  match r with
  | .core => .ofGlobal 10 .core
  | .devs => .ofGlobal 12 .core
  | .libs => .ofGlobal 16 .core
  | .users => .ofGlobal 20 .core

/-- The code segment of the ring's local table. -/
def localCode (r : Ring) : Selector := .ofLocal 0 r

/-- The data segment of the ring's local table. -/
def localData (r : Ring) : Selector := .ofLocal 1 r

end Ring

namespace SelectorMap

/-! ### Data windows -/

/-- Data of the device drivers over the whole pool. -/
def devsWindow : Selector := .ofGlobal 14 .devs

/-- Data of the users up to the core region. -/
def usersWindow : Selector := .ofGlobal 22 .users

/-! ### Tasks -/

/-- Task of the core. -/
def coreTask : Selector := .ofGlobal 9 .core

/-- Interrupt task of the device drivers. -/
def devsIrqTask : Selector := .ofGlobal 11 .core

/-- Scheduling task of the device drivers. -/
def devsSchedTask : Selector := .ofGlobal 13 .core

/-- Interrupt task of the shared services. -/
def libsIrqTask : Selector := .ofGlobal 15 .core

/-- Scheduling task of the shared services. -/
def libsSchedTask : Selector := .ofGlobal 17 .core

/-- Main task of the users. -/
def mainTask : Selector := .ofGlobal 19 .core

/-- Nested task of the users. -/
def nestedTask : Selector := .ofGlobal 21 .core

/-! ### Call gates -/

/-- Gate that binds an interrupt vector. -/
def vectorGate : Selector := .ofGlobal 23 .core

/-- Gate of the core's transmit interrupt. -/
def coreTransmitGate : Selector := .ofGlobal 32 .core

/-- Gate that prints a message. -/
def printGate : Selector := .ofGlobal 33 .core

/-- Gate of the transmit service of the shared services. -/
def libsTransmitGate : Selector := .ofGlobal 34 .core

/-- Gate of the terminal of the device drivers. -/
def terminalGate : Selector := .ofGlobal 35 .core

/-- Gate that edits the global table. -/
def tableGate : Selector := .ofGlobal 36 .core

/-- Gate that resumes the boot sequence. -/
def resumeGate : Selector := .ofGlobal 37 .core

end SelectorMap

end FourRings
