import FourRings.Gate.Vault
import FourRings.Gate.Request
import FourRings.SelectorMap

/-!
# The interrupt table

A table of interrupt gates, indexed by vector. Every gate leads into the code segment of its own
privilege. The first 32 vectors are exceptions of the processor, and rings bind the others on
request.
-/

namespace FourRings

/-- The number of vectors that the processor keeps for exceptions. -/
def exceptionCount : Nat := 32

/-- The vector of the keyboard. -/
def keyboardVector : Byte := 0x21

/-- The gate to a handler that runs in ring `r`. -/
def interruptGate (handler : Word) (r : Ring) : Descriptor :=
  .gate r.codeSelector handler r .interruptGate 0

/-- Vectors past the exceptions may be bound to gates no more privileged than the caller. -/
def InterruptRequest.permit (caller : Ring) (q : InterruptRequest) : Except Refusal Unit := do
  ensure (exceptionCount ≤ q.vector.toNat) (.reservedVector q.vector)
  requirePrivilege caller q.dpl

/-- An interrupt table. -/
structure InterruptTable where
  table : DescriptorTable
deriving DecidableEq, Repr

namespace InterruptTable

/-- A table of empty slots. -/
def empty (capacity : Nat) : InterruptTable := ⟨.replicate capacity .null⟩

def capacity (t : InterruptTable) : Nat := t.table.capacity

def register (t : InterruptTable) (base : Word) : TableRegister := t.table.register base

def get (t : InterruptTable) (vector : Nat) : Except TableError Descriptor := t.table.get vector

/-- Binds every vector to a handler in the core. -/
def bindAll (t : InterruptTable) (handler : Word) : InterruptTable :=
  ⟨t.table.fill (interruptGate handler .core)⟩

def bind (t : InterruptTable) (vector : Nat) (handler : Word) (r : Ring) :
    Except TableError InterruptTable :=
  match t.table.set vector (interruptGate handler r) with
  | .ok table => .ok ⟨table⟩
  | .error e => .error e

/-- Binds the exceptions to handlers in the core, the handler of vector `i` being `handlers i`. -/
def bindExceptions (t : InterruptTable) (handlers : Nat → Word) :
    Except TableError Unit × InterruptTable :=
  let gates := (List.range exceptionCount).map fun i => (i, interruptGate (handlers i) .core)
  let (result, table) := t.table.setEach gates
  (result, ⟨table⟩)

/-- Serves one request to bind a vector. A refused request leaves the table. -/
def serve (t : InterruptTable) (caller : Ring) (r : Registers) :
    Except Refusal Unit × InterruptTable :=
  match InterruptRequest.decode r with
  | .error e => (.error e, t)
  | .ok q =>
    match q.permit caller with
    | .error e => (.error e, t)
    | .ok () =>
      match t.bind q.vector.toNat q.handler q.dpl with
      | .error e => (.error (.table e), t)
      | .ok t => (.ok (), t)

end InterruptTable

end FourRings
