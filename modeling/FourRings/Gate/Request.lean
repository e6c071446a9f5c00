import FourRings.Check
import FourRings.Gate.Error
import FourRings.MemoryMap

/-!
# Requests in registers

A caller leaves its request in four registers. Requests on the global table carry an opcode in
`edx`; those that bind an interrupt vector and those that print have a gate of their own and need
none. Selectors travel in the low half of a register, whose high half is ignored.
-/

namespace FourRings

/-- The registers of a caller. -/
structure Registers where
  eax : Word := 0
  ebx : Word := 0
  ecx : Word := 0
  edx : Word := 0
deriving DecidableEq, Repr, Inhabited

/-- A request on the global table. -/
inductive TableRequest where
  /-- Install a descriptor. -/
  | descriptor (selector : Selector) (d : Descriptor)
  /-- Bind a call gate to a handler. -/
  | callGate (selector : Selector) (handler : Word) (params : Byte)
  /-- Hand task state over. -/
  | tss (selector : Selector) (base : Word)
  /-- Hand a local table over. -/
  | ldt (selector : Selector) (base limit : Word)
deriving DecidableEq, Repr

namespace TableRequest

def descriptorOpcode : Word := 0x01

def callGateOpcode : Word := 0x8C

def tssOpcode : Word := 0x89

def ldtOpcode : Word := 0x82

/-- The highest number of parameters of a call gate. -/
def maxParams : Word := 31

def decode (r : Registers) : Except Refusal TableRequest :=
  if r.edx = descriptorOpcode then .ok (.descriptor (.ofWord r.ecx) (.ofWords r.eax r.ebx))
  else if r.edx = callGateOpcode then
    if r.eax ≤ maxParams then .ok (.callGate (.ofWord r.ecx) r.ebx (r.eax.setWidth 8))
    else .error (.badArgument r.eax)
  else if r.edx = tssOpcode then .ok (.tss (.ofWord r.ebx) r.eax)
  else if r.edx = ldtOpcode then .ok (.ldt (.ofWord r.ecx) r.ebx r.eax)
  else .error (.unknownOpcode r.edx)

def encode : TableRequest → Registers
  | .descriptor s d => ⟨d.low, d.high, s.toWord, descriptorOpcode⟩
  | .callGate s handler params => ⟨params.setWidth 32, handler, s.toWord, callGateOpcode⟩
  | .tss s base => ⟨base, s.toWord, 0, tssOpcode⟩
  | .ldt s base limit => ⟨limit, base, s.toWord, ldtOpcode⟩

/-- The slot that the request is about. -/
def selector : TableRequest → Selector
  | .descriptor s _ | .callGate s _ _ | .tss s _ | .ldt s _ _ => s

end TableRequest

/-- A request to bind an interrupt vector to a handler in ring `dpl`. -/
structure InterruptRequest where
  vector : Word
  handler : Word
  dpl : Ring
deriving DecidableEq, Repr

namespace InterruptRequest

def decode (r : Registers) : Except Refusal InterruptRequest :=
  if r.eax ≤ 3 then .ok ⟨r.ecx, r.ebx, .ofBits (r.eax.setWidth 2)⟩
  else .error (.badArgument r.eax)

def encode (q : InterruptRequest) : Registers :=
  ⟨q.dpl.bits.setWidth 32, q.handler, q.vector, 0⟩

end InterruptRequest

/-- A place on the screen, as it travels in a register. -/
structure PrintPosition where
  row : Byte
  col : Byte
deriving DecidableEq, Repr

/-- A request to print the message at an address, at the cursor or at a given position. -/
structure PrintRequest where
  color : Byte
  message : Word
  position : Option PrintPosition
deriving DecidableEq, Repr

namespace PrintRequest

/-- The most bytes of a message that are printed. -/
def maxLength : Nat := 2000

/-- The row travels in the low byte of `ecx` and the column in the next. Row 0, column 0 cannot be
asked for: it means the cursor. -/
def decode (r : Registers) : PrintRequest where
  color := r.eax.setWidth 8
  message := r.ebx
  position :=
    if r.ecx.setWidth 16 = 0#16 then none
    else some ⟨r.ecx.extractLsb' 0 8, r.ecx.extractLsb' 8 8⟩

def encode (q : PrintRequest) : Registers where
  eax := q.color.setWidth 32
  ebx := q.message
  ecx :=
    match q.position with
    | none => 0
    | some p => (p.col ++ p.row).setWidth 32

end PrintRequest

/-- The most bytes that are read of a message at `addr`: the caller must reach them. -/
def readableLength (caller : Ring) (addr : Word) : Except Refusal Nat :=
  if addr.toNat < caller.reach then .ok (min (caller.reach - addr.toNat) PrintRequest.maxLength)
  else .error (.outOfReach addr)

end FourRings
