import FourRings.Selector

/-!
# Access bytes and descriptor types

The access byte of a descriptor, from its highest bit: present, privilege (two bits), the
code-or-data bit, and four bits whose meaning depends on the one before. Where the code-or-data bit
is clear, the low nibble is a system type; where it is set, the nibble says executable, conforming
(for data: expand-down), readable or writable, accessed.

`Flags` is the byte whose upper nibble a segment carries beside its limit.
-/

namespace FourRings

/-- The types of system descriptors. -/
inductive SystemType where
  | ldt
  | taskGate
  | tssAvailable
  | tssBusy
  | callGate
  | interruptGate
  | trapGate
deriving DecidableEq, Repr

namespace SystemType

/-- Every system type. -/
def all : List SystemType :=
  [.ldt, .taskGate, .tssAvailable, .tssBusy, .callGate, .interruptGate, .trapGate]

/-- The type as the low nibble of an access byte. -/
def nibble : SystemType → BitVec 4
  | .ldt => 0x2
  | .taskGate => 0x5
  | .tssAvailable => 0x9
  | .tssBusy => 0xB
  | .callGate => 0xC
  | .interruptGate => 0xE
  | .trapGate => 0xF

/-- The type that a nibble stands for; the other nibbles are reserved. -/
def ofNibble? (b : BitVec 4) : Option SystemType :=
  all.find? (·.nibble = b)

def isGate : SystemType → Bool
  | .taskGate | .callGate | .interruptGate | .trapGate => true
  | .ldt | .tssAvailable | .tssBusy => false

/-- Whether the type is that of task state, running or not. -/
def isTask : SystemType → Bool
  | .tssAvailable | .tssBusy => true
  | _ => false

@[simp] theorem ofNibble?_nibble (t : SystemType) : ofNibble? t.nibble = some t := by
  cases t <;> rfl

end SystemType

/-- An access byte. -/
structure Access where
  bits : Byte := 0
deriving DecidableEq, Repr, Inhabited

namespace Access

def accessed (a : Access) : Bool := a.bits.getLsbD 0

/-- Readable code or writable data. -/
def readWrite (a : Access) : Bool := a.bits.getLsbD 1

/-- Conforming code or expand-down data. -/
def conforming (a : Access) : Bool := a.bits.getLsbD 2

def executable (a : Access) : Bool := a.bits.getLsbD 3

/-- Set for code and data, clear for system descriptors. -/
def isSegment (a : Access) : Bool := a.bits.getLsbD 4

def present (a : Access) : Bool := a.bits.getLsbD 7

/-- The privilege level of the descriptor. -/
def dpl (a : Access) : Ring := .ofBits (a.bits.extractLsb' 5 2)

/-- The same access byte at privilege `r`. -/
def withDpl (a : Access) (r : Ring) : Access :=
  ⟨a.bits.extractLsb' 7 1 ++ r.bits ++ a.bits.extractLsb' 0 5⟩

/-- The kind of readable code. -/
def codeKind : Access := ⟨0x1A⟩

/-- The kind of writable data. -/
def dataKind : Access := ⟨0x12⟩

/-- A present segment of the given kind at privilege `r`. -/
def ofKind (kind : Access) (r : Ring) : Access :=
  ⟨1#1 ++ r.bits ++ kind.bits.extractLsb' 0 5⟩

/-- A present system descriptor of type `t` at privilege `r`. -/
def ofSystem (t : SystemType) (r : Ring) : Access :=
  ⟨1#1 ++ r.bits ++ 0#1 ++ t.nibble⟩

/-- The system type, or `none` for code, data and reserved types. -/
def systemType? (a : Access) : Option SystemType :=
  if a.isSegment then none else SystemType.ofNibble? (a.bits.extractLsb' 0 4)

/-- The names of the bits, lowest first. -/
def bitNames : List String :=
  ["ACCESSED", "READ_WRITE", "CONFORMING", "EXECUTABLE", "CODE_DATA", "DPL_LOW", "DPL_HIGH",
    "PRESENT"]

/-- The names of the bits that are set, lowest first. -/
def names (a : Access) : List String :=
  bitNames.zipIdx.filterMap fun (name, i) => if a.bits.getLsbD i then some name else none

end Access

/-- The flags of a segment: the upper nibble of a byte. -/
structure Flags where
  bits : Byte := 0
deriving DecidableEq, Repr, Inhabited

namespace Flags

/-- A 32-bit segment with its limit in pages. -/
def protected4K : Flags := ⟨0xC0⟩

/-- Whether the limit counts pages instead of bytes. -/
def granular (f : Flags) : Bool := f.bits.getLsbD 7

/-- The flags with the unused low nibble clear. -/
def known (f : Flags) : Flags := ⟨f.bits.extractLsb' 4 4 ++ 0#4⟩

/-- The names of the bits, from bit 4 on. -/
def bitNames : List String :=
  ["AVAILABLE", "LONG_MODE", "SIZE_32", "GRANULARITY_4K"]

/-- The names of the flags that are set, lowest first. -/
def names (f : Flags) : List String :=
  (bitNames.zipIdx 4).filterMap fun (name, i) => if f.bits.getLsbD i then some name else none

end Flags

end FourRings
