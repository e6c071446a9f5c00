import FourRings.Descriptor.Basic

/-!
# Descriptor tables

A table is an array of descriptors with checked access. Slots are overwritten whole by `set`;
the three `patch` operations change address fields only. They ask that the slot already holds a
descriptor of the right type, and leave its access byte alone, so privilege and type stay as they
were built.

Every operation returns the new table or a `TableError`, never both.
-/

namespace FourRings

/-- Why a table operation is refused. -/
inductive TableError where
  /-- The slot lies past the end of the table. -/
  | indexOutOfRange (index capacity : Nat)
  /-- The empty first slot is never written on request. -/
  | nullSlot
  /-- A patch met a slot with another type of descriptor. -/
  | typeMismatch (index : Nat) (expected : String) (found : Access)
deriving DecidableEq, Repr

/-- What the processor is told of a table: its last byte and its address. -/
structure TableRegister where
  limit : BitVec 16
  base : Word
deriving DecidableEq, Repr

/-- A descriptor table. -/
structure DescriptorTable where
  slots : Array Descriptor
deriving DecidableEq, Repr, Inhabited

namespace DescriptorTable

/-- A table of `capacity` slots that all hold `d`. -/
def replicate (capacity : Nat) (d : Descriptor) : DescriptorTable := ⟨.replicate capacity d⟩

def capacity (t : DescriptorTable) : Nat := t.slots.size

/-- What the processor is told of the table at address `base`. The limit of an empty table is 0, and
only 16 bits of a limit are kept. -/
def register (t : DescriptorTable) (base : Word) : TableRegister :=
  ⟨BitVec.ofNat 16 (t.capacity * 8 - 1), base⟩

/-- Writes `d` into every slot, the first one included. -/
def fill (t : DescriptorTable) (d : Descriptor) : DescriptorTable := replicate t.capacity d

/-- The number of slots in use. -/
def count (t : DescriptorTable) : Nat := t.slots.countP (!·.isNull)

def get (t : DescriptorTable) (index : Nat) : Except TableError Descriptor :=
  match t.slots[index]? with
  | some d => .ok d
  | none => .error (.indexOutOfRange index t.capacity)

def set (t : DescriptorTable) (index : Nat) (d : Descriptor) :
    Except TableError DescriptorTable :=
  if h : index < t.slots.size then .ok ⟨t.slots.set index d⟩
  else .error (.indexOutOfRange index t.capacity)

/-- The slot that a selector names. -/
def getAt (t : DescriptorTable) (s : Selector) : Except TableError Descriptor := t.get s.index

def setAt (t : DescriptorTable) (s : Selector) (d : Descriptor) :
    Except TableError DescriptorTable :=
  t.set s.index d

/-- Writes the entries one after another up to the first that is refused. The entries before it
stay. -/
def setEach (t : DescriptorTable) : List (Nat × Descriptor) →
    Except TableError Unit × DescriptorTable
  | [] => (.ok (), t)
  | (index, d) :: rest =>
    match t.set index d with
    | .ok t => t.setEach rest
    | .error e => (.error e, t)

theorem get_eq_ok_iff {t : DescriptorTable} {index : Nat} {d : Descriptor} :
    t.get index = .ok d ↔ t.slots[index]? = some d := by
  unfold get; split <;> simp_all

/-! ### Patches -/

/-- Changes the slot of `s`, if its descriptor has a system type that `fits`. -/
def patch (t : DescriptorTable) (s : Selector) (expected : String) (fits : SystemType → Bool)
    (f : Descriptor → Descriptor) : Except TableError DescriptorTable :=
  match t.getAt s with
  | .error e => .error e
  | .ok d =>
    if d.systemType?.any fits then t.setAt s (f d)
    else .error (.typeMismatch s.index expected d.access)

/-- Binds the call gate of `s` to a handler. -/
def patchCallGate (t : DescriptorTable) (s : Selector) (handler : Word) (params : Byte) :
    Except TableError DescriptorTable :=
  t.patch s "call gate" (· = .callGate) (·.withGateTarget handler params)

/-- Points the task slot of `s` at other task state. -/
def patchTss (t : DescriptorTable) (s : Selector) (base limit : Word) :
    Except TableError DescriptorTable :=
  t.patch s "TSS" (·.isTask) (·.withBaseLimit base limit)

/-- Points the local-table slot of `s` at another table. -/
def patchLdt (t : DescriptorTable) (s : Selector) (base limit : Word) :
    Except TableError DescriptorTable :=
  t.patch s "LDT" (· = .ldt) (·.withBaseLimit base limit)

end DescriptorTable

end FourRings
