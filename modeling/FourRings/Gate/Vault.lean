import FourRings.Check
import FourRings.Gate.Error
import FourRings.Gate.Memory
import FourRings.SelectorMap

/-!
# The vault of task state

The processor trusts the task state that it switches to, so the core never lets a task descriptor
point into memory of an outer ring. It copies what an outer ring hands over into a `Vault`,
after checks, and the descriptor points at the copy. Nine slots of the global table take part: two
tasks and a local table for each outer ring.

`depositTss` and `depositLdt` return the address of the copy with the new vault; if they fail there
is no new vault.
-/

namespace FourRings

/-- A slot for a task of an outer ring. -/
inductive TaskSlot where
  | devsIrq
  | devsSched
  | libsIrq
  | libsSched
  | main
  | nested
deriving DecidableEq, Repr

namespace TaskSlot

def all : List TaskSlot := [.devsIrq, .devsSched, .libsIrq, .libsSched, .main, .nested]

def selector : TaskSlot → Selector
  | .devsIrq => SelectorMap.devsIrqTask
  | .devsSched => SelectorMap.devsSchedTask
  | .libsIrq => SelectorMap.libsIrqTask
  | .libsSched => SelectorMap.libsSchedTask
  | .main => SelectorMap.mainTask
  | .nested => SelectorMap.nestedTask

/-- The ring whose task the slot is for. -/
def owner : TaskSlot → Ring
  | .devsIrq | .devsSched => .devs
  | .libsIrq | .libsSched => .libs
  | .main | .nested => .users

/-- The slot that a selector names, whatever its low bits. -/
def ofSelector? (s : Selector) : Option TaskSlot := all.find? (·.selector.index = s.index)

end TaskSlot

/-- A slot for the local table of an outer ring. -/
inductive LdtSlot where
  | devs
  | libs
  | users
deriving DecidableEq, Repr

namespace LdtSlot

def all : List LdtSlot := [.devs, .libs, .users]

/-- The ring whose table the slot is for. -/
def owner : LdtSlot → Ring
  | .devs => .devs
  | .libs => .libs
  | .users => .users

def selector (l : LdtSlot) : Selector := l.owner.ldtSelector

/-- The slot that a selector names, whatever its low bits. -/
def ofSelector? (s : Selector) : Option LdtSlot := all.find? (·.selector.index = s.index)

end LdtSlot

/-- Where the copies lie in the memory of the core. -/
structure VaultAddresses where
  tss : TaskSlot → Word
  ldt : LdtSlot → Word

/-- The copies of the task state of outer rings. -/
structure Vault where
  address : VaultAddresses
  /-- The page directory that the tasks in the vault run with. -/
  directory : Word := 0
  tss : TaskSlot → Tss := fun _ => {}
  ldt : LdtSlot → Ldt := fun _ => {}

/-! ### Checks -/

/-- Fails unless the ring `caller` has the privilege of `required`. -/
def requirePrivilege (caller required : Ring) : Except Refusal Unit :=
  ensure (caller ≤ required) (.privilegeViolation caller required)

/-- Whether a segment grows up and ends within the reach of `r`. -/
def Descriptor.WithinReach (d : Descriptor) (r : Ring) : Prop :=
  d.isExpandDown = false ∧ d.stop ≤ r.reach

instance (d : Descriptor) (r : Ring) : Decidable (d.WithinReach r) :=
  inferInstanceAs (Decidable (d.isExpandDown = false ∧ d.stop ≤ r.reach))

def checkReach (r : Ring) (d : Descriptor) : Except Refusal Unit :=
  ensure (d.WithinReach r) (.outOfReach d.base)

/-- What a segment register needs of its segment. -/
inductive SegmentUse where
  | code
  | stack
  | data
deriving DecidableEq, Repr

/-- Whether a segment can be used as `u`: code must not be conforming, and a stack must be
writable. -/
def SegmentUse.Fits (u : SegmentUse) (d : Descriptor) : Prop :=
  match u with
  | .code => d.isCode ∧ d.access.conforming = false
  | .stack => d.isData ∧ d.access.readWrite
  | .data => d.isData

instance (u : SegmentUse) (d : Descriptor) : Decidable (u.Fits d) := by
  unfold SegmentUse.Fits; cases u <;> infer_instance

namespace Vault

/-- The room that an inner stack needs for the frame of an entry from an outer ring. -/
def frameRoom : Nat := 32

/-- The flags that a task may start with: interrupts on, I/O privilege, and the bit that is always
set. -/
def allowedEflags : Word := 0x3202

/-- The local table that the tasks of ring `r` run with, if it was handed over. -/
def ldtOf? (s : Vault) (r : Ring) : Option Ldt :=
  (LdtSlot.ofSelector? r.ldtSelector).map s.ldt

/-- The segment that a selector of a task of ring `r` names. -/
def segment? (s : Vault) (gdt : DescriptorTable) (r : Ring) (selector : Selector) :
    Option Descriptor :=
  if selector.isLocal then (s.ldtOf? r).bind (·.entries[selector.index]?)
  else (gdt.getAt selector).toOption

/-- A local selector names an entry of the table that is kept for the ring. -/
theorem segment?_of_isLocal {s : Vault} {gdt : DescriptorTable} {selector : Selector}
    (slot : LdtSlot) (hlocal : selector.isLocal) :
    s.segment? gdt slot.owner selector = (s.ldt slot).entries[selector.index]? := by
  have hslot : LdtSlot.ofSelector? slot.owner.ldtSelector = some slot := by
    cases slot <;> rfl
  rw [segment?, if_pos hlocal, ldtOf?, hslot, Option.map_some, Option.bind_some]

/-- A data register may hold the null selector. Anything else must name a present segment of the
task's own ring that fits its use. -/
def checkRegister (s : Vault) (gdt : DescriptorTable) (r : Ring) (u : SegmentUse)
    (selector : Selector) : Except Refusal Unit :=
  if u = .data ∧ selector.isNull then .ok () else do
    ensure (selector.rpl = r) (.badTaskState .selectorRpl)
    match s.segment? gdt r selector with
    | none => .error (.badTaskState .unresolvedSelector)
    | some d =>
      ensure (d.present ∧ d.dpl = r) (.badTaskState .unresolvedSelector)
      ensure (u.Fits d) (.badTaskState .segmentType)

/-- The stack for entries to ring `k` lies in that ring's stack segment, and ring `r` owns the room
for a frame below its top. -/
def checkInnerStack (memory : RingMemory) (r k : Ring) (p : StackPointer) :
    Except Refusal Unit := do
  ensure (p.ss = k.dataSelector) (.badTaskState .innerStack)
  ensure (frameRoom ≤ p.esp.toNat ∧ memory.owns r (p.esp - BitVec.ofNat 32 frameRoom) frameRoom)
    (.outOfReach p.esp)

/-- Whether a task of ring `r` may be switched to. -/
def checkTask (s : Vault) (gdt : DescriptorTable) (memory : RingMemory) (r : Ring) (t : Tss) :
    Except Refusal Unit := do
  ensure (t.backLink = 0) (.badTaskState .backLink)
  ensure (t.eflags &&& ~~~allowedEflags = 0) (.badTaskState .eflags)
  ensure (t.iopl ≤ r) (.badTaskState .iopl)
  ensure (Tss.limit.toNat < t.ioMapBase.toNat) (.badTaskState .ioMap)
  ensure (t.ldt = r.ldtSelector) (.badTaskState .foreignLdt)
  s.checkRegister gdt r .code t.cs
  s.checkRegister gdt r .stack t.ss
  [t.ds, t.es, t.fs, t.gs].forM (s.checkRegister gdt r .data)
  r.inner.forM fun k => checkInnerStack memory r k (t.innerStack k)

/-- An entry of a local table is null, or a present code or data segment of the ring that stays
within the ring's reach. -/
def checkEntry (r : Ring) (d : Descriptor) : Except Refusal Unit :=
  if d.isNull then .ok () else do
    ensure (d.present ∧ d.access.isSegment) (.systemDescriptor d.access)
    ensure (d.dpl = r) (.privilegeViolation r d.dpl)
    checkReach r d

/-! ### Deposits -/

def setTss (s : Vault) (slot : TaskSlot) (t : Tss) : Vault :=
  { s with tss := fun k => if k = slot then t else s.tss k }

def setLdt (s : Vault) (slot : LdtSlot) (l : Ldt) : Vault :=
  { s with ldt := fun k => if k = slot then l else s.ldt k }

@[simp] theorem tss_setTss (s : Vault) (slot k : TaskSlot) (t : Tss) :
    (s.setTss slot t).tss k = if k = slot then t else s.tss k := rfl

@[simp] theorem ldt_setTss (s : Vault) (slot : TaskSlot) (t : Tss) :
    (s.setTss slot t).ldt = s.ldt := rfl

@[simp] theorem ldt_setLdt (s : Vault) (slot k : LdtSlot) (l : Ldt) :
    (s.setLdt slot l).ldt k = if k = slot then l else s.ldt k := rfl

@[simp] theorem tss_setLdt (s : Vault) (slot : LdtSlot) (l : Ldt) :
    (s.setLdt slot l).tss = s.tss := rfl

/-- Copies the task state `t` of ring `r` for the slot of `selector`, and gives the copy the page
directory of the vault. -/
def depositTss (s : Vault) (gdt : DescriptorTable) (memory : RingMemory) (r : Ring)
    (selector : Selector) (t : Tss) : Except Refusal (Word × Vault) :=
  match TaskSlot.ofSelector? selector with
  | none => .error (.badTaskState .noTaskSlot)
  | some slot => do
    ensure (slot.owner = r) (.privilegeViolation r slot.owner)
    s.checkTask gdt memory r t
    return (s.address.tss slot, s.setTss slot { t with cr3 := s.directory })

/-- The entries of `l` up to `limit`, either the first alone or both. -/
def trimLdt (l : Ldt) (limit : Word) : Ldt :=
  if limit = Ldt.limit then l else { l with data := .null }

/-- Copies the local table `l` of ring `r` for the slot of `selector`. The limit says how many
entries count; the others are cleared. -/
def depositLdt (s : Vault) (r : Ring) (selector : Selector) (l : Ldt) (limit : Word) :
    Except Refusal (Word × Vault) :=
  match LdtSlot.ofSelector? selector with
  | none => .error (.badTaskState .noLdtSlot)
  | some slot => do
    ensure (slot.owner = r) (.privilegeViolation r slot.owner)
    ensure (limit = 7 ∨ limit = Ldt.limit) (.badArgument limit)
    (trimLdt l limit).entries.forM (checkEntry r)
    return (s.address.ldt slot, s.setLdt slot (trimLdt l limit))

end Vault

end FourRings
