import FourRings.Gate.Serve
import FourRings.Strict

/-!
# Serving on a machine that faults

`Tables.serve` once more, step by step and on machine words, as a computation that can fault. The
checks that keep faults away stand before the operations that they guard, and a check that rests on
another comes after it.

Slots are found by their place in a list, and the copies in the vault are kept in arrays in the
order of `TaskSlot.all` and `LdtSlot.all`.
-/

namespace FourRings

namespace Strict

variable {ε α : Type}

/-! ### Tables -/

def get (t : DescriptorTable) (index : Nat) : Strict TableError Descriptor := do
  total (ensure (index < t.capacity) (.indexOutOfRange index t.capacity))
  fetch t.slots index

def set (t : DescriptorTable) (index : Nat) (d : Descriptor) :
    Strict TableError DescriptorTable := do
  total (ensure (index < t.capacity) (.indexOutOfRange index t.capacity))
  let slots ← store t.slots index d
  return ⟨slots⟩

/-- Changes the slot of `s`. The index is checked when the slot is read and not again. -/
def patch (t : DescriptorTable) (s : Selector) (expected : String) (fits : SystemType → Bool)
    (f : Descriptor → Descriptor) : Strict TableError DescriptorTable := do
  let d ← get t s.index
  total (ensure (d.systemType?.any fits) (.typeMismatch s.index expected d.access))
  let slots ← store t.slots s.index (f d)
  return ⟨slots⟩

/-! ### Permission -/

/-- The address just past the last one of a segment, in 64 bits. -/
def stop (d : Descriptor) : Strict ε (BitVec 64) := do
  let last ← add (d.base.setWidth 64) (d.byteLimit.setWidth 64)
  add last 1

def checkReach (r : Ring) (d : Descriptor) : Strict Refusal Unit := do
  total (ensure (d.isExpandDown = false) (.outOfReach d.base))
  let stop ← stop d
  total (ensure (stop.toNat ≤ r.reach) (.outOfReach d.base))

def checkTarget (gdt : DescriptorTable) (caller : Ring) (target : Selector) :
    Strict Refusal Unit := do
  total (ensure (target.isLocal = false) (.badTarget target))
  let d ← (get gdt target.index).adapt fun _ => .badTarget target
  total (ensure (d.present ∧ d.isCode) (.badTarget target))
  total (requirePrivilege caller d.dpl)

def checkOuterDescriptor (caller : Ring) (d : Descriptor) : Strict Refusal Unit :=
  if d.systemType? = some .callGate then return ()
  else if d.access.isSegment then checkReach caller d
  else throw (.systemDescriptor d.access)

def permitRaw (gdt : DescriptorTable) (caller : Ring) (current d : Descriptor) :
    Strict Refusal Unit := do
  total (checkOverwrite caller current)
  total (requirePrivilege caller d.dpl)
  if d.isGate then checkTarget gdt caller d.gateSelector
  if caller ≠ .core ∧ d.present then checkOuterDescriptor caller d

def permit (gdt : DescriptorTable) (caller : Ring) (q : TableRequest) : Strict Refusal Unit := do
  total (ensure (q.selector.index ≠ 0) (.table .nullSlot))
  let current ← (get gdt q.selector.index).adapt .table
  match q with
  | .descriptor _ d => permitRaw gdt caller current d
  | .callGate .. => if current.isGate then checkTarget gdt caller current.gateSelector
  | .tss .. | .ldt .. => total (permitHandover caller current)

/-! ### The vault -/

/-- The first of some slots with a property, and its place. -/
def locate (slots : List α) (p : α → Bool) (e : Refusal) : Strict Refusal (Nat × α) :=
  match slots.findIdx? p with
  | none => throw e
  | some i => do
    let slot ← fetch slots.toArray i
    return (i, slot)

/-- The segment that a selector of a task of ring `r` names. Whether a local table has the entry is
asked, and does not fault. -/
def segment (s : Vault) (gdt : DescriptorTable) (r : Ring) (selector : Selector) :
    Strict Refusal Descriptor :=
  let unresolved : Refusal := .badTaskState .unresolvedSelector
  if selector.isLocal then do
    let (i, _) ← locate LdtSlot.all (·.selector.index = r.ldtSelector.index) unresolved
    let l ← fetch (LdtSlot.all.map s.ldt).toArray i
    match l.entries[selector.index]? with
    | some d => return d
    | none => throw unresolved
  else (get gdt selector.index).adapt fun _ => unresolved

def checkRegister (s : Vault) (gdt : DescriptorTable) (r : Ring) (u : SegmentUse)
    (selector : Selector) : Strict Refusal Unit :=
  if u = .data ∧ selector.isNull then return () else do
    total (ensure (selector.rpl = r) (.badTaskState .selectorRpl))
    let d ← segment s gdt r selector
    total (ensure (d.present ∧ d.dpl = r) (.badTaskState .unresolvedSelector))
    total (ensure (u.Fits d) (.badTaskState .segmentType))

def checkInnerStack (memory : RingMemory) (r k : Ring) (p : StackPointer) :
    Strict Refusal Unit := do
  let room := BitVec.ofNat 32 Vault.frameRoom
  total (ensure (p.ss = k.dataSelector) (.badTaskState .innerStack))
  total (ensure (room ≤ p.esp) (.outOfReach p.esp))
  let bottom ← sub p.esp room
  total (ensure (memory.owns r bottom Vault.frameRoom) (.outOfReach p.esp))

def checkTask (s : Vault) (gdt : DescriptorTable) (memory : RingMemory) (r : Ring) (t : Tss) :
    Strict Refusal Unit := do
  total (ensure (t.backLink = 0) (.badTaskState .backLink))
  total (ensure (t.eflags &&& ~~~Vault.allowedEflags = 0) (.badTaskState .eflags))
  total (ensure (t.iopl ≤ r) (.badTaskState .iopl))
  total (ensure (Tss.limit.toNat < t.ioMapBase.toNat) (.badTaskState .ioMap))
  total (ensure (t.ldt = r.ldtSelector) (.badTaskState .foreignLdt))
  checkRegister s gdt r .code t.cs
  checkRegister s gdt r .stack t.ss
  [t.ds, t.es, t.fs, t.gs].forM (checkRegister s gdt r .data)
  r.inner.forM fun k => checkInnerStack memory r k (t.innerStack k)

/-- Overwrites the copy of task state at place `i`. -/
def putTss (s : Vault) (i : Nat) (t : Tss) : Strict ε Vault := do
  let slot ← fetch TaskSlot.all.toArray i
  return s.setTss slot t

/-- Overwrites the copy of a local table at place `i`. -/
def putLdt (s : Vault) (i : Nat) (l : Ldt) : Strict ε Vault := do
  let slot ← fetch LdtSlot.all.toArray i
  return s.setLdt slot l

/-- Copies the entries that are not null into the array of a new table, from place `i` on. -/
def copyEntries (r : Ring) : List Descriptor → Nat → Array Descriptor →
    Strict Refusal (Array Descriptor)
  | [], _, table => return table
  | d :: rest, i, table =>
    if d.isNull then copyEntries r rest (i + 1) table else do
      total (ensure (d.present ∧ d.access.isSegment) (.systemDescriptor d.access))
      total (ensure (d.dpl = r) (.privilegeViolation r d.dpl))
      checkReach r d
      let table ← store table i d
      copyEntries r rest (i + 1) table

/-- The table of the first `used` entries of a local table. -/
def copyLdt (r : Ring) (l : Ldt) (used : Nat) : Strict Refusal Ldt := do
  let table ← copyEntries r (l.entries.take used) 0 #[.null, .null]
  let code ← fetch table 0
  let data ← fetch table 1
  return ⟨code, data⟩

/-- The table of the entries up to a limit. The limit is checked before its successor, the size in
bytes, is formed: it must be that of whole entries. -/
def copyUpTo (r : Ring) (l : Ldt) (limit : Word) : Strict Refusal Ldt := do
  total (ensure (limit ≤ Ldt.limit) (.badArgument limit))
  let size ← add limit 1
  total (ensure (size.toNat % 8 = 0) (.badArgument limit))
  copyLdt r l (size.toNat / 8)

/-! ### Deposits

The vault lies in memory and is edited there. An edit that was made stays, whatever fails after
it. -/

/-- Checks task state and copies it to its place in the vault. -/
def placeTss (gdt : DescriptorTable) (memory : RingMemory) (r : Ring) (selector : Selector)
    (t : Tss) : InPlace Vault Refusal Word := do
  let (i, slot) ← .keep (locate TaskSlot.all (·.selector.index = selector.index)
    (.badTaskState .noTaskSlot))
  .keep (total (ensure (slot.owner = r) (.privilegeViolation r slot.owner)))
  let s ← getThe Vault
  .keep (checkTask s gdt memory r t)
  .update (putTss · i { t with cr3 := s.directory })
  .keep (fetch (TaskSlot.all.map s.address.tss).toArray i)

/-- Copies a local table to its place in the vault. It is put together beside the vault, so that
nothing is written there before all of its entries have been checked. -/
def placeLdt (r : Ring) (selector : Selector) (l : Ldt) (limit : Word) :
    InPlace Vault Refusal Word := do
  let (i, slot) ← .keep (locate LdtSlot.all (·.selector.index = selector.index)
    (.badTaskState .noLdtSlot))
  .keep (total (ensure (slot.owner = r) (.privilegeViolation r slot.owner)))
  let table ← .keep (copyUpTo r l limit)
  .update (putLdt · i table)
  let s ← getThe Vault
  .keep (fetch (LdtSlot.all.map s.address.ldt).toArray i)

def takeTss (gdt : DescriptorTable) (memory : RingMemory) (caller : Ring) (selector : Selector)
    (base : Word) : InPlace Vault Refusal Word := do
  .keep (total (ensure (memory.owns caller base Tss.size) (.outOfReach base)))
  match memory.readTss base with
  | none => throw (.outOfReach base)
  | some tss => placeTss gdt memory caller selector tss

def takeLdt (memory : RingMemory) (caller : Ring) (selector : Selector) (base limit : Word) :
    InPlace Vault Refusal Word := do
  .keep (total (ensure (limit ≤ Ldt.limit) (.outOfReach base)))
  let size ← .keep (add limit 1)
  .keep (total (ensure (memory.owns caller base size.toNat) (.outOfReach base)))
  match memory.readLdt base with
  | none => throw (.outOfReach base)
  | some ldt => placeLdt caller selector ldt limit

/-! ### Requests -/

/-- Takes over an edited global table, if the edit did not fault and succeeded. -/
def settle (t : Tables) (x : Strict TableError DescriptorTable) : Option Served := do
  let result ← x.run
  return t.settle result

/-- Takes state over, and points a slot at the copy. The vault is what was made of it, also if the
state is refused. -/
def adopt (t : Tables) (taken : InPlace Vault Refusal Word)
    (point : Word → Strict TableError DescriptorTable) : Option Served := do
  match ← taken.on t.vault with
  | (.error e, vault) => return (.error e, { t with vault })
  | (.ok copy, vault) => settle { t with vault } (point copy)

def perform (t : Tables) (memory : RingMemory) (caller : Ring) : TableRequest → Option Served
  | .descriptor selector d => settle t (set t.gdt selector.index d)
  | .callGate selector handler params =>
    settle t (patch t.gdt selector "call gate" (· = .callGate) (·.withGateTarget handler params))
  | .tss selector base =>
    let point (copy : Word) :=
      patch t.gdt selector "TSS" (·.isTask) (·.withBaseLimit copy Tss.limit)
    if caller = .core then settle t (point base)
    else adopt t (takeTss t.gdt memory caller selector base) point
  | .ldt selector base limit =>
    let point (copy : Word) := patch t.gdt selector "LDT" (· = .ldt) (·.withBaseLimit copy limit)
    if caller = .core then settle t (point base)
    else adopt t (takeLdt memory caller selector base limit) point

/-- Serves one request of a caller, and is nothing if the machine faults. -/
def serve (t : Tables) (memory : RingMemory) (caller : Ring) (r : Registers) : Option Served :=
  match TableRequest.decode r with
  | .error e => some (.error e, t)
  | .ok q => do
    match ← (permit t.gdt caller q).run with
    | .error e => return (.error e, t)
    | .ok () => perform t memory caller q

end Strict

end FourRings
