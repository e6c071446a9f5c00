import FourRings.Core.Install
import FourRings.Proofs.Registers
import FourRings.Proofs.Run

/-!
# Services and registers

Code in the core's address space asks the core to install things and hands structures over with its
calls. A ring behind a call gate has registers only: it leaves a structure in its memory, and the
address travels. `services_agree_with_registers` is the main statement: both ways end in the same
state of the core and report the same, in any sequence of calls.

The core looks at the memory of a caller in two ways: it asks who owns a block, and it reads the
structure at the address that came out of the registers. A request is therefore served alike from
two memories that agree in these (`Tables.serve_congr`), whether it is accepted or refused.
-/

namespace FourRings

variable {m m' : RingMemory}

/-! ### What is looked at -/

/-- Whether a request finds the same in two memories, at the address that it names. -/
def TableRequest.FindsSame (m m' : RingMemory) : TableRequest → Prop
  | .tss _ base => m.readTss base = m'.readTss base
  | .ldt _ base _ => m.readLdt base = m'.readLdt base
  | .descriptor .. | .callGate .. => True

namespace Vault

theorem checkInnerStack_congr (howns : m.owns = m'.owns) (r k : Ring) (p : StackPointer) :
    checkInnerStack m r k p = checkInnerStack m' r k p := by
  rw [checkInnerStack, checkInnerStack, howns]

theorem checkTask_congr (howns : m.owns = m'.owns) (s : Vault) (gdt : DescriptorTable) (r : Ring)
    (t : Tss) : s.checkTask gdt m r t = s.checkTask gdt m' r t := by
  have hstacks : (fun k => checkInnerStack m r k (t.innerStack k)) =
      fun k => checkInnerStack m' r k (t.innerStack k) :=
    funext fun k => checkInnerStack_congr howns r k _
  rw [checkTask, checkTask, hstacks]

theorem depositTss_congr (howns : m.owns = m'.owns) (s : Vault) (gdt : DescriptorTable) (r : Ring)
    (selector : Selector) (t : Tss) :
    s.depositTss gdt m r selector t = s.depositTss gdt m' r selector t := by
  simp only [depositTss, checkTask_congr howns]

end Vault

namespace Tables

theorem takeTss_congr (howns : m.owns = m'.owns) {base : Word}
    (hread : m.readTss base = m'.readTss base) (t : Tables) (caller : Ring) (selector : Selector) :
    t.takeTss m caller selector base = t.takeTss m' caller selector base := by
  simp only [takeTss, howns, hread, Vault.depositTss_congr howns]

theorem takeLdt_congr (howns : m.owns = m'.owns) {base : Word}
    (hread : m.readLdt base = m'.readLdt base) (t : Tables) (caller : Ring) (selector : Selector)
    (limit : Word) :
    t.takeLdt m caller selector base limit = t.takeLdt m' caller selector base limit := by
  simp only [takeLdt, howns, hread]

theorem perform_congr (howns : m.owns = m'.owns) {q : TableRequest} (h : q.FindsSame m m')
    (t : Tables) (caller : Ring) : t.perform m caller q = t.perform m' caller q := by
  cases q with
  | descriptor _ _ => rfl
  | callGate _ _ _ => rfl
  | tss selector base => rw [perform, perform, takeTss_congr howns h]
  | ldt selector base limit => rw [perform, perform, takeLdt_congr howns h]

/-- **Memory counts at the address of the request only**, and for the policy of ownership. -/
theorem serve_congr (howns : m.owns = m'.owns) {r : Registers}
    (h : ∀ q, TableRequest.decode r = .ok q → q.FindsSame m m') (t : Tables) (caller : Ring) :
    t.serve m caller r = t.serve m' caller r := by
  rw [serve, serve]
  cases hdecode : TableRequest.decode r with
  | error e => rfl
  | ok q =>
    dsimp only
    rw [perform_congr howns (h q hdecode)]

end Tables

/-! ### Calls of the gates -/

/-- A call of one of the gates through which rings install things. -/
inductive ServiceCall where
  | editTable (r : Registers)
  | bindVector (r : Registers)
deriving DecidableEq, Repr

/-- Whether a call finds the same in two memories. -/
def ServiceCall.FindsSame (m m' : RingMemory) : ServiceCall → Prop
  | .editTable r => ∀ q, TableRequest.decode r = .ok q → q.FindsSame m m'
  | .bindVector _ => True

namespace Install

/-- The call with which a ring behind the gates installs the same. Of a structure, only the address
is in the registers. -/
def call : Install → ServiceCall
  | .descriptor selector d => .editTable (TableRequest.encode (.descriptor selector d))
  | .callGate selector handler params =>
    .editTable (TableRequest.encode (.callGate selector handler params))
  | .tss selector base _ => .editTable (TableRequest.encode (.tss selector base))
  | .ldt selector base _ => .editTable (TableRequest.encode (.ldt selector base Ldt.limit))
  | .interrupt vector handler dpl =>
    .bindVector (InterruptRequest.encode ⟨vector.setWidth 32, handler, dpl⟩)

/-- Whether the structure that is handed over, if there is one, lies in memory at its address. -/
def FoundIn (m : RingMemory) : Install → Prop
  | .tss _ base state => m.readTss base = some state
  | .ldt _ base table => m.readLdt base = some table
  | .descriptor .. | .callGate .. | .interrupt .. => True

variable {i : Install}

theorem owns_handover (i : Install) (m : RingMemory) : (i.handover m).owns = m.owns := by
  cases i <;> rfl

theorem foundIn_handover (i : Install) (m : RingMemory) : i.FoundIn (i.handover m) := by
  cases i with
  | descriptor _ _ => trivial
  | callGate _ _ _ => trivial
  | tss _ base state => exact if_pos rfl
  | ldt _ base table => exact if_pos rfl
  | interrupt _ _ _ => trivial

/-- The address comes out of the registers as it went in, so the structure is found there. -/
theorem findsSame_call (h : i.FoundIn m) (h' : i.FoundIn m') : i.call.FindsSame m m' := by
  cases i with
  | interrupt _ _ _ => trivial
  | descriptor selector d =>
    intro q hq
    rw [TableRequest.decode_encode (q := .descriptor selector d) trivial] at hq
    cases hq
    trivial
  | callGate selector handler params =>
    intro q hq
    by_cases hcount : params ≤ 31
    · rw [TableRequest.decode_encode (q := .callGate selector handler params) hcount] at hq
      cases hq
      trivial
    · rw [TableRequest.decode_encode_callGate (BitVec.not_le.1 hcount)] at hq
      cases hq
  | tss selector base state =>
    intro q hq
    rw [TableRequest.decode_encode (q := .tss selector base) trivial] at hq
    cases hq
    exact Eq.trans h h'.symm
  | ldt selector base table =>
    intro q hq
    rw [TableRequest.decode_encode (q := .ldt selector base Ldt.limit) trivial] at hq
    cases hq
    exact Eq.trans h h'.symm

end Install

namespace Core

/-- The core's answer to a call of a gate: the status in the caller's registers, and the core. -/
def call (c : Core) (caller : Caller) : ServiceCall → Word × Core
  | .editTable r => c.editTable caller r
  | .bindVector r => c.bindVector caller r

theorem call_congr (howns : m.owns = m'.owns) {call : ServiceCall} (h : call.FindsSame m m')
    (c : Core) (ring : Ring) : c.call ⟨ring, m⟩ call = c.call ⟨ring, m'⟩ call := by
  cases call with
  | editTable r => rw [Core.call, Core.call, editTable, editTable, Tables.serve_congr howns h]
  | bindVector r => rfl

/-- A service packs the request into registers and looks at the status that comes back. -/
theorem install_eq_call (c : Core) (caller : Caller) (i : Install) :
    c.install caller i =
      accepted (c.call { caller with memory := i.handover caller.memory } i.call) := by
  cases i <;> rfl

/-- **A service does what the gate does** for a ring that has left the structure in its memory. -/
theorem install_eq_of_foundIn {caller : Caller} {i : Install} (howns : m.owns = caller.memory.owns)
    (hfound : i.FoundIn m) (c : Core) :
    c.install caller i = accepted (c.call ⟨caller.ring, m⟩ i.call) := by
  rw [install_eq_call, call_congr ((i.owns_handover caller.memory).trans howns.symm)
    (Install.findsSame_call (i.foundIn_handover caller.memory) hfound)]

/-! ### Sequences of calls -/

/-- Installs one thing after another, whatever is refused, and keeps what each service reports. -/
def installEach (c : Core) (caller : Caller) : List Install → List (Except Word Unit) × Core
  | [] => ([], c)
  | i :: rest =>
    let (report, c) := c.install caller i
    let (reports, c) := c.installEach caller rest
    (report :: reports, c)

/-- Makes one call after another, each with the memory as it is at the time, and keeps the status
words. -/
def callEach (c : Core) (ring : Ring) : List (ServiceCall × RingMemory) → List Word × Core
  | [] => ([], c)
  | (call, memory) :: rest =>
    let (status, c) := c.call ⟨ring, memory⟩ call
    let (statuses, c) := c.callEach ring rest
    (status :: statuses, c)

end Core

/-- **Services and registers agree.** Let the services install a sequence of things for a caller,
and let a ring make the same calls through the gates, from memory under the same policy of ownership
in which the structure of each call lies at its address when the call is made. Then both leave the
same core, with the same tables, vault and log, and each service reports success if the status word
of its call is 0 and reports that word otherwise. What else lies in memory does not matter. -/
theorem services_agree_with_registers (c : Core) (caller : Caller)
    (l : List (Install × RingMemory))
    (h : ∀ x ∈ l, x.2.owns = caller.memory.owns ∧ x.1.FoundIn x.2) :
    let answers := c.callEach caller.ring (l.map fun x => (x.1.call, x.2))
    c.installEach caller (l.map (·.1)) =
      (answers.1.map fun status => ensure (status = 0) status, answers.2) := by
  induction l generalizing c with
  | nil => rfl
  | cons x l ih =>
    obtain ⟨⟨howns, hfound⟩, hrest⟩ := List.forall_mem_cons.1 h
    rw [List.map_cons, List.map_cons, Core.installEach, Core.callEach,
      Core.install_eq_of_foundIn howns hfound]
    dsimp only [Core.accepted]
    rw [ih _ hrest]
    rfl

/-- The core before a ring has asked for anything, -/
def newCore : Core where
  tables := .boot 64 ⟨fun _ => 0x600, fun _ => 0x700⟩
  idt := .empty 64
  console := { cells := #[] }

/-- and what the shared services ask for: their local table at the start of their region, a task
that is not ready, and a vector. -/
def serviceInstalls : List Install :=
  [.ldt Ring.libs.ldtSelector 0x7BF000 (.ofRing .libs 0x7CE),
    .tss SelectorMap.libsIrqTask 0x7BF100 {},
    .interrupt 0x30 0x7C0000 .libs]

/-- Memory in which there is a local table and task state at every address. -/
def crowdedMemory : RingMemory :=
  { RingMemory.regions with
    readTss := fun _ => some {}
    readLdt := fun _ => some (.ofRing .libs 0x7CE) }

theorem services_agree_with_registers_serviceInstalls :
    let l := serviceInstalls.map fun i => (i, crowdedMemory)
    let answers := newCore.callEach .libs (l.map fun x => (x.1.call, x.2))
    (∀ x ∈ l, x.2.owns = RingMemory.regions.owns ∧ x.1.FoundIn x.2) ∧
      newCore.installEach ⟨.libs, .regions⟩ serviceInstalls =
        (answers.1.map fun status => ensure (status = 0) status, answers.2) ∧
      answers.1 = [0, 11, 0] := by
  intro l answers
  have hfound : ∀ x ∈ l, x.2.owns = RingMemory.regions.owns ∧ x.1.FoundIn x.2 := by
    intro x hx
    obtain ⟨i, hi, rfl⟩ := List.mem_map.1 hx
    simp only [serviceInstalls, List.mem_cons, List.not_mem_nil, or_false] at hi
    obtain rfl | rfl | rfl := hi
    · exact ⟨rfl, rfl⟩
    · exact ⟨rfl, rfl⟩
    · exact ⟨rfl, trivial⟩
  exact ⟨hfound, services_agree_with_registers newCore ⟨.libs, .regions⟩ l hfound,
    by decide +kernel⟩

end FourRings
