import FourRings.Core.Install
import FourRings.Proofs.Registers
import FourRings.Proofs.Served
import FourRings.Proofs.Vectors

/-!
# Accepted installs

What is installed travels through registers and comes back as a status word. `request_of_edit` and
`install_interrupt_eq` say what an accepted install leaves behind: the edited tables, and nothing in
the log.
-/

namespace FourRings

/-! ### Services -/

namespace Core

variable {c : Core} {caller : Caller}

/-- A service that accepts a request logs nothing. -/
theorem conclude_ok (c : Core) (service : String) : c.conclude service (.ok ()) = (0, c) := by
  rw [conclude, serviceLog, List.append_nil]
  rfl

theorem accepted_zero (c : Core) : accepted (0, c) = (.ok (), c) := rfl

/-- **Every edit that the caller may make is made on request.** -/
theorem request_of_edit {q : TableRequest} {current new : Descriptor} {vault : Vault}
    (count : q.CountInRange) (null : q.selector.index ≠ 0)
    (slot : c.tables.gdt.slots[q.selector.index]? = some current)
    (edit : c.tables.Edit caller.memory caller.ring q current new vault) :
    c.request caller q =
      (.ok (), { c with tables := ⟨c.tables.gdt.put q.selector.index new, vault⟩ }) := by
  rw [request, editTable,
    Tables.serve_of_edit (TableRequest.decode_encode count) null slot edit]
  dsimp only
  rw [conclude_ok, accepted_zero]

/-- **Vectors past the exceptions are bound on request**, by rings as privileged as the gate. -/
theorem install_interrupt_eq {vector : Byte} {handler : Word} {dpl : Ring}
    (hvector : exceptionCount ≤ vector.toNat) (hcap : vector.toNat < c.idt.capacity)
    (hdpl : caller.ring ≤ dpl) :
    c.install caller (.interrupt vector handler dpl) =
      (.ok (), { c with
        idt := ⟨c.idt.table.put vector.toNat (interruptGate handler dpl)⟩ }) := by
  have htoNat : (vector.setWidth 32).toNat = vector.toNat := by
    rw [BitVec.toNat_setWidth]
    omega
  have hserve : c.idt.serve caller.ring
      (InterruptRequest.encode ⟨vector.setWidth 32, handler, dpl⟩) =
      (.ok (), ⟨c.idt.table.put vector.toNat (interruptGate handler dpl)⟩) := by
    rw [← htoNat] at hvector hcap ⊢
    exact InterruptTable.serve_of_allowed (InterruptRequest.decode_encode _) ⟨hvector, hdpl, hcap⟩
  rw [install]
  dsimp only [Install.handover]
  rw [bindVector, hserve]
  dsimp only
  rw [conclude_ok, accepted_zero]

/-- One install after another. -/
theorem installAll_cons {c' : Core} {i : Install} {rest : List Install}
    (h : c.install caller i = (.ok (), c')) :
    c.installAll caller (i :: rest) = c'.installAll caller rest := by
  rw [installAll, h]

end Core

end FourRings
