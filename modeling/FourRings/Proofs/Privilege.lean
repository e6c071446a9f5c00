import FourRings.Proofs.Confinement
import FourRings.Proofs.Registers
import FourRings.Proofs.Vectors

/-!
# More privilege

Whatever a ring may install, every ring that is at least as privileged may install too, and the
tables are the same afterwards. `more_privilege_suffices` is the main statement, for descriptors,
call gates and interrupt vectors. Task state and local tables are left out: they are handed over by
the ring that owns the slot and by no other.

The core escapes some of the checks and each outer ring is held to a reach of its own, so the checks
are compared one by one: `ValidTarget.mono`, `Descriptor.WithinReach.mono` and, assembled from them,
`MayInstall.mono`.
-/

namespace FourRings

variable {p q : Ring}

/-! ### Checks -/

/-- Only the core is as privileged as the core. -/
theorem Ring.eq_core_of_le (hpq : p ≤ q) (hq : q = .core) : p = .core := by
  subst hq
  revert hpq
  cases p <;> decide

theorem ValidTarget.mono {gdt : DescriptorTable} {s : Selector} (h : ValidTarget gdt q s)
    (hpq : p ≤ q) : ValidTarget gdt p s := by
  obtain ⟨hglobal, d, hd, hpresent, hcode, hle⟩ := h
  exact ⟨hglobal, d, hd, hpresent, hcode, Nat.le_trans hpq hle⟩

/-- What lies within the reach of a ring lies within that of the rings inside it. -/
theorem Descriptor.WithinReach.mono {d : Descriptor} (h : d.WithinReach q) (hpq : p ≤ q) :
    d.WithinReach p :=
  ⟨h.1, Nat.le_trans h.2 (Ring.reach_le_reach hpq)⟩

theorem MayInstall.mono {gdt : DescriptorTable} {current d : Descriptor}
    (h : MayInstall gdt q current d) (hpq : p ≤ q) : MayInstall gdt p current d where
  overwrite hpresent := by
    obtain ⟨hle, hkind⟩ := h.overwrite hpresent
    exact ⟨Nat.le_trans hpq hle, hkind.imp_left (Ring.eq_core_of_le hpq)⟩
  dpl := Nat.le_trans hpq h.dpl
  target hgate := (h.target hgate).mono hpq
  outer := by
    rintro ⟨houter, hpresent⟩
    have hkind := h.outer ⟨Ring.ne_core_of_le houter hpq, hpresent⟩
    exact hkind.imp_right fun ⟨hsegment, hreach⟩ => ⟨hsegment, hreach.mono hpq⟩

theorem InterruptRequest.Allowed.mono {r : InterruptRequest} {capacity : Nat}
    (h : r.Allowed q capacity) (hpq : p ≤ q) : r.Allowed p capacity :=
  ⟨h.vector, Nat.le_trans hpq h.privilege, h.slot⟩

/-! ### The global table -/

/-- Whether a request hands state over. -/
def TableRequest.HandsOver : TableRequest → Prop
  | .tss .. | .ldt .. => True
  | .descriptor .. | .callGate .. => False

/-- Whether registers hold a request to install a descriptor or to bind a call gate. -/
def Registers.Installs (r : Registers) : Prop :=
  r.edx = TableRequest.descriptorOpcode ∨ r.edx = TableRequest.callGateOpcode

instance (r : Registers) : Decidable r.Installs := inferInstanceAs (Decidable (_ ∨ _))

theorem Registers.Installs.not_handsOver {r : Registers} {request : TableRequest}
    (h : r.Installs) (decode : TableRequest.decode r = .ok request) : ¬ request.HandsOver := by
  rw [Registers.Installs, TableRequest.edx_of_decode decode] at h
  intro hands
  cases request with
  | descriptor _ _ => exact hands
  | callGate _ _ _ => exact hands
  | tss _ _ => exact h.elim TableRequest.tssOpcode_ne.1 TableRequest.tssOpcode_ne.2
  | ldt _ _ _ => exact h.elim TableRequest.ldtOpcode_ne.1 TableRequest.ldtOpcode_ne.2.1

namespace Tables

variable {t : Tables} {memory : RingMemory} {r : Registers} {request : TableRequest}
  {current new : Descriptor} {vault : Vault}

/-- An edit that hands nothing over can be made by every ring that is at least as privileged, and
without any memory. -/
theorem Edit.mono (edit : t.Edit memory q request current new vault)
    (hands : ¬ request.HandsOver) (hpq : p ≤ q) (memory' : RingMemory) :
    t.Edit memory' p request current new vault := by
  cases edit with
  | install ok => exact .install (ok.mono hpq)
  | retarget type target => exact .retarget type (target.mono hpq)
  | rebaseTss _ _ => exact absurd trivial hands
  | rebaseLdt _ _ => exact absurd trivial hands
  | adoptTss _ _ _ _ => exact absurd trivial hands
  | adoptLdt _ _ _ _ => exact absurd trivial hands

/-- **A request to install that is accepted from a ring is accepted from the rings inside it**, and
the tables are the same afterwards. -/
theorem serve_of_le (hpq : p ≤ q) (installs : r.Installs)
    (h : (t.serve memory q r).1 = .ok ()) (memory' : RingMemory) :
    t.serve memory' p r = t.serve memory q r := by
  have houtcome := t.serve_outcome memory q r
  generalize t.serve memory q r = served at h houtcome ⊢
  cases houtcome with
  | refused _ => cases h
  | stray _ _ _ _ _ _ => cases h
  | accepted decode null slot edit =>
    exact serve_of_edit decode null slot (edit.mono (installs.not_handsOver decode) hpq memory')

end Tables

/-! ### The interrupt table -/

namespace InterruptTable

/-- A vector that a ring may bind can be bound by the rings inside it, and to the same gate. -/
theorem serve_of_le {t : InterruptTable} {r : Registers} (hpq : p ≤ q)
    (h : (t.serve q r).1 = .ok ()) : t.serve p r = t.serve q r := by
  obtain ⟨request, decode, allowed⟩ := serve_eq_ok_iff.1 h
  rw [serve_of_allowed decode allowed, serve_of_allowed decode (allowed.mono hpq)]

end InterruptTable

/-- **More privilege never gets less.** A request to install a descriptor or to bind a call gate
that is accepted from ring `q` is accepted from every ring `p` that is at least as privileged,
whatever their memory, and leaves the same global table and the same vault; and so it is with
requests to bind an interrupt vector. -/
theorem more_privilege_suffices (hpq : p ≤ q) :
    (∀ (t : Tables) (memory memory' : RingMemory) (r : Registers), r.Installs →
      (t.serve memory q r).1 = .ok () →
      (t.serve memory' p r).1 = .ok () ∧
        (t.serve memory' p r).2.gdt = (t.serve memory q r).2.gdt ∧
        (t.serve memory' p r).2.vault = (t.serve memory q r).2.vault) ∧
    ∀ (t : InterruptTable) (r : Registers), (t.serve q r).1 = .ok () →
      (t.serve p r).1 = .ok () ∧ (t.serve p r).2 = (t.serve q r).2 := by
  constructor
  · intro t memory memory' r installs h
    rw [Tables.serve_of_le hpq installs h memory']
    exact ⟨h, rfl, rfl⟩
  · intro t r h
    rw [InterruptTable.serve_of_le hpq h]
    exact ⟨h, rfl⟩

/-- The registers with which the users install their longest segment, -/
def edgeInstall : Registers :=
  TableRequest.encode (.descriptor (.ofGlobal 40 .users) edgeSegment)

/-- and those with which the shared services bind a vector. -/
def serviceVector : Registers := InterruptRequest.encode ⟨0x30, 0x5C1000, .libs⟩

theorem more_privilege_suffices_edgeInstall :
    let t := Tables.boot 64 ⟨fun _ => 0x600, fun _ => 0x700⟩
    let idt := InterruptTable.empty 64
    Ring.devs ≤ .users ∧ Ring.devs ≤ .libs ∧ edgeInstall.Installs ∧
      (t.serve .regions .users edgeInstall).1 = .ok () ∧
      (t.serve .ownedByNone .devs edgeInstall).1 = .ok () ∧
      (t.serve .ownedByNone .devs edgeInstall).2.gdt = (t.serve .regions .users edgeInstall).2.gdt ∧
      (idt.serve .libs serviceVector).1 = .ok () ∧
      (idt.serve .devs serviceVector).2 = (idt.serve .libs serviceVector).2 := by
  intro t idt
  have husers : Ring.devs ≤ .users := by decide
  have hlibs : Ring.devs ≤ .libs := by decide
  have hinstall : (t.serve .regions .users edgeInstall).1 = .ok () := by decide +kernel
  have hvector : (idt.serve .libs serviceVector).1 = .ok () := by decide +kernel
  have hsame := (more_privilege_suffices husers).1 t .regions .ownedByNone edgeInstall
    (by decide) hinstall
  exact ⟨husers, hlibs, by decide, hinstall, hsame.1, hsame.2.1, hvector,
    ((more_privilege_suffices hlibs).2 idt serviceVector hvector).2⟩

end FourRings
