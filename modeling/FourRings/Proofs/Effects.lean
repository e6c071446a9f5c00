import FourRings.Proofs.Faults
import FourRings.Proofs.Refusals
import FourRings.Proofs.Registers

/-!
# The effect of one request

The registers say what a request can change: the slot of the global table that they name, and the
copy that the vault keeps for this slot. `request_effect` is the main statement. It is about all
tables, of any size, and about any memory, caller and registers.
-/

namespace FourRings

open DescriptorTable

/-! ### The slot in the registers -/

namespace Registers

/-- The register with the selector of a request on the global table. -/
def selectorWord (r : Registers) : Word :=
  if r.edx = TableRequest.tssOpcode then r.ebx else r.ecx

/-- The slot of the global table that a request names. -/
def slot (r : Registers) : Nat := ((r.selectorWord &&& 0xFFFF) >>> 3).toNat

end Registers

theorem Selector.toNat_toWord_shiftRight (s : Selector) : (s.toWord >>> 3).toNat = s.index := by
  have hlt := s.bits.isLt
  rw [BitVec.toNat_ushiftRight, toWord, BitVec.toNat_setWidth, index, BitVec.extractLsb'_toNat,
    Nat.shiftRight_eq_div_pow, Nat.shiftRight_eq_div_pow]
  omega

namespace TableRequest

variable {r : Registers} {q : TableRequest}

theorem toWord_selector_of_decode (h : decode r = .ok q) :
    q.selector.toWord = r.selectorWord &&& 0xFFFF := by
  have hopcode := edx_of_decode h
  have hencode := encode_of_decode h
  rw [Registers.significant, hopcode] at hencode
  rw [Registers.selectorWord, hopcode]
  cases q with
  | descriptor _ _ => exact congrArg Registers.ecx hencode
  | callGate _ _ _ => exact congrArg Registers.ecx hencode
  | tss _ _ => exact congrArg Registers.ebx hencode
  | ldt _ _ _ => exact congrArg Registers.ecx hencode

theorem index_of_decode (h : decode r = .ok q) : q.selector.index = r.slot := by
  rw [Registers.slot, ← toWord_selector_of_decode h, Selector.toNat_toWord_shiftRight]

end TableRequest

/-! ### The slot -/

/-- The opcode of the requests that hand state over for the slot. -/
def StateSlot.opcode : StateSlot → Word
  | .task _ => TableRequest.tssOpcode
  | .ldt _ => TableRequest.ldtOpcode

/-- What an accepted request makes of the global table: it overwrites the slot in the registers, and
keeps its access byte unless it installs a descriptor. -/
structure Registers.Overwrites (r : Registers) (gdt gdt' : DescriptorTable) : Prop where
  null : 1 ≤ r.slot
  range : r.slot < gdt.capacity
  others : ∀ i, i ≠ r.slot → gdt'.slots[i]? = gdt.slots[i]?
  access : r.edx ≠ TableRequest.descriptorOpcode → ∃ d d', gdt.slots[r.slot]? = some d ∧
    gdt'.slots[r.slot]? = some d' ∧ d'.access = d.access

/-- What a request of an outer ring that hands state over makes of the vault: it replaces the copy
for the slot `k`, and nothing else. -/
structure Registers.Replaces (r : Registers) (caller : Ring) (k : StateSlot)
    (vault vault' : Vault) : Prop where
  outer : caller ≠ .core
  owner : k.owner = caller
  slot : k.index = r.slot
  opcode : r.edx = k.opcode
  directory : vault'.directory = vault.directory
  addresses : vault'.address = vault.address
  others : ∀ k', k' ≠ k → k'.copy vault' = k'.copy vault

namespace Tables

variable {t : Tables} {memory : RingMemory} {caller : Ring} {r : Registers} {q : TableRequest}
  {current new : Descriptor} {address : Word} {vault : Vault}

/-- Task state is deposited for the slots of tasks, and local tables for those of local tables. -/
theorem Deposit.edx_encode (h : Deposit t memory caller q address vault) {k : StateSlot}
    (hk : k.index = q.selector.index) : q.encode.edx = k.opcode := by
  cases h with
  | tss slot_eq =>
    obtain rfl := StateSlot.eq_of_index (hk.trans (StateSlot.index_of_taskSlot slot_eq).symm)
    rfl
  | ldt slot_eq =>
    obtain rfl := StateSlot.eq_of_index (hk.trans (StateSlot.index_of_ldtSlot slot_eq).symm)
    rfl

theorem Deposit.replaces (h : Deposit t memory caller q address vault) (outer : caller ≠ .core)
    (decode : TableRequest.decode r = .ok q) : ∃ k, r.Replaces caller k t.vault vault := by
  obtain ⟨k, index, owner, -, others⟩ := h.stateSlot
  exact ⟨k, outer, owner, index.trans (TableRequest.index_of_decode decode),
    (TableRequest.edx_of_decode decode).trans (h.edx_encode index), h.vault_directory,
    h.vault_address, others⟩

/-- The access byte is written by an installation only. -/
theorem Edit.access_eq (edit : Edit t memory caller q current new vault)
    (h : q.encode.edx ≠ TableRequest.descriptorOpcode) : new.access = current.access := by
  cases edit with
  | install _ => exact absurd rfl h
  | retarget _ _ => exact Descriptor.access_withGateTarget ..
  | rebaseTss _ _ => exact Descriptor.access_withBaseLimit ..
  | rebaseLdt _ _ => exact Descriptor.access_withBaseLimit ..
  | adoptTss _ _ _ _ => exact Descriptor.access_withBaseLimit ..
  | adoptLdt _ _ _ _ => exact Descriptor.access_withBaseLimit ..

theorem Edit.overwrites_slot (edit : Edit t memory caller q current new vault)
    (decode : TableRequest.decode r = .ok q) (null : q.selector.index ≠ 0)
    (slot : t.gdt.slots[q.selector.index]? = some current) :
    r.Overwrites t.gdt (t.gdt.put q.selector.index new) := by
  have hlt := lt_capacity_of_slots slot
  rw [TableRequest.index_of_decode decode] at null slot hlt ⊢
  refine ⟨Nat.pos_of_ne_zero null, hlt, fun i hi => slots_put_of_ne hi, fun hopcode => ?_⟩
  rw [TableRequest.edx_of_decode decode] at hopcode
  exact ⟨current, new, slot, slots_put_self hlt, edit.access_eq hopcode⟩

/-- **The effect of one request.** Serving it neither indexes past the end of an array nor overflows
or underflows a sum or a difference. A refused request leaves the global table. An accepted one
writes no slot but the one in its registers, which is in range and not the first, and keeps its
access byte unless it installs a descriptor. The vault keeps its directory, and all that can change
in it is the copy for that slot, by a request of the outer ring that owns it. -/
theorem request_effect (t : Tables) (memory : RingMemory) (caller : Ring) (r : Registers) :
    let served := t.serve memory caller r
    Strict.serve t memory caller r = some served ∧
      served.2.gdt.capacity = t.gdt.capacity ∧
      (∀ e, served.1 = .error e → served.2.gdt = t.gdt) ∧
      (served.1 = .ok () → r.Overwrites t.gdt served.2.gdt) ∧
      served.2.vault.directory = t.vault.directory ∧
      (caller = .core → served.2.vault = t.vault) ∧
      (served.2.vault = t.vault ∨ ∃ k, r.Replaces caller k t.vault served.2.vault) := by
  intro served
  refine ⟨strict_serve t memory caller r, ?_⟩
  have houtcome : Outcome t memory caller r served := serve_outcome t memory caller r
  generalize served = s at houtcome
  -- a stray deposit changes the vault although the request is refused
  cases houtcome with
  | refused e => exact ⟨rfl, fun _ _ => rfl, nofun, rfl, fun _ => rfl, Or.inl rfl⟩
  | stray _ decode slot outer deposit _ =>
    exact ⟨rfl, fun _ _ => rfl, nofun, deposit.vault_directory, fun core => absurd core outer,
      Or.inr (deposit.replaces outer decode)⟩
  | accepted decode null slot edit =>
    refine ⟨capacity_put, nofun, fun _ => edit.overwrites_slot decode null slot, ?_⟩
    rcases edit.vault_cases with rfl | ⟨outer, address, deposit⟩
    · exact ⟨rfl, fun _ => rfl, Or.inl rfl⟩
    · exact ⟨deposit.vault_directory, fun core => absurd core outer,
        Or.inr (deposit.replaces outer decode)⟩

end Tables

end FourRings
