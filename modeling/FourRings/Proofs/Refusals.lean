import FourRings.Proofs.Shelter

/-!
# Refused requests

A refused request leaves the global table, and as a rule the vault too. The exception is a refusal
that comes late: the state that an outer ring hands over is checked and deposited, and only then
does the patch of its slot meet a descriptor of another type, which the core has put there.
`refused_requests` is the main statement: this is the only exception, and nothing but the copy for
that slot differs then. The slots that the outer rings find at boot keep their types as long as the
core leaves them (`Sheltered`). In those states no refusal comes late: `refused_after_outer_run`.
-/

namespace FourRings

namespace Tables

variable {t : Tables} {memory : RingMemory} {caller : Ring} {r : Registers} {q : TableRequest}
  {current : Descriptor} {address : Word} {vault : Vault} {e : Refusal}

/-! ### Late refusals -/

theorem Deposit.vault_directory (h : Deposit t memory caller q address vault) :
    vault.directory = t.vault.directory := by
  cases h <;> rfl

/-- A refusal `e` of the request `q` that comes after the deposit for the slot `k` and leaves the
vault `vault`. -/
structure LateRefusal (t : Tables) (memory : RingMemory) (caller : Ring) (q : TableRequest)
    (k : StateSlot) (e : Refusal) (vault : Vault) : Prop where
  /-- The slot is one of the outer ring that asks. -/
  outer : caller ≠ .core
  owner : k.owner = caller
  index : k.index = q.selector.index
  /-- It holds a descriptor of another type, and this is what the ring is told. -/
  mismatch : ∃ current expected, t.gdt.slots[k.index]? = some current ∧ ¬ q.Suits current ∧
    e = .table (.typeMismatch k.index expected current.access)
  /-- The state passed all its checks and was copied, -/
  deposit : Deposit t memory caller q (k.address t.vault.address) vault
  /-- and the rest of the vault is what it was. -/
  directory : vault.directory = t.vault.directory
  addresses : vault.address = t.vault.address
  others : ∀ k', k' ≠ k → k'.copy vault = k'.copy t.vault

/-- A deposit whose slot turns out not to suit it makes for a late refusal. -/
theorem Deposit.lateRefusal (h : Deposit t memory caller q address vault) (outer : caller ≠ .core)
    (slot : t.gdt.slots[q.selector.index]? = some current) (misfit : ¬ q.Suits current)
    (expected : String) :
    ∃ k, LateRefusal t memory caller q k
      (.table (.typeMismatch q.selector.index expected current.access)) vault := by
  obtain ⟨k, index, owner, rfl, others⟩ := h.stateSlot
  rw [← index] at slot ⊢
  have mismatch : ∃ d text, t.gdt.slots[k.index]? = some d ∧ ¬ q.Suits d ∧
      Refusal.table (.typeMismatch k.index expected current.access) =
        .table (.typeMismatch k.index text d.access) :=
    ⟨current, expected, slot, misfit, rfl⟩
  exact ⟨k, outer, owner, index, mismatch, h, h.vault_directory, h.vault_address, others⟩

/-- A refused request leaves the tables, or it is refused late. -/
theorem serve_of_error (h : (t.serve memory caller r).1 = .error e) :
    (t.serve memory caller r).2 = t ∨
      ∃ q k vault, TableRequest.decode r = .ok q ∧ LateRefusal t memory caller q k e vault ∧
        (t.serve memory caller r).2 = { t with vault } := by
  have houtcome := serve_outcome t memory caller r
  generalize t.serve memory caller r = served at h houtcome ⊢
  cases houtcome with
  | refused _ => exact Or.inl rfl
  | @stray q _ _ vault expected decode slot outer deposit misfit =>
    obtain rfl := Except.error.inj h
    obtain ⟨k, late⟩ := deposit.lateRefusal outer slot misfit expected
    exact Or.inr ⟨q, k, vault, decode, late, rfl⟩
  | accepted _ _ _ _ => cases h

/-- **Refused requests leave the tables**, unless the refusal comes late, and then all but the copy
for the caller's slot. -/
theorem refused_requests (h : (t.serve memory caller r).1 = .error e) :
    (t.serve memory caller r).2.gdt = t.gdt ∧
      ((t.serve memory caller r).2.vault = t.vault ∨
        ∃ q k, TableRequest.decode r = .ok q ∧
          LateRefusal t memory caller q k e (t.serve memory caller r).2.vault) := by
  rcases serve_of_error h with heq | ⟨q, k, vault, decode, late, heq⟩
  · rw [heq]
    exact ⟨rfl, Or.inl rfl⟩
  · rw [heq]
    exact ⟨rfl, Or.inr ⟨q, k, decode, late⟩⟩

/-- The tables after the core has put a segment into the slot for the drivers' local table. -/
def reused : Tables :=
  (boot 64 ⟨fun _ => 0x600, fun _ => 0x700⟩).after (.request .ownedByNone .core
    (TableRequest.encode (.descriptor Ring.devs.ldtSelector (BootMap.flat .devs .dataKind .devs))))

/-- Memory in which the drivers have their local table ready, -/
def driverMemory : RingMemory := RingMemory.ownedByAll.withLdt 0x5D0000 (.ofRing .devs 0x5DF)

/-- and the registers with which they hand it over. -/
def handover : Registers :=
  TableRequest.encode (.ldt Ring.devs.ldtSelector 0x5D0000 Ldt.limit)

/-- What the drivers are told: the slot holds a data segment. -/
def mismatch : Refusal :=
  .table (.typeMismatch 12 "LDT" (BootMap.flat .devs .dataKind .devs).access)

theorem refused_requests_handover :
    (reused.serve driverMemory .devs handover).1 = .error mismatch ∧
      (reused.serve driverMemory .devs handover).2.gdt = reused.gdt ∧
      ((reused.serve driverMemory .devs handover).2.vault = reused.vault ∨
        ∃ q k, TableRequest.decode handover = .ok q ∧
          LateRefusal reused driverMemory .devs q k mismatch
            (reused.serve driverMemory .devs handover).2.vault) := by
  have h : (reused.serve driverMemory .devs handover).1 = .error mismatch := by decide +kernel
  exact ⟨h, refused_requests h⟩

/-- The drivers are refused, and their table is in the vault nevertheless. -/
theorem refused_after_deposit :
    (reused.serve driverMemory .devs handover).1 = .error mismatch ∧
      (reused.serve driverMemory .devs handover).2.vault.ldt .devs = .ofRing .devs 0x5DF ∧
      reused.vault.ldt .devs ≠ .ofRing .devs 0x5DF := by
  decide +kernel

end Tables

/-! ### In shelter -/

namespace Sheltered

variable {capacity : Nat} {t : Tables} {memory : RingMemory} {caller : Ring} {r : Registers}
  {q : TableRequest} {vault : Vault} {e : Refusal}

/-- No refusal comes late. -/
theorem not_lateRefusal (hcap : 38 ≤ capacity)
    (h : Sheltered (DescriptorTable.boot capacity) t.gdt t.vault.address) {k : StateSlot} :
    ¬ t.LateRefusal memory caller q k e vault := by
  intro late
  obtain ⟨current, _, slot, misfit, -⟩ := late.mismatch
  rw [late.index] at slot
  exact misfit (suits_of_deposit hcap h slot late.deposit)

/-- **In shelter a refused request leaves all of the tables.** -/
theorem refused_in_shelter (hcap : 38 ≤ capacity)
    (h : Sheltered (DescriptorTable.boot capacity) t.gdt t.vault.address)
    (hr : (t.serve memory caller r).1 = .error e) : (t.serve memory caller r).2 = t := by
  rcases Tables.serve_of_error hr with heq | ⟨q, k, vault, -, late, -⟩
  · exact heq
  · exact absurd late (not_lateRefusal hcap h)

end Sheltered

/-- **Outer rings are refused without a trace**, as long as nobody else writes the tables. -/
theorem refused_after_outer_run {capacity : Nat} (hcap : 38 ≤ capacity) (a : VaultAddresses)
    {events : List Event} (he : ∀ e ∈ events, e.OfOuterRing) {memory : RingMemory} {caller : Ring}
    {r : Registers} {e : Refusal}
    (h : (((Tables.boot capacity a).run events).serve memory caller r).1 = .error e) :
    (((Tables.boot capacity a).run events).serve memory caller r).2 =
      (Tables.boot capacity a).run events := by
  let P (t : Tables) := Sheltered (DescriptorTable.boot capacity) t.gdt t.vault.address
  have hstep : ∀ t e, P t → e.OfOuterRing → P (t.after e) := by
    intro t e ht he
    change Sheltered _ _ (t.after e).vault.address
    rw [Tables.vault_address_after he]
    exact ht.after hcap he
  have hrun : P ((Tables.boot capacity a).run events) :=
    Tables.run_induction hstep (Sheltered.boot hcap a) he
  exact hrun.refused_in_shelter hcap h

end FourRings
