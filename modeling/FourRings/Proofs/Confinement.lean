import FourRings.Proofs.Run

/-!
# Confined segments

What outer rings put into the tables as code or data stays below their reach.
`segments_confined` is the main statement: whatever the rings from `r` outwards request, each
present segment of the global table is as the boot map has it or `Confined` to what `r` reaches, and
so is every entry of the local tables in the vault. A confined segment covers no byte of the core.

Segments are checked when they are installed and local tables when they are handed over; patches
only ever touch system descriptors, so none of them brings a segment about.
-/

namespace FourRings

open MemoryMap

/-! ### Reach -/

theorem Ring.reach_le_reach {r q : Ring} (h : r ≤ q) : q.reach ≤ r.reach := by
  revert h
  cases r <;> cases q <;> decide

theorem Ring.ne_core_of_le {r q : Ring} (hr : r ≠ .core) (h : r ≤ q) : q ≠ .core := by
  rintro rfl
  revert hr h
  cases r <;> decide

theorem Ring.reach_lt_addressSpace (r : Ring) : r.reach < addressSpace := by
  cases r <;> decide

/-- What an outer ring reaches ends where the region of the core begins or below. -/
theorem Ring.reach_le_core {r : Ring} (h : r ≠ .core) : r.reach ≤ Ring.core.region.start := by
  cases r <;> first | decide | exact absurd rfl h

/-- The memory of the core: its region, and the interrupt table and the global table above it. -/
def MemoryMap.coreMemory : List AddressRange :=
  [Ring.core.region, ⟨idtStart, idtStart + idtSize⟩, ⟨gdtStart, gdtStart + gdtSize⟩]

theorem MemoryMap.core_le_of_mem {x : AddressRange} (hx : x ∈ coreMemory) {a : Nat} (ha : a ∈ x) :
    Ring.core.region.start ≤ a := by
  have hstart : ∀ x ∈ coreMemory, Ring.core.region.start ≤ x.start := by decide
  exact Nat.le_trans (hstart x hx) (AddressRange.mem_iff.1 ha).1

namespace Descriptor

/-- Whether `a` is the address of an offset up to the limit, computed in words. -/
def Covers (d : Descriptor) (a : Nat) : Prop := ∃ o ≤ d.byteLimit, a = (d.base + o).toNat

/-- The addresses of a segment within reach are computed without wrap-around. -/
theorem WithinReach.address {d : Descriptor} {r : Ring} (h : d.WithinReach r) {o : Word}
    (ho : o ≤ d.byteLimit) :
    (d.base + o).toNat = d.base.toNat + o.toNat ∧ (d.base + o).toNat < r.reach := by
  have hstop : d.base.toNat + d.byteLimit.toNat + 1 ≤ r.reach := h.2
  have hle : o.toNat ≤ d.byteLimit.toNat := BitVec.le_def.1 ho
  have hspace : r.reach < 2 ^ 32 := r.reach_lt_addressSpace
  have hsum : (d.base + o).toNat = d.base.toNat + o.toNat :=
    BitVec.toNat_add_of_lt (by omega)
  exact ⟨hsum, by omega⟩

end Descriptor

/-! ### Confined segments -/

/-- A segment of the rings from `r` outwards that stays below the reach of `r` and outside the
memory of the core. -/
structure Confined (r : Ring) (d : Descriptor) : Prop where
  dpl : r ≤ d.dpl
  up : d.isExpandDown = false
  address (o : Word) : o ≤ d.byteLimit →
    (d.base + o).toNat = d.base.toNat + o.toNat ∧ (d.base + o).toNat < r.reach
  core : ∀ x ∈ coreMemory, ∀ a ∈ x, ¬ d.Covers a

/-- What passed the checks for a ring from `r` outwards is confined. -/
theorem Confined.of_withinReach {r q : Ring} {d : Descriptor} (hr : r ≠ .core) (hq : r ≤ q)
    (hdpl : q ≤ d.dpl) (h : d.WithinReach q) : Confined r d where
  dpl := Nat.le_trans hq hdpl
  up := h.1
  address o ho := by
    obtain ⟨hsum, hlt⟩ := h.address ho
    exact ⟨hsum, Nat.lt_of_lt_of_le hlt (Ring.reach_le_reach hq)⟩
  core x hx a ha := by
    rintro ⟨o, ho, rfl⟩
    have hlt := (h.address ho).2
    have hreach := Ring.reach_le_reach hq
    have hcore := Ring.reach_le_core hr
    have hle := core_le_of_mem hx ha
    omega

theorem Vault.EntryOk.confined {r q : Ring} {d : Descriptor} (hr : r ≠ .core) (hq : r ≤ q)
    (h : EntryOk q d) (hnull : d.isNull = false) : Confined r d := by
  rcases h with hd | ⟨-, -, hdpl, hreach⟩
  · simp [hd] at hnull
  · exact Confined.of_withinReach hr hq (Nat.le_of_eq (congrArg Ring.level hdpl.symm)) hreach

/-- Requests of the rings from `r` outwards, and changes of the directory between them. -/
def Event.From (r : Ring) : Event → Prop
  | .request _ caller _ => r ≤ caller
  | .setDirectory _ => True
  | .setGdt _ | .setVault _ => False

instance (r : Ring) (e : Event) : Decidable (e.From r) :=
  match e with
  | .request _ caller _ => inferInstanceAs (Decidable (r ≤ caller))
  | .setDirectory _ => inferInstanceAs (Decidable True)
  | .setGdt _ | .setVault _ => inferInstanceAs (Decidable False)

/-- The segments of the tables are those of `boot` or confined. -/
structure Tables.Confining (boot : DescriptorTable) (r : Ring) (t : Tables) : Prop where
  segment (i : Nat) (d : Descriptor) : t.gdt.slots[i]? = some d → d.present → d.access.isSegment →
    boot.slots[i]? = some d ∨ Confined r d
  entry (k : LdtSlot) : ∀ d ∈ (t.vault.ldt k).entries, d.isNull = false → Confined r d

namespace Tables

variable {boot : DescriptorTable} {r : Ring} {t : Tables} {memory : RingMemory} {caller : Ring}

/-- What an accepted request writes is no segment or confined. -/
theorem Edit.confined {q : TableRequest} {current new : Descriptor} {vault : Vault} (hr : r ≠ .core)
    (hcaller : r ≤ caller) (edit : t.Edit memory caller q current new vault)
    (hpresent : new.present) (hsegment : new.access.isSegment) : Confined r new := by
  obtain ⟨ok, -⟩ := edit.mayInstall hsegment
  rcases ok.outer ⟨Ring.ne_core_of_le hr hcaller, hpresent⟩ with htype | ⟨-, hreach⟩
  · rw [Descriptor.isSegment_eq_false_of_systemType? htype] at hsegment
    cases hsegment
  · exact Confined.of_withinReach hr hcaller ok.dpl hreach

/-- A deposit leaves confined entries in the local tables. -/
theorem Deposit.confined {q : TableRequest} {address : Word} {vault : Vault} (hr : r ≠ .core)
    (hcaller : r ≤ caller) (deposit : t.Deposit memory caller q address vault)
    (h : ∀ k, ∀ d ∈ (t.vault.ldt k).entries, d.isNull = false → Confined r d) (k : LdtSlot) :
    ∀ d ∈ (vault.ldt k).entries, d.isNull = false → Confined r d := by
  cases deposit with
  | tss => exact h k
  | @ldt _ _ _ slot _ _ _ _ _ _ ok =>
    rw [Vault.ldt_setLdt]
    split
    · exact fun d hd hnull => (ok d hd).confined hr hcaller hnull
    · exact h k

/-- **One event from `r` outwards keeps the tables confining.** -/
theorem Confining.after {e : Event} (hr : r ≠ .core) (h : t.Confining boot r) (he : e.From r) :
    (t.after e).Confining boot r := by
  cases e with
  | request memory caller regs =>
    rw [Tables.after]
    constructor
    · intro i d hd hpresent hsegment
      rcases t.gdt_serve_cases memory caller regs with
        heq | ⟨q, current, new, vault, -, slot, edit, heq⟩
      · rw [heq] at hd
        exact h.segment i d hd hpresent hsegment
      · rw [heq] at hd
        rcases DescriptorTable.slots_put_cases hd with ⟨-, rfl⟩ | ⟨-, hd⟩
        · exact Or.inr (edit.confined hr he hpresent hsegment)
        · exact h.segment i d hd hpresent hsegment
    · rcases t.vault_serve_cases memory caller regs with heq | ⟨q, address, deposit⟩
      · rw [heq]
        exact h.entry
      · exact deposit.confined hr he h.entry
  | setDirectory directory => exact ⟨h.segment, h.entry⟩
  | setGdt gdt => exact absurd he id
  | setVault vault => exact absurd he id

/-- The tables at boot: the vault holds null entries only. -/
theorem Confining.start (capacity : Nat) (a : VaultAddresses) (r : Ring) :
    Confining (DescriptorTable.boot capacity) r (.boot capacity a) where
  segment _ _ hd _ _ := Or.inl hd
  entry k d hd hnull := by
    rcases List.mem_cons.1 hd with rfl | hd
    · cases hnull
    · obtain rfl := List.mem_singleton.1 hd
      cases hnull

end Tables

/-- **Segments of outer rings never reach a more privileged region.** After any run of requests of
the rings from `r` outwards on the boot table and a new vault, every present segment that is not the
one of the boot map, and every entry of a local table, is confined to the reach of `r`. -/
theorem segments_confined (capacity : Nat) (a : VaultAddresses) {r : Ring} (hr : r ≠ .core)
    {events : List Event} (he : ∀ e ∈ events, e.From r) :
    let start := Tables.boot capacity a
    let t := start.run events
    (∀ (i : Nat) (d : Descriptor), t.gdt.slots[i]? = some d → d.present → (d.isCode ∨ d.isData) →
      start.gdt.slots[i]? ≠ some d → Confined r d) ∧
      ∀ k : LdtSlot, ∀ d ∈ (t.vault.ldt k).entries, d.isNull = false → Confined r d := by
  intro start t
  have h : t.Confining start.gdt r :=
    Tables.run_induction (fun _ _ h he => h.after hr he) (Tables.Confining.start capacity a r) he
  refine ⟨fun i d hd hpresent hkind hnew => ?_, h.entry⟩
  have hsegment : d.access.isSegment :=
    hkind.elim Descriptor.isSegment_of_isCode Descriptor.isSegment_of_isData
  exact (h.segment i d hd hpresent hsegment).resolve_left hnew

/-- The longest code segment that the users can have from address 0x1000 on. -/
def edgeSegment : Descriptor := .segment 0x1000 0x7BD (.ofKind .codeKind .users) .protected4K

/-- A run in which the users install a segment that ends where their reach does, and the shared
services hand a local table over. -/
def segmentRun : List Event :=
  [.request .ownedByNone .users
      (TableRequest.encode (.descriptor (.ofGlobal 40 .users) edgeSegment)),
    .request (RingMemory.regions.withLdt 0x7BF000 (.ofRing .libs 0x7CE)) .libs
      (TableRequest.encode (.ldt Ring.libs.ldtSelector 0x7BF000 Ldt.limit))]

theorem segments_confined_segmentRun :
    Ring.libs ≠ .core ∧ (∀ e ∈ segmentRun, e.From .libs) ∧
      (Tables.booted.run segmentRun).gdt.slots[40]? = some edgeSegment ∧
      Confined .libs edgeSegment ∧
      ∀ k : LdtSlot, ∀ d ∈ ((Tables.booted.run segmentRun).vault.ldt k).entries,
        d.isNull = false → Confined .libs d := by
  have houter : Ring.libs ≠ .core := by decide
  have hevents : ∀ e ∈ segmentRun, e.From .libs := by decide
  have hslot : (Tables.booted.run segmentRun).gdt.slots[40]? = some edgeSegment := by
    decide +kernel
  have hnew : Tables.booted.gdt.slots[40]? ≠ some edgeSegment := by decide +kernel
  have h := segments_confined MemoryMap.gdtEntries ⟨fun _ => 0x600, fun _ => 0x700⟩ houter hevents
  rw [← Tables.booted] at h
  have hconfined := h.1 40 edgeSegment hslot (by decide) (Or.inl (by decide)) hnew
  exact ⟨houter, hevents, hslot, hconfined, h.2⟩

end FourRings
