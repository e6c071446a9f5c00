import FourRings.Proofs.Run
import FourRings.Proofs.StateSlot

/-!
# Sheltered task state

Task and local-table descriptors only ever point at copies that the core keeps.
`state_slots_sheltered` is the main statement: whatever the outer rings request, each of the nine
slots for state is still empty or points at its own copy, changes for its owner alone, and apart
from them the table holds no task state or local table but the core's own.
-/

namespace FourRings

open DescriptorTable

/-- A system descriptor of the boot map is a call gate, one of the two of the core, or the
placeholder of a slot for state. -/
theorem BootMap.system_entries : ∀ e ∈ entries, e.2.access.isSegment = false →
    e.2.systemType? = some .callGate ∨ e.1.index = SelectorMap.coreTask.index ∨
      e.1.index = Ring.core.ldtSelector.index ∨ (StateSlot.ofSelector? e.1).isSome := by
  decide +kernel

/-! ### The invariant -/

/-- The state slots of `gdt` point nowhere yet or at their copies, and apart from them there is no
state of a task and no local table but the core's. -/
structure Sheltered (boot gdt : DescriptorTable) (a : VaultAddresses) : Prop where
  slot (k : StateSlot) : ∃ b d, boot.slots[k.index]? = some b ∧ gdt.slots[k.index]? = some d ∧
    d.access = b.access ∧ d.flags = b.flags ∧
    (d = b ∨ (d.base = k.address a ∧ k.IsLimit d.limit))
  other (i : Nat) (d : Descriptor) : gdt.slots[i]? = some d → (∀ k : StateSlot, i ≠ k.index) →
    d.present → d.access.isSegment = false →
    d.systemType? = some .callGate ∨
      ((i = SelectorMap.coreTask.index ∨ i = Ring.core.ldtSelector.index) ∧
        boot.slots[i]? = some d)

namespace Tables

variable {t : Tables} {memory : RingMemory} {caller : Ring} {q : TableRequest}

/-- A deposit is for a slot of the caller. It replaces the copy of that slot and nothing else of
the vault. -/
theorem Deposit.stateSlot {address : Word} {vault : Vault}
    (h : Deposit t memory caller q address vault) :
    ∃ k : StateSlot, k.index = q.selector.index ∧ k.owner = caller ∧
      address = k.address t.vault.address ∧ ∀ k', k' ≠ k → k'.copy vault = k'.copy t.vault := by
  cases h with
  | @tss _ _ slot _ slot_eq owner =>
    exact ⟨.task slot, StateSlot.index_of_taskSlot slot_eq, owner, rfl,
      fun _ hk => StateSlot.copy_setTss hk⟩
  | @ldt _ _ _ slot _ slot_eq owner =>
    exact ⟨.ldt slot, StateSlot.index_of_ldtSlot slot_eq, owner, rfl,
      fun _ hk => StateSlot.copy_setLdt hk⟩

/-- A deposit leaves the copies of all slots but the one that it names. -/
theorem Deposit.copy_eq {address : Word} {vault : Vault}
    (h : Deposit t memory caller q address vault) {k : StateSlot}
    (hk : k.index ≠ q.selector.index) : k.copy vault = k.copy t.vault := by
  obtain ⟨k', hindex, -, -, hrest⟩ := h.stateSlot
  refine hrest k ?_
  rintro rfl
  exact hk hindex

/-- So does an edit. -/
theorem Edit.copy_eq {current new : Descriptor} {vault : Vault}
    (edit : Edit t memory caller q current new vault) {k : StateSlot}
    (hk : k.index ≠ q.selector.index) : k.copy vault = k.copy t.vault := by
  rcases edit.vault_cases with rfl | ⟨-, _, deposit⟩
  · rfl
  · exact deposit.copy_eq hk

end Tables

/-- Requests of outer rings, and changes of the directory between them. -/
def Event.OfOuterRing : Event → Prop
  | .request _ caller _ => caller ≠ .core
  | .setDirectory _ => True
  | .setGdt _ | .setVault _ => False

instance (e : Event) : Decidable e.OfOuterRing :=
  match e with
  | .request _ caller _ => inferInstanceAs (Decidable (caller ≠ .core))
  | .setDirectory _ => inferInstanceAs (Decidable True)
  | .setGdt _ | .setVault _ => inferInstanceAs (Decidable False)

namespace Sheltered

variable {capacity : Nat} {t : Tables} {memory : RingMemory} {caller : Ring} {q : TableRequest}
  {k : StateSlot} {current new : Descriptor} {vault : Vault}

/-- A state slot holds a present descriptor of its type. -/
theorem type_of_stateSlot (hcap : 38 ≤ capacity)
    (h : Sheltered (DescriptorTable.boot capacity) t.gdt t.vault.address)
    (slot : t.gdt.slots[k.index]? = some current) :
    current.present ∧ current.systemType? = some k.type := by
  obtain ⟨b, d, hb, hd, haccess, -⟩ := h.slot k
  obtain rfl : current = d := Option.some.inj (slot.symm.trans hd)
  obtain rfl : k.placeholder = b :=
    Option.some.inj ((slots_boot_of_slot? hcap k.slot?_index).symm.trans hb)
  rw [Descriptor.present, Descriptor.systemType?, haccess]
  exact ⟨k.placeholder_present, k.placeholder_type⟩

/-- A slot for state suits what is deposited for it. -/
theorem suits_of_deposit (hcap : 38 ≤ capacity)
    (h : Sheltered (DescriptorTable.boot capacity) t.gdt t.vault.address)
    (slot : t.gdt.slots[q.selector.index]? = some current) {copy : Word}
    (deposit : t.Deposit memory caller q copy vault) : q.Suits current := by
  cases deposit with
  | tss slot_eq =>
    rw [TableRequest.selector, ← StateSlot.index_of_taskSlot slot_eq] at slot
    obtain ⟨-, htype⟩ := type_of_stateSlot hcap h slot
    simp [TableRequest.Suits, htype, StateSlot.type, SystemType.isTask]
  | ldt slot_eq =>
    rw [TableRequest.selector, ← StateSlot.index_of_ldtSlot slot_eq] at slot
    exact (type_of_stateSlot hcap h slot).2

/-- An outer ring edits a state slot by a deposit. -/
theorem deposit_of_edit (hcap : 38 ≤ capacity)
    (h : Sheltered (DescriptorTable.boot capacity) t.gdt t.vault.address)
    (outer : caller ≠ .core) (slot : t.gdt.slots[q.selector.index]? = some current)
    (edit : t.Edit memory caller q current new vault) (hk : k.index = q.selector.index) :
    ∃ copy limit : Word, t.Deposit memory caller q copy vault ∧ k.IsLimit (limit.setWidth 20) ∧
      new = current.withBaseLimit copy limit := by
  rw [← hk] at slot
  obtain ⟨hpresent, htype⟩ := type_of_stateSlot hcap h slot
  cases edit with
  | install ok => cases htype.symm.trans ((ok.overwrite hpresent).2.resolve_left outer)
  | retarget type _ => exact absurd (Option.some.inj (htype.symm.trans type)) k.type_ne_callGate
  | rebaseTss core _ => exact absurd core outer
  | rebaseLdt core _ => exact absurd core outer
  | adoptTss _ _ type deposit =>
    refine ⟨_, Tss.limit, deposit, ?_, rfl⟩
    cases k with
    | task => rfl
    | ldt => cases htype.symm.trans type
  | @adoptLdt _ _ limit _ _ _ _ _ type deposit =>
    refine ⟨_, limit, deposit, ?_, rfl⟩
    cases k with
    | task => cases htype.symm.trans type
    | ldt =>
      cases deposit with
      | ldt _ _ _ _ limit_eq =>
        rcases limit_eq with rfl | rfl
        · exact Or.inl rfl
        · exact Or.inr rfl

/-- An outer ring edits a state slot only if it is its own, and makes it point at the copy. -/
theorem edit_stateSlot (hcap : 38 ≤ capacity)
    (h : Sheltered (DescriptorTable.boot capacity) t.gdt t.vault.address)
    (outer : caller ≠ .core) (slot : t.gdt.slots[q.selector.index]? = some current)
    (edit : t.Edit memory caller q current new vault) (hk : k.index = q.selector.index) :
    k.owner = caller ∧ ∃ limit : Word, k.IsLimit (limit.setWidth 20) ∧
      new = current.withBaseLimit (k.address t.vault.address) limit := by
  obtain ⟨copy, limit, deposit, hlimit, rfl⟩ := deposit_of_edit hcap h outer slot edit hk
  obtain ⟨k', hindex, howner, rfl, -⟩ := deposit.stateSlot
  obtain rfl := StateSlot.eq_of_index (hk.trans hindex.symm)
  exact ⟨howner, limit, hlimit, rfl⟩

/-- An outer ring writes no system descriptor but a call gate elsewhere. -/
theorem edit_other (outer : caller ≠ .core) (edit : t.Edit memory caller q current new vault)
    (hk : ∀ k : StateSlot, q.selector.index ≠ k.index) (hpresent : new.present)
    (hsystem : new.access.isSegment = false) : new.systemType? = some .callGate := by
  cases edit with
  | install ok =>
    rcases ok.outer ⟨outer, hpresent⟩ with htype | ⟨hsegment, -⟩
    · exact htype
    · cases hsystem.symm.trans hsegment
  | retarget type _ => simpa using type
  | rebaseTss core _ => exact absurd core outer
  | rebaseLdt core _ => exact absurd core outer
  | adoptTss _ _ _ deposit =>
    obtain ⟨k, hindex, -⟩ := deposit.stateSlot
    exact absurd hindex.symm (hk k)
  | adoptLdt _ _ _ deposit =>
    obtain ⟨k, hindex, -⟩ := deposit.stateSlot
    exact absurd hindex.symm (hk k)

/-- **One accepted request of an outer ring preserves the invariant.** -/
theorem put (hcap : 38 ≤ capacity)
    (h : Sheltered (DescriptorTable.boot capacity) t.gdt t.vault.address) (outer : caller ≠ .core)
    (slot : t.gdt.slots[q.selector.index]? = some current)
    (edit : t.Edit memory caller q current new vault) :
    Sheltered (DescriptorTable.boot capacity) (t.gdt.put q.selector.index new) t.vault.address where
  slot k := by
    obtain ⟨b, d, hb, hd, haccess, hflags, hstate⟩ := h.slot k
    by_cases hk : k.index = q.selector.index
    · obtain ⟨-, limit, hlimit, rfl⟩ := edit_stateSlot hcap h outer slot edit hk
      obtain rfl : current = d := Option.some.inj (slot.symm.trans (hk ▸ hd))
      refine ⟨b, current.withBaseLimit (k.address t.vault.address) limit, hb, ?_, ?_, ?_,
        Or.inr ⟨Descriptor.base_withBaseLimit .., ?_⟩⟩
      · rw [hk]
        exact slots_put_self (lt_capacity_of_slots slot)
      · rw [Descriptor.access_withBaseLimit, haccess]
      · rw [Descriptor.flags_withBaseLimit, hflags]
      · rw [Descriptor.limit_withBaseLimit]
        exact hlimit
    · exact ⟨b, d, hb, by rw [slots_put_of_ne hk, hd], haccess, hflags, hstate⟩
  other j d hd hj hpresent hsystem := by
    rcases slots_put_cases hd with ⟨rfl, rfl⟩ | ⟨-, hd⟩
    · exact Or.inl (edit_other outer edit hj hpresent hsystem)
    · exact h.other j d hd hj hpresent hsystem

/-- The boot table satisfies the invariant. -/
theorem boot (hcap : 38 ≤ capacity) (a : VaultAddresses) :
    Sheltered (DescriptorTable.boot capacity) (DescriptorTable.boot capacity) a where
  slot k := by
    have hslot := slots_boot_of_slot? hcap k.slot?_index
    exact ⟨k.placeholder, k.placeholder, hslot, hslot, rfl, rfl, Or.inl rfl⟩
  other i d hd hi hpresent hsystem := by
    rcases slot?_of_slots_boot hcap hd with hslot | rfl
    · obtain ⟨s, rfl, he⟩ := BootMap.mem_entries_of_slot? hslot
      rcases BootMap.system_entries (s, d) he hsystem with htype | hs | hs | hs
      · exact Or.inl htype
      · exact Or.inr ⟨Or.inl hs, hd⟩
      · exact Or.inr ⟨Or.inr hs, hd⟩
      · obtain ⟨k, hk⟩ := Option.isSome_iff_exists.1 hs
        exact absurd (StateSlot.index_of_ofSelector? hk).symm (hi k)
    · cases hpresent

/-- One event of the outer rings preserves the invariant. -/
theorem after {e : Event} (hcap : 38 ≤ capacity)
    (h : Sheltered (DescriptorTable.boot capacity) t.gdt t.vault.address) (he : e.OfOuterRing) :
    Sheltered (DescriptorTable.boot capacity) (t.after e).gdt t.vault.address := by
  cases e with
  | request memory caller regs =>
    rw [Tables.after]
    rcases t.gdt_serve_cases memory caller regs with
      heq | ⟨q, current, new, vault, -, slot, edit, heq⟩
    · rw [heq]
      exact h
    · rw [heq]
      exact h.put hcap he slot edit
  | setDirectory directory => exact h
  | setGdt gdt => exact absurd he id
  | setVault vault => exact absurd he id

/-- **A slot and its copy change for the owner alone.** -/
theorem unchanged {e : Event} (hcap : 38 ≤ capacity)
    (h : Sheltered (DescriptorTable.boot capacity) t.gdt t.vault.address) (he : e.OfOuterRing)
    (hk : e.caller? ≠ some k.owner) :
    (t.after e).gdt.slots[k.index]? = t.gdt.slots[k.index]? ∧
      k.copy (t.after e).vault = k.copy t.vault := by
  cases e with
  | request memory caller regs =>
    have howner : k.owner ≠ caller := fun howner => hk (by rw [howner]; rfl)
    rw [Tables.after]
    constructor
    · rcases t.gdt_serve_cases memory caller regs with
        heq | ⟨q, current, new, vault, -, slot, edit, heq⟩
      · rw [heq]
      · rw [heq]
        exact slots_put_of_ne fun hindex =>
          howner (edit_stateSlot hcap h he slot edit hindex).1
    · rcases t.vault_serve_cases memory caller regs with heq | ⟨q, address, deposit⟩
      · rw [heq]
      · obtain ⟨k', -, howner', -, hrest⟩ := deposit.stateSlot
        refine hrest k ?_
        rintro rfl
        exact howner howner'
  | setDirectory directory => exact ⟨rfl, by cases k <;> rfl⟩
  | setGdt gdt => exact absurd he id
  | setVault vault => exact absurd he id

/-- A present descriptor of task state or of a local table is as the boot map has it, or points at a
copy. -/
theorem base_of_state {boot gdt : DescriptorTable} {a : VaultAddresses} (h : Sheltered boot gdt a)
    {i : Nat} {d : Descriptor} {type : SystemType} (hd : gdt.slots[i]? = some d)
    (hpresent : d.present) (htype : d.systemType? = some type)
    (hstate : type.isTask ∨ type = .ldt) :
    boot.slots[i]? = some d ∨ ∃ k : StateSlot, i = k.index ∧ d.base = k.address a := by
  by_cases hi : ∃ k : StateSlot, i = k.index
  · obtain ⟨k, rfl⟩ := hi
    obtain ⟨b, d', hb, hd', -, -, hcase⟩ := h.slot k
    obtain rfl : d = d' := Option.some.inj (hd.symm.trans hd')
    rcases hcase with rfl | ⟨hbase, -⟩
    · exact Or.inl hb
    · exact Or.inr ⟨k, rfl, hbase⟩
  · have hsystem := Descriptor.isSegment_eq_false_of_systemType? htype
    rcases h.other i d hd (fun k hk => hi ⟨k, hk⟩) hpresent hsystem with hgate | ⟨-, hboot⟩
    · obtain rfl : type = .callGate := Option.some.inj (htype.symm.trans hgate)
      rcases hstate with hstate | hstate <;> cases hstate
    · exact Or.inl hboot

end Sheltered

/-! ### Runs -/

/-- The copies stay where they are. -/
theorem Tables.vault_address_after {t : Tables} {e : Event} (he : e.OfOuterRing) :
    (t.after e).vault.address = t.vault.address := by
  cases e with
  | request memory caller regs =>
    rw [after]
    rcases t.vault_serve_cases memory caller regs with heq | ⟨q, address, deposit⟩
    · rw [heq]
    · exact deposit.vault_address
  | setDirectory directory => rfl
  | setGdt gdt => exact absurd he id
  | setVault vault => exact absurd he id

/-- **Descriptors of task state and of local tables only ever point at the core's copies.** After
any run of requests of outer rings on the boot table and a new vault, the state slots are sheltered,
the next request changes them for their owner alone, and no present descriptor of state leads
anywhere but to a copy or to where the boot map had it. -/
theorem state_slots_sheltered {capacity : Nat} (hcap : 38 ≤ capacity) (a : VaultAddresses)
    {events : List Event} (he : ∀ e ∈ events, e.OfOuterRing) :
    let boot := DescriptorTable.boot capacity
    let t := Tables.run ⟨boot, { address := a }⟩ events
    t.vault.address = a ∧ Sheltered boot t.gdt a ∧
      (∀ (e : Event) (k : StateSlot), e.OfOuterRing → e.caller? ≠ some k.owner →
        (t.after e).gdt.slots[k.index]? = t.gdt.slots[k.index]? ∧
          k.copy (t.after e).vault = k.copy t.vault) ∧
      ∀ (i : Nat) (d : Descriptor) (type : SystemType), t.gdt.slots[i]? = some d → d.present →
        d.systemType? = some type → (type.isTask ∨ type = .ldt) →
        boot.slots[i]? = some d ∨ ∃ k : StateSlot, i = k.index ∧ d.base = k.address a := by
  intro boot t
  have hstep : ∀ (t : Tables) (e : Event), t.vault.address = a ∧ Sheltered boot t.gdt a →
      e.OfOuterRing → (t.after e).vault.address = a ∧ Sheltered boot (t.after e).gdt a := by
    rintro t e ⟨rfl, h⟩ he
    exact ⟨Tables.vault_address_after he, h.after hcap he⟩
  obtain ⟨haddress, h⟩ : t.vault.address = a ∧ Sheltered boot t.gdt a :=
    Tables.run_induction (P := fun t => t.vault.address = a ∧ Sheltered boot t.gdt a) hstep
      ⟨rfl, Sheltered.boot hcap a⟩ he
  refine ⟨haddress, h, fun e k he hk => ?_, ?_⟩
  · exact Sheltered.unchanged hcap (haddress ▸ h) he hk
  · intro i d type hd hpresent htype hstate
    exact h.base_of_state hd hpresent htype hstate

/-- A run in which the device drivers hand their local table over. -/
def handoverRun : List Event :=
  [.setDirectory 0x1000,
    .request (RingMemory.ownedByAll.withLdt 0x5D0000 (.ofRing .devs 0x5DF)) .devs
      (TableRequest.encode (.ldt Ring.devs.ldtSelector 0x5D0000 Ldt.limit))]

theorem state_slots_sheltered_handoverRun :
    38 ≤ 38 ∧ (∀ e ∈ handoverRun, e.OfOuterRing) ∧
      Sheltered (DescriptorTable.boot 38)
        (Tables.run ⟨DescriptorTable.boot 38, { address := ⟨fun _ => 0x600, fun _ => 0x700⟩ }⟩
          handoverRun).gdt ⟨fun _ => 0x600, fun _ => 0x700⟩ := by
  have hevents : ∀ e ∈ handoverRun, e.OfOuterRing := by
    intro e he
    rcases List.mem_cons.1 he with rfl | he
    · trivial
    · obtain rfl := List.mem_singleton.1 he
      exact fun h => nomatch h
  exact ⟨Nat.le_refl 38, hevents, (state_slots_sheltered (Nat.le_refl 38) _ hevents).2.1⟩

end FourRings
