import FourRings.Proofs.Run

/-!
# Integrity of the inner rings

Whatever the rings from `r` outwards request, they do not change what the boot map set up for the
rings inside: descriptors more privileged than `r`, gates that lead into such code, and the absence
of any other code or gate of that kind. `inner_rings_intact` is the main statement.

The three parts hold together only. A gate stays what it is because the segment that it leads to is
frozen, and then no outer ring passes the check of its target; a segment stays because nobody may
write over it. `Guarded` is their conjunction in the form that one request preserves.
-/

namespace FourRings

open DescriptorTable

/-! ### The boot map -/

namespace BootMap

/-- What every descriptor of the boot map satisfies: it is present, and a gate leads into code of
the map that is at least as privileged as the gate. -/
def WellPlaced (d : Descriptor) : Prop :=
  d.present ∧ (d.systemType? = some .callGate →
    ∃ target ∈ slot? d.gateSelector.index, target.isCode ∧ target.dpl ≤ d.dpl)

instance (d : Descriptor) : Decidable (WellPlaced d) :=
  inferInstanceAs (Decidable (_ ∧ (_ → _)))

theorem wellPlaced : ∀ e ∈ entries, WellPlaced e.2 := by decide +kernel

theorem wellPlaced_of_slot? {i : Nat} {d : Descriptor} (h : slot? i = some d) : WellPlaced d := by
  obtain ⟨s, -, he⟩ := mem_entries_of_slot? h
  exact wellPlaced (s, d) he

/-- A slot that rings from `r` outwards must not change: it is more privileged than `r`, or a gate
into code that is. -/
def Frozen (r : Ring) (i : Nat) (d : Descriptor) : Prop :=
  slot? i = some d ∧ (d.dpl < r ∨ (d.systemType? = some .callGate ∧
    ∃ target ∈ slot? d.gateSelector.index, target.isCode ∧ target.dpl < r))

/-- A frozen gate leads into a frozen code segment. -/
theorem Frozen.target {r : Ring} {i : Nat} {d : Descriptor} (h : Frozen r i d)
    (type : d.systemType? = some .callGate) :
    ∃ target, Frozen r d.gateSelector.index target ∧ target.dpl < r := by
  obtain ⟨hslot, hdpl | ⟨-, target, ht, hcode, hdpl⟩⟩ := h
  · obtain ⟨target, ht, hcode, hle⟩ := (wellPlaced_of_slot? hslot).2 type
    have hlt : target.dpl < r := Nat.lt_of_le_of_lt hle hdpl
    exact ⟨target, ⟨ht, Or.inl hlt⟩, hlt⟩
  · exact ⟨target, ⟨ht, Or.inl hdpl⟩, hdpl⟩

end BootMap

/-! ### The invariant -/

/-- Nothing that concerns the rings inside `r` has changed since boot, or was added to the table. -/
structure Guarded (r : Ring) (gdt : DescriptorTable) : Prop where
  frozen : ∀ i d, BootMap.Frozen r i d → gdt.slots[i]? = some d
  code : ∀ i d, gdt.slots[i]? = some d → d.isCode → d.dpl < r → BootMap.slot? i = some d
  gate : ∀ i d target, gdt.slots[i]? = some d → d.systemType? = some .callGate →
    d.gateSelector.isLocal = false → gdt.slots[d.gateSelector.index]? = some target →
    target.isCode → target.dpl < r → BootMap.slot? i = some d

namespace Guarded

variable {r : Ring} {t : Tables} {memory : RingMemory} {caller : Ring} {q : TableRequest}
  {i : Nat} {current new : Descriptor} {vault : Vault}

/-- A gate that is checked against a caller from `r` outwards leads to no code inside `r`. -/
theorem not_lt_of_validTarget {gdt : DescriptorTable} {s : Selector} {target : Descriptor}
    (h : ValidTarget gdt caller s) (hr : r ≤ caller) (ht : gdt.slots[s.index]? = some target) :
    ¬ target.dpl < r := by
  obtain ⟨-, d, hd, -, -, hle⟩ := h
  obtain rfl : d = target := Option.some.inj (hd.symm.trans ht)
  exact Nat.not_lt.2 (Nat.le_trans hr hle)

/-- No accepted request of a ring from `r` outwards edits a frozen slot. -/
theorem not_frozen_of_edit (h : Guarded r t.gdt) (hr : r ≤ caller)
    (slot : t.gdt.slots[i]? = some current) (edit : t.Edit memory caller q current new vault)
    (d : Descriptor) : ¬ BootMap.Frozen r i d := by
  intro hfrozen
  obtain rfl : current = d := Option.some.inj (slot.symm.trans (h.frozen i d hfrozen))
  have hgate : current.systemType? = some .callGate → ∃ target,
      t.gdt.slots[current.gateSelector.index]? = some target ∧ target.dpl < r := by
    intro htype
    obtain ⟨target, htarget, hlt⟩ := hfrozen.target htype
    exact ⟨target, h.frozen _ _ htarget, hlt⟩
  have hlt : current.systemType? ≠ some .callGate → current.dpl < r := by
    intro htype
    exact hfrozen.2.resolve_right fun hg => htype hg.1
  have hcore : caller ≠ .core := by
    rintro rfl
    have hpos : ∀ d : Descriptor, ¬ d.dpl < r := fun d hd =>
      absurd (Nat.lt_of_lt_of_le hd hr) (Nat.not_lt_zero _)
    obtain ⟨-, hd | ⟨-, target, -, -, hd⟩⟩ := hfrozen
    · exact hpos _ hd
    · exact hpos _ hd
  cases edit with
  | install ok =>
    obtain ⟨hle, hnone⟩ := ok.overwrite (BootMap.wellPlaced_of_slot? hfrozen.1).1
    have hnone := hnone.resolve_left hcore
    exact absurd (Nat.lt_of_lt_of_le (hlt (by simp [hnone])) (Nat.le_trans hr hle))
      (Nat.lt_irrefl _)
  | retarget type target =>
    obtain ⟨d, hd, hdlt⟩ := hgate type
    exact not_lt_of_validTarget target hr hd hdlt
  | rebaseTss core _ => exact hcore core
  | rebaseLdt core _ => exact hcore core
  | adoptTss _ privilege type _ =>
    exact absurd (Nat.lt_of_lt_of_le (hlt (by simp [type])) (Nat.le_trans hr privilege))
      (Nat.lt_irrefl _)
  | adoptLdt _ privilege type _ =>
    exact absurd (Nat.lt_of_lt_of_le (hlt (by simp [type])) (Nat.le_trans hr privilege))
      (Nat.lt_irrefl _)

/-- What an accepted request writes is no code inside `r`. -/
theorem not_code_of_edit (hr : r ≤ caller) (edit : t.Edit memory caller q current new vault)
    (hcode : new.isCode) : ¬ new.dpl < r := by
  cases edit with
  | install ok => exact Nat.not_lt.2 (Nat.le_trans hr ok.dpl)
  | retarget type _ => simp [Descriptor.isCode_eq_false_of_systemType? type] at hcode
  | rebaseTss _ type =>
    obtain ⟨type, htype, -⟩ := (Option.any_eq_true _ _).1 type
    simp [Descriptor.isCode_eq_false_of_systemType? htype] at hcode
  | rebaseLdt _ type => simp [Descriptor.isCode_eq_false_of_systemType? type] at hcode
  | adoptTss _ _ type _ => simp [Descriptor.isCode_eq_false_of_systemType? type] at hcode
  | adoptLdt _ _ type _ => simp [Descriptor.isCode_eq_false_of_systemType? type] at hcode

/-- A gate that an accepted request writes passed the check of its target. -/
theorem validTarget_of_edit (edit : t.Edit memory caller q current new vault)
    (type : new.systemType? = some .callGate) : ValidTarget t.gdt caller new.gateSelector := by
  cases edit with
  | install ok => exact ok.target (by simp [Descriptor.isGate, type, SystemType.isGate])
  | retarget _ target => simpa using target
  | rebaseTss _ htask =>
    simp only [Descriptor.systemType?_withBaseLimit] at type
    simp [type, SystemType.isTask] at htask
  | rebaseLdt _ htype => simp [htype] at type
  | adoptTss _ _ htype _ => simp [htype] at type
  | adoptLdt _ _ htype _ => simp [htype] at type

/-- **One accepted request of a ring from `r` outwards preserves the invariant.** -/
theorem put (h : Guarded r t.gdt) (hr : r ≤ caller) (slot : t.gdt.slots[i]? = some current)
    (edit : t.Edit memory caller q current new vault) : Guarded r (t.gdt.put i new) where
  frozen j d hd := by
    have hj : j ≠ i := by
      rintro rfl
      exact not_frozen_of_edit h hr slot edit d hd
    rw [slots_put_of_ne hj]
    exact h.frozen j d hd
  code j d hd hcode hlt := by
    rcases slots_put_cases hd with ⟨-, rfl⟩ | ⟨-, hd⟩
    · exact absurd hlt (not_code_of_edit hr edit hcode)
    · exact h.code j d hd hcode hlt
  gate j d target hd type hglobal ht hcode hlt := by
    -- the target is an old slot: what was just written is no code inside `r`
    have htarget : t.gdt.slots[d.gateSelector.index]? = some target := by
      rcases slots_put_cases ht with ⟨-, rfl⟩ | ⟨-, ht⟩
      · exact absurd hlt (not_code_of_edit hr edit hcode)
      · exact ht
    rcases slots_put_cases hd with ⟨-, rfl⟩ | ⟨-, hd⟩
    · exact absurd hlt (not_lt_of_validTarget (validTarget_of_edit edit type) hr htarget)
    · exact h.gate j d target hd type hglobal htarget hcode hlt

/-- The boot table satisfies the invariant. -/
theorem boot {capacity : Nat} (hcap : 38 ≤ capacity) (r : Ring) : Guarded r (boot capacity) where
  frozen _ _ hd := slots_boot_of_slot? hcap hd.1
  code i d hd hcode _ := by
    rcases slot?_of_slots_boot hcap hd with hslot | rfl
    · exact hslot
    · cases hcode
  gate i d _ hd type _ _ _ _ := by
    rcases slot?_of_slots_boot hcap hd with hslot | rfl
    · exact hslot
    · cases type

end Guarded

/-! ### Runs -/

/-- Events from `r` outwards: requests of these rings, and anything that happens to the vault. -/
def Event.Outside (r : Ring) : Event → Prop
  | .request _ caller _ => r ≤ caller
  | .setDirectory _ | .setVault _ => True
  | .setGdt _ => False

instance (r : Ring) (e : Event) : Decidable (e.Outside r) :=
  match e with
  | .request _ caller _ => inferInstanceAs (Decidable (r ≤ caller))
  | .setDirectory _ | .setVault _ => inferInstanceAs (Decidable True)
  | .setGdt _ => inferInstanceAs (Decidable False)

/-- One event from `r` outwards preserves the invariant. -/
theorem Guarded.after {r : Ring} {t : Tables} {e : Event} (h : Guarded r t.gdt)
    (he : e.Outside r) : Guarded r (t.after e).gdt := by
  cases e with
  | request memory caller regs =>
    rw [Tables.after]
    rcases t.gdt_serve_cases memory caller regs with
      heq | ⟨q, current, new, vault, -, slot, edit, heq⟩
    · rw [heq]
      exact h
    · rw [heq]
      exact h.put he slot edit
  | setDirectory directory => exact h
  | setGdt gdt => exact absurd he id
  | setVault vault => exact h

/-- What is the same in `gdt` as in the boot table, as far as the rings inside `r` go. -/
structure InnerIntact (boot gdt : DescriptorTable) (r : Ring) : Prop where
  /-- Descriptors inside `r` hold what they held. -/
  descriptor (i : Nat) (d : Descriptor) : boot.slots[i]? = some d → ¬ d.isNull → d.dpl < r →
    gdt.slots[i]? = some d
  /-- So do call gates into code inside `r`, -/
  gate (i : Nat) (d target : Descriptor) : boot.slots[i]? = some d →
    d.systemType? = some .callGate → boot.slots[d.gateSelector.index]? = some target →
    target.isCode → target.dpl < r → gdt.slots[i]? = some d
  /-- among them the two gates that lead to outer rings. -/
  terminal : Ring.libs ≤ r →
    gdt.slots[SelectorMap.terminalGate.index]? = boot.slots[SelectorMap.terminalGate.index]?
  transmit : Ring.users ≤ r →
    gdt.slots[SelectorMap.libsTransmitGate.index]? =
      boot.slots[SelectorMap.libsTransmitGate.index]?
  /-- There is no other code inside `r`, -/
  noCode (i : Nat) (d : Descriptor) : gdt.slots[i]? = some d → d.isCode → d.dpl < r →
    boot.slots[i]? = some d
  /-- and no other call gate that leads into such code. -/
  noGate (i : Nat) (d target : Descriptor) : gdt.slots[i]? = some d →
    d.systemType? = some .callGate → d.gateSelector.isLocal = false →
    gdt.slots[d.gateSelector.index]? = some target → target.isCode → target.dpl < r →
    boot.slots[i]? = some d

namespace BootMap

theorem slot?_terminalGate :
    slot? SelectorMap.terminalGate.index = some (callGate .devs .libs 3) := by decide +kernel

theorem slot?_libsTransmitGate :
    slot? SelectorMap.libsTransmitGate.index = some (callGate .libs .users 1) := by decide +kernel

end BootMap

theorem Guarded.innerIntact {r : Ring} {capacity : Nat} {gdt : DescriptorTable}
    (hcap : 38 ≤ capacity) (h : Guarded r gdt) :
    InnerIntact (DescriptorTable.boot capacity) gdt r where
  descriptor i d hd hnull hlt := by
    rcases slot?_of_slots_boot hcap hd with hslot | rfl
    · exact h.frozen i d ⟨hslot, Or.inl hlt⟩
    · exact absurd rfl hnull
  gate i d target hd type ht hcode hlt := by
    rcases slot?_of_slots_boot hcap hd with hslot | rfl
    · rcases slot?_of_slots_boot hcap ht with htarget | rfl
      · exact h.frozen i d ⟨hslot, Or.inr ⟨type, target, htarget, hcode, hlt⟩⟩
      · cases hcode
    · cases type
  terminal hr := by
    rw [slots_boot_of_slot? hcap BootMap.slot?_terminalGate]
    refine h.frozen _ _ ⟨BootMap.slot?_terminalGate, Or.inr ⟨by decide, ?_⟩⟩
    exact ⟨BootMap.flat .devs .codeKind .devs, by decide +kernel, by decide, hr⟩
  transmit hr := by
    rw [slots_boot_of_slot? hcap BootMap.slot?_libsTransmitGate]
    refine h.frozen _ _ ⟨BootMap.slot?_libsTransmitGate, Or.inr ⟨by decide, ?_⟩⟩
    exact ⟨BootMap.flat .libs .codeKind .libs, by decide +kernel, by decide, hr⟩
  noCode i d hd hcode hlt := slots_boot_of_slot? hcap (h.code i d hd hcode hlt)
  noGate i d target hd type hglobal ht hcode hlt :=
    slots_boot_of_slot? hcap (h.gate i d target hd type hglobal ht hcode hlt)

/-- **The inner rings keep their integrity.** After any run of events from `r` outwards on the boot
table, what the boot map set up for the rings inside `r` is what it was. -/
theorem inner_rings_intact {capacity : Nat} (hcap : 38 ≤ capacity) (r : Ring) (vault : Vault)
    {events : List Event} (he : ∀ e ∈ events, e.Outside r) :
    InnerIntact (DescriptorTable.boot capacity)
      (Tables.run ⟨DescriptorTable.boot capacity, vault⟩ events).gdt r := by
  have hrun : Guarded r (Tables.run ⟨DescriptorTable.boot capacity, vault⟩ events).gdt :=
    Tables.run_induction (P := fun t => Guarded r t.gdt) (fun _ _ h he => h.after he)
      (Guarded.boot hcap r) he
  exact hrun.innerIntact hcap

/-- A run in which the shared services bind their gate, and the users reach for the core's. -/
def gateRun : List Event :=
  [.request .ownedByAll .libs
      (TableRequest.encode (.callGate SelectorMap.libsTransmitGate 0x5D1000 1)),
    .request .ownedByNone .users
      (TableRequest.encode (.callGate SelectorMap.tableGate 0x5C1000 0))]

theorem inner_rings_intact_gateRun :
    38 ≤ 38 ∧ (∀ e ∈ gateRun, e.Outside .libs) ∧
      InnerIntact (DescriptorTable.boot 38)
        (Tables.run ⟨DescriptorTable.boot 38, { address := ⟨fun _ => 0, fun _ => 0⟩ }⟩ gateRun).gdt
        .libs := by
  have hevents : ∀ e ∈ gateRun, e.Outside .libs := by
    intro e he
    rcases List.mem_cons.1 he with rfl | he
    · exact Nat.le_refl 2
    · obtain rfl := List.mem_singleton.1 he
      exact Nat.le_succ 2
  exact ⟨Nat.le_refl 38, hevents, inner_rings_intact (Nat.le_refl 38) .libs _ hevents⟩

end FourRings
