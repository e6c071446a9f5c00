import FourRings.Proofs.Admission
import FourRings.Task.Block

/-!
# Built tasks and their checks

Who builds the state of a task and who checks it share no code, so this is where their tables of
fields meet. `taskOk_state_iff` says what is left of the checks if the state was built: conditions
on the segments and on the stacks for the inner rings alone. The other fields always pass.
`TaskSegments.accepted_iff_admitted` is the main statement.
-/

namespace FourRings

variable {s : Vault} {gdt : DescriptorTable} {memory : RingMemory} {r k : Ring} {l : TaskSegments}
  {kind : TaskKind} {c : TaskStart} {tops : List Word}

/-! ### The initial flags -/

theorem initialEflags_allowed (kind : TaskKind) (r : Ring) :
    initialEflags kind r &&& ~~~Vault.allowedEflags = 0 := by
  cases kind <;> cases r <;> decide

theorem ofBits_initialEflags (kind : TaskKind) (r : Ring) :
    Ring.ofBits ((initialEflags kind r).extractLsb' 12 2) = r := by
  cases kind <;> cases r <;> decide

theorem getLsbD_initialEflags (kind : TaskKind) (r : Ring) :
    (initialEflags kind r).getLsbD 9 ↔ kind ≠ .irq := by
  cases kind <;> cases r <;> decide

/-! ### The stacks for inner rings -/

namespace TaskSegments

/-- The stacks of the inner rings are where the state says. -/
theorem innerStack_state {top : Word} (hk : k ≠ .users) (h : tops[k.level]? = some top) :
    (l.state kind c tops).innerStack k = ⟨top, k.dataSelector⟩ := by
  have hstack : innerStackPointer tops k = ⟨top, k.dataSelector⟩ := by
    rw [innerStackPointer, h]
  cases k with
  | core => exact hstack
  | devs => exact hstack
  | libs => exact hstack
  | users => exact absurd rfl hk

/-- The stacks pass if there is room for a frame below each of the tops that are needed. -/
theorem innerStacksOk_state_iff (hlevel : r.level ≤ tops.length) :
    (∀ k ∈ r.inner, Vault.InnerStackOk memory r k ((l.state kind c tops).innerStack k)) ↔
      ∀ top ∈ tops.take r.level, 32 ≤ top.toNat ∧ memory.owns r (top - 32) 32 := by
  constructor
  · intro h top htop
    obtain ⟨i, hi, rfl⟩ := List.mem_take_iff_getElem.1 htop
    obtain ⟨k, hk, rfl⟩ := Ring.exists_lt_of_level (Nat.lt_of_lt_of_le hi (Nat.min_le_left _ _))
    have hstack := h k (Ring.mem_inner.2 hk)
    rw [innerStack_state (Ring.ne_users_of_lt hk) (List.getElem?_eq_getElem _)] at hstack
    exact hstack.2
  · intro h k hk
    have hlt := Ring.mem_inner.1 hk
    have hlength : k.level < tops.length := Nat.lt_of_lt_of_le hlt hlevel
    rw [innerStack_state (Ring.ne_users_of_lt hlt) (List.getElem?_eq_getElem hlength)]
    have hmin : k.level < min r.level tops.length := Nat.lt_min.2 ⟨hlt, hlength⟩
    exact ⟨rfl, h _ (List.mem_take_iff_getElem.2 ⟨k.level, hmin, rfl⟩)⟩

end TaskSegments

/-! ### The registers -/

namespace Vault

/-- A selector of ring `r` names a present segment of that ring, and the segment is as `fits`
says. -/
def Names (s : Vault) (gdt : DescriptorTable) (r : Ring) (selector : Selector)
    (fits : Descriptor → Prop) : Prop :=
  selector.rpl = r ∧
    ∃ d, s.segment? gdt r selector = some d ∧ d.present ∧ d.dpl = r ∧ fits d

theorem registerOk_iff_names {u : SegmentUse} {selector : Selector} (hu : u ≠ .data) :
    s.RegisterOk gdt r u selector ↔ s.Names gdt r selector u.Fits :=
  or_iff_right fun h => hu h.1

theorem registerOk_data_iff {selector : Selector} :
    s.RegisterOk gdt r .data selector ↔
      selector.isNull ∨ s.Names gdt r selector fun d => d.isData :=
  or_congr_left (and_iff_right rfl)

/-- What serves as a stack serves as data. -/
theorem RegisterOk.data_of_stack {selector : Selector} (h : s.RegisterOk gdt r .stack selector) :
    s.RegisterOk gdt r .data selector := by
  obtain ⟨hrpl, d, hd, hpresent, hdpl, hfits⟩ := (registerOk_iff_names (by decide)).1 h
  exact Or.inr ⟨hrpl, d, hd, hpresent, hdpl, hfits.1⟩

/-! ### The whole state -/

/-- **What is left of the checks**, if the state was built. -/
theorem taskOk_state_iff :
    s.TaskOk gdt memory r (l.state kind c tops) ↔
      l.iopl ≤ r ∧ l.ldt = r.ldtSelector ∧ s.RegisterOk gdt r .code l.code ∧
        s.RegisterOk gdt r .stack l.data ∧ s.RegisterOk gdt r .data l.gs ∧
        ∀ k ∈ r.inner, InnerStackOk memory r k ((l.state kind c tops).innerStack k) := by
  have hiopl : (l.state kind c tops).iopl = l.iopl := ofBits_initialEflags kind l.iopl
  constructor
  · intro h
    have hgs : l.gs ∈ [l.data, l.data, l.data, l.gs] := by simp
    exact ⟨hiopl ▸ h.iopl, h.ldt, h.code, h.stack, h.data _ hgs, h.inner⟩
  · rintro ⟨hle, hldt, hcode, hstack, hgs, hinner⟩
    exact {
      backLink := rfl
      eflags := initialEflags_allowed kind l.iopl
      iopl := hiopl ▸ hle
      ioMap := by
        change Tss.limit.toNat < noIoMap.toNat
        decide
      ldt := hldt
      code := hcode
      stack := hstack
      data := List.forall_mem_cons.2 ⟨hstack.data_of_stack, List.forall_mem_cons.2
        ⟨hstack.data_of_stack, List.forall_mem_cons.2
          ⟨hstack.data_of_stack, List.forall_mem_singleton.2 hgs⟩⟩⟩
      inner := hinner }

/-- What the owner of a slot hands over is refused for its contents alone. -/
theorem depositTss_owner_iff {slot : TaskSlot} {selector : Selector} {t : Tss} {x : Word × Vault}
    (hslot : TaskSlot.ofSelector? selector = some slot) :
    s.depositTss gdt memory slot.owner selector t = .ok x ↔
      s.TaskOk gdt memory slot.owner t ∧
        x = (s.address.tss slot, s.setTss slot { t with cr3 := s.directory }) := by
  rw [depositTss_eq_ok_iff]
  constructor
  · rintro ⟨slot', hslot', -, hok, rfl⟩
    obtain rfl := Option.some.inj (hslot.symm.trans hslot')
    exact ⟨hok, rfl⟩
  · rintro ⟨hok, rfl⟩
    exact ⟨slot, hslot, rfl, hok, rfl⟩

end Vault

namespace TaskSegments

/-- What the core asks of the segments that a task of ring `r` is built with, and of the tops of
its stacks for the inner rings. -/
structure Admitted (l : TaskSegments) (s : Vault) (gdt : DescriptorTable) (memory : RingMemory)
    (r : Ring) (tops : List Word) : Prop where
  iopl : l.iopl ≤ r
  ldt : l.ldt = r.ldtSelector
  code : s.Names gdt r l.code fun d => d.isCode ∧ d.access.conforming = false
  data : s.Names gdt r l.data fun d => d.isData ∧ d.access.readWrite
  gs : l.gs.isNull ∨ s.Names gdt r l.gs fun d => d.isData
  inner : ∀ top ∈ tops.take r.level, 32 ≤ top.toNat ∧ memory.owns r (top - 32) 32

theorem admitted_iff (hlevel : r.level ≤ tops.length) :
    s.TaskOk gdt memory r (l.state kind c tops) ↔ l.Admitted s gdt memory r tops := by
  rw [Vault.taskOk_state_iff, Vault.registerOk_iff_names (by decide),
    Vault.registerOk_iff_names (by decide), Vault.registerOk_data_iff,
    innerStacksOk_state_iff hlevel]
  exact ⟨fun ⟨hiopl, hldt, hcode, hdata, hgs, hstacks⟩ =>
      ⟨hiopl, hldt, hcode, hdata, hgs, hstacks⟩,
    fun h => ⟨h.iopl, h.ldt, h.code, h.data, h.gs, h.inner⟩⟩

theorem build_eq_ok_iff {t : Tss} :
    l.build kind c tops = .ok t ↔
      (l.ring.level ≤ tops.length ∧ tops.length ≤ 3) ∧ t = l.state kind c tops := by
  rw [build, seq_eq_ok_iff, ensure_eq_ok_iff]
  exact and_congr_right fun _ => ⟨fun h => (Except.ok.inj h).symm, fun h => h ▸ rfl⟩

/-- **The core accepts what is built**, and refuses nothing of it without a reason. Take any tables,
any memory, a slot for a task and segments of the ring that the slot is for. Task state is built if
there is a stack for every inner ring, and no more than three. It is then accepted for the slot
exactly if the segments are `Admitted`. The copy that the core keeps is the state as it was built,
but for the page directory; interrupts are on unless the task serves one, and the I/O privilege is
that of the segments. -/
theorem accepted_iff_admitted {slot : TaskSlot} {selector : Selector}
    (hslot : TaskSlot.ofSelector? selector = some slot) (hring : l.ring = slot.owner)
    (s : Vault) (gdt : DescriptorTable) (memory : RingMemory) (kind : TaskKind) (c : TaskStart)
    (tops : List Word) :
    ((∃ t, l.build kind c tops = .ok t) ↔
      slot.owner.level ≤ tops.length ∧ tops.length ≤ 3) ∧
    ∀ t, l.build kind c tops = .ok t →
      ((∃ x, s.depositTss gdt memory slot.owner selector t = .ok x) ↔
        l.Admitted s gdt memory slot.owner tops) ∧
      ∀ address s', s.depositTss gdt memory slot.owner selector t = .ok (address, s') →
        address = s.address.tss slot ∧ s' = s.setTss slot { t with cr3 := s.directory } ∧
          ((s'.tss slot).eflags.getLsbD 9 ↔ kind ≠ .irq) ∧ (s'.tss slot).iopl = l.iopl := by
  have hbuild {t : Tss} : l.build kind c tops = .ok t ↔
      (slot.owner.level ≤ tops.length ∧ tops.length ≤ 3) ∧ t = l.state kind c tops := by
    rw [build_eq_ok_iff, hring]
  refine ⟨⟨fun ⟨t, ht⟩ => (hbuild.1 ht).1, fun h => ⟨_, hbuild.2 ⟨h, rfl⟩⟩⟩, fun t ht => ?_⟩
  obtain ⟨⟨hlevel, -⟩, rfl⟩ := hbuild.1 ht
  refine ⟨?_, fun address s' hs' => ?_⟩
  · rw [← admitted_iff hlevel]
    exact ⟨fun ⟨_, hx⟩ => ((Vault.depositTss_owner_iff hslot).1 hx).1,
      fun hok => ⟨_, (Vault.depositTss_owner_iff hslot).2 ⟨hok, rfl⟩⟩⟩
  · obtain ⟨-, heq⟩ := (Vault.depositTss_owner_iff hslot).1 hs'
    obtain ⟨rfl, rfl⟩ := Prod.mk.inj heq
    refine ⟨rfl, rfl, ?_, ?_⟩
    · rw [Vault.tss_setTss, if_pos rfl]
      exact getLsbD_initialEflags kind l.iopl
    · rw [Vault.tss_setTss, if_pos rfl]
      exact ofBits_initialEflags kind l.iopl

/-- The core after the services have handed over their local table. -/
def serviceVault : Vault where
  address := ⟨fun _ => 0x500000, fun _ => 0x501000⟩
  directory := 0x3000
  ldt := fun k => if k = .libs then .ofRing .libs Roster.libs.pageLimit else {}

/-- An interrupt task of the services is accepted with just the room for a frame below the tops of
its inner stacks, and refused with one byte less. -/
theorem accepted_iff_admitted_serviceTask :
    let l := Roster.libs.segments
    let slot := TaskSlot.libsIrq
    let selector := SelectorMap.libsIrqTask
    TaskSlot.ofSelector? selector = some slot ∧ l.ring = slot.owner ∧
      (∃ t s', l.build .irq ⟨0x400000, 0x410000, 0⟩ [32, 32] = .ok t ∧
        serviceVault.depositTss ⟨#[]⟩ .ownedByAll .libs selector t = .ok (0x500000, s') ∧
        (s'.tss slot).eflags.getLsbD 9 = false ∧ (s'.tss slot).iopl = .libs) ∧
      ∃ t, l.build .irq ⟨0x400000, 0x410000, 0⟩ [32, 31] = .ok t ∧
        ¬ ∃ x, serviceVault.depositTss ⟨#[]⟩ .ownedByAll .libs selector t = .ok x := by
  intro l slot selector
  have hslot : TaskSlot.ofSelector? SelectorMap.libsIrqTask = some .libsIrq := by decide
  have hring : l.ring = slot.owner := rfl
  have hadmitted : l.Admitted serviceVault ⟨#[]⟩ .ownedByAll .libs [32, 32] := {
    iopl := by decide
    ldt := rfl
    code := ⟨by decide, (Ldt.ofRing .libs Roster.libs.pageLimit).code, by decide, by decide⟩
    data := ⟨by decide, (Ldt.ofRing .libs Roster.libs.pageLimit).data, by decide, by decide⟩
    gs := Or.inr ⟨by decide, (Ldt.ofRing .libs Roster.libs.pageLimit).data, by decide, by decide⟩
    inner := by
      intro top htop
      have heq : top = 32 := by simpa [Ring.level] using htop
      subst heq
      exact ⟨by decide, rfl⟩ }
  have hnotAdmitted : ¬ l.Admitted serviceVault ⟨#[]⟩ .ownedByAll .libs [32, 31] := by
    intro h
    have hroom := (h.inner 31 (by decide)).1
    exact absurd hroom (by decide)
  obtain ⟨hbuilt, hchecked⟩ :=
    accepted_iff_admitted hslot hring serviceVault ⟨#[]⟩ .ownedByAll .irq
      ⟨0x400000, 0x410000, 0⟩ [32, 32]
  obtain ⟨hbuilt', hchecked'⟩ :=
    accepted_iff_admitted hslot hring serviceVault ⟨#[]⟩ .ownedByAll .irq
      ⟨0x400000, 0x410000, 0⟩ [32, 31]
  obtain ⟨t, ht⟩ := hbuilt.2 (by decide)
  obtain ⟨t', ht'⟩ := hbuilt'.2 (by decide)
  obtain ⟨haccepted, hcopy⟩ := hchecked t ht
  obtain ⟨⟨address, s'⟩, hs'⟩ := haccepted.2 hadmitted
  obtain ⟨rfl, -, hif, hiopl⟩ := hcopy address s' hs'
  refine ⟨hslot, hring, ⟨t, s', ht, hs', ?_, hiopl⟩, t', ht', ?_⟩
  · exact Bool.eq_false_iff.2 fun hset => hif.1 hset rfl
  · exact mt (hchecked' t' ht').1.1 hnotAdmitted

end TaskSegments

end FourRings
