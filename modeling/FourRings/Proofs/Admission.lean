import FourRings.Gate.Serve
import FourRings.Proofs.Slots

/-!
# What the checks let through

For each check of the core the condition under which it passes, as a proposition: `ValidTarget` and
`MayInstall` for requests on the global table, `RegisterOk`, `InnerStackOk`, `TaskOk` and `EntryOk`
for handed-over task state. The lemmas `…_eq_ok_iff` say that a check passes exactly when its
condition holds. Later modules use the conditions and never open a check again.
-/

namespace FourRings

/-! ### Privilege and reach -/

theorem requirePrivilege_eq_ok_iff {caller required : Ring} :
    requirePrivilege caller required = .ok () ↔ caller ≤ required :=
  ensure_eq_ok_iff

theorem checkReach_eq_ok_iff {r : Ring} {d : Descriptor} :
    checkReach r d = .ok () ↔ d.WithinReach r :=
  ensure_eq_ok_iff

/-! ### Requests on the global table -/

/-- A selector of the global table that names a present code segment which is no more privileged
than `caller`. -/
def ValidTarget (gdt : DescriptorTable) (caller : Ring) (s : Selector) : Prop :=
  s.isLocal = false ∧
    ∃ d, gdt.slots[s.index]? = some d ∧ d.present ∧ d.isCode ∧ caller ≤ d.dpl

variable {gdt : DescriptorTable} {caller : Ring} {current d : Descriptor}

theorem checkTarget_eq_ok_iff {s : Selector} :
    checkTarget gdt caller s = .ok () ↔ ValidTarget gdt caller s := by
  unfold checkTarget ValidTarget
  by_cases hl : s.isLocal
  · simp [hl]
  · rw [if_neg hl]
    cases hd : gdt.getAt s with
    | error e =>
      refine ⟨fun h => (by cases h), ?_⟩
      rintro ⟨-, d, h, -⟩
      rw [DescriptorTable.getAt, DescriptorTable.get_eq_ok_iff.2 h] at hd
      cases hd
    | ok d =>
      have hslot := DescriptorTable.get_eq_ok_iff.1 hd
      simp only [seq_eq_ok_iff, ensure_eq_ok_iff, requirePrivilege_eq_ok_iff]
      constructor
      · rintro ⟨⟨hp, hc⟩, hr⟩
        exact ⟨by simpa using hl, d, hslot, hp, hc, hr⟩
      · rintro ⟨-, d', h, hp, hc, hr⟩
        obtain rfl : d = d' := Option.some.inj (hslot.symm.trans h)
        exact ⟨⟨hp, hc⟩, hr⟩

theorem checkOverwrite_eq_ok_iff :
    checkOverwrite caller current = .ok () ↔
      (current.present → caller ≤ current.dpl ∧ (caller = .core ∨ current.systemType? = none)) := by
  unfold checkOverwrite
  split
  · rename_i hp
    simp [seq_eq_ok_iff, ensure_eq_ok_iff, requirePrivilege_eq_ok_iff, hp]
  · rename_i hp
    simp [hp]

theorem checkOuterDescriptor_eq_ok_iff :
    checkOuterDescriptor caller d = .ok () ↔
      d.systemType? = some .callGate ∨ (d.access.isSegment ∧ d.WithinReach caller) := by
  unfold checkOuterDescriptor
  by_cases hg : d.systemType? = some .callGate
  · simp [hg]
  · by_cases hs : d.access.isSegment <;> simp [hg, hs, checkReach_eq_ok_iff]

/-- The conditions under which `caller` may put `d` into a slot that holds `current`. -/
structure MayInstall (gdt : DescriptorTable) (caller : Ring) (current d : Descriptor) : Prop where
  overwrite : current.present →
    caller ≤ current.dpl ∧ (caller = .core ∨ current.systemType? = none)
  dpl : caller ≤ d.dpl
  target : d.isGate → ValidTarget gdt caller d.gateSelector
  /-- Outer rings install present descriptors of two kinds only. -/
  outer : caller ≠ .core ∧ d.present →
    d.systemType? = some .callGate ∨ (d.access.isSegment ∧ d.WithinReach caller)

theorem permitRaw_eq_ok_iff :
    permitRaw gdt caller current d = .ok () ↔ MayInstall gdt caller current d := by
  have houter : ((if caller ≠ .core ∧ d.present then checkOuterDescriptor caller d
        else pure ()) : Except Refusal Unit) = .ok () ↔
      (caller ≠ .core ∧ d.present →
        d.systemType? = some .callGate ∨ (d.access.isSegment ∧ d.WithinReach caller)) := by
    split
    · rename_i h
      rw [checkOuterDescriptor_eq_ok_iff]
      exact ⟨fun hd _ => hd, fun hd => hd h⟩
    · rename_i h
      exact ⟨fun _ hd => absurd hd h, fun _ => rfl⟩
  unfold permitRaw
  rw [seq_eq_ok_iff, seq_eq_ok_iff, checkOverwrite_eq_ok_iff, requirePrivilege_eq_ok_iff]
  by_cases hg : d.isGate
  · rw [if_pos hg, seq_eq_ok_iff, checkTarget_eq_ok_iff]
    exact ⟨fun ⟨h, hr, ht, ho⟩ => ⟨h, hr, fun _ => ht, houter.1 ho⟩,
      fun h => ⟨h.overwrite, h.dpl, h.target hg, houter.2 h.outer⟩⟩
  · rw [if_neg hg]
    exact ⟨fun ⟨h, hr, ho⟩ => ⟨h, hr, fun hg' => absurd hg' hg, houter.1 ho⟩,
      fun h => ⟨h.overwrite, h.dpl, houter.2 h.outer⟩⟩

theorem permitHandover_eq_ok_iff :
    permitHandover caller current = .ok () ↔
      caller ≤ current.dpl ∧ (caller = .core ∨ current.systemType? ≠ some .tssBusy) := by
  rw [permitHandover, seq_eq_ok_iff, requirePrivilege_eq_ok_iff, ensure_eq_ok_iff]

/-! ### Task state -/

namespace Vault

variable {s : Vault} {memory : RingMemory} {r k : Ring}

/-- A register that a task of ring `r` may start with. -/
def RegisterOk (s : Vault) (gdt : DescriptorTable) (r : Ring) (u : SegmentUse)
    (selector : Selector) : Prop :=
  (u = .data ∧ selector.isNull) ∨
    (selector.rpl = r ∧
      ∃ d, s.segment? gdt r selector = some d ∧ d.present ∧ d.dpl = r ∧ u.Fits d)

theorem checkRegister_eq_ok_iff {u : SegmentUse} {selector : Selector} :
    s.checkRegister gdt r u selector = .ok () ↔ s.RegisterOk gdt r u selector := by
  unfold checkRegister RegisterOk
  by_cases hn : u = .data ∧ selector.isNull
  · simp [hn]
  · rw [if_neg hn, seq_eq_ok_iff, ensure_eq_ok_iff]
    cases s.segment? gdt r selector with
    | none => simp [hn]
    | some d => simp [hn, seq_eq_ok_iff, ensure_eq_ok_iff, and_assoc]

/-- A stack for entries to ring `k` of a task of ring `r`. -/
def InnerStackOk (memory : RingMemory) (r k : Ring) (p : StackPointer) : Prop :=
  p.ss = k.dataSelector ∧ frameRoom ≤ p.esp.toNat ∧
    memory.owns r (p.esp - BitVec.ofNat 32 frameRoom) frameRoom

theorem checkInnerStack_eq_ok_iff {p : StackPointer} :
    checkInnerStack memory r k p = .ok () ↔ InnerStackOk memory r k p := by
  simp only [checkInnerStack, InnerStackOk, seq_eq_ok_iff, ensure_eq_ok_iff]

/-- Task state that a task of ring `r` may start with. -/
structure TaskOk (s : Vault) (gdt : DescriptorTable) (memory : RingMemory) (r : Ring)
    (t : Tss) : Prop where
  backLink : t.backLink = 0
  eflags : t.eflags &&& ~~~allowedEflags = 0
  iopl : t.iopl ≤ r
  ioMap : Tss.limit.toNat < t.ioMapBase.toNat
  ldt : t.ldt = r.ldtSelector
  code : s.RegisterOk gdt r .code t.cs
  stack : s.RegisterOk gdt r .stack t.ss
  data : ∀ x ∈ [t.ds, t.es, t.fs, t.gs], s.RegisterOk gdt r .data x
  inner : ∀ k ∈ r.inner, InnerStackOk memory r k (t.innerStack k)

theorem checkTask_eq_ok_iff {t : Tss} :
    s.checkTask gdt memory r t = .ok () ↔ s.TaskOk gdt memory r t := by
  simp only [checkTask, seq_eq_ok_iff, ensure_eq_ok_iff, forM_eq_ok_iff, checkRegister_eq_ok_iff,
    checkInnerStack_eq_ok_iff]
  exact ⟨fun ⟨h₁, h₂, h₃, h₄, h₅, h₆, h₇, h₈, h₉⟩ => ⟨h₁, h₂, h₃, h₄, h₅, h₆, h₇, h₈, h₉⟩,
    fun h => ⟨h.backLink, h.eflags, h.iopl, h.ioMap, h.ldt, h.code, h.stack, h.data, h.inner⟩⟩

/-- An entry of a local table of ring `r`. -/
def EntryOk (r : Ring) (d : Descriptor) : Prop :=
  d.isNull ∨ (d.present ∧ d.access.isSegment ∧ d.dpl = r ∧ d.WithinReach r)

theorem checkEntry_eq_ok_iff : checkEntry r d = .ok () ↔ EntryOk r d := by
  unfold checkEntry EntryOk
  by_cases hn : d.isNull
  · simp [hn]
  · simp [hn, seq_eq_ok_iff, ensure_eq_ok_iff, checkReach_eq_ok_iff, and_assoc]

/-! ### Deposits -/

theorem depositTss_eq_ok_iff {selector : Selector} {t : Tss} {x : Word × Vault} :
    s.depositTss gdt memory r selector t = .ok x ↔
      ∃ slot, TaskSlot.ofSelector? selector = some slot ∧ slot.owner = r ∧
        s.TaskOk gdt memory r t ∧
        x = (s.address.tss slot, s.setTss slot { t with cr3 := s.directory }) := by
  unfold depositTss
  cases TaskSlot.ofSelector? selector with
  | none => simp
  | some slot =>
    simp only [seq_eq_ok_iff, ensure_eq_ok_iff, checkTask_eq_ok_iff, pure, Except.pure,
      Except.ok.injEq, Option.some.injEq]
    constructor
    · rintro ⟨ho, ht, rfl⟩
      exact ⟨slot, rfl, ho, ht, rfl⟩
    · rintro ⟨slot', rfl, ho, ht, rfl⟩
      exact ⟨ho, ht, rfl⟩

theorem depositLdt_eq_ok_iff {selector : Selector} {l : Ldt} {limit : Word} {x : Word × Vault} :
    s.depositLdt r selector l limit = .ok x ↔
      ∃ slot, LdtSlot.ofSelector? selector = some slot ∧ slot.owner = r ∧
        (limit = 7 ∨ limit = Ldt.limit) ∧ (∀ d ∈ (trimLdt l limit).entries, EntryOk r d) ∧
        x = (s.address.ldt slot, s.setLdt slot (trimLdt l limit)) := by
  unfold depositLdt
  cases LdtSlot.ofSelector? selector with
  | none => simp
  | some slot =>
    simp only [seq_eq_ok_iff, ensure_eq_ok_iff, forM_eq_ok_iff, checkEntry_eq_ok_iff, pure,
      Except.pure, Except.ok.injEq, Option.some.injEq]
    constructor
    · rintro ⟨ho, hl, he, rfl⟩
      exact ⟨slot, rfl, ho, hl, he, rfl⟩
    · rintro ⟨slot', rfl, ho, hl, he, rfl⟩
      exact ⟨ho, hl, he, rfl⟩

end Vault

end FourRings
