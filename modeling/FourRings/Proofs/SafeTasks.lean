import FourRings.Proofs.Run

/-!
# Safe tasks

The processor can switch to whatever lies in the vault. `Vault.Safe` says what that means of every
copy: task state without privilege beyond its ring, whose stacks for the inner rings belong to the
ring itself, and local tables that do not reach further than the ring. `deposited_state_safe` is the
main statement: requests of any rings, in any order and on any global table, keep the vault safe.
-/

namespace FourRings

/-! ### Safe copies -/

/-- The bits of the flags that a task may start with: the one that is always set, interrupts, and
the two of the I/O privilege. -/
def startBits : List Nat := [1, 9, 12, 13]

/-- Task state of ring `r` that runs with a page directory and whose inner stacks `r` owns. -/
structure SafeTask (owns : Ring → Word → Nat → Bool) (directory : Word) (r : Ring) (t : Tss) :
    Prop where
  backLink : t.backLink = 0
  eflags (i : Nat) : t.eflags.getLsbD i → i ∈ startBits
  iopl : t.iopl ≤ r
  ioMap : 103 < t.ioMapBase.toNat
  ldt : t.ldt = r.ldtSelector
  cr3 : t.cr3 = directory
  code : t.cs.rpl = r
  stack : t.ss.rpl = r
  data : ∀ x ∈ [t.ds, t.es, t.fs, t.gs], x.isNull ∨ x.rpl = r
  inner (k : Ring) : k < r → (t.innerStack k).ss = k.dataSelector ∧
    32 ≤ (t.innerStack k).esp.toNat ∧ owns r ((t.innerStack k).esp - 32) 32

/-- An entry of a local table of ring `r` that reaches no further than `r`. The end of the segment
is computed without a bound. -/
def SafeEntry (r : Ring) (d : Descriptor) : Prop :=
  d.isNull ∨ (d.present ∧ d.access.isSegment ∧ d.isExpandDown = false ∧ d.dpl = r ∧
    d.base.toNat + d.byteLimit.toNat + 1 ≤ r.reach)

/-- Every copy is empty or safe. -/
structure Vault.Safe (owns : Ring → Word → Nat → Bool) (directory : Word) (s : Vault) : Prop where
  directory_eq : s.directory = directory
  task (k : TaskSlot) : s.tss k = {} ∨ SafeTask owns directory k.owner (s.tss k)
  table (k : LdtSlot) : ∀ d ∈ (s.ldt k).entries, SafeEntry k.owner d

/-! ### What is deposited -/

theorem getLsbD_of_and_not_eq_zero {w : Nat} {x mask : BitVec w} (h : x &&& ~~~mask = 0#w) {i : Nat}
    (hi : x.getLsbD i) : mask.getLsbD i := by
  have hmask : (x &&& ~~~mask).getLsbD i = false := by rw [h, BitVec.getLsbD_zero]
  rw [BitVec.getLsbD_and, BitVec.getLsbD_not, hi, Bool.true_and] at hmask
  simpa [BitVec.lt_of_getLsbD hi] using hmask

theorem mem_startBits {i : Nat} (h : Vault.allowedEflags.getLsbD i) : i ∈ startBits := by
  have hi : i < 32 := BitVec.lt_of_getLsbD h
  have hall : ∀ i < 32, Vault.allowedEflags.getLsbD i → i ∈ startBits := by decide
  exact hall i hi h

namespace Vault

variable {owns : Ring → Word → Nat → Bool} {directory : Word} {s : Vault} {gdt : DescriptorTable}
  {memory : RingMemory} {r : Ring}

theorem RegisterOk.rpl_eq {u : SegmentUse} {selector : Selector}
    (h : s.RegisterOk gdt r u selector) (hu : u ≠ .data) : selector.rpl = r := by
  rcases h with ⟨hdata, -⟩ | ⟨hrpl, -⟩
  · exact absurd hdata hu
  · exact hrpl

theorem RegisterOk.isNull_or_rpl_eq {u : SegmentUse} {selector : Selector}
    (h : s.RegisterOk gdt r u selector) : selector.isNull ∨ selector.rpl = r := by
  rcases h with ⟨-, hnull⟩ | ⟨hrpl, -⟩
  · exact Or.inl hnull
  · exact Or.inr hrpl

/-- Task state that passes the checks is safe once it has the page directory. -/
theorem TaskOk.safe {t : Tss} (h : s.TaskOk gdt memory r t) (howns : memory.owns = owns) :
    SafeTask owns directory r { t with cr3 := directory } where
  backLink := h.backLink
  eflags _ hi := mem_startBits (getLsbD_of_and_not_eq_zero h.eflags hi)
  iopl := h.iopl
  ioMap := h.ioMap
  ldt := h.ldt
  cr3 := rfl
  code := h.code.rpl_eq (by decide)
  stack := h.stack.rpl_eq (by decide)
  data x hx := (h.data x hx).isNull_or_rpl_eq
  inner k hk := by
    obtain ⟨hss, hroom, hown⟩ := h.inner k (Ring.mem_inner.2 hk)
    rw [howns] at hown
    exact ⟨hss, hroom, hown⟩

theorem EntryOk.safe {d : Descriptor} (h : EntryOk r d) : SafeEntry r d := by
  rcases h with hnull | ⟨hpresent, hsegment, hdpl, hup, hstop⟩
  · exact Or.inl hnull
  · exact Or.inr ⟨hpresent, hsegment, hup, hdpl, hstop⟩

/-- A new vault is safe. -/
theorem Safe.new (a : VaultAddresses) : Safe owns directory { address := a, directory } where
  directory_eq := rfl
  task _ := Or.inl rfl
  table k d hd := by
    refine Or.inl ?_
    rcases List.mem_cons.1 hd with rfl | hd
    · rfl
    · obtain rfl := List.mem_singleton.1 hd
      rfl

end Vault

/-! ### Runs -/

/-- Requests under an ownership policy, and anything that happens to the global table between
them. -/
def Event.UnderPolicy (owns : Ring → Word → Nat → Bool) : Event → Prop
  | .request memory _ _ => memory.owns = owns
  | .setGdt _ => True
  | .setDirectory _ | .setVault _ => False

namespace Tables

variable {owns : Ring → Word → Nat → Bool} {directory : Word} {t : Tables}

/-- **A deposit keeps the vault safe.** -/
theorem Deposit.safe {memory : RingMemory} {caller : Ring} {q : TableRequest} {address : Word}
    {vault : Vault} (h : t.vault.Safe owns directory) (howns : memory.owns = owns)
    (deposit : Deposit t memory caller q address vault) : vault.Safe owns directory := by
  cases deposit with
  | @tss _ _ slot _ _ owner _ _ ok =>
    refine ⟨h.directory_eq, fun k => ?_, h.table⟩
    rw [Vault.tss_setTss]
    split
    · rename_i hk
      rw [hk, owner, h.directory_eq]
      exact Or.inr (ok.safe howns)
    · exact h.task k
  | @ldt _ _ _ slot _ _ owner _ _ _ ok =>
    refine ⟨h.directory_eq, h.task, fun k => ?_⟩
    rw [Vault.ldt_setLdt]
    split
    · rename_i hk
      rw [hk, owner]
      exact fun d hd => (ok d hd).safe
    · exact h.table k

theorem safe_after {e : Event} (h : t.vault.Safe owns directory) (he : e.UnderPolicy owns) :
    (t.after e).vault.Safe owns directory := by
  cases e with
  | request memory caller r =>
    rw [after]
    rcases t.vault_serve_cases memory caller r with heq | ⟨q, address, deposit⟩
    · rw [heq]
      exact h
    · exact deposit.safe h he
  | setDirectory directory => exact absurd he id
  | setGdt gdt => exact h
  | setVault vault => exact absurd he id

end Tables

/-! ### Frames on inner stacks -/

/-- The region of an outer ring ends where the core's begins or below. -/
theorem Ring.region_stop_le {r : Ring} (h : r ≠ .core) :
    r.region.stop ≤ Ring.core.region.start := by
  cases r <;> first | decide | exact absurd rfl h

/-- A frame on an inner stack lies in the region of the task's own ring, below all that belongs to
the core. -/
theorem SafeTask.frame_mem_region {directory : Word} {r k : Ring} {t : Tss}
    (h : SafeTask RingMemory.regions.owns directory r t) (hk : k < r) {a : Nat}
    (ha : (t.innerStack k).esp.toNat - 32 ≤ a) (ha' : a < (t.innerStack k).esp.toNat) :
    a ∈ r.region ∧ a < Ring.core.region.start := by
  obtain ⟨-, hroom, howns⟩ := h.inner k hk
  obtain ⟨hr, hstart, hstop⟩ : r ≠ .core ∧
      r.region.Covers ((t.innerStack k).esp - 32).toNat 32 := by
    simpa [RingMemory.regions] using howns
  have hsub : ((t.innerStack k).esp - 32).toNat = (t.innerStack k).esp.toNat - 32 :=
    BitVec.toNat_sub_of_le hroom
  have hcore := Ring.region_stop_le hr
  rw [hsub] at hstart hstop
  refine ⟨AddressRange.mem_iff.2 ⟨?_, ?_⟩, ?_⟩ <;> omega

/-- **Adopted task state is always safe to switch to.** After any run of requests under one policy
of ownership, on any global tables, the vault that was new at its start is safe. If each outer ring
owns its region and nothing else, no frame on an inner stack of a task touches the core. -/
theorem deposited_state_safe (owns : Ring → Word → Nat → Bool) (directory : Word)
    (a : VaultAddresses) (gdt : DescriptorTable) {events : List Event}
    (he : ∀ e ∈ events, e.UnderPolicy owns) :
    let s := (Tables.run ⟨gdt, { address := a, directory }⟩ events).vault
    s.Safe owns directory ∧
      (owns = RingMemory.regions.owns → ∀ slot : TaskSlot, s.tss slot = {} ∨
        ∀ k < slot.owner, ∀ addr, ((s.tss slot).innerStack k).esp.toNat - 32 ≤ addr →
          addr < ((s.tss slot).innerStack k).esp.toNat →
          addr ∈ slot.owner.region ∧ addr < Ring.core.region.start) := by
  intro s
  have h : s.Safe owns directory :=
    Tables.run_induction (P := fun t => t.vault.Safe owns directory)
      (fun _ _ h he => Tables.safe_after h he) (Vault.Safe.new a) he
  refine ⟨h, ?_⟩
  rintro rfl slot
  refine (h.task slot).imp_right fun hsafe k hk addr ha ha' => ?_
  exact hsafe.frame_mem_region hk ha ha'

/-- Task state of the shared services that runs on their local segments. Its stack for the core ends
where the region of the services does. -/
def edgeTask : Tss where
  eflags := 0x202
  cs := Ring.libs.localCode
  ss := Ring.libs.localData
  ldt := Ring.libs.ldtSelector
  ioMapBase := 0xFFFF
  stack0 := ⟨0x7CF000, Ring.core.dataSelector⟩
  stack1 := ⟨0x7CE000, Ring.devs.dataSelector⟩

/-- The start of the region of the shared services: their local table, and task state behind it. -/
def servicesMemory : RingMemory :=
  (RingMemory.regions.withLdt 0x7BF000 (.ofRing .libs 0x7CE)).withTss 0x7BF010 edgeTask

/-- A run in which the shared services hand over both, while the global table changes. -/
def servicesRun : List Event :=
  [.setGdt (DescriptorTable.boot 38),
    .request servicesMemory .libs
      (TableRequest.encode (.ldt Ring.libs.ldtSelector 0x7BF000 Ldt.limit)),
    .request servicesMemory .libs
      (TableRequest.encode (.tss SelectorMap.libsIrqTask 0x7BF010)),
    .setGdt ⟨#[]⟩]

/-- The vault after that run. -/
def servicesVault : Vault :=
  (Tables.run ⟨⟨#[]⟩, { address := ⟨fun _ => 0x600, fun _ => 0x700⟩, directory := 0x1000 }⟩
    servicesRun).vault

theorem deposited_state_safe_servicesRun :
    (∀ e ∈ servicesRun, e.UnderPolicy RingMemory.regions.owns) ∧
      servicesVault.ldt .libs = .ofRing .libs 0x7CE ∧
      servicesVault.tss .libsIrq = { edgeTask with cr3 := 0x1000 } ∧
      servicesVault.Safe RingMemory.regions.owns 0x1000 ∧
      ∀ k < Ring.libs, ∀ addr, (edgeTask.innerStack k).esp.toNat - 32 ≤ addr →
        addr < (edgeTask.innerStack k).esp.toNat →
        addr ∈ Ring.libs.region ∧ addr < Ring.core.region.start := by
  have hevents : ∀ e ∈ servicesRun, e.UnderPolicy RingMemory.regions.owns := by
    intro e he
    simp only [servicesRun, List.mem_cons, List.not_mem_nil, or_false] at he
    rcases he with rfl | rfl | rfl | rfl
    · trivial
    · rfl
    · rfl
    · trivial
  have htable : servicesVault.ldt .libs = .ofRing .libs 0x7CE := by decide +kernel
  have htask : servicesVault.tss .libsIrq = { edgeTask with cr3 := 0x1000 } := by decide +kernel
  obtain ⟨hsafe, hframes⟩ := deposited_state_safe RingMemory.regions.owns 0x1000
    ⟨fun _ => 0x600, fun _ => 0x700⟩ ⟨#[]⟩ hevents
  have hedge := (hframes rfl .libsIrq).resolve_left (by decide +kernel)
  rw [← servicesVault, htask] at hedge
  exact ⟨hevents, htable, htask, hsafe, hedge⟩

end FourRings
