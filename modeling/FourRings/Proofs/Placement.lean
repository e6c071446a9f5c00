import FourRings.Boot.Stage
import FourRings.Proofs.BuiltTasks
import FourRings.Task.Block

/-!
# Tasks within their region

Tasks that are built in a block of memory pass the checks of the core if the block lies in the
region of their ring: `taskOk_state` says so of task state, and `entryOk_table` of local tables.
-/

namespace FourRings

/-! ### Addresses -/

theorem AddressRange.Covers.sub {r : AddressRange} {start size n m : Nat}
    (h : r.Covers start size) (hm : n + m ≤ size) : r.Covers (start + n) m := by
  obtain ⟨hstart, hstop⟩ := h
  exact ⟨by omega, by omega⟩

theorem Ring.region_stop_lt (r : Ring) : r.region.stop < MemoryMap.addressSpace := by
  cases r <;> decide

/-- A block within a region does not wrap. -/
theorem Ring.toNat_add_lt {r : Ring} {start size n : Nat} (h : r.region.Covers start size)
    (hn : n ≤ size) : start + n < MemoryMap.addressSpace := by
  have hstop := h.2
  have hlt := r.region_stop_lt
  omega

namespace StackBlock

variable {s : StackBlock} {r k : Ring} {memory : RingMemory}

theorem toNat_top {k : Nat} (h : s.start.toNat + (k + 1) * stackSize < MemoryMap.addressSpace) :
    (s.top k).toNat = s.start.toNat + (k + 1) * stackSize :=
  MemoryMap.toNat_add_ofNat h

theorem getElem?_ringTops {k : Nat} (h : k < s.inner) : s.ringTops[k]? = some (s.top k) := by
  rw [ringTops, List.getElem?_map, List.getElem?_range h, Option.map_some]

/-- Stacks in the region of a ring serve as its inner stacks. -/
theorem innerStackOk (hr : r ≠ .core) (howns : memory.owns r = RingMemory.regions.owns r)
    (hs : r.region.Covers s.start.toNat (size s.inner)) (hk : k.level < s.inner) :
    Vault.InnerStackOk memory r k ⟨s.top k.level, k.dataSelector⟩ := by
  have hsize : (k.level + 1) * stackSize ≤ size s.inner :=
    Nat.mul_le_mul_right stackSize (by omega)
  have htop := toNat_top (Ring.toNat_add_lt hs hsize)
  have hroom : Vault.frameRoom ≤ (k.level + 1) * stackSize :=
    Nat.le_trans (by decide) (Nat.le_mul_of_pos_left stackSize k.level.succ_pos)
  have hle : Vault.frameRoom ≤ (s.top k.level).toNat := by omega
  refine ⟨rfl, hle, ?_⟩
  have hsub : (s.top k.level - BitVec.ofNat 32 Vault.frameRoom).toNat =
      s.start.toNat + ((k.level + 1) * stackSize - Vault.frameRoom) := by
    rw [BitVec.toNat_sub_of_le hle, htop]
    exact Nat.add_sub_assoc hroom _
  have hcovers : r.region.Covers (s.top k.level - BitVec.ofNat 32 Vault.frameRoom).toNat
      Vault.frameRoom := by
    rw [hsub]
    exact hs.sub (by omega)
  simpa [howns, RingMemory.regions] using And.intro hr hcovers

end StackBlock

/-! ### The outer rings -/

namespace OuterRing

def roster : OuterRing → Roster
  | .devs => .devs
  | .libs => .libs
  | .users => .users

/-- The slot for the ring's local table. -/
def ldtSlot : OuterRing → LdtSlot
  | .devs => .devs
  | .libs => .libs
  | .users => .users

/-- The slot for the ring's first task. -/
def first : OuterRing → TaskSlot
  | .devs => .devsIrq
  | .libs => .libsIrq
  | .users => .main

/-- The slot for the ring's second task. -/
def second : OuterRing → TaskSlot
  | .devs => .devsSched
  | .libs => .libsSched
  | .users => .nested

/-- The local table of the ring. -/
def table (o : OuterRing) : Ldt := .ofRing o.ring o.roster.pageLimit

variable {o : OuterRing} {s : Vault} {gdt : DescriptorTable} {memory : RingMemory}

theorem ring_ne_core (o : OuterRing) : o.ring ≠ .core := by
  cases o <;> decide

theorem owner_ldtSlot (o : OuterRing) : o.ldtSlot.owner = o.ring := by
  cases o <;> rfl

theorem entryOk_table (o : OuterRing) : ∀ d ∈ o.table.entries, Vault.EntryOk o.ring d := by
  intro d hd
  have hsegment : d.present ∧ d.access.isSegment ∧ d.dpl = o.ring ∧ d.WithinReach o.ring := by
    rcases List.mem_cons.1 hd with rfl | hd
    · cases o <;> decide
    · obtain rfl := List.mem_singleton.1 hd
      cases o <;> decide
  exact Or.inr hsegment

/-! ### Registers -/

theorem segment?_table {selector : Selector} (hlocal : selector.isLocal)
    (hldt : s.ldt o.ldtSlot = o.table) :
    s.segment? gdt o.ring selector = o.table.entries[selector.index]? := by
  rw [← o.owner_ldtSlot, Vault.segment?_of_isLocal o.ldtSlot hlocal, hldt]

theorem registerOk_localCode (hldt : s.ldt o.ldtSlot = o.table) :
    s.RegisterOk gdt o.ring .code o.ring.localCode := by
  refine Or.inr ⟨Selector.rpl_ofLocal .., o.table.code, ?_, ?_⟩
  · refine (segment?_table (Selector.isLocal_ofLocal 0 o.ring) hldt).trans ?_
    cases o <;> rfl
  · cases o <;> decide

theorem registerOk_localData {u : SegmentUse} (hu : u ≠ .code) (hldt : s.ldt o.ldtSlot = o.table) :
    s.RegisterOk gdt o.ring u o.ring.localData := by
  refine Or.inr ⟨Selector.rpl_ofLocal .., o.table.data, ?_, ?_⟩
  · refine (segment?_table (Selector.isLocal_ofLocal 1 o.ring) hldt).trans ?_
    cases o <;> rfl
  · cases u with
    | code => exact absurd rfl hu
    | stack => cases o <;> decide
    | data => cases o <;> decide

/-- The two windows that tasks use beside their local segments. -/
def windows : List Selector := [SelectorMap.devsWindow, SelectorMap.usersWindow]

theorem registerOk_window {r : Ring} {w : Selector} {d : Descriptor} (hlocal : w.isLocal = false)
    (hrpl : w.rpl = r) (hslot : gdt.slots[w.index]? = some d)
    (hd : d.present ∧ d.dpl = r ∧ SegmentUse.data.Fits d) : s.RegisterOk gdt r .data w := by
  refine Or.inr ⟨hrpl, d, ?_, hd⟩
  rw [Vault.segment?, if_neg (by simp [hlocal]), DescriptorTable.getAt,
    DescriptorTable.get_eq_ok_iff.2 hslot]
  rfl

theorem registerOk_gs (hldt : s.ldt o.ldtSlot = o.table)
    (hgdt : ∀ w ∈ windows, gdt.slots[w.index]? = BootMap.slot? w.index) :
    s.RegisterOk gdt o.ring .data o.roster.segments.gs := by
  cases o with
  | devs =>
    have hslot := hgdt SelectorMap.devsWindow (by decide)
    refine registerOk_window (d := BootMap.flat .core .dataKind .devs) rfl rfl (hslot.trans ?_)
      (by decide)
    decide +kernel
  | libs => exact registerOk_localData (o := .libs) (by decide) hldt
  | users =>
    have hslot := hgdt SelectorMap.usersWindow (by decide)
    refine registerOk_window (d := BootMap.flat .devs .dataKind .users) rfl rfl (hslot.trans ?_)
      (by decide)
    decide +kernel

/-- **Task state whose stacks lie in the ring's region passes the checks.** -/
theorem taskOk_state (howns : memory.owns o.ring = RingMemory.regions.owns o.ring)
    (hldt : s.ldt o.ldtSlot = o.table)
    (hgdt : ∀ w ∈ windows, gdt.slots[w.index]? = BootMap.slot? w.index)
    (kind : TaskKind) (c : TaskStart) {room : StackBlock} (hinner : room.inner = o.ring.level)
    (hstacks : o.ring.region.Covers room.start.toNat (StackBlock.size room.inner)) :
    s.TaskOk gdt memory o.ring (o.roster.segments.state kind c room.ringTops) := by
  have hiopl : o.roster.segments.iopl ≤ o.ring := by cases o <;> exact Nat.le_refl _
  have hsegments : o.roster.segments.ldt = o.ring.ldtSelector ∧
      o.roster.segments.code = o.ring.localCode ∧ o.roster.segments.data = o.ring.localData := by
    cases o <;> exact ⟨rfl, rfl, rfl⟩
  obtain ⟨hselector, hcode, hdata⟩ := hsegments
  refine Vault.taskOk_state_iff.2 ⟨hiopl, hselector, ?_, ?_, registerOk_gs hldt hgdt,
    fun k hk => ?_⟩
  · rw [hcode]
    exact registerOk_localCode hldt
  · rw [hdata]
    exact registerOk_localData (by decide) hldt
  · have hlt := Ring.mem_inner.1 hk
    have hroom : k.level < room.inner := hinner ▸ hlt
    rw [TaskSegments.innerStack_state (Ring.ne_users_of_lt hlt)
      (StackBlock.getElem?_ringTops hroom)]
    exact StackBlock.innerStackOk o.ring_ne_core howns hstacks hroom

end OuterRing

end FourRings
