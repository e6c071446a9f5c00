import FourRings.Core.BringUp
import FourRings.Proofs.Patches
import FourRings.Proofs.Placement

/-!
# Registering a ring

What a ring registers is accepted, one thing after another: its gates (`installAll_gates`), and the
local table and tasks of an outer ring that lie within its region (`installAll_block`). The table
goes first, because the selectors of the tasks are checked against the copy of it.
-/

namespace FourRings

open DescriptorTable

/-! ### Untouched slots -/

/-- The indices of the slots that selectors name are all different. -/
def Distinct (slots : List Selector) : Prop := (slots.map (·.index)).Nodup

instance (slots : List Selector) : Decidable (Distinct slots) :=
  inferInstanceAs (Decidable (List.Nodup _))

/-- A patch in the first of some distinct slots leaves the others untouched. -/
theorem untouched_next {l : List (Selector × Patch)} {s : Selector} {rest : List Selector}
    (distinct : Distinct (s :: rest)) (fresh : ∀ s' ∈ s :: rest, Untouched l s'.index) (x : Patch) :
    ∀ s' ∈ rest, Untouched (l ++ [(s, x)]) s'.index := by
  obtain ⟨hne, -⟩ := List.nodup_cons.1 distinct
  intro s' hs' e he
  rcases List.mem_append.1 he with he | he
  · exact fresh s' (List.mem_cons_of_mem _ hs') e he
  · obtain rfl := List.mem_singleton.1 he
    exact fun heq => hne (List.mem_map.2 ⟨s', hs', heq⟩)

theorem Distinct.tail {s : Selector} {rest : List Selector} (h : Distinct (s :: rest)) :
    Distinct rest :=
  (List.nodup_cons.1 h).2

/-! ### Gates -/

namespace Core

variable {capacity : Nat} {l : List (Selector × Patch)} {c : Core} {memory : RingMemory} {r : Ring}

/-- A ring binds any number of gates into its own code. -/
theorem installAll_gates (memory : RingMemory) (hcap : 38 ≤ capacity)
    (h : Patched (boot capacity) l c.tables.gdt)
    {gates : List (Selector × Word)} (hgates : ∀ g ∈ gates, BootMap.GateInto r g.1)
    (distinct : Distinct (gates.map (·.1) ++ [r.codeSelector]))
    (fresh : ∀ s ∈ gates.map (·.1) ++ [r.codeSelector], Untouched l s.index)
    (more : List Install) :
    ∃ gdt, c.installAll ⟨r, memory⟩ (gates.map (fun g => .callGate g.1 g.2 0) ++ more) =
        { c with tables := ⟨gdt, c.tables.vault⟩ }.installAll ⟨r, memory⟩ more ∧
      Patched (boot capacity) (l ++ gates.map fun g => (g.1, .gate g.2)) gdt := by
  induction gates generalizing l c with
  | nil => exact ⟨c.tables.gdt, rfl, by simpa using h⟩
  | cons g gates ih =>
    obtain ⟨hg, hgates⟩ := List.forall_mem_cons.1 hgates
    have freshCode : Untouched l r.codeSelector.index := fresh _ (by simp)
    obtain ⟨gdt₁, hinstall, h₁⟩ :=
      install_callGate memory hcap h hg (fresh _ List.mem_cons_self) freshCode g.2
    obtain ⟨gdt₂, hrest, h₂⟩ := ih (c := { c with tables := ⟨gdt₁, c.tables.vault⟩ }) h₁ hgates
      distinct.tail (untouched_next distinct fresh _)
    refine ⟨gdt₂, ?_, by simpa using h₂⟩
    rw [List.map_cons, List.cons_append, installAll_cons hinstall]
    exact hrest

end Core

/-! ### Blocks -/

namespace OuterRing

/-- The tasks of the ring, laid out at `start`. -/
def block (o : OuterRing) (start : Word) (entries : TaskEntries) : TaskBlock :=
  let t : TaskBlock := { start, inner := o.ring.level, ldt := o.table }
  let task (d : Duty) (entry : Word) (s : StackBlock) :=
    o.roster.segments.state d.kind { entry, stackTop := s.taskTop } s.ringTops
  { t with
    first := task o.roster.first entries.first t.firstStacks
    second := task o.roster.second entries.second t.secondStacks }

/-- Blocks with a stack for each inner ring are built. -/
theorem build_eq (o : OuterRing) (start : Word) (entries : TaskEntries) :
    TaskBlock.build start o.ring.level o.roster entries = .ok (o.block start entries) := by
  cases o <;> rfl

/-- The vault with the state of the block in the slots of the ring. -/
def deposit (o : OuterRing) (s : Vault) (t : TaskBlock) : Vault :=
  ((s.setLdt o.ldtSlot t.ldt).setTss o.first { t.first with cr3 := s.directory }).setTss o.second
    { t.second with cr3 := s.directory }

/-- What the registration of the ring's state patches, given the addresses of the copies. -/
def statePatches (o : OuterRing) (a : VaultAddresses) : List (Selector × Patch) :=
  [(o.ldtSlot.selector, .state (a.ldt o.ldtSlot) Ldt.limit),
    (o.first.selector, .state (a.tss o.first) Tss.limit),
    (o.second.selector, .state (a.tss o.second) Tss.limit)]

theorem owner_first (o : OuterRing) : o.first.owner = o.ring := by cases o <;> rfl

theorem owner_second (o : OuterRing) : o.second.owner = o.ring := by cases o <;> rfl

theorem installs_block (o : OuterRing) (start : Word) (entries : TaskEntries) :
    (o.block start entries).installs o.roster =
      [.ldt o.ldtSlot.selector (o.block start entries).ldtBase o.table,
        .tss o.first.selector (o.block start entries).firstBase (o.block start entries).first,
        .tss o.second.selector (o.block start entries).secondBase
          (o.block start entries).second] := by
  cases o <;> rfl

/-- What the ring writes and reads of the table as it registers its state. -/
def touched (o : OuterRing) : List Selector :=
  [o.ldtSlot.selector, o.first.selector, o.second.selector] ++ windows

theorem distinct_touched (o : OuterRing) : Distinct o.touched := by
  cases o <;> decide

/-- The windows are where the boot map has them as long as they are untouched. -/
theorem slots_window {capacity : Nat} {l : List (Selector × Patch)} {gdt : DescriptorTable}
    (hcap : 38 ≤ capacity) (h : Patched (boot capacity) l gdt)
    (fresh : ∀ w ∈ windows, Untouched l w.index) :
    ∀ w ∈ windows, gdt.slots[w.index]? = BootMap.slot? w.index := by
  intro w hw
  have hsome : ∀ w ∈ windows, (BootMap.slot? w.index).isSome := by decide +kernel
  obtain ⟨d, hd⟩ := Option.isSome_iff_exists.1 (hsome w hw)
  rw [h.rest _ (fresh w hw), hd]
  exact slots_boot_of_slot? hcap hd

variable {o : OuterRing} {memory : RingMemory} {start : Word}

theorem owns_of_covers (howns : memory.owns o.ring = RingMemory.regions.owns o.ring) {base : Word}
    {n : Nat} (h : o.ring.region.Covers base.toNat n) : memory.owns o.ring base n := by
  simpa [howns, RingMemory.regions] using And.intro o.ring_ne_core h

/-- Offsets into a block within the region. -/
theorem toNat_add_offset (h : o.ring.region.Covers start.toNat (TaskBlock.size o.ring.level))
    {n : Nat} (hn : n ≤ TaskBlock.size o.ring.level) :
    (start + BitVec.ofNat 32 n).toNat = start.toNat + n :=
  MemoryMap.toNat_add_ofNat (Ring.toNat_add_lt h hn)

theorem covers_offset (h : o.ring.region.Covers start.toNat (TaskBlock.size o.ring.level))
    {n m : Nat} (hn : n + m ≤ TaskBlock.size o.ring.level) :
    o.ring.region.Covers (start + BitVec.ofNat 32 n).toNat m := by
  rw [toNat_add_offset h (Nat.le_trans (Nat.le_add_right n m) hn)]
  exact h.sub hn

end OuterRing

namespace Core

variable {capacity : Nat} {l : List (Selector × Patch)} {c : Core} {memory : RingMemory}
  {o : OuterRing} {start : Word}

/-- A task of the ring is accepted once the ring's local table is. -/
theorem install_task (hcap : 38 ≤ capacity) (h : Patched (boot capacity) l c.tables.gdt)
    (howns : memory.owns o.ring = RingMemory.regions.owns o.ring)
    (hldt : c.tables.vault.ldt o.ldtSlot = o.table) {slot : TaskSlot} (owner : slot.owner = o.ring)
    (freshSlot : Untouched l slot.selector.index)
    (freshWindows : ∀ w ∈ OuterRing.windows, Untouched l w.index) {base : Word}
    (hbase : o.ring.region.Covers base.toNat Tss.size) (kind : TaskKind) (task : TaskStart)
    {room : StackBlock} (hinner : room.inner = o.ring.level)
    (hstacks : o.ring.region.Covers room.start.toNat (StackBlock.size room.inner)) :
    let state := o.roster.segments.state kind task room.ringTops
    ∃ gdt, c.install ⟨o.ring, memory⟩ (.tss slot.selector base state) =
        (.ok (), { c with
          tables := ⟨gdt, c.tables.vault.setTss slot
            { state with cr3 := c.tables.vault.directory }⟩ }) ∧
      Patched (boot capacity)
        (l ++ [(slot.selector, .state (c.tables.vault.address.tss slot) Tss.limit)]) gdt := by
  intro state
  have hpolicy : (memory.withTss base state).owns o.ring = RingMemory.regions.owns o.ring := howns
  have hok : c.tables.vault.TaskOk c.tables.gdt (memory.withTss base state) slot.owner state := by
    rw [owner]
    exact OuterRing.taskOk_state hpolicy hldt (OuterRing.slots_window hcap h freshWindows) kind
      task hinner hstacks
  have howns' : memory.owns slot.owner base Tss.size := by
    rw [owner]
    exact OuterRing.owns_of_covers howns hbase
  have hinstall := install_tss hcap h freshSlot howns' hok
  rw [owner] at hinstall
  exact hinstall

/-- The local table of a ring is accepted. -/
theorem install_table (hcap : 38 ≤ capacity) (h : Patched (boot capacity) l c.tables.gdt)
    (howns : memory.owns o.ring = RingMemory.regions.owns o.ring)
    (fresh : Untouched l o.ldtSlot.selector.index) {base : Word}
    (hbase : o.ring.region.Covers base.toNat 16) :
    ∃ gdt, c.install ⟨o.ring, memory⟩ (.ldt o.ldtSlot.selector base o.table) =
        (.ok (), { c with tables := ⟨gdt, c.tables.vault.setLdt o.ldtSlot o.table⟩ }) ∧
      Patched (boot capacity)
        (l ++ [(o.ldtSlot.selector, .state (c.tables.vault.address.ldt o.ldtSlot) Ldt.limit)])
        gdt := by
  have howns' : memory.owns o.ldtSlot.owner base 16 := by
    rw [o.owner_ldtSlot]
    exact OuterRing.owns_of_covers howns hbase
  have hentries : ∀ d ∈ o.table.entries, Vault.EntryOk o.ldtSlot.owner d := by
    rw [o.owner_ldtSlot]
    exact o.entryOk_table
  have hinstall := install_ldt hcap h fresh howns' hentries
  rw [o.owner_ldtSlot] at hinstall
  exact hinstall

/-- **The state of a ring is registered**, if its block lies within the region of the ring. -/
theorem installAll_block (hcap : 38 ≤ capacity) (h : Patched (boot capacity) l c.tables.gdt)
    (howns : memory.owns o.ring = RingMemory.regions.owns o.ring)
    (hplace : o.ring.region.Covers start.toNat (TaskBlock.size o.ring.level))
    (fresh : ∀ s ∈ o.touched, Untouched l s.index) (entries : TaskEntries)
    (more : List Install) :
    ∃ gdt, c.installAll ⟨o.ring, memory⟩ ((o.block start entries).installs o.roster ++ more) =
        { c with tables := ⟨gdt, o.deposit c.tables.vault (o.block start entries)⟩ }.installAll
          ⟨o.ring, memory⟩ more ∧
      Patched (boot capacity) (l ++ o.statePatches c.tables.vault.address) gdt := by
  let t := o.block start entries
  have hsize : TaskBlock.size o.ring.level = 240 + 2 * StackBlock.size o.ring.level := rfl
  have htable : o.ring.region.Covers start.toNat 16 := hplace.sub (n := 0) (by omega)
  have hfirst : o.ring.region.Covers t.firstBase.toNat Tss.size :=
    OuterRing.covers_offset hplace (Nat.le_trans (by decide) (Nat.le_add_right 240 _))
  have hsecond : o.ring.region.Covers t.secondBase.toNat Tss.size :=
    OuterRing.covers_offset hplace (Nat.le_trans (by decide) (Nat.le_add_right 240 _))
  have hstacks₁ : o.ring.region.Covers t.firstStacks.start.toNat
      (StackBlock.size t.firstStacks.inner) :=
    OuterRing.covers_offset (n := 240) hplace
      (show 240 + StackBlock.size o.ring.level ≤ _ by omega)
  have hstacks₂ : o.ring.region.Covers t.secondStacks.start.toNat
      (StackBlock.size t.secondStacks.inner) :=
    OuterRing.covers_offset (n := 240 + StackBlock.size o.ring.level) hplace
      (show 240 + StackBlock.size o.ring.level + StackBlock.size o.ring.level ≤ _ by omega)
  -- the local table goes first, and the tasks are checked against it
  obtain ⟨gdt₁, hinstall₁, h₁⟩ :=
    install_table hcap h howns (fresh _ List.mem_cons_self) htable
  have fresh₁ := untouched_next o.distinct_touched fresh
    (.state (c.tables.vault.address.ldt o.ldtSlot) Ldt.limit)
  let c₁ : Core := { c with tables := ⟨gdt₁, c.tables.vault.setLdt o.ldtSlot o.table⟩ }
  have hldt₁ : c₁.tables.vault.ldt o.ldtSlot = o.table := if_pos rfl
  obtain ⟨gdt₂, hinstall₂, h₂⟩ := install_task (c := c₁) hcap h₁ howns hldt₁ o.owner_first
    (fresh₁ _ List.mem_cons_self)
    (fun w hw => fresh₁ w (List.mem_cons_of_mem _ (List.mem_cons_of_mem _ hw))) hfirst
    o.roster.first.kind ⟨entries.first, t.firstStacks.taskTop, 0⟩ rfl hstacks₁
  have fresh₂ := untouched_next o.distinct_touched.tail fresh₁
    (.state (c.tables.vault.address.tss o.first) Tss.limit)
  let c₂ : Core := { c₁ with
    tables := ⟨gdt₂, c₁.tables.vault.setTss o.first
      { t.first with cr3 := c₁.tables.vault.directory }⟩ }
  obtain ⟨gdt₃, hinstall₃, h₃⟩ := install_task (c := c₂) hcap h₂ howns hldt₁ o.owner_second
    (fresh₂ _ List.mem_cons_self) (fun w hw => fresh₂ w (List.mem_cons_of_mem _ hw)) hsecond
    o.roster.second.kind ⟨entries.second, t.secondStacks.taskTop, 0⟩ rfl hstacks₂
  refine ⟨gdt₃, ?_, ?_⟩
  · rw [o.installs_block]
    exact (installAll_cons hinstall₁).trans
      ((installAll_cons hinstall₂).trans (installAll_cons hinstall₃))
  · rw [List.append_assoc, List.append_assoc] at h₃
    exact h₃

end Core

end FourRings
