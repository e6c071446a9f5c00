import FourRings.Proofs.Journal
import FourRings.Proofs.Shelter

/-!
# Runnable tasks

Task state is checked when it is handed over: each of its segment registers names a segment that
fits, in the global table or in the local table of the ring. Both can be written again later.
`adopted_tasks_runnable` is the main statement: a register goes on naming a segment that fits until
the slot that decides what it names is written, and only the task's own ring and the rings inside
can do that. A register that names an entry of the local table never names anything but an empty
entry or a segment of the ring. `tasks_go_stale` is a run in which both kinds are replaced.
-/

namespace FourRings

open DescriptorTable

/-! ### What a task runs on -/

/-- The segment registers of a task, each with the use that it makes of its segment. -/
def Tss.uses (t : Tss) : List (SegmentUse × Selector) :=
  [(.code, t.cs), (.stack, t.ss), (.data, t.ds), (.data, t.es), (.data, t.fs), (.data, t.gs)]

/-- The slot of the global table that decides what a selector of a task of ring `r` names: the slot
itself, or the one for the local table of the ring. -/
def Ring.decidingSlot (r : Ring) (x : Selector) : Nat :=
  if x.isLocal then r.ldtSelector.index else x.index

/-- Whether one of the writes replaced what a selector of a task of ring `r` names. Global segments
are replaced by `r` or a ring inside, local tables by `r` alone. -/
def Journal.Replaces (since : Journal) (r : Ring) (x : Selector) : Prop :=
  ∃ w ∈ since, w.slot = r.decidingSlot x ∧ w.ring ≤ r ∧ (x.isLocal → w.ring = r)

theorem Journal.Replaces.cons {since : Journal} {r : Ring} {x : Selector}
    (h : since.Replaces r x) (w : SlotWrite) : Journal.Replaces (w :: since) r x := by
  obtain ⟨v, hv, hrest⟩ := h
  exact ⟨v, List.mem_cons_of_mem w hv, hrest⟩

namespace TaskSlot

/-- The slot for the local table that the task runs with. -/
def ldtSlot : TaskSlot → LdtSlot
  | .devsIrq | .devsSched => .devs
  | .libsIrq | .libsSched => .libs
  | .main | .nested => .users

theorem owner_ldtSlot (k : TaskSlot) : k.ldtSlot.owner = k.owner := by
  cases k <;> rfl

theorem index_ldtSlot (k : TaskSlot) :
    (StateSlot.ldt k.ldtSlot).index = k.owner.ldtSelector.index := by
  cases k <;> rfl

end TaskSlot

theorem DescriptorTable.toOption_getAt (gdt : DescriptorTable) (x : Selector) :
    (gdt.getAt x).toOption = gdt.slots[x.index]? := by
  unfold getAt get
  split <;> simp_all [Except.toOption]

namespace Vault

variable {s s' : Vault} {gdt gdt' : DescriptorTable} {memory : RingMemory} {r : Ring} {k : TaskSlot}
  {u : SegmentUse} {x : Selector}

/-- A local selector of a task names an entry of the table that the task runs with. -/
theorem segment?_ldtSlot (hlocal : x.isLocal) :
    s.segment? gdt k.owner x = (s.ldt k.ldtSlot).entries[x.index]? := by
  rw [← k.owner_ldtSlot, segment?_of_isLocal k.ldtSlot hlocal]

/-- What a selector names hangs on the slot that decides it. -/
theorem segment?_congr (hlocal : x.isLocal → s'.ldt k.ldtSlot = s.ldt k.ldtSlot)
    (hglobal : x.isLocal = false → gdt'.slots[x.index]? = gdt.slots[x.index]?) :
    s'.segment? gdt' k.owner x = s.segment? gdt k.owner x := by
  by_cases h : x.isLocal
  · rw [segment?_ldtSlot h, segment?_ldtSlot h, hlocal h]
  · rw [segment?, segment?, if_neg h, if_neg h, toOption_getAt, toOption_getAt,
      hglobal (by simpa using h)]

theorem RegisterOk.congr (h : s.RegisterOk gdt r u x)
    (heq : s'.segment? gdt' r x = s.segment? gdt r x) : s'.RegisterOk gdt' r u x := by
  refine h.imp_right ?_
  rintro ⟨hrpl, d, hd, hrest⟩
  exact ⟨hrpl, d, heq.trans hd, hrest⟩

/-- A selector of a task of ring `r` names what a local table of the ring may hold: an empty entry,
or a present segment of the ring within its reach. -/
def NamesEntry (s : Vault) (gdt : DescriptorTable) (r : Ring) (x : Selector) : Prop :=
  ∃ d, s.segment? gdt r x = some d ∧ EntryOk r d

theorem NamesEntry.congr (h : s.NamesEntry gdt r x)
    (heq : s'.segment? gdt' r x = s.segment? gdt r x) : s'.NamesEntry gdt' r x := by
  obtain ⟨d, hd, ok⟩ := h
  exact ⟨d, heq.trans hd, ok⟩

theorem TaskOk.registerOk {t : Tss} (h : s.TaskOk gdt memory r t) :
    ∀ y ∈ t.uses, s.RegisterOk gdt r y.1 y.2 := by
  intro y hy
  rcases List.mem_cons.1 hy with rfl | hy
  · exact h.code
  · rcases List.mem_cons.1 hy with rfl | hy
    · exact h.stack
    · have hdata : ∀ y ∈ [t.ds, t.es, t.fs, t.gs].map fun z => (SegmentUse.data, z),
          s.RegisterOk gdt r y.1 y.2 := by
        intro y hy
        obtain ⟨z, hz, rfl⟩ := List.mem_map.1 hy
        exact h.data z hz
      exact hdata y hy

end Vault

/-- What fits a register is code or data. -/
theorem SegmentUse.Fits.isSegment {u : SegmentUse} {d : Descriptor} (h : u.Fits d) :
    d.access.isSegment := by
  cases u with
  | code => exact Descriptor.isSegment_of_isCode h.1
  | stack => exact Descriptor.isSegment_of_isData h.1
  | data => exact Descriptor.isSegment_of_isData h

/-! ### One request -/

namespace Sheltered

variable {capacity : Nat} {t : Tables} {memory : RingMemory} {caller : Ring} {q : TableRequest}
  {current new : Descriptor} {vault : Vault} {k : TaskSlot} {u : SegmentUse} {x : Selector}

/-- An outer ring edits the slot of a task by handing over its state. -/
theorem adoptTss_of_edit (hcap : 38 ≤ capacity)
    (h : Sheltered (DescriptorTable.boot capacity) t.gdt t.vault.address)
    (outer : caller ≠ .core) (slot : t.gdt.slots[q.selector.index]? = some current)
    (edit : t.Edit memory caller q current new vault)
    (hk : (StateSlot.task k).index = q.selector.index) :
    k.owner = caller ∧ ∃ state : Tss, t.vault.TaskOk t.gdt memory caller state ∧
      vault = t.vault.setTss k { state with cr3 := t.vault.directory } := by
  obtain ⟨copy, limit, deposit, -, -⟩ := deposit_of_edit hcap h outer slot edit hk
  cases deposit with
  | @tss _ _ _ state slot_eq owner _ _ ok =>
    have hslot := StateSlot.eq_of_index (hk.trans (StateSlot.index_of_taskSlot slot_eq).symm)
    obtain rfl := StateSlot.task.inj hslot
    exact ⟨owner, state, ok, rfl⟩
  | ldt slot_eq =>
    cases StateSlot.eq_of_index (hk.trans (StateSlot.index_of_ldtSlot slot_eq).symm)

/-- It edits the slot of a local table by handing over the table. -/
theorem adoptLdt_of_edit (hcap : 38 ≤ capacity)
    (h : Sheltered (DescriptorTable.boot capacity) t.gdt t.vault.address)
    (outer : caller ≠ .core) (slot : t.gdt.slots[q.selector.index]? = some current)
    (edit : t.Edit memory caller q current new vault) {l : LdtSlot}
    (hl : (StateSlot.ldt l).index = q.selector.index) :
    l.owner = caller ∧ ∃ table : Ldt, (∀ d ∈ table.entries, Vault.EntryOk caller d) ∧
      vault = t.vault.setLdt l table := by
  obtain ⟨copy, limit, deposit, -, -⟩ := deposit_of_edit hcap h outer slot edit hl
  cases deposit with
  | @ldt _ _ _ _ table slot_eq owner _ _ _ ok =>
    have hslot := StateSlot.eq_of_index (hl.trans (StateSlot.index_of_ldtSlot slot_eq).symm)
    obtain rfl := StateSlot.ldt.inj hslot
    exact ⟨owner, _, ok, rfl⟩
  | tss slot_eq =>
    cases StateSlot.eq_of_index (hl.trans (StateSlot.index_of_taskSlot slot_eq).symm)

/-- A register does not hang on a slot of a task. -/
theorem decidingSlot_ne (hcap : 38 ≤ capacity)
    (h : Sheltered (DescriptorTable.boot capacity) t.gdt t.vault.address) {d : Descriptor}
    (hd : t.vault.segment? t.gdt k.owner x = some d) (hfits : u.Fits d) (k' : TaskSlot) :
    (StateSlot.task k').index ≠ k.owner.decidingSlot x := by
  intro heq
  unfold Ring.decidingSlot at heq
  split at heq
  · rw [← k.index_ldtSlot] at heq
    cases StateSlot.eq_of_index heq
  · rename_i hlocal
    rw [Vault.segment?, if_neg hlocal, toOption_getAt, ← heq] at hd
    obtain ⟨-, htype⟩ := type_of_stateSlot hcap h hd
    cases htype.symm.trans (Descriptor.systemType?_eq_none hfits.isSegment)

/-- A write elsewhere leaves what a selector names. -/
theorem segment?_of_ne (edit : t.Edit memory caller q current new vault)
    (hne : q.selector.index ≠ k.owner.decidingSlot x) :
    vault.segment? (t.gdt.put q.selector.index new) k.owner x =
      t.vault.segment? t.gdt k.owner x := by
  refine Vault.segment?_congr (fun hlocal => ?_) fun hglobal => ?_
  · rw [Ring.decidingSlot, if_pos hlocal, ← k.index_ldtSlot] at hne
    exact Sum.inr.inj (edit.copy_eq (Ne.symm hne))
  · rw [Ring.decidingSlot, if_neg (by simp [hglobal])] at hne
    exact slots_put_of_ne (Ne.symm hne)

/-- A ring that replaces what a register names is the ring of the task or, in the global table, one
inside it. -/
theorem caller_le (hcap : 38 ≤ capacity)
    (h : Sheltered (DescriptorTable.boot capacity) t.gdt t.vault.address)
    (outer : caller ≠ .core) (slot : t.gdt.slots[q.selector.index]? = some current)
    (edit : t.Edit memory caller q current new vault) {d : Descriptor}
    (hd : t.vault.segment? t.gdt k.owner x = some d) (hpresent : d.present)
    (hdpl : d.dpl = k.owner) (hfits : u.Fits d)
    (heq : q.selector.index = k.owner.decidingSlot x) :
    caller ≤ k.owner ∧ (x.isLocal → caller = k.owner) := by
  by_cases hlocal : x.isLocal
  · rw [Ring.decidingSlot, if_pos hlocal, ← k.index_ldtSlot] at heq
    obtain ⟨howner, -⟩ := edit_stateSlot hcap h outer slot edit heq.symm
    obtain rfl : k.owner = caller := k.owner_ldtSlot.symm.trans howner
    exact ⟨Nat.le_refl _, fun _ => rfl⟩
  · rw [Ring.decidingSlot, if_neg hlocal] at heq
    rw [Vault.segment?, if_neg hlocal, toOption_getAt, ← heq] at hd
    obtain rfl : current = d := Option.some.inj (slot.symm.trans hd)
    refine ⟨?_, fun h => absurd h hlocal⟩
    rcases edit.install_or_patch with ⟨ok, -⟩ | ⟨-, type, htype⟩
    · rw [← hdpl]
      exact (ok.overwrite hpresent).1
    · cases htype.symm.trans (Descriptor.systemType?_eq_none hfits.isSegment)

/-- A local selector that names an entry names an entry of the table that is handed over. -/
theorem namesEntry_of_eq (hcap : 38 ≤ capacity)
    (h : Sheltered (DescriptorTable.boot capacity) t.gdt t.vault.address)
    (outer : caller ≠ .core) (slot : t.gdt.slots[q.selector.index]? = some current)
    (edit : t.Edit memory caller q current new vault) {d : Descriptor}
    (hd : t.vault.segment? t.gdt k.owner x = some d) (hlocal : x.isLocal)
    (heq : q.selector.index = k.owner.decidingSlot x) :
    vault.NamesEntry (t.gdt.put q.selector.index new) k.owner x := by
  rw [Ring.decidingSlot, if_pos hlocal, ← k.index_ldtSlot] at heq
  obtain ⟨howner, table, ok, rfl⟩ := adoptLdt_of_edit hcap h outer slot edit heq.symm
  obtain rfl : k.owner = caller := k.owner_ldtSlot.symm.trans howner
  rw [Vault.segment?_ldtSlot hlocal] at hd
  -- every local table has the same number of entries
  have hx : x.index < table.entries.length := (List.getElem?_eq_some_iff.1 hd).1
  refine ⟨table.entries[x.index], ?_, ok _ (List.getElem_mem hx)⟩
  rw [Vault.segment?_ldtSlot hlocal, Vault.ldt_setLdt, if_pos rfl, List.getElem?_eq_getElem hx]

end Sheltered

/-! ### Runs -/

/-- A register of a task of ring `r` is runnable after some writes: it names a segment that fits; or
that was replaced, and a local selector still names what a local table of the ring may hold. -/
def RegisterRunnable (t : Tables) (since : Journal) (r : Ring) (y : SegmentUse × Selector) : Prop :=
  t.vault.RegisterOk t.gdt r y.1 y.2 ∨
    (since.Replaces r y.2 ∧ (y.2.isLocal → t.vault.NamesEntry t.gdt r y.2))

/-- A task slot after a run with journal `j`: nothing was handed over for it; or its owner handed
the state over, and each register of the copy is runnable after the writes since. -/
def TaskRunnable (t : Tables) (j : Journal) (k : TaskSlot) : Prop :=
  (j.last? k.selector.index = none ∧ t.vault.tss k = {}) ∨
    ∃ since, j.last? k.selector.index = some (k.owner, since) ∧
      ∀ y ∈ (t.vault.tss k).uses, RegisterRunnable t since k.owner y

section

variable {capacity : Nat} {t t' : Tables} {j since : Journal} {memory : RingMemory} {caller : Ring}
  {q : TableRequest} {current new : Descriptor} {vault : Vault} {w : Option SlotWrite}
  {k : TaskSlot} {y : SegmentUse × Selector}

/-- A register stays runnable after one more write of an outer ring. -/
theorem RegisterRunnable.put (hcap : 38 ≤ capacity)
    (hs : Sheltered (DescriptorTable.boot capacity) t.gdt t.vault.address) (outer : caller ≠ .core)
    (slot : t.gdt.slots[q.selector.index]? = some current)
    (edit : t.Edit memory caller q current new vault)
    (h : RegisterRunnable t since k.owner y) :
    RegisterRunnable ⟨t.gdt.put q.selector.index new, vault⟩ (⟨q.selector.index, caller⟩ :: since)
      k.owner y := by
  by_cases heq : q.selector.index = k.owner.decidingSlot y.2
  · rcases h with (hnull | ⟨-, d, hd, hpresent, hdpl, hfits⟩) | ⟨hreplaced, hnames⟩
    · exact Or.inl (Or.inl hnull)
    · obtain ⟨hle, hring⟩ := hs.caller_le hcap outer slot edit hd hpresent hdpl hfits heq
      refine Or.inr ⟨⟨_, List.mem_cons_self, heq, hle, hring⟩, fun hlocal => ?_⟩
      exact hs.namesEntry_of_eq hcap outer slot edit hd hlocal heq
    · refine Or.inr ⟨hreplaced.cons _, fun hlocal => ?_⟩
      obtain ⟨d, hd, -⟩ := hnames hlocal
      exact hs.namesEntry_of_eq hcap outer slot edit hd hlocal heq
  · have hkept := Sheltered.segment?_of_ne edit heq
    rcases h with hok | ⟨hreplaced, hnames⟩
    · exact Or.inl (hok.congr hkept)
    · exact Or.inr ⟨hreplaced.cons _, fun hlocal => (hnames hlocal).congr hkept⟩

namespace TaskRunnable

/-- A task can run once its state is handed over. -/
theorem of_adopt (hcap : 38 ≤ capacity)
    (hs : Sheltered (DescriptorTable.boot capacity) t.gdt t.vault.address) (outer : caller ≠ .core)
    (slot : t.gdt.slots[q.selector.index]? = some current)
    (edit : t.Edit memory caller q current new vault)
    (hk : (StateSlot.task k).index = q.selector.index) :
    TaskRunnable ⟨t.gdt.put q.selector.index new, vault⟩ (⟨q.selector.index, caller⟩ :: j) k := by
  obtain ⟨rfl, state, ok, rfl⟩ := hs.adoptTss_of_edit hcap outer slot edit hk
  have hlast : Journal.last? (⟨q.selector.index, k.owner⟩ :: j) k.selector.index =
      some (k.owner, []) := by
    rw [← hk]
    exact Journal.last?_cons_self j _ _
  refine Or.inr ⟨[], hlast, fun y hy => Or.inl ?_⟩
  rw [Vault.tss_setTss, if_pos rfl] at hy
  rcases ok.registerOk y hy with hnull | ⟨hrpl, d, hd, hrest⟩
  · exact Or.inl hnull
  · -- the descriptor of the task itself is written, and no register names that
    have hne : q.selector.index ≠ k.owner.decidingSlot y.2 := by
      rw [← hk]
      exact hs.decidingSlot_ne hcap hd hrest.2.2 k
    exact Or.inr ⟨hrpl, d, (Sheltered.segment?_of_ne edit hne).trans hd, hrest⟩

/-- A task goes on being runnable after a write elsewhere. -/
theorem put (hcap : 38 ≤ capacity)
    (hs : Sheltered (DescriptorTable.boot capacity) t.gdt t.vault.address) (outer : caller ≠ .core)
    (slot : t.gdt.slots[q.selector.index]? = some current)
    (edit : t.Edit memory caller q current new vault) (h : TaskRunnable t j k)
    (hk : (StateSlot.task k).index ≠ q.selector.index) :
    TaskRunnable ⟨t.gdt.put q.selector.index new, vault⟩ (⟨q.selector.index, caller⟩ :: j) k := by
  have htss : vault.tss k = t.vault.tss k := Sum.inl.inj (edit.copy_eq hk)
  have hne : q.selector.index ≠ k.selector.index := Ne.symm hk
  rcases h with ⟨hlast, hempty⟩ | ⟨since, hlast, huses⟩
  · exact Or.inl ⟨Journal.last?_cons_eq_none hne hlast, htss.trans hempty⟩
  · refine Or.inr ⟨_, Journal.last?_cons_eq_some hne hlast, fun y hy => ?_⟩
    rw [htss] at hy
    exact (huses y hy).put hcap hs outer slot edit

/-- **One request of an outer ring preserves the invariant.** -/
theorem recorded (hcap : 38 ≤ capacity)
    (hs : Sheltered (DescriptorTable.boot capacity) t.gdt t.vault.address) (outer : caller ≠ .core)
    (h : TaskRunnable t j k) (hrec : t.Recorded memory caller w t') :
    TaskRunnable t' (w.toList ++ j) k := by
  cases hrec with
  | refused => exact h
  | stray slot deposit misfit => exact absurd (hs.suits_of_deposit hcap slot deposit) misfit
  | @written q current new vault slot edit =>
    by_cases hk : (StateSlot.task k).index = q.selector.index
    · exact of_adopt hcap hs outer slot edit hk
    · exact h.put hcap hs outer slot edit hk

/-- One event of the outer rings preserves the invariant. -/
theorem after (hcap : 38 ≤ capacity)
    (hs : Sheltered (DescriptorTable.boot capacity) t.gdt t.vault.address) {e : Event}
    (he : e.OfOuterRing) (h : TaskRunnable t j k) :
    TaskRunnable (t.after e) ((t.write? e).toList ++ j) k := by
  cases e with
  | request memory caller r => exact h.recorded hcap hs he (t.recorded memory caller r)
  | setDirectory directory => exact h
  | setGdt gdt => exact absurd he id
  | setVault vault => exact absurd he id

end TaskRunnable

end

/-- **Adopted tasks stay runnable until what they run on is replaced.** After any run of requests of
outer rings on the boot table and a new vault, each segment register of a task in the vault names a
present segment of the task's ring that fits its use, unless the slot that decides what it names was
written since the task was handed over: by the task's own ring, or in the global table by a ring
inside it. Even then a local selector names an empty entry or a present segment of the ring within
its reach. -/
theorem adopted_tasks_runnable {capacity : Nat} (hcap : 38 ≤ capacity) (a : VaultAddresses)
    {events : List Event} (he : ∀ e ∈ events, e.OfOuterRing) (k : TaskSlot) :
    TaskRunnable ((Tables.boot capacity a).run events) ((Tables.boot capacity a).journal events)
      k := by
  have hstep : ∀ (t : Tables) (j : Journal) (e : Event),
      (Sheltered (DescriptorTable.boot capacity) t.gdt t.vault.address ∧ TaskRunnable t j k) →
      e.OfOuterRing →
      Sheltered (DescriptorTable.boot capacity) (t.after e).gdt (t.after e).vault.address ∧
        TaskRunnable (t.after e) ((t.write? e).toList ++ j) k := by
    rintro t j e ⟨hs, hk⟩ he
    rw [Tables.vault_address_after he]
    exact ⟨hs.after hcap he, hk.after hcap hs he⟩
  exact (Tables.journal_induction hstep ⟨Sheltered.boot hcap a, Or.inl ⟨rfl, rfl⟩⟩ he).2

/-! ### Tasks that go stale -/

/-- Task state of the device drivers that runs on their local table. -/
def driverTask : Tss where
  eflags := 0x202
  cs := Ring.devs.localCode
  ss := Ring.devs.localData
  ldt := Ring.devs.ldtSelector
  ioMapBase := 0xFFFF
  stack0 := ⟨0x5D1000, Ring.core.dataSelector⟩

/-- Task state of the shared services that runs on their segments in the global table. -/
def serviceTask : Tss where
  eflags := 0x202
  cs := Ring.libs.codeSelector
  ss := Ring.libs.dataSelector
  ldt := Ring.libs.ldtSelector
  ioMapBase := 0xFFFF
  stack0 := ⟨0x5C1000, Ring.core.dataSelector⟩
  stack1 := ⟨0x5C2000, Ring.devs.dataSelector⟩

/-- Where the two rings leave what they hand over. -/
def handoverMemory : RingMemory :=
  let drivers := RingMemory.ownedByAll.withLdt 0x5D0000 (.ofRing .devs 0x5DF)
  (drivers.withTss 0x5D0100 driverTask).withTss 0x5C0100 serviceTask

/-- A run in which two tasks are handed over, and then the device drivers take the data segment from
their own local table, and put a segment of their own into the place of the services' data. -/
def staleRun : List Event :=
  [.request handoverMemory .devs
      (TableRequest.encode (.ldt Ring.devs.ldtSelector 0x5D0000 Ldt.limit)),
    .request handoverMemory .devs
      (TableRequest.encode (.tss SelectorMap.devsIrqTask 0x5D0100)),
    .request handoverMemory .libs
      (TableRequest.encode (.tss SelectorMap.libsIrqTask 0x5C0100)),
    .request handoverMemory .devs
      (TableRequest.encode (.ldt Ring.devs.ldtSelector 0x5D0000 7)),
    .request handoverMemory .devs
      (TableRequest.encode
        (.descriptor Ring.libs.dataSelector (BootMap.flat .devs .dataKind .devs)))]

theorem adopted_tasks_runnable_staleRun :
    38 ≤ MemoryMap.gdtEntries ∧ (∀ e ∈ staleRun, e.OfOuterRing) ∧
      TaskRunnable (Tables.booted.run staleRun) (Tables.booted.journal staleRun) .devsIrq :=
  ⟨by decide, by decide, adopted_tasks_runnable (by decide) _ (by decide) .devsIrq⟩

/-- Both tasks were handed over and not since. The stack segment of the one is gone from its local
table, and that of the other is one of the device drivers. -/
theorem tasks_go_stale :
    let t := Tables.booted.run staleRun
    let j := Tables.booted.journal staleRun
    let drivers := BootMap.flat .devs .dataKind .devs
    (∀ e ∈ staleRun, e.OfOuterRing) ∧
      j.last? TaskSlot.devsIrq.selector.index =
        some (.devs, [⟨6, .devs⟩, ⟨12, .devs⟩, ⟨15, .libs⟩]) ∧
      t.vault.segment? t.gdt .devs (t.vault.tss .devsIrq).ss = some .null ∧
      Descriptor.null.present = false ∧
      j.last? TaskSlot.libsIrq.selector.index = some (.libs, [⟨6, .devs⟩, ⟨12, .devs⟩]) ∧
      t.vault.segment? t.gdt .libs (t.vault.tss .libsIrq).ss = some drivers ∧
      drivers.dpl ≠ .libs := by
  intro t j drivers
  have hdriver : t.vault.segment? t.gdt .devs (t.vault.tss .devsIrq).ss = some .null := by
    decide +kernel
  have hservice : t.vault.segment? t.gdt .libs (t.vault.tss .libsIrq).ss = some drivers := by
    decide +kernel
  exact ⟨by decide, by decide +kernel, hdriver, by decide, by decide +kernel, hservice, by decide⟩

end FourRings
