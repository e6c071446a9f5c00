import FourRings.Proofs.Installs
import FourRings.Proofs.StateSlot

/-!
# Patched slots

Installs that bind a gate or hand state over patch a slot of the boot table and leave the rest of
its descriptor. `Patched` says of a table which slots of the boot table were patched so far, and
that the others are as they were. Each kind of install has one lemma: on a patched table whose slot
is still untouched it succeeds and adds its patch.
-/

namespace FourRings

/-- What is changed of a descriptor. -/
inductive Patch where
  /-- It points at other state. -/
  | state (base limit : Word)
  /-- It leads to a handler that takes no parameters. -/
  | gate (handler : Word)
deriving DecidableEq, Repr

namespace Patch

def apply : Patch → Descriptor → Descriptor
  | .state base limit, d => d.withBaseLimit base limit
  | .gate handler, d => d.withGateTarget handler 0

/-- What the patch makes of `b`, field by field. -/
def Describes (x : Patch) (b d : Descriptor) : Prop :=
  match x with
  | .state base limit =>
    d.access = b.access ∧ d.flags = b.flags ∧ d.base = base ∧ d.limit = limit.setWidth 20
  | .gate handler =>
    d.access = b.access ∧ d.gateSelector = b.gateSelector ∧ d.gateOffset = handler ∧ d.params = 0

theorem describes_apply (x : Patch) (b : Descriptor) : x.Describes b (x.apply b) := by
  cases x with
  | state base limit =>
    exact ⟨b.access_withBaseLimit base limit, b.flags_withBaseLimit base limit,
      b.base_withBaseLimit base limit, b.limit_withBaseLimit base limit⟩
  | gate handler =>
    exact ⟨b.access_withGateTarget handler 0, b.gateSelector_withGateTarget handler 0,
      b.gateOffset_withGateTarget handler 0, b.params_withGateTarget handler 0⟩

end Patch

/-- The table `gdt` differs from `boot` in the listed patches. -/
structure Patched (boot : DescriptorTable) (l : List (Selector × Patch)) (gdt : DescriptorTable) :
    Prop where
  patched : ∀ e ∈ l, gdt.slots[e.1.index]? = (boot.slots[e.1.index]?).map e.2.apply
  rest (i : Nat) : (∀ e ∈ l, i ≠ e.1.index) → gdt.slots[i]? = boot.slots[i]?

/-- Whether no patch of the list is in slot `i`. -/
def Untouched (l : List (Selector × Patch)) (i : Nat) : Prop := ∀ e ∈ l, i ≠ e.1.index

namespace Patched

variable {boot gdt : DescriptorTable} {l : List (Selector × Patch)} {s : Selector} {x : Patch}
  {b : Descriptor}

theorem nil (boot : DescriptorTable) : Patched boot [] boot :=
  ⟨fun _ he => (by cases he), fun _ _ => rfl⟩

theorem put (h : Patched boot l gdt) (fresh : Untouched l s.index)
    (slot : boot.slots[s.index]? = some b) :
    Patched boot (l ++ [(s, x)]) (gdt.put s.index (x.apply b)) := by
  have hgdt : gdt.slots[s.index]? = some b := (h.rest _ fresh).trans slot
  constructor
  · intro e he
    rcases List.mem_append.1 he with he | he
    · rw [DescriptorTable.slots_put_of_ne (Ne.symm (fresh e he))]
      exact h.patched e he
    · obtain rfl := List.mem_singleton.1 he
      rw [DescriptorTable.slots_put_self (DescriptorTable.lt_capacity_of_slots hgdt), slot,
        Option.map_some]
  · intro i hi
    have hs : i ≠ s.index := hi (s, x) (List.mem_append_right _ (List.mem_singleton_self _))
    rw [DescriptorTable.slots_put_of_ne hs]
    exact h.rest i fun e he => hi e (List.mem_append_left _ he)

end Patched

/-! ### Installs that patch -/

/-- A slot of the boot map with a call gate into the code of ring `r`. -/
def BootMap.GateInto (r : Ring) (s : Selector) : Prop :=
  s.index ≠ 0 ∧ ∃ b ∈ slot? s.index,
    b.systemType? = some .callGate ∧ b.gateSelector = r.codeSelector

instance (r : Ring) (s : Selector) : Decidable (BootMap.GateInto r s) :=
  inferInstanceAs (Decidable (_ ∧ _))

theorem BootMap.slot?_codeSelector (r : Ring) :
    slot? r.codeSelector.index = some (flat r .codeKind r) := by
  cases r <;> decide +kernel

namespace Core

open DescriptorTable

variable {capacity : Nat} {l : List (Selector × Patch)} {c : Core} {memory : RingMemory}
  {caller : Caller} {r : Ring}

/-- An install that comes down to a patch adds it to the table. -/
theorem install_patched {boot : DescriptorTable} {i : Install} {q : TableRequest} {x : Patch}
    {b : Descriptor} {vault : Vault} (h : Patched boot l c.tables.gdt)
    (hrequest : c.install caller i = c.request { caller with memory := i.handover caller.memory } q)
    (count : q.CountInRange) (null : q.selector.index ≠ 0) (fresh : Untouched l q.selector.index)
    (slot : boot.slots[q.selector.index]? = some b)
    (edit : c.tables.Edit (i.handover caller.memory) caller.ring q b (x.apply b) vault) :
    ∃ gdt, c.install caller i = (.ok (), { c with tables := ⟨gdt, vault⟩ }) ∧
      Patched boot (l ++ [(q.selector, x)]) gdt := by
  refine ⟨_, ?_, h.put fresh slot⟩
  rw [hrequest]
  exact request_of_edit count null ((h.rest _ fresh).trans slot) edit

/-- A ring binds the gates into its own code. -/
theorem install_callGate (memory : RingMemory) (hcap : 38 ≤ capacity)
    (h : Patched (boot capacity) l c.tables.gdt) {s : Selector} (hgate : BootMap.GateInto r s)
    (fresh : Untouched l s.index)
    (freshCode : Untouched l r.codeSelector.index) (handler : Word) :
    ∃ gdt, c.install ⟨r, memory⟩ (.callGate s handler 0) =
        (.ok (), { c with tables := ⟨gdt, c.tables.vault⟩ }) ∧
      Patched (boot capacity) (l ++ [(s, .gate handler)]) gdt := by
  obtain ⟨null, b, hslot, type, hselector⟩ := hgate
  have hcode : (BootMap.flat r .codeKind r).present ∧ (BootMap.flat r .codeKind r).isCode ∧
      r ≤ (BootMap.flat r .codeKind r).dpl := by
    cases r <;> decide
  have target : ValidTarget c.tables.gdt r b.gateSelector := by
    rw [hselector]
    refine ⟨Selector.isLocal_ofGlobal .., BootMap.flat r .codeKind r, ?_, hcode⟩
    rw [h.rest _ freshCode]
    exact slots_boot_of_slot? hcap (BootMap.slot?_codeSelector r)
  have edit : c.tables.Edit memory r (.callGate s handler 0) b ((Patch.gate handler).apply b)
      c.tables.vault := .retarget type target
  have count : (TableRequest.callGate s handler 0).CountInRange := by
    change (0 : Byte) ≤ 31
    decide
  exact install_patched (q := .callGate s handler 0) h rfl count null fresh
    (slots_boot_of_slot? hcap hslot) edit

/-- The core points its own task at any state. -/
theorem install_coreTask (memory : RingMemory) (hcap : 38 ≤ capacity)
    (h : Patched (boot capacity) l c.tables.gdt)
    (fresh : Untouched l SelectorMap.coreTask.index) (base : Word) (state : Tss) :
    ∃ gdt, c.install ⟨.core, memory⟩ (.tss SelectorMap.coreTask base state) =
        (.ok (), { c with tables := ⟨gdt, c.tables.vault⟩ }) ∧
      Patched (boot capacity) (l ++ [(SelectorMap.coreTask, .state base Tss.limit)]) gdt := by
  have hslot : BootMap.slot? SelectorMap.coreTask.index =
      some (BootMap.placeholder .tssAvailable 1024 .core) := by decide +kernel
  have edit : c.tables.Edit (memory.withTss base state) .core (.tss SelectorMap.coreTask base)
      (BootMap.placeholder .tssAvailable 1024 .core)
      ((Patch.state base Tss.limit).apply (BootMap.placeholder .tssAvailable 1024 .core))
      c.tables.vault := .rebaseTss rfl (by decide)
  have null : SelectorMap.coreTask.index ≠ 0 := by decide
  exact install_patched (q := .tss SelectorMap.coreTask base) h rfl trivial null fresh
    (slots_boot_of_slot? hcap hslot) edit

/-- The core points its local table anywhere. -/
theorem install_coreLdt (memory : RingMemory) (hcap : 38 ≤ capacity)
    (h : Patched (boot capacity) l c.tables.gdt)
    (fresh : Untouched l Ring.core.ldtSelector.index) (base : Word) (table : Ldt) :
    ∃ gdt, c.install ⟨.core, memory⟩ (.ldt Ring.core.ldtSelector base table) =
        (.ok (), { c with tables := ⟨gdt, c.tables.vault⟩ }) ∧
      Patched (boot capacity) (l ++ [(Ring.core.ldtSelector, .state base Ldt.limit)]) gdt := by
  have hslot : BootMap.slot? Ring.core.ldtSelector.index =
      some (BootMap.placeholder .ldt 1024 .core) := by decide +kernel
  have edit : c.tables.Edit (memory.withLdt base table) .core
      (.ldt Ring.core.ldtSelector base Ldt.limit) (BootMap.placeholder .ldt 1024 .core)
      ((Patch.state base Ldt.limit).apply (BootMap.placeholder .ldt 1024 .core))
      c.tables.vault := .rebaseLdt rfl (by decide)
  have null : Ring.core.ldtSelector.index ≠ 0 := by decide
  exact install_patched (q := .ldt Ring.core.ldtSelector base Ldt.limit) h rfl trivial null fresh
    (slots_boot_of_slot? hcap hslot) edit

theorem trimLdt_limit (t : Ldt) : Vault.trimLdt t Ldt.limit = t := if_pos rfl

/-- An outer ring hands a local table over that it owns and that passes the checks. -/
theorem install_ldt (hcap : 38 ≤ capacity) (h : Patched (boot capacity) l c.tables.gdt)
    {slot : LdtSlot} (fresh : Untouched l slot.selector.index) {base : Word} {table : Ldt}
    (howns : memory.owns slot.owner base 16)
    (ok : ∀ d ∈ table.entries, Vault.EntryOk slot.owner d) :
    ∃ gdt, c.install ⟨slot.owner, memory⟩ (.ldt slot.selector base table) =
        (.ok (), { c with tables := ⟨gdt, c.tables.vault.setLdt slot table⟩ }) ∧
      Patched (boot capacity)
        (l ++ [(slot.selector, .state (c.tables.vault.address.ldt slot) Ldt.limit)]) gdt := by
  have hself : LdtSlot.ofSelector? slot.selector = some slot := by cases slot <;> rfl
  have hread : (memory.withLdt base table).readLdt base = some table := if_pos rfl
  have deposit : c.tables.Deposit (memory.withLdt base table) slot.owner
      (.ldt slot.selector base Ldt.limit) (c.tables.vault.address.ldt slot)
      (c.tables.vault.setLdt slot (Vault.trimLdt table Ldt.limit)) :=
    .ldt hself rfl howns hread (Or.inr rfl) (by rwa [trimLdt_limit])
  rw [trimLdt_limit] at deposit
  have hprivilege : slot.owner ≤ (StateSlot.ldt slot).placeholder.dpl := by
    rw [StateSlot.placeholder_dpl]
    exact Nat.le_refl _
  have houter : slot.owner ≠ .core := by cases slot <;> decide
  exact install_patched (q := .ldt slot.selector base Ldt.limit) h rfl trivial
    (StateSlot.index_ne_zero (.ldt slot)) fresh
    (slots_boot_of_slot? hcap (StateSlot.slot?_index (.ldt slot)))
    (.adoptLdt houter hprivilege (StateSlot.placeholder_type (.ldt slot)) deposit)

/-- An outer ring hands task state over that it owns and that passes the checks. -/
theorem install_tss (hcap : 38 ≤ capacity) (h : Patched (boot capacity) l c.tables.gdt)
    {slot : TaskSlot} (fresh : Untouched l slot.selector.index) {base : Word} {state : Tss}
    (howns : memory.owns slot.owner base Tss.size)
    (ok : c.tables.vault.TaskOk c.tables.gdt (memory.withTss base state) slot.owner state) :
    ∃ gdt, c.install ⟨slot.owner, memory⟩ (.tss slot.selector base state) =
        (.ok (), { c with
          tables := ⟨gdt, c.tables.vault.setTss slot
            { state with cr3 := c.tables.vault.directory }⟩ }) ∧
      Patched (boot capacity)
        (l ++ [(slot.selector, .state (c.tables.vault.address.tss slot) Tss.limit)]) gdt := by
  have hself : TaskSlot.ofSelector? slot.selector = some slot := by cases slot <;> rfl
  have hread : (memory.withTss base state).readTss base = some state := if_pos rfl
  have deposit : c.tables.Deposit (memory.withTss base state) slot.owner (.tss slot.selector base)
      (c.tables.vault.address.tss slot)
      (c.tables.vault.setTss slot { state with cr3 := c.tables.vault.directory }) :=
    .tss hself rfl howns hread ok
  have hprivilege : slot.owner ≤ (StateSlot.task slot).placeholder.dpl := by
    rw [StateSlot.placeholder_dpl]
    exact Nat.le_refl _
  have houter : slot.owner ≠ .core := by cases slot <;> decide
  exact install_patched (q := .tss slot.selector base) h rfl trivial
    (StateSlot.index_ne_zero (.task slot)) fresh
    (slots_boot_of_slot? hcap (StateSlot.slot?_index (.task slot)))
    (.adoptTss houter hprivilege (StateSlot.placeholder_type (.task slot)) deposit)

end Core

end FourRings
