import FourRings.Proofs.Registration
import FourRings.Proofs.Screen

/-!
# Bringing the machine up

Whatever the addresses in a `StartPlan`, the four rings come up in any order if the blocks of the
outer rings lie within their regions. `bring_up_succeeds` is the main statement, and `BroughtUp`
says what the machine looks like then: eighteen slots of the global table are patched, the vault
holds what the rings built, the keyboard's vector is bound, and the rings have said hello.

`Progress` is the same while some rings are still to come. Each ring reads and patches slots that no
other ring patches (`untouched_patches`), and so the order does not matter.
-/

namespace FourRings

open DescriptorTable

/-! ### Plans -/

/-- The addresses that a bring-up is given. -/
structure StartPlan where
  /-- Where the core builds its task. -/
  coreStart : Word
  /-- The page directory of the core's task. -/
  cr3 : Word
  core : CoreHandlers
  /-- Where the outer rings build their tasks. -/
  start : OuterRing → Word
  devs : DevsHandlers
  libs : LibsHandlers
  users : TaskEntries

namespace Core

/-- Brings one ring up. -/
def startRing (c : Core) (memory : RingMemory) (p : StartPlan) :
    Ring → Option (Except SetupError Unit × Core)
  | .core => c.startCore ⟨.core, memory⟩ p.coreStart p.cr3 p.core
  | .devs => c.startDevs ⟨.devs, memory⟩ (p.start .devs) p.devs
  | .libs => c.startLibs ⟨.libs, memory⟩ (p.start .libs) p.libs
  | .users => c.startUsers ⟨.users, memory⟩ (p.start .users) p.users

/-- Brings rings up one after another, up to the first that fails. -/
def startEach (c : Core) (memory : RingMemory) (p : StartPlan) :
    List Ring → Option (Except SetupError Unit × Core)
  | [] => some (.ok (), c)
  | r :: rest =>
    match c.startRing memory p r with
    | some (.ok (), c) => c.startEach memory p rest
    | stopped => stopped

end Core

namespace StartPlan

open SelectorMap

/-- The entry points of the tasks of a ring. -/
def entries (p : StartPlan) : OuterRing → TaskEntries
  | .devs => p.devs.tasks
  | .libs => p.libs.tasks
  | .users => p.users

/-- What the core builds. -/
def coreBlock (p : StartPlan) : CoreBlock where
  start := p.coreStart
  tss := CoreBlock.segments.state .main
    { entry := 0, stackTop := BitVec.ofNat 32 Ring.core.firstStack, cr3 := p.cr3 }
    CoreBlock.ringTops
  ldt := .ofRing .core (BitVec.ofNat 32 Ring.core.pageLimit)

/-- What an outer ring builds. -/
def block (p : StartPlan) (o : OuterRing) : TaskBlock := o.block (p.start o) (p.entries o)

/-- The gates that a ring binds, with their handlers. -/
def gates (p : StartPlan) : Ring → List (Selector × Word)
  | .core =>
    [(tableGate, p.core.editTable), (vectorGate, p.core.bindVector), (printGate, p.core.print),
      (coreTransmitGate, p.core.transmit), (resumeGate, p.core.resume)]
  | .devs => [(terminalGate, p.devs.terminal)]
  | .libs => [(libsTransmitGate, p.libs.transmit)]
  | .users => []

/-- What a ring patches for its tasks: the core points at what it built, the outer rings at their
copies. -/
def states (p : StartPlan) (a : VaultAddresses) : Ring → List (Selector × Patch)
  | .core =>
    [(coreTask, .state p.coreStart Tss.limit),
      (Ring.core.ldtSelector, .state (p.coreStart + 112) Ldt.limit)]
  | .devs => OuterRing.devs.statePatches a
  | .libs => OuterRing.libs.statePatches a
  | .users => OuterRing.users.statePatches a

/-- What a ring installs of what it built. -/
def stateInstalls (p : StartPlan) : Ring → List Install
  | .core =>
    [.tss coreTask p.coreBlock.tssBase p.coreBlock.tss,
      .ldt Ring.core.ldtSelector p.coreBlock.ldtBase p.coreBlock.ldt]
  | .devs => (p.block .devs).installs .devs
  | .libs => (p.block .libs).installs .libs
  | .users => (p.block .users).installs .users

/-- All that a ring patches. -/
def patches (p : StartPlan) (a : VaultAddresses) (r : Ring) : List (Selector × Patch) :=
  p.states a r ++ (p.gates r).map fun g => (g.1, .gate g.2)

/-- The vectors that a ring binds. -/
def vectors (p : StartPlan) : Ring → List Install
  | .devs => [.interrupt keyboardVector p.devs.keyboard .devs]
  | .core | .libs | .users => []

/-- All that a ring installs. -/
def installs (p : StartPlan) (r : Ring) : List Install :=
  p.stateInstalls r ++ ((p.gates r).map (fun g => .callGate g.1 g.2 0) ++ p.vectors r)

/-- The interrupt table with the vectors of a ring bound. -/
def bind (p : StartPlan) (r : Ring) (t : InterruptTable) : InterruptTable :=
  match r with
  | .devs => ⟨t.table.put keyboardVector.toNat (interruptGate p.devs.keyboard .devs)⟩
  | .core | .libs | .users => t

/-- The vault with what a ring hands over. -/
def deposit (p : StartPlan) (r : Ring) (s : Vault) : Vault :=
  match r with
  | .core => s
  | .devs => OuterRing.devs.deposit s (p.block .devs)
  | .libs => OuterRing.libs.deposit s (p.block .libs)
  | .users => OuterRing.users.deposit s (p.block .users)

end StartPlan

/-- What a ring prints when it is up. -/
def Ring.greeting : Ring → List Notice
  | .core => [.coreUp]
  | .devs => [.devsUp]
  | .libs => []
  | .users => [.usersUp]

/-! ### Slots of different rings -/

/-- The slots that a ring patches. -/
def Ring.patchedSlots : Ring → List Selector
  | .core =>
    [SelectorMap.coreTask, Ring.core.ldtSelector, SelectorMap.tableGate, SelectorMap.vectorGate,
      SelectorMap.printGate, SelectorMap.coreTransmitGate, SelectorMap.resumeGate]
  | .devs =>
    [Ring.devs.ldtSelector, SelectorMap.devsIrqTask, SelectorMap.devsSchedTask,
      SelectorMap.terminalGate]
  | .libs =>
    [Ring.libs.ldtSelector, SelectorMap.libsIrqTask, SelectorMap.libsSchedTask,
      SelectorMap.libsTransmitGate]
  | .users => [Ring.users.ldtSelector, SelectorMap.mainTask, SelectorMap.nestedTask]

/-- The slots that a ring patches or reads. -/
def Ring.usedSlots (r : Ring) : List Selector :=
  r.patchedSlots ++ r.codeSelector :: OuterRing.windows

namespace StartPlan

variable {p : StartPlan} {a : VaultAddresses} {q r : Ring}

theorem map_patches (p : StartPlan) (a : VaultAddresses) (r : Ring) :
    (p.patches a r).map (·.1) = r.patchedSlots := by
  cases r <;> rfl

/-- No ring patches a slot that another one uses. -/
theorem untouched_patches (hqr : q ≠ r) {s : Selector} (hs : s ∈ r.usedSlots) :
    Untouched (p.patches a q) s.index := by
  have hslots : ∀ s ∈ r.usedSlots, ∀ s' ∈ q.patchedSlots, s.index ≠ s'.index := by
    cases q <;> cases r <;> first | exact absurd rfl hqr | decide
  intro e he
  refine hslots s hs e.1 ?_
  rw [← p.map_patches a q]
  exact List.mem_map_of_mem he

theorem untouched_done {done : List Ring} (hr : r ∉ done) {s : Selector} (hs : s ∈ r.usedSlots) :
    Untouched (done.flatMap (p.patches a)) s.index := by
  intro e he
  obtain ⟨q, hq, he⟩ := List.mem_flatMap.1 he
  have hqr : q ≠ r := by
    rintro rfl
    exact hr hq
  exact untouched_patches hqr hs e he

theorem slot?_patchedSlots (r : Ring) : ∀ s ∈ r.patchedSlots, (BootMap.slot? s.index).isSome := by
  cases r <;> decide +kernel

theorem gateInto (p : StartPlan) (r : Ring) : ∀ g ∈ p.gates r, BootMap.GateInto r g.1 := by
  have hgates : ∀ s ∈ (p.gates r).map (·.1), BootMap.GateInto r s := by
    cases r <;> simp only [gates, List.map] <;> decide +kernel
  exact fun g hg => hgates g.1 (List.mem_map_of_mem hg)

/-- The gates of a ring are apart from its state. -/
theorem untouched_states (p : StartPlan) (a : VaultAddresses) (r : Ring) :
    ∀ s ∈ (p.gates r).map (·.1) ++ [r.codeSelector], Untouched (p.states a r) s.index := by
  have hslots : ∀ s ∈ (p.gates r).map (·.1) ++ [r.codeSelector],
      ∀ s' ∈ (p.states a r).map (·.1), s.index ≠ s'.index := by
    cases r <;> simp only [gates, states, OuterRing.statePatches, List.map] <;> decide
  exact fun s hs e he => hslots s hs e.1 (List.mem_map_of_mem he)

theorem distinct_gates (p : StartPlan) (r : Ring) :
    Distinct ((p.gates r).map (·.1) ++ [r.codeSelector]) := by
  cases r <;> simp only [gates, List.map] <;> decide

theorem gates_subset_usedSlots (p : StartPlan) (r : Ring) :
    ∀ s ∈ (p.gates r).map (·.1) ++ [r.codeSelector], s ∈ r.usedSlots := by
  cases r <;> simp only [gates, List.map] <;> decide

end StartPlan

/-! ### One ring -/

/-- The console after a notice. -/
def Console.display (c : Console) (n : Notice) : Option Console :=
  c.serve ⟨n.color, 0, n.position⟩ (messageText (Text.utf8 n.text))

namespace Core

variable {capacity : Nat} {l : List (Selector × Patch)} {c : Core} {memory : RingMemory}
  {p : StartPlan} {a : VaultAddresses} {r : Ring}

theorem startRing_eq_register (c : Core) (memory : RingMemory) (p : StartPlan) (r : Ring) :
    c.startRing memory p r = c.register ⟨r, memory⟩ (p.installs r) r.greeting := by
  cases r with
  | core => rfl
  | devs =>
    have hbuild := OuterRing.devs.build_eq (p.start .devs) p.devs.tasks
    change c.registerTasks _ _ OuterRing.devs.ring.level OuterRing.devs.roster _ _ _ = _
    rw [registerTasks, hbuild]
    rfl
  | libs =>
    have hbuild := OuterRing.libs.build_eq (p.start .libs) p.libs.tasks
    change c.registerTasks _ _ OuterRing.libs.ring.level OuterRing.libs.roster _ _ _ = _
    rw [registerTasks, hbuild]
    rfl
  | users =>
    have hbuild := OuterRing.users.build_eq (p.start .users) p.users
    change c.registerTasks _ _ OuterRing.users.ring.level OuterRing.users.roster _ _ _ = _
    rw [registerTasks, hbuild]
    rfl

/-- Notices are printed on the screen and change the console only. -/
theorem notices_eq_some (h : c.console.OnScreen) (l : List Notice) :
    ∃ console, c.notices l = some { c with console } ∧
      l.foldlM Console.display c.console = some console ∧ console.OnScreen := by
  induction l generalizing c with
  | nil => exact ⟨c.console, rfl, rfl, h⟩
  | cons n l ih =>
    obtain ⟨console₁, hserve, h₁, -⟩ := Console.serve_follows h ⟨n.color, 0, n.position⟩
      (messageText (Text.utf8 n.text))
    have hnotice : c.notice n = some { c with console := console₁ } := by
      rw [notice, print, hserve]
      rfl
    have hdisplay : c.console.display n = some console₁ := hserve
    obtain ⟨console₂, hrest, hshown, h₂⟩ := ih (c := { c with console := console₁ }) h₁.onScreen
    refine ⟨console₂, ?_, ?_, h₂⟩
    · rw [notices, List.foldlM_cons, hnotice]
      exact hrest
    · rw [List.foldlM_cons, hdisplay]
      exact hshown

theorem installAll_coreStates (hcap : 38 ≤ capacity)
    (h : Patched (boot capacity) l c.tables.gdt)
    (fresh : ∀ s ∈ Ring.core.usedSlots, Untouched l s.index) (more : List Install) :
    ∃ gdt, c.installAll ⟨.core, memory⟩ (p.stateInstalls .core ++ more) =
        { c with tables := ⟨gdt, c.tables.vault⟩ }.installAll ⟨.core, memory⟩ more ∧
      Patched (boot capacity) (l ++ p.states a .core) gdt := by
  have distinct : Distinct Ring.core.usedSlots := by decide
  obtain ⟨gdt₁, hinstall₁, h₁⟩ := install_coreTask memory hcap h
    (fresh _ List.mem_cons_self) p.coreBlock.tssBase p.coreBlock.tss
  have fresh₁ := untouched_next distinct fresh (.state p.coreBlock.tssBase Tss.limit)
  let c₁ : Core := { c with tables := ⟨gdt₁, c.tables.vault⟩ }
  obtain ⟨gdt₂, hinstall₂, h₂⟩ := install_coreLdt (c := c₁) memory hcap h₁
    (fresh₁ _ List.mem_cons_self) p.coreBlock.ldtBase p.coreBlock.ldt
  refine ⟨gdt₂, (installAll_cons hinstall₁).trans (installAll_cons hinstall₂), ?_⟩
  rw [List.append_assoc] at h₂
  exact h₂

/-- What a ring built is registered. -/
theorem installAll_states (hcap : 38 ≤ capacity) (h : Patched (boot capacity) l c.tables.gdt)
    (howns : ∀ r, r ≠ .core → memory.owns r = RingMemory.regions.owns r)
    (hplace : ∀ o : OuterRing, o.ring.region.Covers (p.start o).toNat (TaskBlock.size o.ring.level))
    (fresh : ∀ s ∈ r.usedSlots, Untouched l s.index) (more : List Install) :
    ∃ gdt, c.installAll ⟨r, memory⟩ (p.stateInstalls r ++ more) =
        { c with tables := ⟨gdt, p.deposit r c.tables.vault⟩ }.installAll ⟨r, memory⟩ more ∧
      Patched (boot capacity) (l ++ p.states c.tables.vault.address r) gdt := by
  have touched (o : OuterRing) : ∀ s ∈ o.touched, s ∈ o.ring.usedSlots := by
    cases o <;> decide
  cases r with
  | core => exact installAll_coreStates hcap h fresh more
  | devs =>
    exact installAll_block (o := .devs) hcap h (howns .devs (by decide)) (hplace .devs)
      (fun s hs => fresh s (touched .devs s hs)) p.devs.tasks more
  | libs =>
    exact installAll_block (o := .libs) hcap h (howns .libs (by decide)) (hplace .libs)
      (fun s hs => fresh s (touched .libs s hs)) p.libs.tasks more
  | users =>
    exact installAll_block (o := .users) hcap h (howns .users (by decide)) (hplace .users)
      (fun s hs => fresh s (touched .users s hs)) p.users more

theorem installAll_vectors (hidt : keyboardVector.toNat < c.idt.capacity) :
    c.installAll ⟨r, memory⟩ (p.vectors r) = (.ok (), { c with idt := p.bind r c.idt }) := by
  cases r with
  | devs =>
    exact installAll_cons (install_interrupt_eq (by decide) hidt (Nat.le_refl _))
  | core => rfl
  | libs => rfl
  | users => rfl

/-- **A ring comes up** wherever the slots that it uses are untouched. -/
theorem startRing_eq_some (hcap : 38 ≤ capacity) (h : Patched (boot capacity) l c.tables.gdt)
    (howns : ∀ r, r ≠ .core → memory.owns r = RingMemory.regions.owns r)
    (hplace : ∀ o : OuterRing, o.ring.region.Covers (p.start o).toNat (TaskBlock.size o.ring.level))
    (fresh : ∀ s ∈ r.usedSlots, Untouched l s.index)
    (hidt : keyboardVector.toNat < c.idt.capacity) (hscreen : c.console.OnScreen) :
    ∃ gdt console, c.startRing memory p r =
        some (.ok (), { c with
          tables := ⟨gdt, p.deposit r c.tables.vault⟩
          idt := p.bind r c.idt
          console := console }) ∧
      Patched (boot capacity) (l ++ p.patches c.tables.vault.address r) gdt ∧
      r.greeting.foldlM Console.display c.console = some console ∧ console.OnScreen := by
  obtain ⟨gdt₁, hstates, h₁⟩ := installAll_states hcap h howns hplace fresh
    ((p.gates r).map (fun g => .callGate g.1 g.2 0) ++ p.vectors r)
  have fresh₁ : ∀ s ∈ (p.gates r).map (·.1) ++ [r.codeSelector],
      Untouched (l ++ p.states c.tables.vault.address r) s.index := by
    intro s hs e he
    rcases List.mem_append.1 he with he | he
    · exact fresh s (p.gates_subset_usedSlots r s hs) e he
    · exact p.untouched_states c.tables.vault.address r s hs e he
  let c₁ : Core := { c with tables := ⟨gdt₁, p.deposit r c.tables.vault⟩ }
  obtain ⟨gdt₂, hgates, h₂⟩ := installAll_gates (c := c₁) memory hcap h₁
    (p.gateInto r) (p.distinct_gates r) fresh₁ (p.vectors r)
  let c₂ : Core := { c₁ with tables := ⟨gdt₂, c₁.tables.vault⟩ }
  have hall : c.installAll ⟨r, memory⟩ (p.installs r) =
      (.ok (), { c₂ with idt := p.bind r c.idt }) :=
    hstates.trans (hgates.trans (installAll_vectors (c := c₂) hidt))
  obtain ⟨console, hnotices, hshown, h₃⟩ :=
    notices_eq_some (c := { c₂ with idt := p.bind r c.idt }) hscreen r.greeting
  refine ⟨gdt₂, console, ?_, ?_, hshown, h₃⟩
  · rw [startRing_eq_register, register, hall]
    dsimp only
    rw [hnotices]
    rfl
  · rw [List.append_assoc] at h₂
    exact h₂

end Core

/-! ### All rings -/

/-- The slots of a ring in the vault hold what the ring built, with the page directory of the
vault. -/
structure OuterRing.Holds (o : OuterRing) (s : Vault) (t : TaskBlock) : Prop where
  table : s.ldt o.ldtSlot = t.ldt
  first : s.tss o.first = { t.first with cr3 := s.directory }
  second : s.tss o.second = { t.second with cr3 := s.directory }

namespace OuterRing

variable {o o' : OuterRing} {s : Vault} {t t' : TaskBlock}

theorem holds_deposit (o : OuterRing) (s : Vault) (t : TaskBlock) : o.Holds (o.deposit s t) t where
  table := if_pos rfl
  first := by
    have hne : o.first ≠ o.second := by cases o <;> decide
    exact (if_neg hne).trans (if_pos rfl)
  second := if_pos rfl

/-- The deposits of other rings are for other slots. -/
theorem Holds.deposit (h : o.Holds s t) (hne : o ≠ o') : o.Holds (o'.deposit s t') t where
  table := by
    have hslot : o.ldtSlot ≠ o'.ldtSlot := by
      cases o <;> cases o' <;> first | decide | exact absurd rfl hne
    exact (if_neg hslot).trans h.table
  first := by
    have hslot : o.first ≠ o'.first ∧ o.first ≠ o'.second := by
      cases o <;> cases o' <;> first | decide | exact absurd rfl hne
    exact (if_neg hslot.2).trans ((if_neg hslot.1).trans h.first)
  second := by
    have hslot : o.second ≠ o'.first ∧ o.second ≠ o'.second := by
      cases o <;> cases o' <;> first | decide | exact absurd rfl hne
    exact (if_neg hslot.2).trans ((if_neg hslot.1).trans h.second)

end OuterRing

namespace StartPlan

variable {p : StartPlan} {r : Ring} {s : Vault} {o : OuterRing}

theorem address_deposit (p : StartPlan) (r : Ring) (s : Vault) :
    (p.deposit r s).address = s.address := by
  cases r <;> rfl

theorem directory_deposit (p : StartPlan) (r : Ring) (s : Vault) :
    (p.deposit r s).directory = s.directory := by
  cases r <;> rfl

/-- Only the device drivers bind a vector. -/
theorem bind_of_ne (hr : r ≠ .devs) (t : InterruptTable) : p.bind r t = t := by
  cases r with
  | devs => exact absurd rfl hr
  | core => rfl
  | libs => rfl
  | users => rfl

theorem holds_deposit (h : o.ring ≠ r → o.Holds s (p.block o)) :
    o.Holds (p.deposit r s) (p.block o) := by
  by_cases ho : o.ring = r
  · subst ho
    cases o <;> exact OuterRing.holds_deposit ..
  · have hs := h ho
    cases r with
    | core => exact hs
    | devs =>
      have hne : o ≠ .devs := fun h => ho (by rw [h]; rfl)
      exact hs.deposit hne
    | libs =>
      have hne : o ≠ .libs := fun h => ho (by rw [h]; rfl)
      exact hs.deposit hne
    | users =>
      have hne : o ≠ .users := fun h => ho (by rw [h]; rfl)
      exact hs.deposit hne

end StartPlan

/-- The state `c` of a bring-up that started in `c₀`, with the rings of `done` up. -/
structure Progress (p : StartPlan) (boot : DescriptorTable) (c₀ : Core) (done : List Ring)
    (c : Core) : Prop where
  gdt : Patched boot (done.flatMap (p.patches c₀.tables.vault.address)) c.tables.gdt
  address : c.tables.vault.address = c₀.tables.vault.address
  directory : c.tables.vault.directory = c₀.tables.vault.directory
  copies (o : OuterRing) : o.ring ∈ done → o.Holds c.tables.vault (p.block o)
  idt : c.idt = if .devs ∈ done then p.bind .devs c₀.idt else c₀.idt
  screen : c.console.OnScreen
  shown : (done.flatMap Ring.greeting).foldlM Console.display c₀.console = some c.console
  log : c.log = c₀.log

namespace Progress

variable {capacity : Nat} {p : StartPlan} {c₀ c : Core} {done : List Ring} {memory : RingMemory}
  {r : Ring}

/-- **Every ring that is not up yet comes up.** -/
theorem step (hcap : 38 ≤ capacity) (h : Progress p (boot capacity) c₀ done c)
    (howns : ∀ r, r ≠ .core → memory.owns r = RingMemory.regions.owns r)
    (hplace : ∀ o : OuterRing, o.ring.region.Covers (p.start o).toNat (TaskBlock.size o.ring.level))
    (hidt : keyboardVector.toNat < c₀.idt.capacity) (hr : r ∉ done) :
    ∃ c', c.startRing memory p r = some (.ok (), c') ∧
      Progress p (boot capacity) c₀ (done ++ [r]) c' := by
  have hidt' : keyboardVector.toNat < c.idt.capacity := by
    rw [h.idt]
    split
    · exact lt_of_lt_of_eq hidt capacity_put.symm
    · exact hidt
  obtain ⟨gdt, console, hstart, hgdt, hshown, hscreen⟩ := Core.startRing_eq_some hcap h.gdt howns
    hplace (fun s hs => StartPlan.untouched_done hr hs) hidt' h.screen
  refine ⟨_, hstart, ?_, ?_, ?_, ?_, ?_, hscreen, ?_, h.log⟩
  · rw [List.flatMap_append, List.flatMap_singleton, ← h.address]
    rw [← h.address] at hgdt
    exact hgdt
  · exact (p.address_deposit r _).trans h.address
  · exact (p.directory_deposit r _).trans h.directory
  · intro o ho
    refine StartPlan.holds_deposit fun hne => h.copies o ?_
    rcases List.mem_append.1 ho with ho | ho
    · exact ho
    · exact absurd (List.mem_singleton.1 ho) hne
  · by_cases hdevs : r = .devs
    · subst hdevs
      have hidle : c.idt = c₀.idt := h.idt.trans (if_neg hr)
      rw [if_pos (List.mem_append_right _ (List.mem_singleton_self _)), ← hidle]
    · have hmem : Ring.devs ∈ done ++ [r] ↔ Ring.devs ∈ done := by
        simp [Ne.symm hdevs]
      simp only [hmem]
      exact (StartPlan.bind_of_ne hdevs _).trans h.idt
  · rw [List.flatMap_append, List.flatMap_singleton, List.foldlM_append, h.shown]
    exact hshown

theorem start (hgdt : c₀.tables.gdt = boot capacity) (hscreen : c₀.console.OnScreen) :
    Progress p (boot capacity) c₀ [] c₀ where
  gdt := by
    rw [hgdt]
    exact Patched.nil _
  address := rfl
  directory := rfl
  copies _ ho := by cases ho
  idt := rfl
  screen := hscreen
  shown := rfl
  log := rfl

/-- Rings that are not up yet come up one after another. -/
theorem run (hcap : 38 ≤ capacity)
    (howns : ∀ r, r ≠ .core → memory.owns r = RingMemory.regions.owns r)
    (hplace : ∀ o : OuterRing, o.ring.region.Covers (p.start o).toNat (TaskBlock.size o.ring.level))
    (hidt : keyboardVector.toNat < c₀.idt.capacity) {order : List Ring} (horder : order.Nodup)
    (hnew : ∀ r ∈ order, r ∉ done) (h : Progress p (boot capacity) c₀ done c) :
    ∃ c', c.startEach memory p order = some (.ok (), c') ∧
      Progress p (boot capacity) c₀ (done ++ order) c' := by
  induction order generalizing done c with
  | nil => exact ⟨c, rfl, by simpa using h⟩
  | cons r order ih =>
    obtain ⟨hr, horder⟩ := List.nodup_cons.1 horder
    obtain ⟨hrnew, hnew⟩ := List.forall_mem_cons.1 hnew
    obtain ⟨c₁, hstart, h₁⟩ := h.step hcap howns hplace hidt hrnew
    have hnew₁ : ∀ r' ∈ order, r' ∉ done ++ [r] := by
      intro r' hr' hmem
      rcases List.mem_append.1 hmem with hmem | hmem
      · exact hnew r' hr' hmem
      · obtain rfl := List.mem_singleton.1 hmem
        exact hr hr'
    obtain ⟨c₂, hrest, h₂⟩ := ih horder hnew₁ h₁
    refine ⟨c₂, ?_, by simpa using h₂⟩
    rw [Core.startEach, hstart]
    exact hrest

end Progress

/-! ### The machine is up -/

/-- What a bring-up in the given order makes of the machine `c`. -/
structure BroughtUp (p : StartPlan) (boot : DescriptorTable) (order : List Ring) (c c' : Core) :
    Prop where
  /-- The slots of tasks, local tables and gates are patched and keep their access byte. -/
  patched : ∀ r, ∀ e ∈ p.patches c.tables.vault.address r,
    ∃ b d, boot.slots[e.1.index]? = some b ∧ c'.tables.gdt.slots[e.1.index]? = some d ∧
      e.2.Describes b d
  /-- All other slots are as they were. -/
  rest (i : Nat) : (∀ r, ∀ e ∈ p.patches c.tables.vault.address r, i ≠ e.1.index) →
    c'.tables.gdt.slots[i]? = boot.slots[i]?
  /-- The copies are what the rings built. -/
  copies (o : OuterRing) : ∃ t,
    TaskBlock.build (p.start o) o.ring.level o.roster (p.entries o) = .ok t ∧
      o.Holds c'.tables.vault t
  address : c'.tables.vault.address = c.tables.vault.address
  directory : c'.tables.vault.directory = c.tables.vault.directory
  /-- The vector of the keyboard leads into the device drivers. -/
  keyboard : ∃ d, c'.idt.table.slots[keyboardVector.toNat]? = some d ∧ d.present ∧
    d.systemType? = some .interruptGate ∧ d.dpl = .devs ∧
    d.gateSelector = Ring.devs.codeSelector ∧ d.gateOffset = p.devs.keyboard
  vectors (i : Nat) : i ≠ keyboardVector.toNat →
    c'.idt.table.slots[i]? = c.idt.table.slots[i]?
  /-- The rings said hello in the order in which they came up. -/
  shown : (order.flatMap Ring.greeting).foldlM Console.display c.console = some c'.console
  log : c'.log = c.log

theorem Progress.broughtUp {capacity : Nat} {p : StartPlan} {c₀ c : Core} {order : List Ring}
    (hcap : 38 ≤ capacity) (hidt : keyboardVector.toNat < c₀.idt.capacity)
    (horder : ∀ r, r ∈ order) (h : Progress p (boot capacity) c₀ order c) :
    BroughtUp p (boot capacity) order c₀ c := by
  have hidt' : c.idt = p.bind .devs c₀.idt := h.idt.trans (if_pos (horder .devs))
  refine ⟨?_, ?_, ?_, h.address, h.directory, ?_, ?_, h.shown, h.log⟩
  · intro r e he
    have hslot : e.1 ∈ r.patchedSlots := by
      rw [← p.map_patches c₀.tables.vault.address r]
      exact List.mem_map_of_mem he
    obtain ⟨b, hb⟩ := Option.isSome_iff_exists.1 (StartPlan.slot?_patchedSlots r e.1 hslot)
    have hboot := slots_boot_of_slot? hcap hb
    refine ⟨b, e.2.apply b, hboot, ?_, e.2.describes_apply b⟩
    rw [h.gdt.patched e (List.mem_flatMap.2 ⟨r, horder r, he⟩), hboot, Option.map_some]
  · intro i hi
    refine h.gdt.rest i fun e he => ?_
    obtain ⟨r, -, he⟩ := List.mem_flatMap.1 he
    exact hi r e he
  · intro o
    exact ⟨p.block o, o.build_eq .., h.copies o (horder _)⟩
  · have hgate := isInterruptGate_interruptGate p.devs.keyboard .devs
    refine ⟨interruptGate p.devs.keyboard .devs, ?_, hgate.present, hgate.type,
      dpl_interruptGate .., Descriptor.gateSelector_gate .., Descriptor.gateOffset_gate ..⟩
    rw [hidt']
    exact slots_put_self hidt
  · intro i hi
    rw [hidt']
    exact slots_put_of_ne hi

/-- **The machine comes up**: from the boot table and a new vault, with each outer ring owning its
region, all four rings come up in any order, whatever the addresses of their handlers and wherever
their blocks lie in their regions. -/
theorem bring_up_succeeds {capacity : Nat} (hcap : 38 ≤ capacity) (a : VaultAddresses)
    (directory : Word) {memory : RingMemory}
    (howns : ∀ r, r ≠ .core → memory.owns r = RingMemory.regions.owns r) (p : StartPlan)
    (hplace : ∀ o : OuterRing, o.ring.region.Covers (p.start o).toNat (TaskBlock.size o.ring.level))
    {c : Core} (htables : c.tables = ⟨boot capacity, { address := a, directory }⟩)
    (hidt : keyboardVector.toNat < c.idt.capacity) (hscreen : c.console.OnScreen)
    {order : List Ring} (horder : order.Perm Ring.all) :
    ∃ c', c.startEach memory p order = some (.ok (), c') ∧
      BroughtUp p (boot capacity) order c c' := by
  have hnodup : order.Nodup := horder.nodup_iff.2 (by decide)
  have hall : ∀ r, r ∈ order := by
    intro r
    refine horder.mem_iff.2 ?_
    cases r <;> decide
  have hstart : Progress p (boot capacity) c [] c :=
    Progress.start (by rw [htables]) hscreen
  obtain ⟨c', hrun, h⟩ := hstart.run hcap howns hplace hidt hnodup
    (fun r _ hr => by cases hr)
  exact ⟨c', hrun, h.broughtUp hcap hidt hall⟩

/-- A plan with every block at the upper edge of its region. -/
def edgePlan : StartPlan where
  coreStart := 0x400000
  cr3 := 0x3000
  core := ⟨0x201000, 0x201010, 0x201020, 0x201030, 0x201040⟩
  start o := BitVec.ofNat 32 (o.ring.region.stop - TaskBlock.size o.ring.level)
  devs := ⟨⟨0x202000, 0x202010⟩, 0x202020, 0x202030⟩
  libs := ⟨⟨0x203000, 0x203010⟩, 0x203020⟩
  users := ⟨0x204000, 0x204010⟩

/-- A machine with the boot map installed and nothing else. -/
def bootMachine : Core where
  tables := ⟨boot 8192, { address := ⟨fun _ => 0x500000, fun _ => 0x501000⟩, directory := 0x3000 }⟩
  idt := .empty 256
  console := { cells := .replicate Screen.size .blank }

theorem bring_up_succeeds_edgePlan :
    ∃ c', bootMachine.startEach .regions edgePlan [.core, .users, .devs, .libs] =
        some (.ok (), c') ∧
      BroughtUp edgePlan (boot 8192) [.core, .users, .devs, .libs] bootMachine c' := by
  have hplace : ∀ o : OuterRing,
      o.ring.region.Covers (edgePlan.start o).toNat (TaskBlock.size o.ring.level) := by
    intro o
    cases o <;> decide
  have hidt : keyboardVector.toNat < bootMachine.idt.capacity := by
    have hsize : (Array.replicate 256 Descriptor.null).size = 256 := Array.size_replicate
    change 0x21 < (Array.replicate 256 Descriptor.null).size
    omega
  have hscreen : bootMachine.console.OnScreen := by
    have hsize : (Array.replicate Screen.size Cell.blank).size = Screen.size :=
      Array.size_replicate
    exact ⟨Nat.le_of_eq hsize.symm, by decide, by decide⟩
  exact bring_up_succeeds (by decide) _ _ (fun _ _ => rfl) edgePlan hplace rfl hidt hscreen
    (by decide)

end FourRings
