import FourRings.Proofs.Shelter

/-!
# Running tasks

The processor marks the descriptor of the task that it runs as busy. Whatever the outer rings
request, the slot of such a task and the copy of its state stay as they are:
`running_task_undisturbed` is the main statement. It asks nothing of the rest of the table, which
may have been written by anyone.

Only one check looks for busy tasks, that for handed-over state. The other ways to write a slot are
barred by its type alone: outer rings install nothing over a present system descriptor, and gates
and local tables are bound where there are gates and local tables.
-/

namespace FourRings

open DescriptorTable

/-- A present descriptor of a task that is running. -/
structure Descriptor.IsRunning (d : Descriptor) : Prop where
  present : d.present
  type : d.systemType? = some .tssBusy

instance (d : Descriptor) : Decidable d.IsRunning :=
  decidable_of_iff (d.present ∧ d.systemType? = some .tssBusy)
    ⟨fun ⟨present, type⟩ => ⟨present, type⟩, fun h => ⟨h.present, h.type⟩⟩

variable {t : Tables} {memory : RingMemory} {caller : Ring} {r : Registers} {q : TableRequest}
  {d new : Descriptor} {vault : Vault} {k : TaskSlot} {x : Tss}

/-! ### One request -/

/-- An outer ring makes no edit of a running task. -/
theorem Descriptor.IsRunning.not_edit (h : d.IsRunning) (outer : caller ≠ .core) :
    ¬ t.Edit memory caller q d new vault := by
  intro edit
  cases edit with
  | install ok => cases h.type.symm.trans ((ok.overwrite h.present).2.resolve_left outer)
  | retarget type _ => cases h.type.symm.trans type
  | rebaseTss core _ => exact outer core
  | rebaseLdt core _ => exact outer core
  | adoptTss _ _ type _ => cases h.type.symm.trans type
  | adoptLdt _ _ type _ => cases h.type.symm.trans type

/-- What is deposited for the slot of a running task suits the slot. -/
theorem Descriptor.IsRunning.suits (h : d.IsRunning) {copy : Word}
    (deposit : t.Deposit memory caller q copy vault)
    (hk : (StateSlot.task k).index = q.selector.index) : q.Suits d := by
  cases deposit with
  | tss => simp [TableRequest.Suits, h.type, SystemType.isTask]
  | ldt slot_eq => cases StateSlot.eq_of_index (hk.trans (StateSlot.index_of_ldtSlot slot_eq).symm)

/-- The task `k` runs with the descriptor `d` and the state `x`. -/
structure Tables.Runs (t : Tables) (k : TaskSlot) (d : Descriptor) (x : Tss) : Prop where
  running : d.IsRunning
  slot : t.gdt.slots[k.selector.index]? = some d
  state : t.vault.tss k = x

namespace Tables.Runs

/-- **Requests of outer rings that name a running task are refused**, and leave the tables. -/
theorem serve_eq (h : t.Runs k d x) (memory : RingMemory) (outer : caller ≠ .core)
    (decode : TableRequest.decode r = .ok q) (hk : k.selector.index = q.selector.index) :
    ∃ e, t.serve memory caller r = (.error e, t) := by
  have houtcome := t.serve_outcome memory caller r
  generalize t.serve memory caller r = served at houtcome ⊢
  cases houtcome with
  | refused e => exact ⟨e, rfl⟩
  | stray _ decode' slot _ deposit misfit =>
    obtain rfl := Except.ok.inj (decode.symm.trans decode')
    obtain rfl := Option.some.inj (slot.symm.trans (hk ▸ h.slot))
    exact absurd (h.running.suits deposit hk) misfit
  | accepted decode' _ slot edit =>
    obtain rfl := Except.ok.inj (decode.symm.trans decode')
    obtain rfl := Option.some.inj (slot.symm.trans (hk ▸ h.slot))
    exact absurd edit (h.running.not_edit outer)

/-- One request of an outer ring leaves a running task. -/
theorem serve (h : t.Runs k d x) (outer : caller ≠ .core) (memory : RingMemory) (r : Registers) :
    (t.serve memory caller r).2.Runs k d x := by
  by_cases hnamed : ∃ q, TableRequest.decode r = .ok q ∧ k.selector.index = q.selector.index
  · obtain ⟨q, decode, hk⟩ := hnamed
    obtain ⟨e, heq⟩ := h.serve_eq memory outer decode hk
    rw [heq]
    exact h
  · have houtcome := t.serve_outcome memory caller r
    generalize t.serve memory caller r = served at houtcome ⊢
    cases houtcome with
    | refused e => exact h
    | @stray q _ _ vault _ decode _ _ deposit _ =>
      have hk : (StateSlot.task k).index ≠ q.selector.index := fun hk => hnamed ⟨q, decode, hk⟩
      exact ⟨h.running, h.slot, (Sum.inl.inj (deposit.copy_eq hk)).trans h.state⟩
    | @accepted q _ _ vault decode _ _ edit =>
      have hk : (StateSlot.task k).index ≠ q.selector.index := fun hk => hnamed ⟨q, decode, hk⟩
      exact ⟨h.running, (slots_put_of_ne hk).trans h.slot,
        (Sum.inl.inj (edit.copy_eq hk)).trans h.state⟩

/-- **One event of the outer rings leaves a running task.** -/
theorem after {e : Event} (h : t.Runs k d x) (he : e.OfOuterRing) : (t.after e).Runs k d x := by
  cases e with
  | request memory caller r => exact h.serve he memory r
  | setDirectory directory => exact ⟨h.running, h.slot, h.state⟩
  | setGdt gdt => exact absurd he id
  | setVault vault => exact absurd he id

end Tables.Runs

/-! ### Runs -/

/-- **A running task is never replaced.** Let the slot of a task hold a present busy descriptor, in
any table and with any vault. After any run of requests of the outer rings the slot holds the same
descriptor and the vault the same state for it, and the next request that names the slot, by
whichever selector, is refused and leaves all of the tables. -/
theorem running_task_undisturbed (slot : t.gdt.slots[k.selector.index]? = some d)
    (running : d.IsRunning) {events : List Event} (he : ∀ e ∈ events, e.OfOuterRing) :
    let t' := t.run events
    t'.gdt.slots[k.selector.index]? = some d ∧ t'.vault.tss k = t.vault.tss k ∧
      ∀ (memory : RingMemory) (caller : Ring) (r : Registers) (q : TableRequest), caller ≠ .core →
        TableRequest.decode r = .ok q → k.selector.index = q.selector.index →
        ∃ e, t'.serve memory caller r = (.error e, t') := by
  intro t'
  have hrun : t'.Runs k d (t.vault.tss k) :=
    Tables.run_induction (P := fun u => u.Runs k d (t.vault.tss k)) (fun _ _ h he => h.after he)
      ⟨running, slot, rfl⟩ he
  exact ⟨hrun.slot, hrun.state, fun memory _ _ _ outer decode hk =>
    hrun.serve_eq memory outer decode hk⟩

/-- The descriptor of the users' main task while it runs. -/
def busyTask : Descriptor := BootMap.placeholder .tssBusy 103 .users

/-- Tables in which it runs. -/
def busyTables : Tables :=
  ⟨(DescriptorTable.boot 64).put TaskSlot.main.selector.index busyTask,
    { address := ⟨fun _ => 0x600, fun _ => 0x700⟩ }⟩

/-- A run in which the users reach for the slot of their running task by four opcodes and under
three selectors, and hand over a local table in between. -/
def reachingRun : List Event :=
  let memory := RingMemory.ownedByAll.withLdt 0x5A0000 (.ofRing .users 0x5BE)
  [.request memory .users (TableRequest.encode (.tss (.ofGlobal 19 .users) 0x5A0100)),
    .request memory .users (TableRequest.encode (.ldt Ring.users.ldtSelector 0x5A0000 Ldt.limit)),
    .request memory .users (TableRequest.encode (.ldt (.ofLocal 19 .users) 0x5A0000 Ldt.limit)),
    .setDirectory 0x1000,
    .request memory .users (TableRequest.encode (.callGate (.ofGlobal 19 .core) 0x5A1000 0)),
    .request memory .users
      (TableRequest.encode
        (.descriptor (.ofGlobal 19 .libs) (BootMap.flat .users .dataKind .users)))]

theorem running_task_undisturbed_reachingRun :
    busyTables.gdt.slots[TaskSlot.main.selector.index]? = some busyTask ∧ busyTask.IsRunning ∧
      (∀ e ∈ reachingRun, e.OfOuterRing) ∧
      (busyTables.run reachingRun).gdt.slots[TaskSlot.main.selector.index]? = some busyTask ∧
      (busyTables.run reachingRun).vault.tss .main = busyTables.vault.tss .main ∧
      (busyTables.run reachingRun).vault.ldt .users = .ofRing .users 0x5BE := by
  have slot : busyTables.gdt.slots[TaskSlot.main.selector.index]? = some busyTask := by
    decide +kernel
  have running : busyTask.IsRunning := by decide
  have he : ∀ e ∈ reachingRun, e.OfOuterRing := by decide
  have h := running_task_undisturbed slot running he
  exact ⟨slot, running, he, h.1, h.2.1, by decide +kernel⟩

end FourRings
