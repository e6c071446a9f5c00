import FourRings.Proofs.Served

/-!
# Runs

A run of the tables is a sequence of events. Requests are served one after another, and between
them parts of the tables may be written from elsewhere; which events a run admits is said by a
predicate on events. `Tables.run_induction` is the one induction over runs: what every admitted
event preserves holds at the end of every run.
-/

namespace FourRings

/-- What can happen to the tables. -/
inductive Event where
  | request (memory : RingMemory) (caller : Ring) (r : Registers)
  /-- The core names another page directory. -/
  | setDirectory (directory : Word)
  /-- The global table is written from elsewhere. -/
  | setGdt (gdt : DescriptorTable)
  /-- The vault is written from elsewhere. -/
  | setVault (vault : Vault)

namespace Event

/-- Who makes the request, if the event is one. -/
def caller? : Event → Option Ring
  | .request _ caller _ => some caller
  | .setDirectory _ | .setGdt _ | .setVault _ => none

end Event

namespace Tables

/-- The tables at boot: the boot table and a new vault. -/
def boot (capacity : Nat) (a : VaultAddresses) : Tables :=
  ⟨DescriptorTable.boot capacity, { address := a }⟩

/-- The tables at boot with all slots of the machine, for runs on fixed requests. -/
def booted : Tables := boot MemoryMap.gdtEntries ⟨fun _ => 0x600, fun _ => 0x700⟩

/-- The tables after an event. -/
def after (t : Tables) : Event → Tables
  | .request memory caller r => (t.serve memory caller r).2
  | .setDirectory directory => { t with vault := { t.vault with directory } }
  | .setGdt gdt => { t with gdt }
  | .setVault vault => { t with vault }

/-- The tables after a sequence of events. -/
def run (t : Tables) (events : List Event) : Tables := events.foldl after t

theorem run_cons (t : Tables) (e : Event) (events : List Event) :
    t.run (e :: events) = (t.after e).run events := rfl

/-- **Induction over runs**: what every admitted event preserves holds after every run of admitted
events. -/
theorem run_induction {P : Tables → Prop} {admitted : Event → Prop}
    (step : ∀ t e, P t → admitted e → P (t.after e)) {t : Tables} (start : P t)
    {events : List Event} (h : ∀ e ∈ events, admitted e) : P (t.run events) := by
  induction events generalizing t with
  | nil => exact start
  | cons e events ih =>
    obtain ⟨he, hrest⟩ := List.forall_mem_cons.1 h
    rw [run_cons]
    exact ih (step t e start he) hrest

/-! ### The global table in one request -/

/-- A request leaves the global table, or edits the one slot that it names. -/
theorem gdt_serve_cases (t : Tables) (memory : RingMemory) (caller : Ring) (r : Registers) :
    (t.serve memory caller r).2.gdt = t.gdt ∨
      ∃ q current new vault, q.selector.index ≠ 0 ∧
        t.gdt.slots[q.selector.index]? = some current ∧
        Edit t memory caller q current new vault ∧
        (t.serve memory caller r).2.gdt = t.gdt.put q.selector.index new := by
  generalize hs : t.serve memory caller r = served
  have h := serve_outcome t memory caller r
  rw [hs] at h
  cases h with
  | refused e => exact Or.inl rfl
  | stray e decode slot outer deposit misfit => exact Or.inl rfl
  | @accepted q current new vault decode null slot edit =>
    exact Or.inr ⟨q, current, new, vault, null, slot, edit, rfl⟩

/-! ### The vault in one request -/

theorem Deposit.vault_address {t : Tables} {memory : RingMemory} {caller : Ring} {q : TableRequest}
    {address : Word} {vault : Vault} (h : Deposit t memory caller q address vault) :
    vault.address = t.vault.address := by
  cases h <;> rfl

/-- An edit leaves the vault, or is made by an outer ring with a deposit. -/
theorem Edit.vault_cases {t : Tables} {memory : RingMemory} {caller : Ring} {q : TableRequest}
    {current new : Descriptor} {vault : Vault} (edit : Edit t memory caller q current new vault) :
    vault = t.vault ∨ caller ≠ .core ∧ ∃ address, Deposit t memory caller q address vault := by
  cases edit with
  | install | retarget | rebaseTss | rebaseLdt => exact Or.inl rfl
  | adoptTss outer _ _ deposit => exact Or.inr ⟨outer, _, deposit⟩
  | adoptLdt outer _ _ deposit => exact Or.inr ⟨outer, _, deposit⟩

/-- A request leaves the vault, or makes a deposit. -/
theorem vault_serve_cases (t : Tables) (memory : RingMemory) (caller : Ring) (r : Registers) :
    (t.serve memory caller r).2.vault = t.vault ∨
      ∃ q address, Deposit t memory caller q address (t.serve memory caller r).2.vault := by
  generalize hs : t.serve memory caller r = served
  have h := serve_outcome t memory caller r
  rw [hs] at h
  cases h with
  | refused e => exact Or.inl rfl
  | stray e decode slot outer deposit misfit => exact Or.inr ⟨_, _, deposit⟩
  | accepted decode null slot edit =>
    exact edit.vault_cases.imp_right fun ⟨_, address, deposit⟩ => ⟨_, address, deposit⟩

end Tables

end FourRings
