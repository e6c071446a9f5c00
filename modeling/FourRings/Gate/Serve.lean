import FourRings.Gate.Policy

/-!
# Serving requests on the global table

`Tables` is what these requests work on: the global table and the vault of task state. A refused
request leaves the global table as it was. The vault can change with a refusal in one case: the
handed-over state is deposited, and then the slot turns out to hold another type of descriptor.
-/

namespace FourRings

/-- The global table with the vault. -/
structure Tables where
  gdt : DescriptorTable
  vault : Vault

/-- What a request leaves behind: the outcome and the tables. -/
abbrev Served := Except Refusal Unit × Tables

namespace Tables

/-- Takes over an edited global table, if the edit succeeded. -/
def settle (t : Tables) : Except TableError DescriptorTable → Served
  | .ok gdt => (.ok (), { t with gdt })
  | .error e => (.error (.table e), t)

/-- Deposits the task state that an outer ring owns at `base`. -/
def takeTss (t : Tables) (memory : RingMemory) (caller : Ring) (selector : Selector)
    (base : Word) : Except Refusal (Word × Vault) := do
  ensure (memory.owns caller base Tss.size) (.outOfReach base)
  match memory.readTss base with
  | none => .error (.outOfReach base)
  | some tss => t.vault.depositTss t.gdt memory caller selector tss

/-- Deposits the local table that an outer ring owns at `base`. -/
def takeLdt (t : Tables) (memory : RingMemory) (caller : Ring) (selector : Selector)
    (base limit : Word) : Except Refusal (Word × Vault) := do
  ensure (limit ≤ Ldt.limit ∧ memory.owns caller base (limit.toNat + 1)) (.outOfReach base)
  match memory.readLdt base with
  | none => .error (.outOfReach base)
  | some ldt => t.vault.depositLdt caller selector ldt limit

/-- Carries out a request that is permitted. The core patches its own slots to any address. -/
def perform (t : Tables) (memory : RingMemory) (caller : Ring) : TableRequest → Served
  | .descriptor selector d => t.settle (t.gdt.setAt selector d)
  | .callGate selector handler params => t.settle (t.gdt.patchCallGate selector handler params)
  | .tss selector base =>
    if caller = .core then t.settle (t.gdt.patchTss selector base Tss.limit)
    else
      match t.takeTss memory caller selector base with
      | .error e => (.error e, t)
      | .ok (copy, vault) => { t with vault }.settle (t.gdt.patchTss selector copy Tss.limit)
  | .ldt selector base limit =>
    if caller = .core then t.settle (t.gdt.patchLdt selector base limit)
    else
      match t.takeLdt memory caller selector base limit with
      | .error e => (.error e, t)
      | .ok (copy, vault) => { t with vault }.settle (t.gdt.patchLdt selector copy limit)

/-- Serves one request of a caller. -/
def serve (t : Tables) (memory : RingMemory) (caller : Ring) (r : Registers) : Served :=
  match TableRequest.decode r with
  | .error e => (.error e, t)
  | .ok q =>
    match permit t.gdt caller q with
    | .error e => (.error e, t)
    | .ok () => t.perform memory caller q

end Tables

end FourRings
