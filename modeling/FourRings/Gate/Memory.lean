import FourRings.MemoryMap
import FourRings.Task.State

/-!
# The memory of callers

What the core may assume of memory that an outer ring names: which blocks belong to a ring alone,
and the task state and local tables that can be read there. `RingMemory.owns` is a policy and does
not depend on what is stored.
-/

namespace FourRings

/-- Memory that requests name. -/
structure RingMemory where
  /-- Whether the block of the given address and size is private to the ring. -/
  owns : Ring → Word → Nat → Bool
  /-- The task state at an address. -/
  readTss : Word → Option Tss := fun _ => none
  /-- The local table at an address. -/
  readLdt : Word → Option Ldt := fun _ => none

namespace RingMemory

/-- Every ring owns all of memory. -/
def ownedByAll : RingMemory where
  owns _ _ _ := true

/-- No ring owns any memory. -/
def ownedByNone : RingMemory where
  owns _ _ _ := false

/-- Each outer ring owns its region. -/
def regions : RingMemory where
  owns r addr size := r ≠ .core ∧ r.region.Covers addr.toNat size

/-- Ring `r` owns its region, and no other ring owns anything. -/
def regionOf (r : Ring) : RingMemory where
  owns r' addr size := r' = r ∧ r.region.Covers addr.toNat size

/-- The same memory with task state written at `addr`. -/
def withTss (m : RingMemory) (addr : Word) (t : Tss) : RingMemory :=
  { m with readTss := fun a => if a = addr then some t else m.readTss a }

/-- The same memory with a local table written at `addr`. -/
def withLdt (m : RingMemory) (addr : Word) (l : Ldt) : RingMemory :=
  { m with readLdt := fun a => if a = addr then some l else m.readLdt a }

/-- The same contents under the policy of another memory. -/
def withPolicy (m policy : RingMemory) : RingMemory :=
  { m with owns := policy.owns }

end RingMemory

end FourRings
