import FourRings.Selector

/-!
# Task stacks

The stacks of one task lie one after another in memory: one for each inner ring, the core's first,
then the task's own. They grow down, so a stack starts at its top, the address just past it.
-/

namespace FourRings

/-- Words of a stack. -/
def stackWords : Nat := 256

/-- Bytes of a stack. -/
def stackSize : Nat := stackWords * 4

/-- The stacks of one task. -/
structure StackBlock where
  /-- The address of the first stack. -/
  start : Word
  /-- The number of inner rings that have a stack. -/
  inner : Nat
deriving DecidableEq, Repr

namespace StackBlock

/-- Bytes of the stacks of a task with `inner` inner rings. -/
def size (inner : Nat) : Nat := (inner + 1) * stackSize

/-- The top of the `k`-th stack. -/
def top (s : StackBlock) (k : Nat) : Word := s.start + BitVec.ofNat 32 ((k + 1) * stackSize)

def ringTops (s : StackBlock) : List Word := (List.range s.inner).map s.top

/-- The top of the task's own stack. -/
def taskTop (s : StackBlock) : Word := s.top s.inner

/-- The lowest address of the task's own stack. -/
def taskBase (s : StackBlock) : Word := s.start + BitVec.ofNat 32 (s.inner * stackSize)

end StackBlock

end FourRings
