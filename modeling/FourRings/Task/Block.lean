import FourRings.MemoryMap
import FourRings.Task.Build
import FourRings.Task.Stacks

/-!
# The tasks of a ring

Each outer ring owns a local table and two tasks. They lie in one block of memory: the table, both
task states, then the stacks of the first task and of the second. `Roster` says what the tasks of a
ring look like, `TaskBlock.build` lays them out at an address. The core has a table and a single
task, without stacks of its own.
-/

namespace FourRings

/-- A task: the slot that it is handed over for, and what it is for. -/
structure Duty where
  selector : Selector
  kind : TaskKind
deriving DecidableEq, Repr

/-- The tasks of a ring. -/
structure Roster where
  segments : TaskSegments
  /-- The limit, in pages, of the local segments. -/
  pageLimit : Word
  first : Duty
  second : Duty
deriving DecidableEq, Repr

namespace Roster

open SelectorMap

/-- The roster of ring `r`, whose tasks run on its local segments. -/
def ofRing (r : Ring) (gs : Selector) (first second : Duty) : Roster where
  segments := ⟨r, r, r.localCode, r.localData, gs, r.ldtSelector⟩
  pageLimit := BitVec.ofNat 32 r.pageLimit
  first := first
  second := second

def devs : Roster := .ofRing .devs devsWindow ⟨devsIrqTask, .irq⟩ ⟨devsSchedTask, .sched⟩

def libs : Roster :=
  .ofRing .libs Ring.libs.localData ⟨libsIrqTask, .irq⟩ ⟨libsSchedTask, .sched⟩

def users : Roster := .ofRing .users usersWindow ⟨mainTask, .main⟩ ⟨nestedTask, .nested⟩

end Roster

/-- The two entry points of the tasks of a ring. -/
structure TaskEntries where
  first : Word
  second : Word
deriving DecidableEq, Repr

/-- The tasks of a ring in memory. -/
structure TaskBlock where
  /-- The address of the block. -/
  start : Word
  /-- The number of inner stacks of each task. -/
  inner : Nat
  ldt : Ldt := {}
  first : Tss := {}
  second : Tss := {}
deriving DecidableEq, Repr

namespace TaskBlock

/-- Bytes that a local table takes in the block. -/
def ldtSpace : Nat := 16

/-- Bytes that task state takes in the block. -/
def tssSpace : Nat := 112

/-- Bytes of a block with `inner` inner stacks for each task. -/
def size (inner : Nat) : Nat := ldtSpace + 2 * tssSpace + 2 * StackBlock.size inner

def ldtBase (t : TaskBlock) : Word := t.start

def firstBase (t : TaskBlock) : Word := t.start + BitVec.ofNat 32 ldtSpace

def secondBase (t : TaskBlock) : Word := t.start + BitVec.ofNat 32 (ldtSpace + tssSpace)

def firstStacks (t : TaskBlock) : StackBlock :=
  ⟨t.start + BitVec.ofNat 32 (ldtSpace + 2 * tssSpace), t.inner⟩

def secondStacks (t : TaskBlock) : StackBlock :=
  ⟨t.start + BitVec.ofNat 32 (ldtSpace + 2 * tssSpace + StackBlock.size t.inner), t.inner⟩

/-- Lays the tasks of a ring out at `start`. The page directory is left for the core to fill in. -/
def build (start : Word) (inner : Nat) (p : Roster) (entries : TaskEntries) :
    Except SetupError TaskBlock := do
  let t : TaskBlock := { start, inner, ldt := .ofRing p.segments.ring p.pageLimit }
  let task (d : Duty) (entry : Word) (s : StackBlock) :=
    p.segments.build d.kind { entry, stackTop := s.taskTop } s.ringTops
  let first ← task p.first entries.first t.firstStacks
  let second ← task p.second entries.second t.secondStacks
  return { t with first, second }

end TaskBlock

/-- The task of the core in memory. -/
structure CoreBlock where
  /-- The address of the task state; the local table follows. -/
  start : Word
  tss : Tss := {}
  ldt : Ldt := {}
deriving DecidableEq, Repr

namespace CoreBlock

def segments : TaskSegments where
  ring := .core
  iopl := .core
  code := Ring.core.codeSelector
  data := Ring.core.dataSelector
  gs := Ring.core.dataSelector
  ldt := Ring.core.ldtSelector

/-- The stacks that serve calls from outer rings until the first switch to another task. -/
def ringTops : List Word := Ring.users.inner.map fun r => BitVec.ofNat 32 r.firstStack

def tssBase (t : CoreBlock) : Word := t.start

def ldtBase (t : CoreBlock) : Word := t.start + BitVec.ofNat 32 TaskBlock.tssSpace

def build (start cr3 : Word) : Except SetupError CoreBlock := do
  let context : TaskStart := { entry := 0, stackTop := BitVec.ofNat 32 Ring.core.firstStack, cr3 }
  let tss ← segments.build .main context ringTops
  return { start, tss, ldt := .ofRing .core (BitVec.ofNat 32 Ring.core.pageLimit) }

end CoreBlock

end FourRings
