import FourRings.Check
import FourRings.SelectorMap
import FourRings.Task.State

/-!
# Building task state

The tasks of one ring share `TaskSegments`: the segments and the privilege that they run with.
`TaskSegments.build` fills in the state of one of them.
-/

namespace FourRings

/-- What a task is for. -/
inductive TaskKind where
  /-- Serves a device interrupt, and is not interrupted itself. -/
  | irq
  | sched
  | main
  | nested
deriving DecidableEq, Repr

/-- Why a task cannot be set up. -/
inductive SetupError where
  /-- A task of `ring` needs a stack for each more privileged ring, and there is room for three. -/
  | innerStacks (ring : Ring) (provided : Nat)
  /-- The core refused to install the task, with this status. -/
  | install (status : Word)
deriving DecidableEq, Repr

namespace SetupError

/-- What went wrong, without the particulars. -/
def description : SetupError → String
  | .innerStacks .. => "wrong number of inner-ring stacks"
  | .install _ => "descriptor install refused"

/-- How a nonzero status reads in messages. -/
def statusText (status : Word) : String :=
  s!"call gate failed with status {status.toNat}"

def message (e : SetupError) : String :=
  match e with
  | .innerStacks ring provided =>
    s!"{e.description}: {ring.name} needs {ring.level}, got {provided}"
  | .install status => s!"{e.description}: {statusText status}"

end SetupError

/-- The segments and privilege that the tasks of one ring share. -/
structure TaskSegments where
  ring : Ring
  /-- The outermost ring that may do I/O while the task runs. -/
  iopl : Ring
  code : Selector
  data : Selector
  gs : Selector
  ldt : Selector
deriving DecidableEq, Repr

/-- What sets one task of a ring apart from another. -/
structure TaskStart where
  entry : Word
  stackTop : Word
  cr3 : Word := 0
deriving DecidableEq, Repr

/-- The initial flags of a task: interrupts are on unless the task serves one. -/
def initialEflags (kind : TaskKind) (iopl : Ring) : Word :=
  0#18 ++ iopl.bits ++ 0#2 ++ (if kind = .irq then 0#1 else 1#1) ++ 0#9

/-- An I/O map past the limit of any task: no I/O is permitted by it. -/
def noIoMap : BitVec 16 := 0xFFFF

/-- The stack for entries to ring `r`, given the tops of the inner stacks, the core's first. -/
def innerStackPointer (inner : List Word) (r : Ring) : StackPointer :=
  match inner[r.level]? with
  | some top => ⟨top, r.dataSelector⟩
  | none => {}

namespace TaskSegments

/-- The state of a task that has not run yet. -/
def state (l : TaskSegments) (kind : TaskKind) (c : TaskStart) (inner : List Word) : Tss where
  stack0 := innerStackPointer inner .core
  stack1 := innerStackPointer inner .devs
  stack2 := innerStackPointer inner .libs
  cr3 := c.cr3
  eip := c.entry
  eflags := initialEflags kind l.iopl
  esp := c.stackTop
  es := l.data
  cs := l.code
  ss := l.data
  ds := l.data
  fs := l.data
  gs := l.gs
  ldt := l.ldt
  ioMapBase := noIoMap

def build (l : TaskSegments) (kind : TaskKind) (c : TaskStart) (inner : List Word) :
    Except SetupError Tss := do
  ensure (l.ring.level ≤ inner.length ∧ inner.length ≤ 3) (.innerStacks l.ring inner.length)
  return l.state kind c inner

end TaskSegments

end FourRings
