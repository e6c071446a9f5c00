import FourRings.Descriptor.Basic

/-!
# Task state and local tables

`Tss` is what the processor loads when it switches to a task: the registers, the selectors and, for
every more privileged ring, the stack to change to. `Ldt` is the local table of a ring, with code in
slot 0 and data in slot 1.
-/

namespace FourRings

/-- Where a stack starts, and in which segment. -/
structure StackPointer where
  esp : Word := 0
  ss : Selector := {}
deriving DecidableEq, Repr, Inhabited

/-- The state of a task. -/
structure Tss where
  backLink : BitVec 16 := 0
  /-- The stack of the task while it runs in the core. -/
  stack0 : StackPointer := {}
  /-- The stack of the task while it runs in the device drivers. -/
  stack1 : StackPointer := {}
  /-- The stack of the task while it runs in the shared services. -/
  stack2 : StackPointer := {}
  cr3 : Word := 0
  eip : Word := 0
  eflags : Word := 0
  eax : Word := 0
  ecx : Word := 0
  edx : Word := 0
  ebx : Word := 0
  esp : Word := 0
  ebp : Word := 0
  esi : Word := 0
  edi : Word := 0
  es : Selector := {}
  cs : Selector := {}
  ss : Selector := {}
  ds : Selector := {}
  fs : Selector := {}
  gs : Selector := {}
  ldt : Selector := {}
  debugTrap : BitVec 16 := 0
  /-- Offset of the map of permitted I/O. There is no map if it lies past the limit. -/
  ioMapBase : BitVec 16 := 0
deriving DecidableEq, Repr, Inhabited

namespace Tss

/-- Bytes of task state. -/
def size : Nat := 104

/-- The limit of a descriptor of task state. -/
def limit : Word := 103

/-- The stack to change to on entry to `r` from an outer ring. Nothing enters the users that
way. -/
def innerStack (t : Tss) : Ring → StackPointer
  | .core => t.stack0
  | .devs => t.stack1
  | .libs => t.stack2
  | .users => {}

/-- The I/O privilege of the task. -/
def iopl (t : Tss) : Ring := .ofBits (t.eflags.extractLsb' 12 2)

end Tss

/-- A local table. -/
structure Ldt where
  code : Descriptor := .null
  data : Descriptor := .null
deriving DecidableEq, Repr, Inhabited

namespace Ldt

/-- The limit of a descriptor of a full local table. -/
def limit : Word := 15

def entries (l : Ldt) : List Descriptor := [l.code, l.data]

/-- The flat segments of ring `r`, `pages` long. -/
def ofRing (r : Ring) (pages : Word) : Ldt where
  code := .segment 0 pages (.ofKind .codeKind r) .protected4K
  data := .segment 0 pages (.ofKind .dataKind r) .protected4K

end Ldt

end FourRings
