import FourRings.MemoryMap
import FourRings.SelectorMap

/-!
# Stages of the boot

The core comes up first, then each outer ring in turn, and then the machine is ready. A ring is
entered through an `EntryFrame`, which the processor pops.
-/

namespace FourRings

/-- A ring that the boot brings up after the core. -/
inductive OuterRing where
  | devs
  | libs
  | users
deriving DecidableEq, Repr

def OuterRing.ring : OuterRing → Ring
  | .devs => .devs
  | .libs => .libs
  | .users => .users

/-- A stage of the boot. -/
inductive Stage where
  | core
  | devs
  | libs
  | users
  | ready
deriving DecidableEq, Repr

namespace Stage

def all : List Stage := [.core, .devs, .libs, .users, .ready]

def name : Stage → String
  | .core => "Core"
  | .devs => "Devs"
  | .libs => "Libs"
  | .users => "Users"
  | .ready => "SysReady"

/-- The outer ring that comes up in the stage. -/
def outer? : Stage → Option OuterRing
  | .core | .ready => none
  | .devs => some .devs
  | .libs => some .libs
  | .users => some .users

/-- The outer ring that comes up after the stage. -/
def next? : Stage → Option OuterRing
  | .core => some .devs
  | .devs => some .libs
  | .libs => some .users
  | .users | .ready => none

end Stage

/-- The stage in which an outer ring comes up. -/
def OuterRing.stage : OuterRing → Stage
  | .devs => .devs
  | .libs => .libs
  | .users => .users

/-- What the processor pops on its way into an outer ring. -/
structure EntryFrame where
  eip : Word
  cs : Word
  eflags : Word
  esp : Word
  ss : Word
deriving DecidableEq, Repr

/-- The frame that enters ring `r`, with interrupts off and no I/O privilege. -/
def EntryFrame.ofRing (r : Ring) (entry stack : Word) : EntryFrame where
  eip := entry
  cs := r.codeSelector.toWord
  eflags := 0
  esp := stack
  ss := r.dataSelector.toWord

end FourRings
