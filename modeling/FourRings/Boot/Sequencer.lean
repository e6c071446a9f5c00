import FourRings.Boot.Stage
import FourRings.Log

/-!
# The boot sequence

The sequencer enters the outer rings one after another. With each entry it issues a token, the
address at which the core goes on, and the ring hands the token back when it is done. A token is
accepted once, and only while it is pending. When the last ring is done the machine is ready and the
main task takes over.

An operation returns what became of it and the sequencer after it, also if it is refused.
-/

namespace FourRings

/-- Why a step of the boot is refused. -/
inductive SequenceError where
  | alreadyStarted
  /-- The step comes from another stage, or before the token was handed back. -/
  | unexpectedResume (expected found : Stage)
  | ringReentered (stage : Stage)
  | alreadyReady
  | invalidToken (token : Word)
deriving DecidableEq, Repr

namespace SequenceError

/-- What went wrong, without the particulars. -/
def description : SequenceError → String
  | .alreadyStarted => "ring bootstrap already started"
  | .unexpectedResume .. => "resume from unexpected ring"
  | .ringReentered _ => "ring init entered twice"
  | .alreadyReady => "system already ready"
  | .invalidToken _ => "resume token not issued by the sequencer"

def message (e : SequenceError) : String :=
  match e with
  | .unexpectedResume expected found =>
    s!"{e.description}: expected {expected.name}, found {found.name}"
  | .ringReentered stage => s!"{e.description}: {stage.name}"
  | .invalidToken token => s!"{e.description}: 0x{Text.hex token.toNat}"
  | .alreadyStarted | .alreadyReady => e.description

end SequenceError

/-- An address for each outer ring. -/
structure RingAddresses where
  devs : Word
  libs : Word
  users : Word
deriving DecidableEq, Repr

/-- The addresses that the boot goes through. -/
structure BootRoute where
  /-- Where the rings are entered. -/
  entries : RingAddresses
  /-- Where the core goes on after each ring. -/
  continuations : RingAddresses
deriving DecidableEq, Repr

/-- The address for an outer ring. -/
def RingAddresses.get (a : RingAddresses) : OuterRing → Word
  | .devs => a.devs
  | .libs => a.libs
  | .users => a.users

/-- A step of the boot. -/
inductive BootStep where
  /-- A ring is entered, and hands the token back when it is done. -/
  | enterRing (stage : Stage) (frame : EntryFrame) (token : Word)
  | enterMainTask (task : Selector)
deriving DecidableEq, Repr

/-- The state of the boot. -/
structure Sequencer where
  route : BootRoute
  stage : Stage := .core
  /-- The rings that were entered, the latest first. -/
  entered : List OuterRing := []
  /-- The token that is issued and not handed back. -/
  pending : Option Word := none
deriving DecidableEq, Repr

namespace Sequencer

/-- Enters a ring, unless it was entered before. -/
def enter (s : Sequencer) (r : OuterRing) : Except SequenceError BootStep × Sequencer :=
  if r ∈ s.entered then (.error (.ringReentered r.stage), s)
  else
    let token := s.route.continuations.get r
    let stack := BitVec.ofNat 32 r.ring.firstStack
    let frame := EntryFrame.ofRing r.ring (s.route.entries.get r) stack
    (.ok (.enterRing r.stage frame token),
      { s with stage := r.stage, entered := r :: s.entered, pending := some token })

/-- Leaves the core for the first ring. -/
def start (s : Sequencer) : Except SequenceError BootStep × Sequencer :=
  if s.stage = .core ∧ s.entered = [] then s.enter .devs else (.error .alreadyStarted, s)

/-- Takes a token back and returns the address at which the core goes on. -/
def redeem (s : Sequencer) (token : Word) : Except SequenceError Word × Sequencer :=
  if s.pending = some token then (.ok token, { s with pending := none })
  else (.error (.invalidToken token), s)

/-- Goes on after a stage. -/
def proceed (s : Sequencer) (stage : Stage) : Except SequenceError BootStep × Sequencer :=
  if s.stage = .ready then (.error .alreadyReady, s)
  else if stage ≠ s.stage ∨ s.pending.isSome then (.error (.unexpectedResume s.stage stage), s)
  else
    match stage.next? with
    | some r => s.enter r
    | none => (.ok (.enterMainTask SelectorMap.mainTask), { s with stage := .ready })

end Sequencer

/-! ### The log -/

/-- What a step of the boot logs. -/
def BootStep.log : BootStep → List LogRecord
  | .enterRing stage frame _ =>
    [{ level := .debug
       target := LogTarget.boot
       message := s!"entering {stage.name} at 0x{Text.hex frame.eip.toNat}" }]
  | .enterMainTask _ =>
    [{ level := .info, target := LogTarget.boot, message := "ring bootstrap complete" }]

/-- What is logged when a stage is over. -/
def Stage.doneRecord (stage : Stage) : LogRecord :=
  { level := .info
    target := LogTarget.core
    message := s!"{stage.name} ring initialised" }

end FourRings
