import FourRings.Core.Install
import FourRings.Task.Block

/-!
# Bringing the rings up

Each ring registers its tasks and gates with the core and then prints a greeting. What it registers
is a list of installs, so the whole of it can be read off; the first refusal ends the bring-up
without a greeting. Local tables come before the tasks, whose selectors are checked against them.
-/

namespace FourRings

/-- A text that the machine prints. -/
structure Notice where
  text : String
  color : Byte
  position : Option PrintPosition := none
deriving DecidableEq, Repr

namespace Notice

def coreUp : Notice := { text := "core: GDT, IDT and paging up\n", color := Palette.banner }

def devsUp : Notice := { text := "devs: ring 1 up, keyboard on IRQ1\n", color := Palette.devs }

/-- The greeting of the shared services, which they print through the device drivers. -/
def libsUp : Notice := { text := "libs: ring 2 up\n", color := Palette.libs }

def usersUp : Notice := { text := "users: ring 3 up\n", color := Palette.users }

/-- The place of the ready line. -/
def readyPlace : PrintPosition := ⟨22, 31⟩

def ready : Notice :=
  { text := "SYS is ready...", color := Palette.sys, position := some readyPlace }

def newline : Notice := { text := "\n", color := Palette.prompt }

def prompt : Notice := { text := "R4R<:>", color := Palette.prompt }

end Notice

/-- The addresses of the handlers behind the core's gates. -/
structure CoreHandlers where
  editTable : Word
  bindVector : Word
  print : Word
  transmit : Word
  resume : Word
deriving DecidableEq, Repr

/-- The addresses that the device drivers hand to the core. -/
structure DevsHandlers where
  tasks : TaskEntries
  terminal : Word
  keyboard : Word
deriving DecidableEq, Repr

/-- The addresses that the shared services hand to the core. -/
structure LibsHandlers where
  tasks : TaskEntries
  transmit : Word
deriving DecidableEq, Repr

open SelectorMap

/-- What the core registers: its task, its table and its gates, all of which take their arguments
in registers. -/
def CoreBlock.installs (t : CoreBlock) (g : CoreHandlers) : List Install :=
  [.tss coreTask t.tssBase t.tss,
    .ldt Ring.core.ldtSelector t.ldtBase t.ldt,
    .callGate tableGate g.editTable 0,
    .callGate vectorGate g.bindVector 0,
    .callGate printGate g.print 0,
    .callGate coreTransmitGate g.transmit 0,
    .callGate resumeGate g.resume 0]

/-- The tasks of a ring, as they are registered. -/
def TaskBlock.installs (t : TaskBlock) (p : Roster) : List Install :=
  [.ldt p.segments.ldt t.ldtBase t.ldt,
    .tss p.first.selector t.firstBase t.first,
    .tss p.second.selector t.secondBase t.second]

namespace Core

/-- Prints a notice. -/
def notice (c : Core) (n : Notice) : Option Core :=
  c.print (Text.utf8 n.text) n.color n.position

def notices (c : Core) (l : List Notice) : Option Core := l.foldlM notice c

/-- Registers what is listed and prints the notices if nothing is refused. -/
def register (c : Core) (caller : Caller) (installs : List Install) (greeting : List Notice) :
    Option (Except SetupError Unit × Core) :=
  match c.installAll caller installs with
  | (.ok (), c) => (c.notices greeting).map fun c => (.ok (), c)
  | (.error status, c) => some (.error (.install status), c)

/-- Builds the core's task at `start` and brings the core up. -/
def startCore (c : Core) (caller : Caller) (start cr3 : Word) (gates : CoreHandlers) :
    Option (Except SetupError Unit × Core) :=
  match CoreBlock.build start cr3 with
  | .error e => some (.error e, c)
  | .ok t => c.register caller (t.installs gates) [.coreUp]

/-- Builds the tasks of a ring at `start` and registers them with more installs. -/
def registerTasks (c : Core) (caller : Caller) (start : Word) (inner : Nat) (p : Roster)
    (entries : TaskEntries) (more : List Install) (greeting : List Notice) :
    Option (Except SetupError Unit × Core) :=
  match TaskBlock.build start inner p entries with
  | .error e => some (.error e, c)
  | .ok t => c.register caller (t.installs p ++ more) greeting

/-- Brings the device drivers up. -/
def startDevs (c : Core) (caller : Caller) (start : Word) (h : DevsHandlers) :
    Option (Except SetupError Unit × Core) :=
  c.registerTasks caller start 1 .devs h.tasks
    [.callGate terminalGate h.terminal 0, .interrupt keyboardVector h.keyboard .devs] [.devsUp]

/-- Brings the shared services up. -/
def startLibs (c : Core) (caller : Caller) (start : Word) (h : LibsHandlers) :
    Option (Except SetupError Unit × Core) :=
  c.registerTasks caller start 2 .libs h.tasks [.callGate libsTransmitGate h.transmit 0] []

/-- Brings the users up. -/
def startUsers (c : Core) (caller : Caller) (start : Word) (entries : TaskEntries) :
    Option (Except SetupError Unit × Core) :=
  c.registerTasks caller start 3 .users entries [] [.usersUp]

/-- What the main task prints first. -/
def sayReady (c : Core) : Option Core := c.notices [.ready, .newline]

/-- What the nested task prints. -/
def sayPrompt (c : Core) : Option Core := c.notice .prompt

end Core

end FourRings
