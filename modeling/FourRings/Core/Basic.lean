import FourRings.Gate.Serve
import FourRings.Interrupt.Table
import FourRings.Log
import FourRings.Screen.Print
import FourRings.Table.BootMap

/-!
# The core

`Core` is the state behind the call gates: the global table with the vault of task state, the
interrupt table, the console and the log. Rings reach it with a `Caller`, and find a status word in
their registers when it returns. Refusals are logged.
-/

namespace FourRings

/-- Who makes a request, and the memory that the request may name. -/
structure Caller where
  ring : Ring
  memory : RingMemory

/-- The state behind the call gates. -/
structure Core where
  tables : Tables
  idt : InterruptTable
  console : Console
  log : List LogRecord := []

/-- What is logged when a service refuses a request. -/
def Refusal.record (e : Refusal) (service : String) : LogRecord :=
  { level := .warn
    target := LogTarget.gates
    message := s!"{service}: {e.message}" }

/-- What a service logs of an outcome. -/
def serviceLog (service : String) : Except Refusal Unit → List LogRecord
  | .ok () => []
  | .error e => [e.record service]

namespace Core

/-- The status word of an outcome, which is logged if it is a refusal. -/
def conclude (c : Core) (service : String) (outcome : Except Refusal Unit) : Word × Core :=
  (statusOf outcome, { c with log := c.log ++ serviceLog service outcome })

/-- The service behind the gate that edits the global table. -/
def editTable (c : Core) (caller : Caller) (r : Registers) : Word × Core :=
  let (outcome, tables) := c.tables.serve caller.memory caller.ring r
  { c with tables }.conclude "gdt_set" outcome

/-- The service behind the gate that binds an interrupt vector. -/
def bindVector (c : Core) (caller : Caller) (r : Registers) : Word × Core :=
  let (outcome, idt) := c.idt.serve caller.ring r
  { c with idt }.conclude "idt_set" outcome

/-- The service behind the gate that prints. -/
def print (c : Core) (bytes : List Byte) (color : Byte) (position : Option PrintPosition) :
    Option Core := do
  let console ← c.console.serve ⟨color, 0, position⟩ (messageText bytes)
  return { c with console }

/-- Installs the boot map. -/
def installBootMap (c : Core) : Except TableError Unit × Core :=
  let (result, gdt) := c.tables.gdt.installBootMap
  (result, { c with tables := { c.tables with gdt }, log := c.log ++ gdt.bootMapLog result })

end Core

end FourRings
