import FourRings.Core.Basic

/-!
# Typed services

Code that sets up a ring asks the core to `install` things rather than to fill registers. An
`Install` names what is installed; task state and local tables are handed over with it, so that the
core finds them at the address that travels in the registers, whatever else lies there.
-/

namespace FourRings

/-- Something to install. -/
inductive Install where
  | descriptor (selector : Selector) (d : Descriptor)
  | callGate (selector : Selector) (handler : Word) (params : Byte)
  | tss (selector : Selector) (base : Word) (state : Tss)
  /-- A full local table. -/
  | ldt (selector : Selector) (base : Word) (table : Ldt)
  | interrupt (vector : Byte) (handler : Word) (dpl : Ring)
deriving Repr

/-- The memory of a caller with what is installed handed over. -/
def Install.handover (i : Install) (m : RingMemory) : RingMemory :=
  match i with
  | .tss _ base state => m.withTss base state
  | .ldt _ base table => m.withLdt base table
  | _ => m

namespace Core

/-- The outcome of a service as its client sees it. -/
def accepted (served : Word × Core) : Except Word Unit × Core :=
  (ensure (served.1 = 0) served.1, served.2)

/-- Asks the core to edit the global table. -/
def request (c : Core) (caller : Caller) (q : TableRequest) : Except Word Unit × Core :=
  accepted (c.editTable caller q.encode)

def install (c : Core) (caller : Caller) (i : Install) : Except Word Unit × Core :=
  let caller := { caller with memory := i.handover caller.memory }
  match i with
  | .descriptor selector d => c.request caller (.descriptor selector d)
  | .callGate selector handler params => c.request caller (.callGate selector handler params)
  | .tss selector base _ => c.request caller (.tss selector base)
  | .ldt selector base _ => c.request caller (.ldt selector base Ldt.limit)
  | .interrupt vector handler dpl =>
    accepted (c.bindVector caller (InterruptRequest.encode ⟨vector.setWidth 32, handler, dpl⟩))

/-- Installs one thing after another, up to the first that is refused. -/
def installAll (c : Core) (caller : Caller) : List Install → Except Word Unit × Core
  | [] => (.ok (), c)
  | i :: rest =>
    match c.install caller i with
    | (.ok (), c) => c.installAll caller rest
    | (.error status, c) => (.error status, c)

end Core

end FourRings
