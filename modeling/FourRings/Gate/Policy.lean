import FourRings.Gate.Vault
import FourRings.Gate.Request

/-!
# Who may edit the global table

`permit` decides whether a caller may make a request, given the table as it stands. A call gate
never leads inward past the ring that sets it; outer rings install call gates and segments of their
own privilege only, and no raw request replaces a system descriptor.
-/

namespace FourRings

/-- A gate must lead to a present code segment of the global table, no more privileged than the
caller. -/
def checkTarget (gdt : DescriptorTable) (caller : Ring) (target : Selector) :
    Except Refusal Unit :=
  if target.isLocal then .error (.badTarget target)
  else
    match gdt.getAt target with
    | .error _ => .error (.badTarget target)
    | .ok d => do
      ensure (d.present ∧ d.isCode) (.badTarget target)
      requirePrivilege caller d.dpl

/-- What a present slot holds may be overwritten by rings at least as privileged, and if it is a
system descriptor by the core alone. -/
def checkOverwrite (caller : Ring) (current : Descriptor) : Except Refusal Unit :=
  if current.present then do
    requirePrivilege caller current.dpl
    ensure (caller = .core ∨ current.systemType? = none) (.systemDescriptor current.access)
  else .ok ()

/-- Of the present descriptors, outer rings install call gates and segments within their reach. -/
def checkOuterDescriptor (caller : Ring) (d : Descriptor) : Except Refusal Unit :=
  if d.systemType? = some .callGate then .ok ()
  else if d.access.isSegment then checkReach caller d
  else .error (.systemDescriptor d.access)

/-- Whether the caller may put `d` into a slot that holds `current`. -/
def permitRaw (gdt : DescriptorTable) (caller : Ring) (current d : Descriptor) :
    Except Refusal Unit := do
  checkOverwrite caller current
  requirePrivilege caller d.dpl
  if d.isGate then checkTarget gdt caller d.gateSelector
  if caller ≠ .core ∧ d.present then checkOuterDescriptor caller d

/-- Task state is handed over for slots of the caller's privilege. The core alone replaces the state
of a task that is running. -/
def permitHandover (caller : Ring) (current : Descriptor) : Except Refusal Unit := do
  requirePrivilege caller current.dpl
  ensure (caller = .core ∨ current.systemType? ≠ some .tssBusy) (.badTaskState .running)

def permit (gdt : DescriptorTable) (caller : Ring) (q : TableRequest) : Except Refusal Unit :=
  if q.selector.index = 0 then .error (.table .nullSlot)
  else
    match gdt.getAt q.selector with
    | .error e => .error (.table e)
    | .ok current =>
      match q with
      | .descriptor _ d => permitRaw gdt caller current d
      | .callGate .. =>
        if current.isGate then checkTarget gdt caller current.gateSelector else .ok ()
      | .tss .. | .ldt .. => permitHandover caller current

end FourRings
