import FourRings.Table.Error

/-!
# Refused requests

Why the core refuses a request that reaches it through a call gate. Each reason has a status word,
which the caller finds in its registers, and a message for the log. Status 0 means success.
-/

namespace FourRings

/-- What is wrong with task state that was handed over. -/
inductive TaskFault where
  | noLdtSlot
  | noTaskSlot
  | running
  | backLink
  | eflags
  | iopl
  | ioMap
  | foreignLdt
  | selectorRpl
  | unresolvedSelector
  | segmentType
  | innerStack
  /-- A fault with a text of its own. -/
  | other (text : String)
deriving DecidableEq, Repr

def TaskFault.text : TaskFault → String
  | .noLdtSlot => "slot holds no ring LDT"
  | .noTaskSlot => "slot holds no ring task"
  | .running => "task is running"
  | .backLink => "back link set"
  | .eflags => "eflags beyond IF and IOPL"
  | .iopl => "IOPL above the task ring"
  | .ioMap => "I/O bitmap inside the TSS"
  | .foreignLdt => "LDT of another ring"
  | .selectorRpl => "selector RPL differs from the task ring"
  | .unresolvedSelector => "selector names no segment of the task ring"
  | .segmentType => "segment type does not fit its register"
  | .innerStack => "inner stack segment"
  | .other text => text

/-- Why a request is refused. -/
inductive Refusal where
  | unknownOpcode (opcode : Word)
  /-- The request asks for more privilege than the caller has. -/
  | privilegeViolation (caller required : Ring)
  /-- Vectors of exceptions are not bound on request. -/
  | reservedVector (vector : Word)
  | badTarget (selector : Selector)
  | badArgument (value : Word)
  /-- An outer ring touches a system descriptor that only the core installs. -/
  | systemDescriptor (access : Access)
  | outOfReach (address : Word)
  | badTaskState (fault : TaskFault)
  | table (error : TableError)
deriving DecidableEq, Repr

namespace Refusal

/-- The status word that the caller receives. -/
def status : Refusal → Word
  | .unknownOpcode _ => 1
  | .privilegeViolation .. => 2
  | .reservedVector _ => 3
  | .badTarget _ => 4
  | .table (.indexOutOfRange ..) => 5
  | .table .nullSlot => 6
  | .table (.typeMismatch ..) => 7
  | .badArgument _ => 8
  | .systemDescriptor _ => 9
  | .outOfReach _ => 10
  | .badTaskState _ => 11

/-- What went wrong, without the particulars. -/
def description : Refusal → String
  | .unknownOpcode _ => "unknown call-gate opcode"
  | .privilegeViolation .. => "request exceeds caller privilege"
  | .reservedVector _ => "exception vectors are reserved"
  | .badTarget _ => "gate target is not a present code segment"
  | .badArgument _ => "argument out of range"
  | .systemDescriptor _ => "system descriptors are installed by ring 0"
  | .outOfReach _ => "address outside the caller's memory"
  | .badTaskState _ => "task state refused"
  | .table e => e.description

def message (e : Refusal) : String :=
  match e with
  | .unknownOpcode opcode => s!"{e.description}: 0x{Text.hex opcode.toNat}"
  | .privilegeViolation caller required =>
    s!"{e.description}: caller {caller.name}, needs {required.name}"
  | .reservedVector vector => s!"{e.description}: {vector.toNat}"
  | .badTarget selector => s!"{e.description}: 0x{Text.hex selector.bits.toNat}"
  | .badArgument value => s!"{e.description}: 0x{Text.hex value.toNat}"
  | .systemDescriptor access => s!"{e.description}: access byte {access.text}"
  | .outOfReach address => s!"{e.description}: 0x{Text.hexPad 8 address.toNat}"
  | .badTaskState fault => s!"{e.description}: {fault.text}"
  | .table error => error.message

end Refusal

/-- The status word of an outcome. -/
def statusOf : Except Refusal Unit → Word
  | .ok () => 0
  | .error e => e.status

end FourRings
