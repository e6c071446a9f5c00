import FourRings.Interrupt.Exception
import FourRings.Text.Hex

/-!
# Exception reports

The report of an exception is a few lines of text: what it is, what it means, and where it struck. A
vector past the exceptions is reported in a single line.
-/

namespace FourRings

open Text

/-- The vector in both bases, as reports begin. -/
def vectorText (label : String) (vector : Nat) : String :=
  s!"{label}: {vector} |0x{hexUpper 2 vector}| "

/-- The lines of the report of a known exception. -/
def ExceptionEntry.report (i : ExceptionEntry) (f : ExceptionRecord) : String :=
  let mnemonic := (i.mnemonic.map (· ++ " | ")).getD ""
  let description := (i.description.map (· ++ "\n")).getD ""
  let errorCode :=
    if HasErrorCode f.vector.toNat then s!"error code 0x{hex f.errorCode.toNat}\n" else ""
  vectorText i.kind.label f.vector.toNat ++ mnemonic ++ s!"**{i.name}**\n" ++ description ++
    errorCode ++
    s!"at {hexPad 4 f.cs.toNat}:{hexPad 8 f.eip.toNat} eflags {hexPad 8 f.eflags.toNat}\n"

namespace ExceptionRecord

/-- The report of an exception. -/
def report (f : ExceptionRecord) : String :=
  match ExceptionEntry.ofVector? f.vector.toNat with
  | some info => info.report f
  | none => vectorText "INTERRUPT" f.vector.toNat ++ "**Unexpected**\n"

/-- The part of the report that fits into `room` characters. -/
def reportWithin (f : ExceptionRecord) (room : Nat) : String :=
  String.ofList (f.report.toList.take room)

/-- Whether the whole report fits into `room` characters. -/
def ReportFits (f : ExceptionRecord) (room : Nat) : Prop := f.report.length ≤ room

instance (f : ExceptionRecord) (room : Nat) : Decidable (f.ReportFits room) :=
  inferInstanceAs (Decidable (f.report.length ≤ room))

end ExceptionRecord

end FourRings
