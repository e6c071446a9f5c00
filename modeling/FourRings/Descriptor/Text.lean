import FourRings.Descriptor.Basic
import FourRings.Text.Hex

/-!
# Descriptors as text

One line per descriptor: a gate is written with its target, anything else as a segment.
-/

namespace FourRings

open Text

/-- The name of a system type. -/
def SystemType.name : SystemType → String
  | .ldt => "Ldt"
  | .taskGate => "TaskGate"
  | .tssAvailable => "TssAvailable"
  | .tssBusy => "TssBusy"
  | .callGate => "CallGate"
  | .interruptGate => "InterruptGate"
  | .trapGate => "TrapGate"

/-- An access byte in messages: two digits after the mark of base sixteen. -/
def Access.text (a : Access) : String := "0x" ++ hexPad 2 a.bits.toNat

/-- The fields of a descriptor in words. -/
def Descriptor.text (d : Descriptor) : String :=
  if d.isGate then
    "Gate \x7b selector: 0x" ++ hex d.gateSelector.bits.toNat ++ ", offset: 0x" ++
      hex d.gateOffset.toNat ++ ", params: " ++ toString d.params.toNat ++ ", access: " ++
      d.access.text ++ " \x7d"
  else
    "Segment \x7b base: 0x" ++ hex d.base.toNat ++ ", limit: 0x" ++ hex d.limit.toNat ++
      ", access: " ++ d.access.text ++ ", flags: 0x" ++ hex d.flags.bits.toNat ++ " \x7d"

end FourRings
