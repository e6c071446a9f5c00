import FourRings.Descriptor.Access

/-!
# Descriptors

One slot of a descriptor table is a 64-bit word that can be read in two ways. From the highest bit
down:

* as a segment: base 24–31, flags, limit 16–19, access byte, base 0–23, limit 0–15;
* as a gate: offset 16–31, access byte, three zeros, parameter count, selector, offset 0–15.

`packSegment` and `packGate` lay the fields out, and cut inputs that are wider than their field. The
accessors read the fields of any word, whatever it holds.
-/

namespace FourRings

/-- A slot of a descriptor table. -/
structure Descriptor where
  word : BitVec 64 := 0
deriving DecidableEq, Repr, Inhabited

/-- The word of a segment descriptor. Of `limit` the low 20 bits count, of `flags` the upper
nibble. -/
def packSegment (base limit : Word) (access flags : Byte) : BitVec 64 :=
  base.extractLsb' 24 8 ++ flags.extractLsb' 4 4 ++ limit.extractLsb' 16 4 ++ access ++
    base.extractLsb' 0 24 ++ limit.extractLsb' 0 16

/-- The word of a present gate descriptor. Of `dpl` the low two bits count, of `type` the low four
and of `params` the low five. -/
def packGate (selector : BitVec 16) (offset : Word) (dpl type params : Byte) : BitVec 64 :=
  offset.extractLsb' 16 16 ++ 1#1 ++ dpl.extractLsb' 0 2 ++ 0#1 ++ type.extractLsb' 0 4 ++ 0#3 ++
    params.extractLsb' 0 5 ++ selector ++ offset.extractLsb' 0 16

namespace Descriptor

/-- The empty slot. -/
def null : Descriptor := ⟨0⟩

def ofWords (low high : Word) : Descriptor := ⟨high ++ low⟩

def low (d : Descriptor) : Word := d.word.extractLsb' 0 32

def high (d : Descriptor) : Word := d.word.extractLsb' 32 32

def segment (base limit : Word) (access : Access) (flags : Flags) : Descriptor :=
  ⟨packSegment base limit access.bits flags.bits⟩

def gate (selector : Selector) (offset : Word) (dpl : Ring) (type : SystemType) (params : Byte) :
    Descriptor :=
  ⟨packGate selector.bits offset (dpl.bits.setWidth 8) (type.nibble.setWidth 8) params⟩

def isNull (d : Descriptor) : Bool := d.word = 0

/-! ### The access byte -/

def access (d : Descriptor) : Access := ⟨d.word.extractLsb' 40 8⟩

def present (d : Descriptor) : Bool := d.access.present

def dpl (d : Descriptor) : Ring := d.access.dpl

def systemType? (d : Descriptor) : Option SystemType := d.access.systemType?

def isCode (d : Descriptor) : Bool := d.access.isSegment && d.access.executable

def isData (d : Descriptor) : Bool := d.access.isSegment && !d.access.executable

/-- A data segment whose valid offsets lie above its limit. -/
def isExpandDown (d : Descriptor) : Bool := d.isData && d.access.conforming

def isGate (d : Descriptor) : Bool := d.systemType?.any (·.isGate)

/-! ### Segments -/

def base (d : Descriptor) : Word := d.word.extractLsb' 56 8 ++ d.word.extractLsb' 16 24

/-- The limit field, in units of the granularity flag. -/
def limit (d : Descriptor) : BitVec 20 := d.word.extractLsb' 48 4 ++ d.word.extractLsb' 0 16

def flags (d : Descriptor) : Flags := ⟨d.word.extractLsb' 52 4 ++ 0#4⟩

/-- The highest offset of the segment: the limit in bytes. -/
def byteLimit (d : Descriptor) : Word :=
  if d.flags.granular then d.limit ++ 0xFFF#12 else d.limit.setWidth 32

/-- The address just past the last one that an expand-up segment covers. It can lie above the last
32-bit address. -/
def stop (d : Descriptor) : Nat := d.base.toNat + d.byteLimit.toNat + 1

/-- The same segment at another base and limit. -/
def withBaseLimit (d : Descriptor) (base limit : Word) : Descriptor :=
  ⟨packSegment base limit d.access.bits d.flags.bits⟩

/-! ### Gates -/

def gateOffset (d : Descriptor) : Word := d.word.extractLsb' 48 16 ++ d.word.extractLsb' 0 16

def gateSelector (d : Descriptor) : Selector := ⟨d.word.extractLsb' 16 16⟩

def params (d : Descriptor) : BitVec 5 := d.word.extractLsb' 32 5

/-- The same gate with another target offset and parameter count. The selector and the access byte
stay. -/
def withGateTarget (d : Descriptor) (offset : Word) (params : Byte) : Descriptor :=
  ⟨offset.extractLsb' 16 16 ++ d.access.bits ++ 0#3 ++ params.extractLsb' 0 5 ++
    d.gateSelector.bits ++ offset.extractLsb' 0 16⟩

end Descriptor

end FourRings
