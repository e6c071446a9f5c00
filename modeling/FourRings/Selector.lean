import FourRings.Ring

/-!
# Words and segment selectors

The widths of machine words, and the 16-bit selector: a table index (13 bits), the table indicator
(set for the local table) and the requested privilege (2 bits).
-/

namespace FourRings

/-- An 8-bit word. -/
abbrev Byte := BitVec 8

/-- A 32-bit word: a register or a linear address. -/
abbrev Word := BitVec 32

/-- A segment selector. -/
structure Selector where
  /-- The selector as a 16-bit word. -/
  bits : BitVec 16 := 0
deriving DecidableEq, Repr, Inhabited

namespace Selector

/-- The selector of no segment. -/
def null : Selector := ⟨0⟩

/-- Selects slot `index` of the global table with requested privilege `ring`. -/
def ofGlobal (index : BitVec 13) (ring : Ring) : Selector :=
  ⟨index ++ 0#1 ++ ring.bits⟩

/-- Selects slot `index` of the local table with requested privilege `ring`. -/
def ofLocal (index : BitVec 13) (ring : Ring) : Selector :=
  ⟨index ++ 1#1 ++ ring.bits⟩

/-- The slot that the selector names. -/
def index (s : Selector) : Nat := (s.bits.extractLsb' 3 13).toNat

/-- Whether the selector names a slot of the local table. -/
def isLocal (s : Selector) : Bool := s.bits.getLsbD 2

/-- The requested privilege. -/
def rpl (s : Selector) : Ring := .ofBits (s.bits.extractLsb' 0 2)

/-- Whether the selector is null: slot 0 of the global table, at any requested privilege. -/
def isNull (s : Selector) : Bool := s.bits.extractLsb' 2 14 = 0

/-- The selector in the low half of a register. -/
def ofWord (w : Word) : Selector := ⟨w.extractLsb' 0 16⟩

/-- The selector in the low half of a register, the high half clear. -/
def toWord (s : Selector) : Word := s.bits.setWidth 32

@[simp] theorem index_ofGlobal (index : BitVec 13) (ring : Ring) :
    (ofGlobal index ring).index = index.toNat := by
  unfold Selector.index ofGlobal
  congr 1
  rw [BitVec.extractLsb'_append_eq_of_le (by omega), BitVec.extractLsb'_append_eq_left]

@[simp] theorem rpl_ofGlobal (index : BitVec 13) (ring : Ring) :
    (ofGlobal index ring).rpl = ring := by
  unfold rpl ofGlobal
  rw [BitVec.extractLsb'_append_eq_right, Ring.ofBits_bits]

@[simp] theorem rpl_ofLocal (index : BitVec 13) (ring : Ring) :
    (ofLocal index ring).rpl = ring := by
  unfold rpl ofLocal
  rw [BitVec.extractLsb'_append_eq_right, Ring.ofBits_bits]

@[simp] theorem isLocal_ofGlobal (index : BitVec 13) (ring : Ring) :
    (ofGlobal index ring).isLocal = false := by
  change (index ++ 0#1 ++ ring.bits).getLsbD 2 = false
  rw [BitVec.getLsbD_append, BitVec.getLsbD_append]
  rfl

@[simp] theorem isLocal_ofLocal (index : BitVec 13) (ring : Ring) :
    (ofLocal index ring).isLocal = true := by
  change (index ++ 1#1 ++ ring.bits).getLsbD 2 = true
  rw [BitVec.getLsbD_append, BitVec.getLsbD_append]
  rfl

@[simp] theorem ofWord_toWord (s : Selector) : ofWord s.toWord = s := by
  simp [ofWord, toWord, BitVec.extractLsb'_setWidth_of_le]

end Selector

end FourRings
