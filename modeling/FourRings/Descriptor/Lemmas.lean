import FourRings.Descriptor.Basic

/-!
# Reading descriptors back

The accessors read from a packed word what was packed, cut to the width of its field, and the word
is determined by its fields: `packSegment_fields`.
-/

namespace FourRings

namespace Descriptor

open BitVec

/-! ### Segments -/

-- A field is reached by dropping the fields below it, one rewrite each.

@[simp] theorem access_packSegment (base limit : Word) (access flags : Byte) :
    (Descriptor.mk (packSegment base limit access flags)).access = ⟨access⟩ := by
  unfold Descriptor.access packSegment
  rw [extractLsb'_append_eq_of_le (by omega), extractLsb'_append_eq_of_le (by omega)]
  exact congrArg Access.mk extractLsb'_append_eq_right

@[simp] theorem flags_packSegment (base limit : Word) (access flags : Byte) :
    (Descriptor.mk (packSegment base limit access flags)).flags = Flags.known ⟨flags⟩ := by
  unfold Descriptor.flags Flags.known packSegment
  rw [extractLsb'_append_eq_of_le (by omega), extractLsb'_append_eq_of_le (by omega),
    extractLsb'_append_eq_of_le (by omega), extractLsb'_append_eq_of_le (by omega)]
  exact congrArg (fun nibble => Flags.mk (nibble ++ 0#4)) extractLsb'_append_eq_right

@[simp] theorem base_packSegment (base limit : Word) (access flags : Byte) :
    (Descriptor.mk (packSegment base limit access flags)).base = base := by
  have hhigh : (packSegment base limit access flags).extractLsb' 56 8 =
      base.extractLsb' 24 8 := by
    unfold packSegment
    rw [extractLsb'_append_eq_of_le (by omega), extractLsb'_append_eq_of_le (by omega),
      extractLsb'_append_eq_of_le (by omega), extractLsb'_append_eq_of_le (by omega),
      extractLsb'_append_eq_of_le (by omega)]
    exact extractLsb'_eq_self
  have hlow : (packSegment base limit access flags).extractLsb' 16 24 =
      base.extractLsb' 0 24 := by
    unfold packSegment
    rw [extractLsb'_append_eq_of_le (by omega)]
    exact extractLsb'_append_eq_right
  rw [Descriptor.base, hhigh, hlow]
  exact extractLsb'_append_extractLsb'

@[simp] theorem limit_packSegment (base limit : Word) (access flags : Byte) :
    (Descriptor.mk (packSegment base limit access flags)).limit = limit.setWidth 20 := by
  have hhigh : (packSegment base limit access flags).extractLsb' 48 4 =
      limit.extractLsb' 16 4 := by
    unfold packSegment
    rw [extractLsb'_append_eq_of_le (by omega), extractLsb'_append_eq_of_le (by omega),
      extractLsb'_append_eq_of_le (by omega)]
    exact extractLsb'_append_eq_right
  have hlow : (packSegment base limit access flags).extractLsb' 0 16 =
      limit.extractLsb' 0 16 := by
    unfold packSegment
    exact extractLsb'_append_eq_right
  rw [Descriptor.limit, hhigh, hlow, setWidth_eq_extractLsb' (by omega)]
  exact extractLsb'_append_extractLsb'_eq_extractLsb' rfl

/-- Every word is the segment of its fields. -/
theorem packSegment_fields (d : Descriptor) :
    packSegment d.base (d.limit.setWidth 32) d.access.bits d.flags.bits = d.word := by
  unfold Descriptor.access Descriptor.base Descriptor.limit Descriptor.flags packSegment
  rw [extractLsb'_append_eq_left, extractLsb'_append_eq_right, extractLsb'_append_eq_left,
    extractLsb'_setWidth_of_le (by omega), extractLsb'_setWidth_of_le (by omega),
    extractLsb'_append_eq_left, extractLsb'_append_eq_right]
  simp only [extractLsb'_append_extractLsb'_eq_extractLsb']
  exact extractLsb'_eq_self

/-! ### Gates -/

@[simp] theorem gateSelector_packGate (selector : BitVec 16) (offset : Word)
    (dpl type params : Byte) :
    (Descriptor.mk (packGate selector offset dpl type params)).gateSelector = ⟨selector⟩ := by
  unfold Descriptor.gateSelector packGate
  rw [extractLsb'_append_eq_of_le (by omega)]
  exact congrArg Selector.mk extractLsb'_append_eq_right

@[simp] theorem gateOffset_packGate (selector : BitVec 16) (offset : Word)
    (dpl type params : Byte) :
    (Descriptor.mk (packGate selector offset dpl type params)).gateOffset = offset := by
  have hhigh : (packGate selector offset dpl type params).extractLsb' 48 16 =
      offset.extractLsb' 16 16 := by
    unfold packGate
    rw [extractLsb'_append_eq_of_le (by omega), extractLsb'_append_eq_of_le (by omega),
      extractLsb'_append_eq_of_le (by omega), extractLsb'_append_eq_of_le (by omega),
      extractLsb'_append_eq_of_le (by omega), extractLsb'_append_eq_of_le (by omega),
      extractLsb'_append_eq_of_le (by omega), extractLsb'_append_eq_of_le (by omega)]
    exact extractLsb'_eq_self
  have hlow : (packGate selector offset dpl type params).extractLsb' 0 16 =
      offset.extractLsb' 0 16 := by
    unfold packGate
    exact extractLsb'_append_eq_right
  rw [Descriptor.gateOffset, hhigh, hlow]
  exact extractLsb'_append_extractLsb'

@[simp] theorem params_packGate (selector : BitVec 16) (offset : Word) (dpl type params : Byte) :
    (Descriptor.mk (packGate selector offset dpl type params)).params = params.setWidth 5 := by
  unfold Descriptor.params packGate
  rw [extractLsb'_append_eq_of_le (by omega), extractLsb'_append_eq_of_le (by omega),
    setWidth_eq_extractLsb' (by omega)]
  exact extractLsb'_append_eq_right

@[simp] theorem access_packGate (selector : BitVec 16) (offset : Word) (dpl type params : Byte) :
    (Descriptor.mk (packGate selector offset dpl type params)).access =
      ⟨1#1 ++ dpl.extractLsb' 0 2 ++ 0#1 ++ type.extractLsb' 0 4⟩ := by
  have hlow : ∀ (a : BitVec 16) (b : BitVec 1) (c : BitVec 2) (d : BitVec 1) (e : BitVec 4),
      (a ++ b ++ c ++ d ++ e).extractLsb' 0 8 = b ++ c ++ d ++ e := by
    intro a b c d e
    rw [← setWidth_eq_extractLsb' (by omega)]
    change setWidth (1 + 2 + 1 + 4) _ = _
    rw [setWidth_append_of_eq rfl, setWidth_append_of_eq rfl, setWidth_append_of_eq rfl,
      setWidth_eq, setWidth_eq, setWidth_eq, setWidth_eq_extractLsb' (by omega),
      extractLsb'_append_eq_right]
  unfold Descriptor.access packGate
  rw [extractLsb'_append_eq_of_le (by omega), extractLsb'_append_eq_of_le (by omega),
    extractLsb'_append_eq_of_le (by omega), extractLsb'_append_eq_of_le (by omega)]
  exact congrArg Access.mk (hlow ..)

end Descriptor

end FourRings
