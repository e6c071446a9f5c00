import FourRings.Descriptor.Lemmas

/-!
# Edited descriptors

What `withBaseLimit` and `withGateTarget` change of a descriptor and what they leave. Both keep the
access byte (`access_withBaseLimit`, `access_withGateTarget`), so everything that is read off it,
privilege and type before all, is what it was before the edit.
-/

namespace FourRings

namespace Descriptor

open BitVec

variable (d : Descriptor) (base limit offset : Word) (params : Byte)

/-! ### Another base and limit -/

/-- The flags of a descriptor have no low nibble to lose. -/
theorem known_flags : Flags.known ⟨d.flags.bits⟩ = d.flags := by
  unfold Flags.known Descriptor.flags
  rw [BitVec.extractLsb'_append_eq_left]

@[simp] theorem access_withBaseLimit : (d.withBaseLimit base limit).access = d.access := by
  rw [withBaseLimit, access_packSegment]

@[simp] theorem flags_withBaseLimit : (d.withBaseLimit base limit).flags = d.flags := by
  rw [withBaseLimit, flags_packSegment, known_flags]

@[simp] theorem base_withBaseLimit : (d.withBaseLimit base limit).base = base := by
  rw [withBaseLimit, base_packSegment]

@[simp] theorem limit_withBaseLimit :
    (d.withBaseLimit base limit).limit = limit.setWidth 20 := by
  rw [withBaseLimit, limit_packSegment]

@[simp] theorem systemType?_withBaseLimit :
    (d.withBaseLimit base limit).systemType? = d.systemType? := by
  rw [systemType?, access_withBaseLimit, systemType?]

@[simp] theorem dpl_withBaseLimit : (d.withBaseLimit base limit).dpl = d.dpl := by
  rw [dpl, access_withBaseLimit, dpl]

@[simp] theorem present_withBaseLimit : (d.withBaseLimit base limit).present = d.present := by
  rw [present, access_withBaseLimit, present]

@[simp] theorem isCode_withBaseLimit : (d.withBaseLimit base limit).isCode = d.isCode := by
  rw [isCode, access_withBaseLimit, isCode]

/-! ### Another gate target -/

@[simp] theorem access_withGateTarget : (d.withGateTarget offset params).access = d.access := by
  unfold withGateTarget
  rw [Descriptor.access, extractLsb'_append_eq_of_le (by omega),
    extractLsb'_append_eq_of_le (by omega), extractLsb'_append_eq_of_le (by omega),
    extractLsb'_append_eq_of_le (by omega)]
  exact congrArg Access.mk extractLsb'_append_eq_right

@[simp] theorem gateSelector_withGateTarget :
    (d.withGateTarget offset params).gateSelector = d.gateSelector := by
  unfold withGateTarget
  rw [Descriptor.gateSelector, extractLsb'_append_eq_of_le (by omega)]
  exact congrArg Selector.mk extractLsb'_append_eq_right

@[simp] theorem gateOffset_withGateTarget :
    (d.withGateTarget offset params).gateOffset = offset := by
  have hhigh : (d.withGateTarget offset params).word.extractLsb' 48 16 =
      offset.extractLsb' 16 16 := by
    unfold withGateTarget
    rw [extractLsb'_append_eq_of_le (by omega), extractLsb'_append_eq_of_le (by omega),
      extractLsb'_append_eq_of_le (by omega), extractLsb'_append_eq_of_le (by omega),
      extractLsb'_append_eq_of_le (by omega)]
    exact extractLsb'_eq_self
  have hlow : (d.withGateTarget offset params).word.extractLsb' 0 16 =
      offset.extractLsb' 0 16 := by
    unfold withGateTarget
    exact extractLsb'_append_eq_right
  rw [Descriptor.gateOffset, hhigh, hlow]
  exact extractLsb'_append_extractLsb'

@[simp] theorem params_withGateTarget :
    (d.withGateTarget offset params).params = params.setWidth 5 := by
  unfold withGateTarget
  rw [Descriptor.params, extractLsb'_append_eq_of_le (by omega),
    extractLsb'_append_eq_of_le (by omega), setWidth_eq_extractLsb' (by omega)]
  exact extractLsb'_append_eq_right

@[simp] theorem systemType?_withGateTarget :
    (d.withGateTarget offset params).systemType? = d.systemType? := by
  rw [systemType?, access_withGateTarget, systemType?]

@[simp] theorem dpl_withGateTarget : (d.withGateTarget offset params).dpl = d.dpl := by
  rw [dpl, access_withGateTarget, dpl]

@[simp] theorem isCode_withGateTarget : (d.withGateTarget offset params).isCode = d.isCode := by
  rw [isCode, access_withGateTarget, isCode]

/-! ### Gates as they are made -/

@[simp] theorem access_gate (s : Selector) (offset : Word) (r : Ring) (type : SystemType)
    (params : Byte) : (gate s offset r type params).access = .ofSystem type r := by
  rw [gate, access_packGate]
  cases r <;> cases type <;> rfl

@[simp] theorem gateSelector_gate (s : Selector) (offset : Word) (r : Ring) (type : SystemType)
    (params : Byte) : (gate s offset r type params).gateSelector = s :=
  gateSelector_packGate ..

@[simp] theorem gateOffset_gate (s : Selector) (offset : Word) (r : Ring) (type : SystemType)
    (params : Byte) : (gate s offset r type params).gateOffset = offset :=
  gateOffset_packGate ..

/-! ### Kinds of descriptors -/

/-- Code and data have no system type. -/
theorem isSegment_eq_false_of_systemType? {d : Descriptor} {type : SystemType}
    (h : d.systemType? = some type) : d.access.isSegment = false := by
  unfold systemType? Access.systemType? at h
  split at h
  · cases h
  · rename_i hs
    simpa using hs

theorem isCode_eq_false_of_systemType? {d : Descriptor} {type : SystemType}
    (h : d.systemType? = some type) : d.isCode = false := by
  rw [isCode, isSegment_eq_false_of_systemType? h, Bool.false_and]

theorem systemType?_eq_none {d : Descriptor} (h : d.access.isSegment) : d.systemType? = none :=
  if_pos h

theorem isSegment_of_isCode {d : Descriptor} (h : d.isCode) : d.access.isSegment :=
  (Bool.and_eq_true_iff.1 h).1

theorem isSegment_of_isData {d : Descriptor} (h : d.isData) : d.access.isSegment :=
  (Bool.and_eq_true_iff.1 h).1

end Descriptor

end FourRings
