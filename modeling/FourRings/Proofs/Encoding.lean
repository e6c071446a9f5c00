import FourRings.Proofs.Fields

/-!
# Words and fields

Packing a descriptor and reading its fields undo each other. `fields_exact` is the main statement.
What is packed is read back, cut to the width of its field, and every word is the segment of its
fields. A gate leaves part of its word fixed, so a word is the gate of its fields only if it holds
there what every gate holds.

Where the fields lie is also said without `packSegment` and `packGate`: the word is the sum of the
fields at their places (`toNat_packSegment`, `toNat_packGate`).
-/

namespace FourRings

open BitVec

/-! ### Layouts -/

/-- Of two words that are appended, the first lies above the bits of the second. -/
theorem toNat_append_eq_add {v w : Nat} (x : BitVec v) (y : BitVec w) :
    (x ++ y).toNat = x.toNat <<< w + y.toNat := by
  rw [toNat_append, Nat.shiftLeft_add_eq_or_of_lt y.isLt]

theorem toNat_packSegment (base limit : Word) (access flags : Byte) :
    (packSegment base limit access flags).toNat =
      limit.toNat % 0x10000 + (base.toNat % 0x1000000) <<< 16 + access.toNat <<< 40 +
        (limit.toNat / 0x10000 % 0x10) <<< 48 + (flags.toNat / 0x10) <<< 52 +
        (base.toNat / 0x1000000) <<< 56 := by
  have hbase := base.isLt
  have hflags := flags.isLt
  simp only [packSegment, toNat_append_eq_add, extractLsb'_toNat, Nat.shiftRight_eq_div_pow,
    Nat.shiftLeft_eq]
  omega

theorem toNat_packGate (selector : BitVec 16) (offset : Word) (dpl type params : Byte) :
    (packGate selector offset dpl type params).toNat =
      offset.toNat % 0x10000 + selector.toNat <<< 16 + (params.toNat % 32) <<< 32 +
        (type.toNat % 16) <<< 40 + (dpl.toNat % 4) <<< 45 + 1 <<< 47 +
        (offset.toNat / 0x10000) <<< 48 := by
  have hoffset := offset.isLt
  simp only [packGate, toNat_append_eq_add, extractLsb'_toNat, toNat_ofNat,
    Nat.shiftRight_eq_div_pow, Nat.shiftLeft_eq]
  omega

namespace Descriptor

/-! ### Flags -/

/-- Segments carry the upper nibble of their flags. -/
theorem bits_known (flags : Byte) : (Flags.known ⟨flags⟩).bits = flags &&& 0xF0 := by
  revert flags
  decide +kernel

/-! ### Gates -/

variable {d : Descriptor} (selector : BitVec 16) (offset : Word) (dpl type params : Byte)

/-- The bits between the parameter count and the access byte, which no gate uses. -/
def reserved (d : Descriptor) : BitVec 3 := d.word.extractLsb' 37 3

/-- The low nibble of the access byte: the type of a system descriptor. -/
def typeNibble (d : Descriptor) : BitVec 4 := d.access.bits.extractLsb' 0 4

theorem reserved_packGate :
    (Descriptor.mk (packGate selector offset dpl type params)).reserved = 0 := by
  unfold reserved packGate
  rw [extractLsb'_append_eq_of_le (by omega), extractLsb'_append_eq_of_le (by omega),
    extractLsb'_append_eq_of_le (by omega)]
  exact extractLsb'_append_eq_right

/-- The access byte of a gate: present, privilege, the clear bit of system descriptors, type. -/
theorem toNat_access_packGate :
    (Descriptor.mk (packGate selector offset dpl type params)).access.bits.toNat =
      0x80 + (dpl.toNat % 4) <<< 5 + type.toNat % 16 := by
  rw [access_packGate]
  simp only [toNat_append_eq_add, extractLsb'_toNat, toNat_ofNat, Nat.shiftRight_eq_div_pow,
    Nat.shiftLeft_eq]
  omega

theorem present_packGate :
    (Descriptor.mk (packGate selector offset dpl type params)).present = true := by
  have htop : (1#1 ++ dpl.extractLsb' 0 2 ++ 0#1 ++ type.extractLsb' 0 4).getLsbD 7 = true := by
    simp only [getLsbD_append]
    rfl
  rwa [present, access_packGate]

theorem isSegment_packGate :
    (Descriptor.mk (packGate selector offset dpl type params)).access.isSegment = false := by
  have hfourth : (1#1 ++ dpl.extractLsb' 0 2 ++ 0#1 ++ type.extractLsb' 0 4).getLsbD 4 = false := by
    simp only [getLsbD_append]
    rfl
  rwa [access_packGate]

/-- A field of the access byte is a field of the word. -/
theorem extractLsb'_access {start len : Nat} (h : start + len ≤ 8) :
    d.access.bits.extractLsb' start len = d.word.extractLsb' (40 + start) len := by
  ext i hi
  have hbyte : start + i < 8 := by omega
  simp only [access, getElem_extractLsb', getLsbD_extractLsb', hbyte, decide_true, Bool.true_and,
    Nat.add_assoc]

theorem bit_access {i : Nat} (h : i < 8) {b : Bool} (hb : d.access.bits.getLsbD i = b) :
    d.word.extractLsb' (40 + i) 1 = ofBool b := by
  rw [← extractLsb'_access h, ← hb]
  ext j hj
  obtain rfl : j = 0 := by omega
  simp

/-- **A word that holds what every gate holds is the gate of its fields.** -/
theorem packGate_fields (hpresent : d.present = true) (hsystem : d.access.isSegment = false)
    (hreserved : d.reserved = 0) :
    packGate d.gateSelector.bits d.gateOffset (d.dpl.bits.setWidth 8) (d.typeNibble.setWidth 8)
      (d.params.setWidth 8) = d.word := by
  have hpresent : d.word.extractLsb' 47 1 = 1#1 := bit_access (by decide) hpresent
  have hsystem : d.word.extractLsb' 44 1 = 0#1 := bit_access (by decide) hsystem
  have hreserved : d.word.extractLsb' 37 3 = 0#3 := hreserved
  have hdpl : (d.dpl.bits.setWidth 8).extractLsb' 0 2 = d.word.extractLsb' 45 2 := by
    rw [extractLsb'_setWidth_of_le (by decide), extractLsb'_eq_self, dpl, Access.dpl,
      Ring.bits_ofBits, extractLsb'_access (by decide)]
  have htype : (d.typeNibble.setWidth 8).extractLsb' 0 4 = d.word.extractLsb' 40 4 := by
    rw [extractLsb'_setWidth_of_le (by decide), extractLsb'_eq_self, typeNibble,
      extractLsb'_access (by decide)]
  have hparams : (d.params.setWidth 8).extractLsb' 0 5 = d.word.extractLsb' 32 5 := by
    rw [extractLsb'_setWidth_of_le (by decide), extractLsb'_eq_self, Descriptor.params]
  have hhigh : d.gateOffset.extractLsb' 16 16 = d.word.extractLsb' 48 16 :=
    extractLsb'_append_eq_left
  have hlow : d.gateOffset.extractLsb' 0 16 = d.word.extractLsb' 0 16 :=
    extractLsb'_append_eq_right
  rw [packGate, hdpl, htype, hparams, hhigh, hlow, ← hpresent, ← hsystem, ← hreserved,
    gateSelector]
  simp only [extractLsb'_append_extractLsb'_eq_extractLsb']
  exact extractLsb'_eq_self

/-- A word is the gate of its fields exactly if it is present, not a segment, and clear between the
parameter count and the access byte. -/
theorem packGate_fields_iff :
    packGate d.gateSelector.bits d.gateOffset (d.dpl.bits.setWidth 8) (d.typeNibble.setWidth 8)
        (d.params.setWidth 8) = d.word ↔
      d.present = true ∧ d.access.isSegment = false ∧ d.reserved = 0 := by
  constructor
  · intro h
    have hd : d = ⟨packGate d.gateSelector.bits d.gateOffset (d.dpl.bits.setWidth 8)
        (d.typeNibble.setWidth 8) (d.params.setWidth 8)⟩ := congrArg Descriptor.mk h.symm
    rw [hd]
    exact ⟨present_packGate .., isSegment_packGate .., reserved_packGate ..⟩
  · rintro ⟨hpresent, hsystem, hreserved⟩
    exact packGate_fields hpresent hsystem hreserved

/-- **Words and fields.** A packed word is the sum of its fields at their places, and reading it
gives back what was packed, cut to the width of the field. Packing the fields of any word as a
segment gives back the word. Packing them as a gate does so exactly for words that are present,
belong to no segment and leave the unused bits of a gate clear. -/
theorem fields_exact :
    (∀ (base limit : Word) (access flags : Byte),
      let d : Descriptor := ⟨packSegment base limit access flags⟩
      d.word.toNat = limit.toNat % 0x10000 + (base.toNat % 0x1000000) <<< 16 +
          access.toNat <<< 40 + (limit.toNat / 0x10000 % 0x10) <<< 48 +
          (flags.toNat / 0x10) <<< 52 + (base.toNat / 0x1000000) <<< 56 ∧
        d.base = base ∧ d.limit.toNat = limit.toNat % 0x100000 ∧ d.access.bits = access ∧
        d.flags.bits = flags &&& 0xF0) ∧
    (∀ d : Descriptor,
      packSegment d.base (d.limit.setWidth 32) d.access.bits d.flags.bits = d.word) ∧
    (∀ (selector : BitVec 16) (offset : Word) (dpl type params : Byte),
      let d : Descriptor := ⟨packGate selector offset dpl type params⟩
      d.word.toNat = offset.toNat % 0x10000 + selector.toNat <<< 16 +
          (params.toNat % 32) <<< 32 + (type.toNat % 16) <<< 40 + (dpl.toNat % 4) <<< 45 +
          1 <<< 47 + (offset.toNat / 0x10000) <<< 48 ∧
        d.gateSelector.bits = selector ∧ d.gateOffset = offset ∧
        d.params.toNat = params.toNat % 32 ∧
        d.access.bits.toNat = 0x80 + (dpl.toNat % 4) <<< 5 + type.toNat % 16) ∧
    ∀ d : Descriptor,
      packGate d.gateSelector.bits d.gateOffset (d.dpl.bits.setWidth 8) (d.typeNibble.setWidth 8)
          (d.params.setWidth 8) = d.word ↔
        d.present = true ∧ d.access.isSegment = false ∧ d.reserved = 0 := by
  refine ⟨fun base limit access flags => ⟨toNat_packSegment .., base_packSegment .., ?_, ?_, ?_⟩,
    packSegment_fields,
    fun selector offset dpl type params =>
      ⟨toNat_packGate .., ?_, gateOffset_packGate .., ?_, toNat_access_packGate ..⟩,
    fun d => packGate_fields_iff⟩
  · rw [limit_packSegment, toNat_setWidth]
  · rw [access_packSegment]
  · rw [flags_packSegment, bits_known]
  · rw [gateSelector_packGate]
  · rw [params_packGate, toNat_setWidth]

end Descriptor

end FourRings
