import FourRings.Screen.Print

/-!
# Requests through registers

A client packs a request into its registers, and the core unpacks it there. `registers_exact` is the
main statement: requests come out as they went in, except for the two that registers cannot carry,
and registers that are accepted hold a packed request and nothing else in the bits that count.

The two are a call gate with more parameters than a gate can have, which is refused, and a print
request for the first place of the screen, which comes out as one for the cursor.
-/

namespace FourRings

/-! ### Fields of a register -/

theorem Selector.toWord_ofWord (w : Word) : (Selector.ofWord w).toWord = w &&& 0xFFFF := by
  apply BitVec.eq_of_toNat_eq
  have hmask : w.toNat &&& 0xFFFF = w.toNat % 2 ^ 16 := Nat.and_two_pow_sub_one_eq_mod w.toNat 16
  have hlt : w.toNat % 2 ^ 16 < 2 ^ 32 := by omega
  change ((w.extractLsb' 0 16).setWidth 32).toNat = w.toNat &&& 0xFFFF
  rw [hmask, BitVec.toNat_setWidth, BitVec.extractLsb'_toNat, Nat.shiftRight_zero,
    Nat.mod_eq_of_lt hlt]

/-- The upper half of a register does not count for the selector in it. -/
theorem Selector.ofWord_and (w : Word) : ofWord (w &&& 0xFFFF) = ofWord w := by
  rw [← toWord_ofWord, ofWord_toWord]

theorem Descriptor.ofWords_low_high (d : Descriptor) : ofWords d.low d.high = d := by
  have hword : d.high ++ d.low = d.word := BitVec.extractLsb'_append_extractLsb'
  rw [ofWords, hword]

theorem Descriptor.low_ofWords (low high : Word) : (ofWords low high).low = low :=
  BitVec.extractLsb'_append_eq_right

theorem Descriptor.high_ofWords (low high : Word) : (ofWords low high).high = high :=
  BitVec.extractLsb'_append_eq_left

/-- The registers without the bits that a request on the global table leaves unused: the upper half
of the register with the selector, and all of `ecx` when task state is handed over. -/
def Registers.significant (r : Registers) : Registers :=
  if r.edx = TableRequest.tssOpcode then { r with ebx := r.ebx &&& 0xFFFF, ecx := 0 }
  else { r with ecx := r.ecx &&& 0xFFFF }

/-! ### Requests on the global table -/

namespace TableRequest

/-- Whether the parameter count of a call gate, if there is one, is in range. -/
def CountInRange : TableRequest → Prop
  | .callGate _ _ params => params ≤ 31
  | .descriptor .. | .tss .. | .ldt .. => True

theorem callGateOpcode_ne : callGateOpcode ≠ descriptorOpcode := by decide

theorem tssOpcode_ne : tssOpcode ≠ descriptorOpcode ∧ tssOpcode ≠ callGateOpcode := by decide

theorem ldtOpcode_ne :
    ldtOpcode ≠ descriptorOpcode ∧ ldtOpcode ≠ callGateOpcode ∧ ldtOpcode ≠ tssOpcode := by decide

theorem setWidth_le_maxParams {params : Byte} : params.setWidth 32 ≤ maxParams ↔ params ≤ 31 := by
  change (params.setWidth 32).toNat ≤ 31 ↔ params.toNat ≤ 31
  rw [BitVec.toNat_setWidth]
  omega

/-- **Requests come out of the registers as they went in.** -/
theorem decode_encode {q : TableRequest} (h : q.CountInRange) : decode q.encode = .ok q := by
  cases q with
  | descriptor s d =>
    rw [encode, decode, if_pos rfl, Selector.ofWord_toWord, Descriptor.ofWords_low_high]
  | callGate s handler params =>
    have hcount : params.setWidth 32 ≤ maxParams := setWidth_le_maxParams.2 h
    have hback : (params.setWidth 32).setWidth 8 = params := by
      rw [BitVec.setWidth_setWidth_of_le _ (by decide), BitVec.setWidth_eq]
    rw [encode, decode, if_neg callGateOpcode_ne, if_pos rfl, if_pos hcount,
      Selector.ofWord_toWord]
    dsimp only
    rw [hback]
  | tss s base =>
    rw [encode, decode, if_neg tssOpcode_ne.1, if_neg tssOpcode_ne.2, if_pos rfl,
      Selector.ofWord_toWord]
  | ldt s base limit =>
    rw [encode, decode, if_neg ldtOpcode_ne.1, if_neg ldtOpcode_ne.2.1, if_neg ldtOpcode_ne.2.2,
      if_pos rfl, Selector.ofWord_toWord]

/-- A call gate with too many parameters is refused, and the count is named. -/
theorem decode_encode_callGate {params : Byte} (h : 31 < params) (s : Selector) (handler : Word) :
    decode (encode (.callGate s handler params)) = .error (.badArgument (params.setWidth 32)) := by
  have hcount : ¬ params.setWidth 32 ≤ maxParams := by
    rw [setWidth_le_maxParams]
    exact BitVec.not_le.2 h
  rw [encode, decode, if_neg callGateOpcode_ne, if_pos rfl, if_neg hcount]

/-- Only the significant bits are read. -/
theorem decode_significant (r : Registers) : decode r.significant = decode r := by
  unfold Registers.significant
  split
  · rename_i hop
    rw [decode, decode]
    dsimp only
    rw [Selector.ofWord_and, hop, if_neg tssOpcode_ne.1, if_neg tssOpcode_ne.1,
      if_neg tssOpcode_ne.2, if_neg tssOpcode_ne.2, if_pos rfl, if_pos rfl]
  · rw [decode, decode]
    dsimp only
    rw [Selector.ofWord_and]

/-- **Registers that are accepted hold the packed request**, but for the bits that do not count. -/
theorem encode_of_decode {r : Registers} {q : TableRequest} (h : decode r = .ok q) :
    q.encode = r.significant := by
  obtain ⟨eax, ebx, ecx, edx⟩ := r
  unfold decode at h
  dsimp only at h
  by_cases hdescriptor : edx = descriptorOpcode
  · subst hdescriptor
    rw [if_pos rfl] at h
    cases h
    rw [encode, Registers.significant, if_neg tssOpcode_ne.1.symm, Selector.toWord_ofWord,
      Descriptor.low_ofWords, Descriptor.high_ofWords]
  rw [if_neg hdescriptor] at h
  by_cases hgate : edx = callGateOpcode
  · subst hgate
    rw [if_pos rfl] at h
    split at h
    · rename_i hcount
      cases h
      have hback : (eax.setWidth 8).setWidth 32 = eax := by
        apply BitVec.eq_of_toNat_eq
        change eax.toNat ≤ 31 at hcount
        rw [BitVec.toNat_setWidth, BitVec.toNat_setWidth]
        omega
      rw [encode, Registers.significant, if_neg tssOpcode_ne.2.symm, Selector.toWord_ofWord, hback]
    · cases h
  rw [if_neg hgate] at h
  by_cases htss : edx = tssOpcode
  · subst htss
    rw [if_pos rfl] at h
    cases h
    rw [encode, Registers.significant, if_pos rfl, Selector.toWord_ofWord]
  rw [if_neg htss] at h
  by_cases hldt : edx = ldtOpcode
  · subst hldt
    rw [if_pos rfl] at h
    cases h
    rw [encode, Registers.significant, if_neg ldtOpcode_ne.2.2, Selector.toWord_ofWord]
  rw [if_neg hldt] at h
  cases h

/-- The opcode that was accepted is the one that the request is packed with. -/
theorem edx_of_decode {r : Registers} {q : TableRequest} (h : decode r = .ok q) :
    r.edx = q.encode.edx := by
  rw [encode_of_decode h, Registers.significant]
  split <;> rfl

end TableRequest

/-! ### Requests to bind a vector -/

theorem InterruptRequest.decode_encode (q : InterruptRequest) : decode q.encode = .ok q := by
  have hdpl : q.dpl.bits.setWidth 32 ≤ 3 := by
    cases q.dpl <;> decide
  have hback : (q.dpl.bits.setWidth 32).setWidth 2 = q.dpl.bits := by
    rw [BitVec.setWidth_setWidth_of_le _ (by decide), BitVec.setWidth_eq]
  rw [encode, decode, if_pos hdpl]
  dsimp only
  rw [hback, Ring.ofBits_bits]

/-! ### Requests to print -/

namespace PrintRequest

/-- The first place of the screen, which cannot be asked for. -/
def firstPlace : PrintPosition := ⟨0, 0⟩

theorem append_eq_zero_iff {p : PrintPosition} : p.col ++ p.row = 0#16 ↔ p = firstPlace := by
  obtain ⟨row, col⟩ := p
  constructor
  · intro h
    have hrow : (col ++ row).extractLsb' 0 8 = row := BitVec.extractLsb'_append_eq_right
    have hcol : (col ++ row).extractLsb' 8 8 = col := BitVec.extractLsb'_append_eq_left
    dsimp only at h
    rw [h] at hrow hcol
    rw [← hrow, ← hcol]
    rfl
  · intro h
    cases h
    rfl

/-- **Print requests come out of the registers as they went in**, except that the first place of the
screen means the cursor. -/
theorem decode_encode (q : PrintRequest) :
    decode q.encode =
      { q with position := if q.position = some firstPlace then none else q.position } := by
  obtain ⟨color, message, position⟩ := q
  have hcolor : (color.setWidth 32).setWidth 8 = color := by
    rw [BitVec.setWidth_setWidth_of_le _ (by decide), BitVec.setWidth_eq]
  cases position with
  | none =>
    rw [encode, decode]
    dsimp only
    rw [hcolor]
    rfl
  | some p =>
    have hpacked : ((p.col ++ p.row).setWidth 32).setWidth 16 = p.col ++ p.row := by
      rw [BitVec.setWidth_setWidth_of_le _ (by decide), BitVec.setWidth_eq]
    have hrow : ((p.col ++ p.row).setWidth 32).extractLsb' 0 8 = p.row := by
      rw [BitVec.extractLsb'_setWidth_of_le (by decide)]
      exact BitVec.extractLsb'_append_eq_right
    have hcol : ((p.col ++ p.row).setWidth 32).extractLsb' 8 8 = p.col := by
      rw [BitVec.extractLsb'_setWidth_of_le (by decide)]
      exact BitVec.extractLsb'_append_eq_left
    rw [encode, decode]
    dsimp only
    rw [hcolor, hpacked, hrow, hcol]
    by_cases hp : p = firstPlace
    · rw [if_pos (append_eq_zero_iff.2 hp), if_pos (congrArg some hp)]
    · rw [if_neg (mt append_eq_zero_iff.1 hp), if_neg fun h => hp (Option.some.inj h)]

end PrintRequest

/-! ### All requests -/

/-- **Registers carry requests exactly.** Every request on the global table comes out as it went in,
except that a call gate with more than 31 parameters is refused by their number; every request to
bind a vector comes out as it went in; so does every request to print, and is rendered alike on any
console, except that the first place of the screen comes out as no place and is printed at the
cursor. Conversely, registers that are accepted as a request on the global table are its packed form
up to the bits that do not count, and no more than the bits that count is read. -/
theorem registers_exact :
    (∀ q : TableRequest, q.CountInRange → TableRequest.decode q.encode = .ok q) ∧
    (∀ (s : Selector) (handler : Word) (params : Byte), 31 < params →
      TableRequest.decode (TableRequest.encode (.callGate s handler params)) =
        .error (.badArgument (params.setWidth 32))) ∧
    (∀ q : InterruptRequest, InterruptRequest.decode q.encode = .ok q) ∧
    (∀ q : PrintRequest, q.position ≠ some PrintRequest.firstPlace →
      PrintRequest.decode q.encode = q ∧
        ∀ (c : Console) (text : List Byte),
          c.serve (PrintRequest.decode q.encode) text = c.serve q text) ∧
    (∀ q : PrintRequest, q.position = some PrintRequest.firstPlace →
      PrintRequest.decode q.encode = { q with position := none } ∧
        ∀ (c : Console) (text : List Byte),
          c.serve (PrintRequest.decode q.encode) text = c.writeBytes text q.color) ∧
    (∀ (r : Registers) (q : TableRequest), TableRequest.decode r = .ok q →
      q.encode = r.significant) ∧
    ∀ r r' : Registers, r.significant = r'.significant →
      TableRequest.decode r = TableRequest.decode r' := by
  refine ⟨fun q => TableRequest.decode_encode, fun s handler params h =>
    TableRequest.decode_encode_callGate h s handler, InterruptRequest.decode_encode,
    fun q hq => ?_, fun q hq => ?_, fun r q => TableRequest.encode_of_decode, fun r r' h => ?_⟩
  · have hdecode : PrintRequest.decode q.encode = q := by
      rw [PrintRequest.decode_encode, if_neg hq]
    exact ⟨hdecode, fun c text => by rw [hdecode]⟩
  · have hdecode : PrintRequest.decode q.encode = { q with position := none } := by
      rw [PrintRequest.decode_encode, if_pos hq]
    exact ⟨hdecode, fun c text => by rw [hdecode]; rfl⟩
  · rw [← TableRequest.decode_significant r, h, TableRequest.decode_significant]

/-- Task state handed over in registers that hold noise in all bits that do not count. -/
def noisyRegisters : Registers := ⟨0x5D0100, 0xABCD0059, 0x12345678, TableRequest.tssOpcode⟩

theorem registers_exact_noisyRegisters :
    let gate : TableRequest := .callGate (.ofGlobal 34 .libs) 0x5C1000 31
    let corner : PrintRequest := ⟨0x02, 0x5A0000, some ⟨24, 79⟩⟩
    let first : PrintRequest := ⟨0x02, 0x5A0000, some PrintRequest.firstPlace⟩
    let handover : TableRequest := .tss (.ofGlobal 11 .devs) 0x5D0100
    let packed : Registers := ⟨0x5D0100, 0x59, 0, TableRequest.tssOpcode⟩
    TableRequest.decode gate.encode = .ok gate ∧
      TableRequest.decode (TableRequest.encode (.callGate (.ofGlobal 34 .libs) 0x5C1000 200)) =
        .error (.badArgument 200) ∧
      PrintRequest.decode corner.encode = corner ∧
      PrintRequest.decode first.encode = { first with position := none } ∧
      TableRequest.decode noisyRegisters = .ok handover ∧ handover.encode = packed ∧
      TableRequest.decode noisyRegisters = TableRequest.decode packed := by
  intro gate corner first handover packed
  obtain ⟨hback, hcount, -, hplaced, hfirst, hpacked, hsame⟩ := registers_exact
  have haccepted : TableRequest.decode noisyRegisters = .ok handover := by decide
  refine ⟨hback gate ?_, hcount _ _ 200 (by decide), (hplaced corner (by decide)).1,
    (hfirst first rfl).1, haccepted, ?_, hsame noisyRegisters packed (by decide)⟩
  · change (31 : Byte) ≤ 31
    decide
  · rw [hpacked noisyRegisters handover haccepted]
    decide

end FourRings
