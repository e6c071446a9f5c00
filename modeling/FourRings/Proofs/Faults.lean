import FourRings.Gate.Strict
import FourRings.Proofs.Admission

/-!
# No faults

Serving a request never faults: `Strict.serve` ends as `Tables.serve` does, on every table, vault
and memory and for all registers. Each function is shown to equal its ordinary counterpart, callees
first, and the deposits, which edit the vault in memory, to leave what their counterparts return.
Where an operation could fault, the check before it has succeeded; `Strict.guard_eq_total` and
`Strict.bind_eq_total` hand that success on, and `InPlace.on_keep_guard` and `InPlace.on_keep_bind`
where the vault is edited.
-/

namespace FourRings

open Strict InPlace

variable {ε α β : Type}

/-! ### Tables -/

namespace DescriptorTable

theorem strict_get (t : DescriptorTable) (index : Nat) :
    Strict.get t index = total (t.get index) := by
  refine guard_eq_total (fun h => ?_) fun h => ?_
  · have hslot : t.slots[index]? = some t.slots[index] := Array.getElem?_eq_getElem h
    rw [get_eq_ok_iff.2 hslot, fetch_of_some hslot]
    rfl
  · rw [get, Array.getElem?_eq_none (Nat.not_lt.1 h)]

theorem strict_set (t : DescriptorTable) (index : Nat) (d : Descriptor) :
    Strict.set t index d = total (t.set index d) := by
  refine guard_eq_total (fun h => ?_) fun h => dif_neg h
  have hset : t.set index d = .ok ⟨t.slots.set index d h⟩ := dif_pos h
  rw [store_of_lt h, hset]
  rfl

/-- The index that was in range when the slot was read is in range when it is written. -/
theorem strict_patch (t : DescriptorTable) (s : Selector) (expected : String)
    (fits : SystemType → Bool) (f : Descriptor → Descriptor) :
    Strict.patch t s expected fits f = total (t.patch s expected fits f) := by
  rw [Strict.patch, patch, strict_get, getAt]
  cases hd : t.get s.index with
  | error e => rfl
  | ok d =>
    -- the second access to the slot is not checked again
    have hlt : s.index < t.slots.size := lt_capacity_of_slots (get_eq_ok_iff.1 hd)
    have hset : t.setAt s (f d) = .ok ⟨t.slots.set s.index (f d) hlt⟩ := dif_pos hlt
    refine guard_eq_total (fun hfits => ?_) fun hfits => if_neg hfits
    rw [store_of_lt hlt]
    dsimp only
    rw [if_pos hfits, hset]
    rfl

end DescriptorTable

/-! ### Permission -/

/-- The end of a segment fits 64 bits with room to spare. -/
theorem strict_stop (d : Descriptor) :
    ∃ stop : BitVec 64, stop.toNat = d.stop ∧
      (Strict.stop d : Strict ε (BitVec 64)) = pure stop := by
  have hbase : (d.base.setWidth 64).toNat = d.base.toNat :=
    BitVec.toNat_setWidth_of_le (by decide)
  have hlimit : (d.byteLimit.setWidth 64).toNat = d.byteLimit.toNat :=
    BitVec.toNat_setWidth_of_le (by decide)
  have hlast : (d.base.setWidth 64 + d.byteLimit.setWidth 64).toNat =
      (d.base.setWidth 64).toNat + (d.byteLimit.setWidth 64).toNat := by
    rw [BitVec.toNat_add]
    omega
  have hstop : (d.base.setWidth 64 + d.byteLimit.setWidth 64 + 1).toNat =
      (d.base.setWidth 64 + d.byteLimit.setWidth 64).toNat + (1 : BitVec 64).toNat := by
    have hone : (1 : BitVec 64).toNat = 1 := rfl
    rw [BitVec.toNat_add _ (1 : BitVec 64), hone]
    omega
  refine ⟨d.base.setWidth 64 + d.byteLimit.setWidth 64 + 1, ?_, ?_⟩
  · rw [hstop, hlast, hbase, hlimit]
    rfl
  · rw [Strict.stop, add_of_toNat hlast, pure_bind, add_of_toNat hstop]

theorem strict_checkReach (r : Ring) (d : Descriptor) :
    Strict.checkReach r d = total (checkReach r d) := by
  obtain ⟨stop, hstop, heq⟩ := strict_stop (ε := Refusal) d
  refine guard_eq_total (fun hup => ?_) fun hdown => ensure_of_not fun h => hdown h.1
  rw [heq, pure_bind, hstop]
  exact congrArg total (ensure_and_of_left hup).symm

theorem strict_checkTarget (gdt : DescriptorTable) (caller : Ring) (target : Selector) :
    Strict.checkTarget gdt caller target = total (checkTarget gdt caller target) := by
  refine guard_eq_total (fun hglobal => ?_) fun hlocal => if_pos (by simpa using hlocal)
  rw [DescriptorTable.strict_get, adapt_total, checkTarget, if_neg (by simp [hglobal]),
    DescriptorTable.getAt]
  cases gdt.get target.index with
  | error e => rfl
  | ok d => exact bind_eq_total rfl fun _ _ => rfl

theorem strict_checkOuterDescriptor (caller : Ring) (d : Descriptor) :
    Strict.checkOuterDescriptor caller d = total (checkOuterDescriptor caller d) := by
  rw [Strict.checkOuterDescriptor, checkOuterDescriptor]
  by_cases hgate : d.systemType? = some .callGate
  · rw [if_pos hgate, if_pos hgate]
    rfl
  · rw [if_neg hgate, if_neg hgate]
    by_cases hsegment : d.access.isSegment
    · rw [if_pos hsegment, if_pos hsegment, strict_checkReach]
    · rw [if_neg hsegment, if_neg hsegment]
      rfl

theorem strict_permitRaw (gdt : DescriptorTable) (caller : Ring) (current d : Descriptor) :
    Strict.permitRaw gdt caller current d = total (permitRaw gdt caller current d) := by
  have houter : (if caller ≠ .core ∧ d.present then Strict.checkOuterDescriptor caller d
        else pure ()) =
      total (if caller ≠ .core ∧ d.present then checkOuterDescriptor caller d else pure ()) := by
    split
    · exact strict_checkOuterDescriptor caller d
    · rfl
  refine bind_eq_total rfl fun _ _ => bind_eq_total rfl fun _ _ => ?_
  by_cases hgate : d.isGate
  · rw [if_pos hgate, if_pos hgate]
    exact bind_eq_total (strict_checkTarget ..) fun _ _ => houter
  · rw [if_neg hgate, if_neg hgate]
    exact houter

theorem strict_permit (gdt : DescriptorTable) (caller : Ring) (q : TableRequest) :
    Strict.permit gdt caller q = total (permit gdt caller q) := by
  refine guard_eq_total (fun hnull => ?_) fun hnull => if_pos (Decidable.not_not.1 hnull)
  rw [DescriptorTable.strict_get, adapt_total, permit, if_neg hnull, DescriptorTable.getAt]
  cases gdt.get q.selector.index with
  | error e => rfl
  | ok current =>
    cases q with
    | descriptor _ d => exact strict_permitRaw gdt caller current d
    | callGate _ _ _ =>
      change (if current.isGate then Strict.checkTarget gdt caller current.gateSelector
        else pure ()) = total (if current.isGate then _ else _)
      split
      · exact strict_checkTarget ..
      · rfl
    | tss _ _ => rfl
    | ldt _ _ _ => rfl

/-! ### The vault -/

theorem fetch_toArray {slots : List α} {i : Nat} {a : α} (h : slots[i]? = some a) :
    (fetch slots.toArray i : Strict ε α) = pure a :=
  fetch_of_some (by rw [List.getElem?_toArray, h])

/-- What is kept for a slot lies at the slot's place. -/
theorem fetch_map {slots : List α} {i : Nat} {a : α} (h : slots[i]? = some a) (f : α → β) :
    (fetch (slots.map f).toArray i : Strict ε β) = pure (f a) :=
  fetch_toArray (by rw [List.getElem?_map, h, Option.map_some])

/-- What is located is found, and lies at its place. -/
theorem locate_of_find?_eq_some {slots : List α} {p : α → Bool} {a : α} (h : slots.find? p = some a)
    (e : Refusal) : ∃ i, slots[i]? = some a ∧ Strict.locate slots p e = pure (i, a) := by
  obtain ⟨hp, i, hi, rfl, hbefore⟩ := List.find?_eq_some_iff_getElem.1 h
  have hplace : slots.findIdx? p = some i :=
    List.findIdx?_eq_some_iff_getElem.2 ⟨hi, hp, fun j hj => by simpa using hbefore j hj⟩
  have hslot : slots[i]? = some slots[i] := List.getElem?_eq_getElem hi
  refine ⟨i, hslot, ?_⟩
  rw [Strict.locate, hplace]
  dsimp only
  rw [fetch_toArray hslot, pure_bind]

theorem locate_of_find?_eq_none {slots : List α} {p : α → Bool} (h : slots.find? p = none)
    (e : Refusal) : Strict.locate slots p e = total (.error e) := by
  have hplace : slots.findIdx? p = none := by
    rw [List.findIdx?_eq_none_iff]
    simpa using h
  rw [Strict.locate, hplace]
  rfl

namespace Vault

theorem strict_segment (s : Vault) (gdt : DescriptorTable) (r : Ring) (selector : Selector) :
    Strict.segment s gdt r selector =
      total (match s.segment? gdt r selector with
        | none => .error (.badTaskState .unresolvedSelector)
        | some d => .ok d) := by
  rw [Strict.segment, segment?]
  by_cases hlocal : selector.isLocal
  · rw [if_pos hlocal, if_pos hlocal, ldtOf?, LdtSlot.ofSelector?]
    cases hslot : LdtSlot.all.find? (·.selector.index = r.ldtSelector.index) with
    | none =>
      rw [locate_of_find?_eq_none hslot]
      rfl
    | some slot =>
      obtain ⟨i, hi, hlocate⟩ := locate_of_find?_eq_some hslot (.badTaskState .unresolvedSelector)
      rw [hlocate, pure_bind]
      dsimp only
      rw [fetch_map hi, pure_bind, Option.map_some, Option.bind_some]
      cases (s.ldt slot).entries[selector.index]? <;> rfl
  · rw [if_neg hlocal, if_neg hlocal, DescriptorTable.strict_get, adapt_total,
      DescriptorTable.getAt]
    cases gdt.get selector.index <;> rfl

theorem strict_checkRegister (s : Vault) (gdt : DescriptorTable) (r : Ring) (u : SegmentUse)
    (selector : Selector) :
    Strict.checkRegister s gdt r u selector = total (s.checkRegister gdt r u selector) := by
  rw [Strict.checkRegister, checkRegister]
  by_cases hnull : u = .data ∧ selector.isNull
  · rw [if_pos hnull, if_pos hnull]
    rfl
  · rw [if_neg hnull, if_neg hnull]
    refine bind_eq_total rfl fun _ _ => ?_
    rw [strict_segment]
    cases s.segment? gdt r selector with
    | none => rfl
    | some d => exact bind_eq_total rfl fun _ _ => rfl

/-- The bottom of the room for a frame is formed only when the top leaves room. -/
theorem strict_checkInnerStack (memory : RingMemory) (r k : Ring) (p : StackPointer) :
    Strict.checkInnerStack memory r k p = total (checkInnerStack memory r k p) := by
  refine bind_eq_total rfl fun _ _ => guard_eq_total (fun hroom => ?_) fun hroom => ?_
  · have hle : frameRoom ≤ p.esp.toNat := hroom
    rw [sub_of_le hroom, pure_bind, ensure_and_of_left hle]
  · exact ensure_of_not fun h => hroom h.1

theorem strict_checkTask (s : Vault) (gdt : DescriptorTable) (memory : RingMemory) (r : Ring)
    (t : Tss) : Strict.checkTask s gdt memory r t = total (s.checkTask gdt memory r t) := by
  refine bind_eq_total rfl fun _ _ => bind_eq_total rfl fun _ _ => bind_eq_total rfl fun _ _ =>
    bind_eq_total rfl fun _ _ => bind_eq_total rfl fun _ _ => ?_
  refine bind_eq_total (strict_checkRegister ..) fun _ _ =>
    bind_eq_total (strict_checkRegister ..) fun _ _ =>
    bind_eq_total (forM_eq_total fun _ _ => strict_checkRegister ..) fun _ _ => ?_
  exact forM_eq_total fun k _ => strict_checkInnerStack memory r k _

theorem putTss_of_getElem? {i : Nat} {slot : TaskSlot} (h : TaskSlot.all[i]? = some slot)
    (s : Vault) (t : Tss) : (Strict.putTss s i t : Strict ε Vault) = pure (s.setTss slot t) := by
  rw [Strict.putTss, fetch_toArray h, pure_bind]

theorem putLdt_of_getElem? {i : Nat} {slot : LdtSlot} (h : LdtSlot.all[i]? = some slot)
    (s : Vault) (l : Ldt) : (Strict.putLdt s i l : Strict ε Vault) = pure (s.setLdt slot l) := by
  rw [Strict.putLdt, fetch_toArray h, pure_bind]

theorem on_placeTss (s : Vault) (gdt : DescriptorTable) (memory : RingMemory) (r : Ring)
    (selector : Selector) (t : Tss) :
    (Strict.placeTss gdt memory r selector t).on s =
      some (outcome s (s.depositTss gdt memory r selector t)) := by
  rw [Strict.placeTss, depositTss]
  cases hslot : TaskSlot.ofSelector? selector with
  | none =>
    rw [locate_of_find?_eq_none hslot]
    rfl
  | some slot =>
    obtain ⟨i, hi, hlocate⟩ := locate_of_find?_eq_some hslot (.badTaskState .noTaskSlot)
    rw [hlocate, on_keep_pure_bind]
    refine on_keep_bind fun _ _ => ?_
    -- the directory is read before the checks
    change (keep (Strict.checkTask s gdt memory r t) >>= _).on s = _
    rw [strict_checkTask]
    refine on_keep_bind fun _ _ => ?_
    rw [on_bind_of_ok (on_update_of_pure (putTss_of_getElem? hi s _)), fetch_map hi]
    rfl

/-- An entry that is copied to an empty place lies there afterwards, be it null or not. -/
theorem strict_copyEntries_cons {table : Array Descriptor} {i : Nat} (h : i < table.size)
    (hempty : table[i] = .null) (r : Ring) (d : Descriptor) (rest : List Descriptor) :
    Strict.copyEntries r (d :: rest) i table =
      total (checkEntry r d) >>= fun _ => Strict.copyEntries r rest (i + 1) (table.set i d) := by
  rw [Strict.copyEntries, checkEntry]
  by_cases hnull : d.isNull
  · have hd : d = .null := congrArg Descriptor.mk (of_decide_eq_true hnull)
    have hset : table.set i d = table := by
      rw [hd, ← hempty, Array.set_getElem_self]
    rw [if_pos hnull, if_pos hnull, hset]
    rfl
  · rw [if_neg hnull, if_neg hnull, store_of_lt h, strict_checkReach]
    cases ensure (ε := Refusal) (d.present ∧ d.access.isSegment) (.systemDescriptor d.access) with
    | error e => rfl
    | ok _ =>
      cases ensure (ε := Refusal) (d.dpl = r) (.privilegeViolation r d.dpl) with
      | error e => rfl
      | ok _ => cases checkReach r d <;> rfl

/-- The new table holds the entries up to the limit. -/
theorem strict_copyLdt (r : Ring) (l : Ldt) {limit : Word} (h : limit = 7 ∨ limit = Ldt.limit) :
    Strict.copyLdt r l ((limit.toNat + 1) / 8) =
      total ((trimLdt l limit).entries.forM (checkEntry r)) >>= fun _ =>
        pure (trimLdt l limit) := by
  rcases h with rfl | rfl
  · change (Strict.copyEntries r [l.code] 0 #[.null, .null] >>= _) =
      total ([l.code, .null].forM (checkEntry r)) >>= _
    -- the entry past the limit is cleared, and null entries pass every check
    rw [strict_copyEntries_cons Nat.zero_lt_two rfl, List.forM]
    cases checkEntry r l.code <;> rfl
  · change (Strict.copyEntries r [l.code, l.data] 0 #[.null, .null] >>= _) =
      total ([l.code, l.data].forM (checkEntry r)) >>= _
    rw [strict_copyEntries_cons Nat.zero_lt_two rfl, List.forM]
    cases checkEntry r l.code with
    | error e => rfl
    | ok _ =>
      change (Strict.copyEntries r [l.data] 1 #[l.code, .null] >>= _) =
        total ([l.data].forM (checkEntry r)) >>= _
      rw [strict_copyEntries_cons Nat.one_lt_two rfl, List.forM]
      cases checkEntry r l.data <;> rfl

/-- The limits of whole entries are those of one and of two. -/
theorem whole_entries_iff {limit : Word} (h : limit ≤ Ldt.limit) :
    (limit.toNat + 1) % 8 = 0 ↔ limit = 7 ∨ limit = Ldt.limit := by
  have hle : limit.toNat ≤ 15 := h
  rw [BitVec.toNat_inj.symm, (BitVec.toNat_inj (y := Ldt.limit)).symm]
  change _ ↔ limit.toNat = 7 ∨ limit.toNat = 15
  omega

/-- The successor of a limit that has been checked does not overflow. -/
theorem toNat_size {limit : Word} (h : limit ≤ Ldt.limit) :
    (limit + 1).toNat = limit.toNat + 1 ∧
      (Strict.add limit 1 : Strict ε Word) = pure (limit + 1) := by
  have hsize : (limit + 1).toNat = limit.toNat + (1 : Word).toNat := by
    have hle : limit.toNat ≤ 15 := h
    have hone : (1 : Word).toNat = 1 := rfl
    rw [BitVec.toNat_add, hone]
    omega
  exact ⟨hsize, add_of_toNat hsize⟩

/-- The entries of a table up to a limit, if they pass. -/
def checkedLdt (r : Ring) (l : Ldt) (limit : Word) : Except Refusal Ldt := do
  ensure (limit = 7 ∨ limit = Ldt.limit) (.badArgument limit)
  (trimLdt l limit).entries.forM (checkEntry r)
  return trimLdt l limit

/-- A deposit checks its owner, then the table, and then copies the table. -/
theorem depositLdt_of_slot {selector : Selector} {slot : LdtSlot}
    (h : LdtSlot.ofSelector? selector = some slot) (s : Vault) (r : Ring) (l : Ldt) (limit : Word) :
    s.depositLdt r selector l limit = (do
      ensure (slot.owner = r) (.privilegeViolation r slot.owner)
      let table ← checkedLdt r l limit
      return (s.address.ldt slot, s.setLdt slot table)) := by
  rw [depositLdt, h]
  simp only [checkedLdt, bind_assoc, pure_bind]

theorem strict_copyUpTo (r : Ring) (l : Ldt) (limit : Word) :
    Strict.copyUpTo r l limit = total (checkedLdt r l limit) := by
  refine guard_eq_total (fun hlimit => ?_) fun hlimit => ?_
  · obtain ⟨hsize, hadd⟩ := toNat_size (ε := Refusal) hlimit
    rw [hadd, pure_bind, hsize]
    refine guard_eq_total (fun hwhole => ?_) fun hpart => ?_
    · have hentries := (whole_entries_iff hlimit).1 hwhole
      rw [strict_copyLdt r l hentries, checkedLdt, ensure_eq_ok_iff.2 hentries]
      cases (trimLdt l limit).entries.forM (checkEntry r) <;> rfl
    · rw [checkedLdt, ensure_of_not (mt (whole_entries_iff hlimit).2 hpart)]
      rfl
  -- a limit that is too large has been refused before its size is formed
  · have hneither : ¬ (limit = 7 ∨ limit = Ldt.limit) := by
      rintro (rfl | rfl) <;> exact hlimit (by decide)
    rw [checkedLdt, ensure_of_not hneither]
    rfl

theorem on_placeLdt (s : Vault) (r : Ring) (selector : Selector) (l : Ldt) (limit : Word) :
    (Strict.placeLdt r selector l limit).on s =
      some (outcome s (s.depositLdt r selector l limit)) := by
  rw [Strict.placeLdt]
  cases hslot : LdtSlot.ofSelector? selector with
  | none =>
    rw [locate_of_find?_eq_none hslot, depositLdt, hslot]
    rfl
  | some slot =>
    obtain ⟨i, hi, hlocate⟩ := locate_of_find?_eq_some hslot (.badTaskState .noLdtSlot)
    rw [hlocate, on_keep_pure_bind, depositLdt_of_slot hslot, strict_copyUpTo]
    refine on_keep_bind fun _ _ => on_keep_bind fun table _ => ?_
    rw [on_bind_of_ok (on_update_of_pure (putLdt_of_getElem? hi s table))]
    change (keep (fetch (LdtSlot.all.map s.address.ldt).toArray i)).on _ = _
    rw [fetch_map hi]
    rfl

end Vault

/-! ### Requests -/

namespace Tables

theorem on_takeTss (t : Tables) (memory : RingMemory) (caller : Ring) (selector : Selector)
    (base : Word) : (Strict.takeTss t.gdt memory caller selector base).on t.vault =
      some (outcome t.vault (t.takeTss memory caller selector base)) := by
  refine on_keep_bind fun _ _ => ?_
  cases memory.readTss base with
  | none => rfl
  | some x => exact Vault.on_placeTss ..

theorem on_takeLdt (t : Tables) (memory : RingMemory) (caller : Ring) (selector : Selector)
    (base limit : Word) : (Strict.takeLdt memory caller selector base limit).on t.vault =
      some (outcome t.vault (t.takeLdt memory caller selector base limit)) := by
  refine on_keep_guard (fun hlimit => ?_) fun hlimit => ?_
  · obtain ⟨hsize, hadd⟩ := Vault.toNat_size (ε := Refusal) hlimit
    rw [hadd, on_keep_pure_bind, hsize, takeLdt, ensure_and_of_left hlimit]
    refine on_keep_bind fun _ _ => ?_
    cases memory.readLdt base with
    | none => rfl
    | some l => exact Vault.on_placeLdt ..
  · rw [takeLdt, ensure_of_not fun h => hlimit h.1]
    rfl

theorem strict_settle {t : Tables} {s : Strict TableError DescriptorTable}
    {x : Except TableError DescriptorTable} (h : s = total x) :
    Strict.settle t s = some (t.settle x) := by
  subst h
  rfl

theorem strict_adopt (t : Tables) (taken : InPlace Vault Refusal Word)
    (x : Except Refusal (Word × Vault)) {point : Word → Strict TableError DescriptorTable}
    {y : Word → Except TableError DescriptorTable} (h : ∀ copy, point copy = total (y copy)) :
    taken.on t.vault = some (outcome t.vault x) →
      Strict.adopt t taken point = some (match x with
        | .error e => (.error e, t)
        | .ok (copy, vault) => { t with vault }.settle (y copy)) := by
  intro htaken
  rw [Strict.adopt, htaken]
  cases x with
  | error e => rfl
  | ok x => exact strict_settle (h x.1)

theorem strict_perform (t : Tables) (memory : RingMemory) (caller : Ring) (q : TableRequest) :
    Strict.perform t memory caller q = some (t.perform memory caller q) := by
  cases q with
  | descriptor selector d => exact strict_settle (DescriptorTable.strict_set ..)
  | callGate selector handler params => exact strict_settle (DescriptorTable.strict_patch ..)
  | tss selector base =>
    rw [Strict.perform, perform]
    by_cases hcore : caller = .core
    · rw [if_pos hcore, if_pos hcore]
      exact strict_settle (DescriptorTable.strict_patch ..)
    · rw [if_neg hcore, if_neg hcore]
      exact strict_adopt t _ _ (fun copy => DescriptorTable.strict_patch ..) (t.on_takeTss ..)
  | ldt selector base limit =>
    rw [Strict.perform, perform]
    by_cases hcore : caller = .core
    · rw [if_pos hcore, if_pos hcore]
      exact strict_settle (DescriptorTable.strict_patch ..)
    · rw [if_neg hcore, if_neg hcore]
      exact strict_adopt t _ _ (fun copy => DescriptorTable.strict_patch ..) (t.on_takeLdt ..)

/-- **No request faults.** -/
theorem strict_serve (t : Tables) (memory : RingMemory) (caller : Ring) (r : Registers) :
    Strict.serve t memory caller r = some (t.serve memory caller r) := by
  rw [Strict.serve, serve]
  cases TableRequest.decode r with
  | error e => rfl
  | ok q =>
    dsimp only
    rw [strict_permit]
    cases permit t.gdt caller q with
    | error e => rfl
    | ok _ => exact strict_perform ..

end Tables

end FourRings
