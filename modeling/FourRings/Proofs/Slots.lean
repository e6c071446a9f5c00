import FourRings.Table.BootMap

/-!
# Written slots

`put` writes one slot and cannot fail. Every operation on a table that succeeds is a `put`
(`set_eq_ok_iff`, `patchCallGate_eq_ok_iff`, `patchTss_eq_ok_iff`, `patchLdt_eq_ok_iff`), and so is
every entry of a list that fits (`slots_setEach`). From the last one follows what the boot map
leaves in an empty table: `slots_boot`.
-/

namespace FourRings

namespace DescriptorTable

variable {t t' : DescriptorTable} {s : Selector} {d : Descriptor} {i : Nat}

/-- The table with `d` in slot `i`, if it has such a slot. -/
def put (t : DescriptorTable) (i : Nat) (d : Descriptor) : DescriptorTable :=
  ⟨t.slots.setIfInBounds i d⟩

@[simp] theorem capacity_put : (t.put i d).capacity = t.capacity :=
  Array.size_setIfInBounds

theorem lt_capacity_of_slots (h : t.slots[i]? = some d) : i < t.capacity := by
  obtain ⟨hi, -⟩ := Array.getElem?_eq_some_iff.1 h
  exact hi

theorem slots_put_self (h : i < t.capacity) : (t.put i d).slots[i]? = some d := by
  rw [put, Array.getElem?_setIfInBounds, if_pos rfl]
  exact if_pos h

theorem slots_put_of_ne {j : Nat} (h : j ≠ i) : (t.put i d).slots[j]? = t.slots[j]? := by
  rw [put, Array.getElem?_setIfInBounds, if_neg (Ne.symm h)]

/-- A slot of the edited table holds what was written, or what it held before. -/
theorem slots_put_cases {j : Nat} {d' : Descriptor} (h : (t.put i d).slots[j]? = some d') :
    (j = i ∧ d' = d) ∨ (j ≠ i ∧ t.slots[j]? = some d') := by
  by_cases hj : j = i
  · subst hj
    have hi : j < t.capacity := by simpa using lt_capacity_of_slots h
    rw [slots_put_self hi] at h
    exact Or.inl ⟨rfl, (Option.some.inj h).symm⟩
  · rw [slots_put_of_ne hj] at h
    exact Or.inr ⟨hj, h⟩

theorem set_eq_ok_iff : t.set i d = .ok t' ↔ i < t.capacity ∧ t' = t.put i d := by
  unfold set
  split
  · rename_i h
    have hput : t.put i d = ⟨t.slots.set i d⟩ := by
      rw [put, Array.setIfInBounds, dif_pos h]
    rw [hput, Except.ok.injEq]
    exact ⟨fun e => ⟨h, e.symm⟩, fun e => e.2.symm⟩
  · rename_i h
    exact ⟨fun e => (by cases e), fun e => absurd e.1 h⟩

/-! ### Patches -/

theorem any_type_eq_iff {type : SystemType} :
    d.systemType?.any (· = type) ↔ d.systemType? = some type := by
  cases d.systemType? <;> simp

theorem patch_eq_ok_iff {expected : String} {fits : SystemType → Bool}
    {f : Descriptor → Descriptor} :
    t.patch s expected fits f = .ok t' ↔
      ∃ d, t.slots[s.index]? = some d ∧ d.systemType?.any fits ∧ t' = t.put s.index (f d) := by
  unfold patch getAt setAt
  cases hd : t.get s.index with
  | error e =>
    refine ⟨fun h => (by cases h), ?_⟩
    rintro ⟨d, h, -, -⟩
    rw [get_eq_ok_iff.2 h] at hd
    cases hd
  | ok d =>
    have hslot := get_eq_ok_iff.1 hd
    have hlt := lt_capacity_of_slots hslot
    constructor
    · intro h
      dsimp only at h
      split at h
      · rename_i hfits
        exact ⟨d, hslot, hfits, (set_eq_ok_iff.1 h).2⟩
      · cases h
    · rintro ⟨d', h, hfits, rfl⟩
      obtain rfl : d = d' := Option.some.inj (hslot.symm.trans h)
      dsimp only
      rw [if_pos hfits]
      exact set_eq_ok_iff.2 ⟨hlt, rfl⟩

/-- A patch meets a slot with another type of descriptor. -/
theorem patch_of_misfit {expected : String} {fits : SystemType → Bool}
    {f : Descriptor → Descriptor} (slot : t.slots[s.index]? = some d)
    (misfit : ¬ d.systemType?.any fits) :
    t.patch s expected fits f = .error (.typeMismatch s.index expected d.access) := by
  rw [patch, getAt, get_eq_ok_iff.2 slot]
  exact if_neg misfit

theorem patchCallGate_eq_ok_iff {handler : Word} {params : Byte} :
    t.patchCallGate s handler params = .ok t' ↔
      ∃ d, t.slots[s.index]? = some d ∧ d.systemType? = some .callGate ∧
        t' = t.put s.index (d.withGateTarget handler params) := by
  simp only [patchCallGate, patch_eq_ok_iff, any_type_eq_iff]

theorem patchTss_eq_ok_iff {base limit : Word} :
    t.patchTss s base limit = .ok t' ↔
      ∃ d, t.slots[s.index]? = some d ∧ d.systemType?.any (·.isTask) ∧
        t' = t.put s.index (d.withBaseLimit base limit) :=
  patch_eq_ok_iff

theorem patchLdt_eq_ok_iff {base limit : Word} :
    t.patchLdt s base limit = .ok t' ↔
      ∃ d, t.slots[s.index]? = some d ∧ d.systemType? = some .ldt ∧
        t' = t.put s.index (d.withBaseLimit base limit) := by
  simp only [patchLdt, patch_eq_ok_iff, any_type_eq_iff]

theorem patchTss_of_misfit {base limit : Word} (slot : t.slots[s.index]? = some d)
    (misfit : ¬ d.systemType?.any (·.isTask)) :
    t.patchTss s base limit = .error (.typeMismatch s.index "TSS" d.access) :=
  patch_of_misfit slot misfit

theorem patchLdt_of_misfit {base limit : Word} (slot : t.slots[s.index]? = some d)
    (misfit : d.systemType? ≠ some .ldt) :
    t.patchLdt s base limit = .error (.typeMismatch s.index "LDT" d.access) :=
  patch_of_misfit slot (mt any_type_eq_iff.1 misfit)

/-! ### Lists of entries -/

theorem setEach_cons {e : Nat × Descriptor} {l : List (Nat × Descriptor)}
    (h : e.1 < t.capacity) : t.setEach (e :: l) = (t.put e.1 e.2).setEach l := by
  rw [setEach, set_eq_ok_iff.2 ⟨h, rfl⟩]

@[simp] theorem capacity_setEach {l : List (Nat × Descriptor)} :
    (t.setEach l).2.capacity = t.capacity := by
  induction l generalizing t with
  | nil => rfl
  | cons e l ih =>
    rw [setEach]
    cases hset : t.set e.1 e.2 with
    | error _ => rfl
    | ok t' =>
      obtain ⟨-, rfl⟩ := set_eq_ok_iff.1 hset
      exact ih.trans capacity_put

/-- Entries that all fit are installed. -/
theorem setEach_eq_ok {l : List (Nat × Descriptor)} (h : ∀ e ∈ l, e.1 < t.capacity) :
    (t.setEach l).1 = .ok () := by
  induction l generalizing t with
  | nil => rfl
  | cons e l ih =>
    obtain ⟨he, hl⟩ := List.forall_mem_cons.1 h
    rw [setEach_cons he]
    exact ih (by simpa using hl)

/-- Every slot holds its entry of the list, and what it held before if it has none. -/
theorem slots_setEach {l : List (Nat × Descriptor)} (h : ∀ e ∈ l, e.1 < t.capacity)
    (hl : (l.map (·.1)).Nodup) (i : Nat) :
    (t.setEach l).2.slots[i]? = (l.lookup i).or t.slots[i]? := by
  induction l generalizing t with
  | nil => rfl
  | cons e l ih =>
    obtain ⟨he, hlt⟩ := List.forall_mem_cons.1 h
    obtain ⟨hne, hl⟩ := List.nodup_cons.1 hl
    rw [setEach_cons he, ih (by simpa using hlt) hl]
    by_cases hi : i = e.1
    · subst hi
      -- no later entry is for the slot that was just written
      have hnone : l.lookup e.1 = none := by
        rw [List.lookup_eq_none_iff]
        intro p hp
        have : p.1 ≠ e.1 := fun hpe => hne (List.mem_map.2 ⟨p, hp, hpe⟩)
        simpa using Ne.symm this
      rw [hnone, Option.none_or, slots_put_self he, List.lookup_cons_self, Option.some_or]
    · have hb : (i == e.1) = false := by simpa using hi
      rw [slots_put_of_ne hi, List.lookup_cons, hb]

end DescriptorTable

/-! ### The boot table -/

namespace BootMap

/-- What the boot map holds for a slot. -/
def slot? (i : Nat) : Option Descriptor :=
  (entries.map fun (s, d) => (s.index, d)).lookup i

theorem mem_entries_of_slot? {i : Nat} {d : Descriptor} (h : slot? i = some d) :
    ∃ s, s.index = i ∧ (s, d) ∈ entries := by
  obtain ⟨before, rest, heq, -⟩ := List.lookup_eq_some_iff.1 h
  have hmem : (i, d) ∈ entries.map fun (s, d) => (s.index, d) := by simp [heq]
  obtain ⟨⟨s, d'⟩, he, heq⟩ := List.mem_map.1 hmem
  obtain ⟨rfl, rfl⟩ := Prod.mk.inj heq
  exact ⟨s, rfl, he⟩

theorem index_lt_of_mem : ∀ e ∈ entries, e.1.index < 38 := by decide +kernel

theorem nodup_index : ((entries.map fun (s, d) => (s.index, d)).map (·.1)).Nodup := by
  decide +kernel

end BootMap

/-- The table that the boot map leaves in `capacity` empty slots. -/
def DescriptorTable.boot (capacity : Nat) : DescriptorTable :=
  ((DescriptorTable.replicate capacity .null).installBootMap).2

namespace DescriptorTable

variable {capacity : Nat}

theorem boot_entries_lt (h : 38 ≤ capacity) :
    ∀ e ∈ BootMap.entries.map fun (s, d) => (s.index, d),
      e.1 < (replicate capacity .null).capacity := by
  intro e he
  obtain ⟨p, hp, rfl⟩ := List.mem_map.1 he
  have hi := BootMap.index_lt_of_mem p hp
  simp only [replicate, DescriptorTable.capacity, Array.size_replicate]
  omega

/-- The boot map fits into a table of 38 slots. -/
theorem installBootMap_eq_ok (h : 38 ≤ capacity) :
    ((DescriptorTable.replicate capacity .null).installBootMap).1 = .ok () :=
  setEach_eq_ok (boot_entries_lt h)

theorem slots_boot (h : 38 ≤ capacity) (i : Nat) :
    (boot capacity).slots[i]? =
      (BootMap.slot? i).or (if i < capacity then some .null else none) := by
  rw [boot, installBootMap, slots_setEach (boot_entries_lt h) BootMap.nodup_index,
    replicate, Array.getElem?_replicate, BootMap.slot?]

theorem slots_boot_of_slot? {d : Descriptor} (h : 38 ≤ capacity) {i : Nat}
    (hd : BootMap.slot? i = some d) : (boot capacity).slots[i]? = some d := by
  rw [slots_boot h, hd, Option.some_or]

/-- A slot of the boot table is empty unless the boot map filled it. -/
theorem slot?_of_slots_boot {d : Descriptor} (h : 38 ≤ capacity) {i : Nat}
    (hd : (boot capacity).slots[i]? = some d) : BootMap.slot? i = some d ∨ d = .null := by
  rw [slots_boot h] at hd
  cases hs : BootMap.slot? i with
  | some d' =>
    rw [hs, Option.some_or] at hd
    exact Or.inl hd
  | none =>
    rw [hs, Option.none_or] at hd
    split at hd
    · exact Or.inr (Option.some.inj hd).symm
    · cases hd

end DescriptorTable

end FourRings
