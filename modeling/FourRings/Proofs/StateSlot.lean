import FourRings.Gate.Vault
import FourRings.Proofs.Slots

/-!
# Slots for state

Outer rings hand state over for nine slots of the global table: two tasks and a local table each.
`StateSlot` puts the two kinds under one roof. The slots are told apart by their index
(`eq_of_index`), and the boot map holds a placeholder of the right type and privilege for each
(`slot?_index`).
-/

namespace FourRings

/-- A slot of the global table whose state the vault keeps a copy of. -/
inductive StateSlot where
  | task (slot : TaskSlot)
  | ldt (slot : LdtSlot)
deriving DecidableEq, Repr

namespace StateSlot

def selector : StateSlot → Selector
  | .task slot => slot.selector
  | .ldt slot => slot.selector

def index (k : StateSlot) : Nat := k.selector.index

/-- The ring whose state the slot is for. -/
def owner : StateSlot → Ring
  | .task slot => slot.owner
  | .ldt slot => slot.owner

/-- The address of the copy. -/
def address (k : StateSlot) (a : VaultAddresses) : Word :=
  match k with
  | .task slot => a.tss slot
  | .ldt slot => a.ldt slot

/-- The copy. -/
def copy (k : StateSlot) (s : Vault) : Tss ⊕ Ldt :=
  match k with
  | .task slot => .inl (s.tss slot)
  | .ldt slot => .inr (s.ldt slot)

theorem copy_setTss {s : Vault} {slot : TaskSlot} {t : Tss} {k : StateSlot} (h : k ≠ .task slot) :
    k.copy (s.setTss slot t) = k.copy s := by
  cases k with
  | task slot' =>
    have hslot : slot' ≠ slot := fun heq => h (by rw [heq])
    simp [copy, hslot]
  | ldt slot' => rfl

theorem copy_setLdt {s : Vault} {slot : LdtSlot} {l : Ldt} {k : StateSlot} (h : k ≠ .ldt slot) :
    k.copy (s.setLdt slot l) = k.copy s := by
  cases k with
  | task slot' => rfl
  | ldt slot' =>
    have hslot : slot' ≠ slot := fun heq => h (by rw [heq])
    simp [copy, hslot]

/-- The limits that a descriptor of a copy can have: all of the task state, or one entry of the
local table or both. -/
def IsLimit (k : StateSlot) (limit : BitVec 20) : Prop :=
  match k with
  | .task _ => limit = 103
  | .ldt _ => limit = 7 ∨ limit = 15

/-- The type of the slot's descriptor while the task does not run. -/
def type : StateSlot → SystemType
  | .task _ => .tssAvailable
  | .ldt _ => .ldt

/-- What the boot map holds for the slot. -/
def placeholder (k : StateSlot) : Descriptor := BootMap.placeholder k.type 0 k.owner

/-- The slot that a selector names. -/
def ofSelector? (s : Selector) : Option StateSlot :=
  ((TaskSlot.ofSelector? s).map .task).or ((LdtSlot.ofSelector? s).map .ldt)

theorem index_of_taskSlot {s : Selector} {slot : TaskSlot}
    (h : TaskSlot.ofSelector? s = some slot) : (task slot).index = s.index := by
  simpa [index, selector] using List.find?_some h

theorem index_of_ldtSlot {s : Selector} {slot : LdtSlot}
    (h : LdtSlot.ofSelector? s = some slot) : (ldt slot).index = s.index := by
  simpa [index, selector] using List.find?_some h

theorem index_of_ofSelector? {s : Selector} {k : StateSlot} (h : ofSelector? s = some k) :
    k.index = s.index := by
  rcases Option.or_eq_some_iff.1 h with h | ⟨-, h⟩
  · obtain ⟨slot, hslot, rfl⟩ := Option.map_eq_some_iff.1 h
    exact index_of_taskSlot hslot
  · obtain ⟨slot, hslot, rfl⟩ := Option.map_eq_some_iff.1 h
    exact index_of_ldtSlot hslot

theorem ofSelector?_selector (k : StateSlot) : ofSelector? k.selector = some k := by
  rcases k with slot | slot <;> cases slot <;> rfl

/-- No two of the slots are the same slot of the table. -/
theorem eq_of_index {k k' : StateSlot} (h : k.index = k'.index) : k = k' := by
  have hsame : ofSelector? k.selector = ofSelector? k'.selector := by
    rw [index, index] at h
    simp only [ofSelector?, TaskSlot.ofSelector?, LdtSlot.ofSelector?, h]
  rw [ofSelector?_selector, ofSelector?_selector] at hsame
  exact Option.some.inj hsame

theorem slot?_index (k : StateSlot) : BootMap.slot? k.index = some k.placeholder := by
  rcases k with slot | slot <;> cases slot <;> decide +kernel

theorem placeholder_present (k : StateSlot) : k.placeholder.present := by
  rcases k with slot | slot <;> cases slot <;> decide

theorem placeholder_type (k : StateSlot) : k.placeholder.systemType? = some k.type := by
  rcases k with slot | slot <;> cases slot <;> decide

theorem placeholder_dpl (k : StateSlot) : k.placeholder.dpl = k.owner := by
  rcases k with slot | slot <;> cases slot <;> decide

theorem type_ne_callGate (k : StateSlot) : k.type ≠ .callGate := by
  cases k <;> exact SystemType.noConfusion

theorem index_ne_zero (k : StateSlot) : k.index ≠ 0 := by
  rcases k with slot | slot <;> cases slot <;> decide

end StateSlot

end FourRings
