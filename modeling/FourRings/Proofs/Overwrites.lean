import FourRings.Proofs.Integrity
import FourRings.Proofs.Journal

/-!
# What requests write over

A caller writes over nothing present that is more privileged than itself, with one exception: to
bind a call gate it must reach the code that the gate leads to, and the privilege of the gate is
not looked at. So a gate that leads outward can be bound by rings that are less privileged than the
gate. `accepted_overwrites` is the main statement. The boot map has no such gate, and none arises
unless an accepted request installs a descriptor in the place of a gate or of its target
(`Tables.Installed`); `libs_bind_driver_gate` is a run in which this happens.
-/

namespace FourRings

open DescriptorTable

/-! ### One request -/

/-- What a caller may write over: nothing present that is more privileged than itself. -/
def Overwritable (caller : Ring) (d : Descriptor) : Prop := d.present → caller ≤ d.dpl

instance (caller : Ring) (d : Descriptor) : Decidable (Overwritable caller d) :=
  inferInstanceAs (Decidable (_ → _))

/-- A call gate that is more privileged than `caller` and leads to code that is not. -/
structure LeadsOutward (gdt : DescriptorTable) (caller : Ring) (gate : Descriptor) : Prop where
  type : gate.systemType? = some .callGate
  dpl : gate.dpl < caller
  target : ValidTarget gdt caller gate.gateSelector

/-- Whether a request asks to install a descriptor. -/
def TableRequest.Installs : TableRequest → Prop
  | .descriptor .. => True
  | .callGate .. | .tss .. | .ldt .. => False

/-- Whether a request binds a call gate. -/
def TableRequest.BindsGate : TableRequest → Prop
  | .callGate .. => True
  | .descriptor .. | .tss .. | .ldt .. => False

variable {t : Tables} {memory : RingMemory} {caller : Ring} {q : TableRequest}
  {current new : Descriptor} {vault : Vault} {i j : Nat}

/-- **What one edit writes over.** -/
theorem Tables.Edit.overwrites (edit : t.Edit memory caller q current new vault) :
    Overwritable caller current ∨ (q.BindsGate ∧ LeadsOutward t.gdt caller current) := by
  cases edit with
  | install ok => exact Or.inl fun hpresent => (ok.overwrite hpresent).1
  | retarget type target =>
    by_cases hle : caller ≤ current.dpl
    · exact Or.inl fun _ => hle
    · exact Or.inr ⟨trivial, type, Nat.lt_of_not_le hle, target⟩
  | rebaseTss core _ =>
    rw [core]
    exact Or.inl fun _ => Nat.zero_le _
  | rebaseLdt core _ =>
    rw [core]
    exact Or.inl fun _ => Nat.zero_le _
  | adoptTss _ privilege _ _ => exact Or.inl fun _ => privilege
  | adoptLdt _ privilege _ _ => exact Or.inl fun _ => privilege

/-- **A gate that leads outward can be bound**, whatever its own privilege. -/
theorem LeadsOutward.serve_eq_ok {r : Registers} (h : LeadsOutward t.gdt caller current)
    (decode : TableRequest.decode r = .ok q) (binds : q.BindsGate) (null : q.selector.index ≠ 0)
    (slot : t.gdt.slots[q.selector.index]? = some current) :
    (t.serve memory caller r).1 = .ok () := by
  cases q with
  | callGate s handler params =>
    have edit : t.Edit memory caller (.callGate s handler params) current
        (current.withGateTarget handler params) t.vault := .retarget h.type h.target
    rw [Tables.serve_of_edit decode null slot edit]
  | descriptor _ _ => cases binds
  | tss _ _ => cases binds
  | ldt _ _ _ => cases binds

/-! ### Gates that lead inward -/

/-- A call gate in slot `i` is no more privileged than the code in slot `j`, if it leads there. -/
def Inward (i j : Nat) (gdt : DescriptorTable) : Prop :=
  ∀ gate target, gdt.slots[i]? = some gate → gate.systemType? = some .callGate →
    gate.gateSelector.index = j → gdt.slots[j]? = some target → target.isCode →
    target.dpl ≤ gate.dpl

namespace Inward

/-- Code is written by an installation. -/
theorem installs_of_isCode (edit : t.Edit memory caller q current new vault)
    (hcode : new.isCode) : q.Installs := by
  have hsystem : ∀ type, new.systemType? = some type → q.Installs := by
    intro type htype
    rw [Descriptor.isCode_eq_false_of_systemType? htype] at hcode
    cases hcode
  cases edit with
  | install _ => trivial
  | retarget type _ => exact hsystem _ (by simpa using type)
  | rebaseTss _ type =>
    obtain ⟨type, htype, -⟩ := (Option.any_eq_true _ _).1 type
    exact hsystem type (by simpa using htype)
  | rebaseLdt _ type => exact hsystem _ (by simpa using type)
  | adoptTss _ _ type _ => exact hsystem _ (by simpa using type)
  | adoptLdt _ _ type _ => exact hsystem _ (by simpa using type)

/-- A gate is written by an installation, or it leads where the gate before it led, and is as
privileged. -/
theorem gate_of_edit (edit : t.Edit memory caller q current new vault)
    (type : new.systemType? = some .callGate) :
    q.Installs ∨
      (current.systemType? = some .callGate ∧ new.gateSelector = current.gateSelector ∧
        new.dpl = current.dpl) := by
  cases edit with
  | install _ => exact Or.inl trivial
  | retarget htype _ => exact Or.inr ⟨htype, by simp, by simp⟩
  | rebaseTss _ htask =>
    simp only [Descriptor.systemType?_withBaseLimit] at type
    simp [type, SystemType.isTask] at htask
  | rebaseLdt _ htype => simp [htype] at type
  | adoptTss _ _ htype _ => simp [htype] at type
  | adoptLdt _ _ htype _ => simp [htype] at type

/-- One accepted request that installs nothing in the two slots preserves the invariant. -/
theorem put (h : Inward i j t.gdt) (slot : t.gdt.slots[q.selector.index]? = some current)
    (edit : t.Edit memory caller q current new vault) (hi : q.Installs → q.selector.index ≠ i)
    (hj : q.Installs → q.selector.index ≠ j) : Inward i j (t.gdt.put q.selector.index new) := by
  intro gate target hgate type hselector htarget hcode
  have hcurrent : t.gdt.slots[j]? = some target := by
    rcases slots_put_cases htarget with ⟨rfl, rfl⟩ | ⟨-, htarget⟩
    · exact absurd rfl (hj (installs_of_isCode edit hcode))
    · exact htarget
  rcases slots_put_cases hgate with ⟨rfl, rfl⟩ | ⟨-, hgate⟩
  · obtain ⟨htype, hsame, hdpl⟩ := (gate_of_edit edit type).resolve_left fun hq => hi hq rfl
    rw [hdpl]
    exact h current target slot htype (hsame ▸ hselector) hcurrent hcode
  · exact h gate target hgate type hselector hcurrent hcode

/-- The gates of the boot table lead inward. -/
theorem boot {capacity : Nat} (hcap : 38 ≤ capacity) (i j : Nat) :
    Inward i j (DescriptorTable.boot capacity) := by
  rintro gate target hgate type rfl htarget -
  rcases slot?_of_slots_boot hcap hgate with hslot | rfl
  · obtain ⟨target', htarget', -, hle⟩ := (BootMap.wellPlaced_of_slot? hslot).2 type
    obtain rfl := Option.some.inj ((slots_boot_of_slot? hcap htarget').symm.trans htarget)
    exact hle
  · cases type

end Inward

/-- A gate that leads inward does not lead outward. -/
theorem LeadsOutward.not_inward (h : LeadsOutward t.gdt caller current)
    (slot : t.gdt.slots[i]? = some current) : ¬ Inward i current.gateSelector.index t.gdt := by
  intro hinward
  obtain ⟨-, target, htarget, -, hcode, hle⟩ := h.target
  have hdpl := hinward current target slot h.type rfl htarget hcode
  exact absurd (Nat.le_trans hle hdpl) (Nat.not_le.2 h.dpl)

/-! ### Installations -/

/-- The event is an accepted request that installs a descriptor in slot `i`. -/
def Tables.Installs (t : Tables) (i : Nat) : Event → Prop
  | .request memory caller r => ∃ q, TableRequest.decode r = .ok q ∧ q.Installs ∧
      t.write? (.request memory caller r) = some ⟨i, caller⟩
  | .setDirectory _ | .setGdt _ | .setVault _ => False

/-- An accepted request of the run installs a descriptor in slot `i`. -/
def Tables.Installed (t : Tables) (i : Nat) : List Event → Prop
  | [] => False
  | e :: events => t.Installs i e ∨ (t.after e).Installed i events

/-- One event preserves the invariant, unless it installs a descriptor in one of the two slots. -/
theorem Inward.after_or_installs {e : Event} (h : Inward i j t.gdt) (he : e.Outside .core) :
    Inward i j (t.after e).gdt ∨ t.Installs i e ∨ t.Installs j e := by
  cases e with
  | request memory caller r =>
    have houtcome := t.serve_outcome memory caller r
    rw [Tables.after]
    generalize hserved : t.serve memory caller r = served at houtcome ⊢
    cases houtcome with
    | refused _ => exact Or.inl h
    | stray _ _ _ _ _ _ => exact Or.inl h
    | @accepted q _ _ _ decode _ slot edit =>
      have hwrite := Tables.write?_of_accepted decode (congrArg Prod.fst hserved)
      by_cases hq : q.Installs ∧ (q.selector.index = i ∨ q.selector.index = j)
      · obtain ⟨hinstalls, rfl | rfl⟩ := hq
        · exact Or.inr (Or.inl ⟨q, decode, hinstalls, hwrite⟩)
        · exact Or.inr (Or.inr ⟨q, decode, hinstalls, hwrite⟩)
      · exact Or.inl (h.put slot edit (fun hinstalls hi => hq ⟨hinstalls, Or.inl hi⟩)
          fun hinstalls hj => hq ⟨hinstalls, Or.inr hj⟩)
  | setDirectory _ => exact Or.inl h
  | setGdt _ => exact absurd he id
  | setVault _ => exact Or.inl h

/-! ### Runs -/

variable {capacity : Nat} {a : VaultAddresses} {events : List Event}

/-- So does a run. -/
theorem Inward.run_or_installed (h : Inward i j t.gdt) (he : ∀ e ∈ events, e.Outside .core) :
    Inward i j (t.run events).gdt ∨ t.Installed i events ∨ t.Installed j events := by
  induction events generalizing t with
  | nil => exact Or.inl h
  | cons e events ih =>
    obtain ⟨he, hrest⟩ := List.forall_mem_cons.1 he
    rcases h.after_or_installs he with h | hi | hj
    · exact (ih h hrest).imp_right (Or.imp Or.inr Or.inr)
    · exact Or.inr (Or.inl (Or.inl hi))
    · exact Or.inr (Or.inr (Or.inl hj))

/-- A gate that leads outward was installed by an accepted request, or its target was. -/
theorem LeadsOutward.installed (hcap : 38 ≤ capacity) (he : ∀ e ∈ events, e.Outside .core)
    (h : LeadsOutward ((Tables.boot capacity a).run events).gdt caller current)
    (slot : ((Tables.boot capacity a).run events).gdt.slots[i]? = some current) :
    (Tables.boot capacity a).Installed i events ∨
      (Tables.boot capacity a).Installed current.gateSelector.index events :=
  (Inward.run_or_installed (Inward.boot hcap i _) he).resolve_left (h.not_inward slot)

/-- **What requests write over.** After any run of requests on the boot table, an accepted request
of `caller` edits a slot that holds nothing present that is more privileged than `caller`; or it
binds a call gate that leads outward, and then an accepted request of the run installed a descriptor
in the place of the gate or of its target. Requests to bind such gates are accepted. -/
theorem accepted_overwrites (hcap : 38 ≤ capacity) (a : VaultAddresses)
    (he : ∀ e ∈ events, e.Outside .core) (memory : RingMemory) (caller : Ring) (r : Registers) :
    let start := Tables.boot capacity a
    let t := start.run events
    ((t.serve memory caller r).1 = .ok () →
      ∃ q current, TableRequest.decode r = .ok q ∧
        t.gdt.slots[q.selector.index]? = some current ∧
        (Overwritable caller current ∨
          (q.BindsGate ∧ LeadsOutward t.gdt caller current ∧
            (start.Installed q.selector.index events ∨
              start.Installed current.gateSelector.index events)))) ∧
      ∀ q gate, TableRequest.decode r = .ok q → q.BindsGate → q.selector.index ≠ 0 →
        t.gdt.slots[q.selector.index]? = some gate → LeadsOutward t.gdt caller gate →
        (t.serve memory caller r).1 = .ok () := by
  intro start t
  refine ⟨fun h => ?_, fun q gate decode binds null slot houtward =>
    houtward.serve_eq_ok decode binds null slot⟩
  have houtcome := t.serve_outcome memory caller r
  generalize t.serve memory caller r = served at h houtcome
  cases houtcome with
  | refused _ => cases h
  | stray _ _ _ _ _ _ => cases h
  | @accepted q current _ _ decode _ slot edit =>
    refine ⟨q, current, decode, slot, ?_⟩
    rcases edit.overwrites with hover | ⟨hbinds, houtward⟩
    · exact Or.inl hover
    · exact Or.inr ⟨hbinds, houtward, houtward.installed hcap he slot⟩

/-! ### A gate that leads outward -/

/-- A gate of the device drivers into the code of the shared services. -/
def driverGate : Descriptor := .gate Ring.libs.codeSelector 0x5C1000 .devs .callGate 0

/-- A run in which the device drivers install that gate. -/
def delegationRun : List Event :=
  [.request .ownedByNone .devs
    (TableRequest.encode (.descriptor (.ofGlobal 40 .devs) driverGate))]

/-- The registers with which the shared services bind it. -/
def rebinding : Registers := TableRequest.encode (.callGate (.ofGlobal 40 .libs) 0x5C2000 0)

/-- The request is accepted although the gate is more privileged than the services. So it leads
outward, and an accepted request installed it or the code that it leads to. -/
theorem accepted_overwrites_rebinding :
    let a : VaultAddresses := ⟨fun _ => 0x600, fun _ => 0x700⟩
    let t := (Tables.boot 64 a).run delegationRun
    38 ≤ 64 ∧ (∀ e ∈ delegationRun, e.Outside .core) ∧
      (t.serve .ownedByNone .libs rebinding).1 = .ok () ∧
      t.gdt.slots[40]? = some driverGate ∧ ¬ Overwritable .libs driverGate ∧
      LeadsOutward t.gdt .libs driverGate ∧
      ((Tables.boot 64 a).Installed 40 delegationRun ∨
        (Tables.boot 64 a).Installed Ring.libs.codeSelector.index delegationRun) := by
  intro a t
  have hcap : 38 ≤ 64 := by decide
  have he : ∀ e ∈ delegationRun, e.Outside .core := by decide
  have h : (t.serve .ownedByNone .libs rebinding).1 = .ok () := by decide +kernel
  have hgate : t.gdt.slots[40]? = some driverGate := by decide +kernel
  have hover : ¬ Overwritable .libs driverGate := by decide
  obtain ⟨q, current, decode, slot, hrest⟩ :=
    (accepted_overwrites hcap a he .ownedByNone .libs rebinding).1 h
  obtain rfl : q = .callGate (.ofGlobal 40 .libs) 0x5C2000 0 := by
    have hdecode : TableRequest.decode rebinding =
        .ok (.callGate (.ofGlobal 40 .libs) 0x5C2000 0) := by decide +kernel
    exact Except.ok.inj (decode.symm.trans hdecode)
  obtain rfl := Option.some.inj (slot.symm.trans hgate)
  obtain ⟨-, houtward, hinstalled⟩ := hrest.resolve_left hover
  exact ⟨hcap, he, h, hgate, hover, houtward, hinstalled⟩

/-- The shared services bind a present gate of the device drivers, who are more privileged. -/
theorem libs_bind_driver_gate :
    let t := (Tables.boot 64 ⟨fun _ => 0x600, fun _ => 0x700⟩).run delegationRun
    (∀ e ∈ delegationRun, e.Outside .devs) ∧ t.gdt.slots[40]? = some driverGate ∧
      driverGate.present ∧ ¬ Ring.libs ≤ driverGate.dpl ∧
      (t.serve .ownedByNone .libs rebinding).1 = .ok () ∧
      (t.serve .ownedByNone .libs rebinding).2.gdt.slots[40]? =
        some (driverGate.withGateTarget 0x5C2000 0) := by
  decide +kernel

end FourRings
