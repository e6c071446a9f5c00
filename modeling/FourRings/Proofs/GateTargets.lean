import FourRings.Proofs.Integrity
import FourRings.Proofs.Journal

/-!
# Where gates lead

A gate is checked when it is written: it leads to code that is no more privileged than the ring that
asks. Its target is a slot like any other and can be written again, and the gate is not looked at
then. `gate_targets` is the main statement: as long as nobody writes the target, the gate leads no
further inward than the ring that wrote it; and a ring that does write the target only lets the gate
lead to itself or outwards. `gates_lead_inward` is a run in which this happens.
-/

namespace FourRings

open DescriptorTable

/-- A gate that ring `q` was the last to write leads to code that is no more privileged than `q`, or
than a more privileged ring that has written the target since. -/
structure GateAnswered (gdt : DescriptorTable) (q : Ring) (since : Journal) (gate : Descriptor) :
    Prop where
  global : gate.gateSelector.isLocal = false
  target (d : Descriptor) : gdt.slots[gate.gateSelector.index]? = some d → d.isCode →
    q ≤ d.dpl ∨ ∃ p later, since.last? gate.gateSelector.index = some (p, later) ∧
      p < q ∧ p ≤ d.dpl

namespace GateAnswered

variable {t : Tables} {memory : RingMemory} {caller q : Ring} {r : TableRequest}
  {current new gate : Descriptor} {vault : Vault} {since : Journal}

/-- A gate that was just written leads to code no more privileged than the caller. -/
theorem of_edit (edit : t.Edit memory caller r current new vault)
    (type : new.systemType? = some .callGate) :
    GateAnswered (t.gdt.put r.selector.index new) caller [] new := by
  obtain ⟨hglobal, target, htarget, -, -, hle⟩ := Guarded.validTarget_of_edit edit type
  refine ⟨hglobal, fun d hd hcode => Or.inl ?_⟩
  rcases slots_put_cases hd with ⟨-, rfl⟩ | ⟨-, hd⟩
  · rw [Descriptor.isCode_eq_false_of_systemType? type] at hcode
    cases hcode
  · obtain rfl : target = d := Option.some.inj (htarget.symm.trans hd)
    exact hle

/-- Code that was just written is no more privileged than the caller. -/
theorem le_dpl_of_edit (edit : t.Edit memory caller r current new vault) (hcode : new.isCode) :
    caller ≤ new.dpl :=
  (edit.mayInstall (Descriptor.isSegment_of_isCode hcode)).1.dpl

/-- What holds of a gate holds of it after a write elsewhere, be it to the target of the gate. -/
theorem put (h : GateAnswered t.gdt q since gate)
    (slot : t.gdt.slots[r.selector.index]? = some current)
    (edit : t.Edit memory caller r current new vault) :
    GateAnswered (t.gdt.put r.selector.index new) q (⟨r.selector.index, caller⟩ :: since) gate := by
  refine ⟨h.global, fun d hd hcode => ?_⟩
  by_cases htarget : r.selector.index = gate.gateSelector.index
  · -- the target is written now, and the caller answers for it if it is more privileged than `q`
    rw [← htarget, slots_put_self (lt_capacity_of_slots slot)] at hd
    obtain rfl := Option.some.inj hd
    have hle := le_dpl_of_edit edit hcode
    rcases Nat.lt_or_ge caller.level q.level with hlt | hge
    · refine Or.inr ⟨caller, [], ?_, hlt, hle⟩
      rw [← htarget]
      exact Journal.last?_cons_self since _ caller
    · exact Or.inl (Nat.le_trans hge hle)
  · rw [slots_put_of_ne (Ne.symm htarget)] at hd
    rcases h.target d hd hcode with hq | ⟨p, later, hp, hpq, hple⟩
    · exact Or.inl hq
    · exact Or.inr ⟨p, _, Journal.last?_cons_eq_some htarget hp, hpq, hple⟩

end GateAnswered

/-- The rings of the journal answer for each call gate that they were the last to write. -/
def GatesAnswered (gdt : DescriptorTable) (j : Journal) : Prop :=
  ∀ (i : Nat) (q : Ring) (since : Journal) (gate : Descriptor), j.last? i = some (q, since) →
    gdt.slots[i]? = some gate → gate.systemType? = some .callGate →
    GateAnswered gdt q since gate

namespace GatesAnswered

variable {t t' : Tables} {j : Journal} {memory : RingMemory} {caller : Ring} {w : Option SlotWrite}

/-- **One request preserves the invariant.** -/
theorem recorded (h : GatesAnswered t.gdt j) (hrec : t.Recorded memory caller w t') :
    GatesAnswered t'.gdt (w.toList ++ j) := by
  cases hrec with
  | refused => exact h
  | stray => exact h
  | @written r _ new _ slot edit =>
    intro i q since gate hlast hgate type
    by_cases hi : r.selector.index = i
    · subst hi
      obtain ⟨rfl, rfl⟩ := Prod.mk.inj
        (Option.some.inj ((Journal.last?_cons_self j _ caller).symm.trans hlast))
      rw [slots_put_self (lt_capacity_of_slots slot)] at hgate
      obtain rfl := Option.some.inj hgate
      exact .of_edit edit type
    · obtain ⟨before, rfl, hbefore⟩ := Journal.of_last?_cons hi hlast
      rw [slots_put_of_ne (Ne.symm hi)] at hgate
      exact (h i q before gate hbefore hgate type).put slot edit

/-- One event that does not write the global table from elsewhere preserves the invariant. -/
theorem after {e : Event} (h : GatesAnswered t.gdt j) (he : e.Outside .core) :
    GatesAnswered (t.after e).gdt ((t.write? e).toList ++ j) := by
  cases e with
  | request memory caller r => exact h.recorded (t.recorded memory caller r)
  | setDirectory directory => exact h
  | setGdt gdt => exact absurd he id
  | setVault vault => exact h

end GatesAnswered

/-- **A gate leads no further inward than the rings that wrote it and its target.** After any run of
requests, a call gate that ring `q` was the last to write selects a slot of the global table, and if
that slot holds code, the code is no more privileged than `q`, unless a more privileged ring `p` was
the last to write the slot since, and then no more than `p`. -/
theorem gate_targets (t : Tables) {events : List Event} (he : ∀ e ∈ events, e.Outside .core) :
    GatesAnswered (t.run events).gdt (t.journal events) := by
  have hstart : GatesAnswered t.gdt [] := fun _ _ _ _ hlast => nomatch hlast
  exact Tables.journal_induction (P := fun t j => GatesAnswered t.gdt j)
    (fun _ _ _ h he => h.after he) hstart he

/-! ### A target that is replaced -/

/-- A run in which the users install code of their own and a gate into it, and then the device
drivers replace the code by theirs. -/
def replacementRun : List Event :=
  [.request .ownedByNone .users (TableRequest.encode
      (.descriptor (.ofGlobal 40 .users) (BootMap.flat .users .codeKind .users))),
    .request .ownedByNone .users (TableRequest.encode
      (.descriptor (.ofGlobal 41 .users)
        (.gate (.ofGlobal 40 .users) 0x5A1000 .users .callGate 0))),
    .request .ownedByNone .devs (TableRequest.encode
      (.descriptor (.ofGlobal 40 .devs) (BootMap.flat .devs .codeKind .devs)))]

theorem gate_targets_replacementRun :
    (∀ e ∈ replacementRun, e.Outside .core) ∧
      GatesAnswered (Tables.booted.run replacementRun).gdt
        (Tables.booted.journal replacementRun) :=
  ⟨by decide, gate_targets Tables.booted (by decide)⟩

/-- The gate that the users wrote leads to code of the device drivers, which are more privileged. -/
theorem gates_lead_inward :
    let t := Tables.booted.run replacementRun
    (∀ e ∈ replacementRun, e.Outside .devs) ∧
      (Tables.booted.journal replacementRun).last? 41 = some (.users, [⟨40, .devs⟩]) ∧
      ∃ gate target, t.gdt.slots[41]? = some gate ∧ gate.present ∧
        gate.systemType? = some .callGate ∧
        t.gdt.slots[gate.gateSelector.index]? = some target ∧ target.present ∧ target.isCode ∧
        ¬ Ring.users ≤ target.dpl := by
  intro t
  refine ⟨by decide, by decide +kernel, .gate (.ofGlobal 40 .users) 0x5A1000 .users .callGate 0,
    BootMap.flat .devs .codeKind .devs, ?_⟩
  have hgate : t.gdt.slots[41]? =
      some (.gate (.ofGlobal 40 .users) 0x5A1000 .users .callGate 0) := by decide +kernel
  have htarget : t.gdt.slots[40]? = some (BootMap.flat .devs .codeKind .devs) := by
    decide +kernel
  refine ⟨hgate, by decide, by decide, ?_, by decide, by decide, by decide⟩
  rw [Descriptor.gateSelector_gate]
  exact htarget

end FourRings
