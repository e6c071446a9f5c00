import FourRings.Proofs.Run

/-!
# Journals

Some properties depend on who wrote a slot last, and on what was written since. `Tables.journal`
lists the slots of the global table that a run writes on request, and the rings that asked for it.
`Tables.recorded` says what one request does to the tables and to the journal, and
`Tables.journal_induction` is the induction over runs with their journals.
-/

namespace FourRings

/-- A slot of the global table that was written on request, and the ring that asked for it. -/
structure SlotWrite where
  slot : Nat
  ring : Ring
deriving DecidableEq, Repr

/-- The writes of a run, the latest first. -/
abbrev Journal := List SlotWrite

namespace Journal

/-- The last write to a slot: the ring that made it, and the writes made since. -/
def last? : Journal → Nat → Option (Ring × Journal)
  | [], _ => none
  | w :: j, i =>
    if w.slot = i then some (w.ring, [])
    else (last? j i).map fun (ring, since) => (ring, w :: since)

variable {j since : Journal} {w : SlotWrite} {i : Nat} {q : Ring}

theorem last?_cons_self (j : Journal) (i : Nat) (q : Ring) :
    last? (⟨i, q⟩ :: j) i = some (q, []) :=
  if_pos rfl

theorem last?_cons_of_ne (h : w.slot ≠ i) :
    last? (w :: j) i = (last? j i).map fun (ring, since) => (ring, w :: since) :=
  if_neg h

theorem last?_cons_eq_none (h : w.slot ≠ i) (hlast : last? j i = none) :
    last? (w :: j) i = none := by
  rw [last?_cons_of_ne h, hlast, Option.map_none]

theorem last?_cons_eq_some (h : w.slot ≠ i) (hlast : last? j i = some (q, since)) :
    last? (w :: j) i = some (q, w :: since) := by
  rw [last?_cons_of_ne h, hlast, Option.map_some]

/-- The last write to a slot that the latest write does not concern. -/
theorem of_last?_cons (h : w.slot ≠ i) (hlast : last? (w :: j) i = some (q, since)) :
    ∃ before, since = w :: before ∧ last? j i = some (q, before) := by
  rw [last?_cons_of_ne h] at hlast
  obtain ⟨⟨ring, before⟩, hbefore, heq⟩ := Option.map_eq_some_iff.1 hlast
  obtain ⟨rfl, rfl⟩ := Prod.mk.inj heq
  exact ⟨before, rfl, hbefore⟩

end Journal

namespace Tables

/-- The slot that an event writes on request. -/
def write? (t : Tables) : Event → Option SlotWrite
  | .request memory caller r =>
    match TableRequest.decode r, (t.serve memory caller r).1 with
    | .ok q, .ok () => some ⟨q.selector.index, caller⟩
    | _, _ => none
  | .setDirectory _ | .setGdt _ | .setVault _ => none

theorem write?_of_accepted {t : Tables} {memory : RingMemory} {caller : Ring} {r : Registers}
    {q : TableRequest} (decode : TableRequest.decode r = .ok q)
    (accepted : (t.serve memory caller r).1 = .ok ()) :
    t.write? (.request memory caller r) = some ⟨q.selector.index, caller⟩ := by
  rw [write?, decode, accepted]

/-- The journal of a run. -/
def journal (t : Tables) : List Event → Journal
  | [] => []
  | e :: events => (t.after e).journal events ++ (t.write? e).toList

/-- **Induction over runs with their journals.** -/
theorem journal_induction {P : Tables → Journal → Prop} {admitted : Event → Prop}
    (step : ∀ t j e, P t j → admitted e → P (t.after e) ((t.write? e).toList ++ j)) {t : Tables}
    (start : P t []) {events : List Event} (h : ∀ e ∈ events, admitted e) :
    P (t.run events) (t.journal events) := by
  -- a journal that was begun before the run is carried along
  have hbegun : ∀ (events : List Event) (t : Tables) (j : Journal), P t j →
      (∀ e ∈ events, admitted e) → P (t.run events) (t.journal events ++ j) := by
    intro events
    induction events with
    | nil => exact fun t j hstart _ => hstart
    | cons e events ih =>
      intro t j hstart h
      obtain ⟨he, hrest⟩ := List.forall_mem_cons.1 h
      rw [run_cons, journal, List.append_assoc]
      exact ih _ _ (step t j e hstart he) hrest
  simpa using hbegun events t [] start h

/-- What a request writes into the journal, and the tables after it. -/
inductive Recorded (t : Tables) (memory : RingMemory) (caller : Ring) :
    Option SlotWrite → Tables → Prop
  | refused : Recorded t memory caller none t
  | stray {q : TableRequest} {current : Descriptor} {copy : Word} {vault : Vault}
      (slot : t.gdt.slots[q.selector.index]? = some current)
      (deposit : Deposit t memory caller q copy vault) (misfit : ¬ q.Suits current) :
      Recorded t memory caller none { t with vault }
  | written {q : TableRequest} {current new : Descriptor} {vault : Vault}
      (slot : t.gdt.slots[q.selector.index]? = some current)
      (edit : Edit t memory caller q current new vault) :
      Recorded t memory caller (some ⟨q.selector.index, caller⟩)
        ⟨t.gdt.put q.selector.index new, vault⟩

/-- **Accepted requests are recorded, and no others.** -/
theorem recorded (t : Tables) (memory : RingMemory) (caller : Ring) (r : Registers) :
    t.Recorded memory caller (t.write? (.request memory caller r))
      (t.after (.request memory caller r)) := by
  have h := serve_outcome t memory caller r
  rw [write?, after]
  generalize t.serve memory caller r = served at h
  cases h with
  | refused e =>
    cases TableRequest.decode r <;> exact .refused
  | stray e decode slot outer deposit misfit =>
    rw [decode]
    exact .stray slot deposit misfit
  | accepted decode null slot edit =>
    rw [decode]
    exact .written slot edit

end Tables

end FourRings
