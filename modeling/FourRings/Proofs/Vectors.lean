import FourRings.Interrupt.Table
import FourRings.Proofs.Admission
import FourRings.Proofs.Fields

/-!
# Bound vectors

Rings bind the vectors past the exceptions on request. `vectors_bound_as_asked` is the main
statement: whatever is requested of a new table, the exceptions keep their gates, and every other
vector holds the gate of the last accepted request that names it, or the default gate. All gates
have one form, and none is more privileged than the ring that asked for it.

A request is refused and leaves the table, or one gate is put (`serve_outcome`). Each vector is then
followed through a run with the list of the bindings made so far.
-/

namespace FourRings

open DescriptorTable

/-! ### Interrupt gates -/

/-- A present interrupt gate without parameters, into the code of its own privilege. -/
structure Descriptor.IsInterruptGate (d : Descriptor) : Prop where
  present : d.present
  type : d.systemType? = some .interruptGate
  params : d.params = 0
  selector : d.gateSelector = d.dpl.codeSelector

theorem access_interruptGate (handler : Word) (r : Ring) :
    (interruptGate handler r).access = .ofSystem .interruptGate r :=
  Descriptor.access_gate ..

@[simp] theorem dpl_interruptGate (handler : Word) (r : Ring) :
    (interruptGate handler r).dpl = r := by
  rw [Descriptor.dpl, access_interruptGate]
  cases r <;> rfl

theorem isInterruptGate_interruptGate (handler : Word) (r : Ring) :
    (interruptGate handler r).IsInterruptGate where
  present := by
    rw [Descriptor.present, access_interruptGate]
    cases r <;> rfl
  type := by
    rw [Descriptor.systemType?, access_interruptGate]
    cases r <;> rfl
  params := Descriptor.params_packGate ..
  selector := by
    rw [dpl_interruptGate]
    exact Descriptor.gateSelector_gate ..

/-! ### One request -/

namespace InterruptRequest

/-- A request that `caller` may make of a table of `capacity` vectors. -/
structure Allowed (q : InterruptRequest) (caller : Ring) (capacity : Nat) : Prop where
  vector : exceptionCount ≤ q.vector.toNat
  privilege : caller ≤ q.dpl
  slot : q.vector.toNat < capacity

theorem permit_eq_ok_iff {caller : Ring} {q : InterruptRequest} :
    q.permit caller = .ok () ↔ exceptionCount ≤ q.vector.toNat ∧ caller ≤ q.dpl := by
  rw [permit, seq_eq_ok_iff, ensure_eq_ok_iff, requirePrivilege_eq_ok_iff]

end InterruptRequest

namespace InterruptTable

variable {t t' : InterruptTable} {caller : Ring} {r : Registers} {q : InterruptRequest}

theorem bind_eq_ok_iff {v : Nat} {handler : Word} {dpl : Ring} :
    t.bind v handler dpl = .ok t' ↔
      v < t.capacity ∧ t' = ⟨t.table.put v (interruptGate handler dpl)⟩ := by
  unfold bind
  cases hset : t.table.set v (interruptGate handler dpl) with
  | error e =>
    refine ⟨nofun, fun ⟨hv, _⟩ => ?_⟩
    cases hset.symm.trans (set_eq_ok_iff.2 ⟨hv, rfl⟩)
  | ok table =>
    obtain ⟨hv, rfl⟩ := set_eq_ok_iff.1 hset
    exact ⟨fun h => ⟨hv, (Except.ok.inj h).symm⟩, fun h => by rw [h.2]⟩

/-- What can become of a request. -/
inductive Outcome (t : InterruptTable) (caller : Ring) (r : Registers) :
    Except Refusal Unit × InterruptTable → Prop
  | refused (e : Refusal)
      (forbidden : ∀ q, InterruptRequest.decode r = .ok q → ¬ q.Allowed caller t.capacity) :
      Outcome t caller r (.error e, t)
  | bound {q : InterruptRequest} (decode : InterruptRequest.decode r = .ok q)
      (allowed : q.Allowed caller t.capacity) :
      Outcome t caller r (.ok (), ⟨t.table.put q.vector.toNat (interruptGate q.handler q.dpl)⟩)

/-- **A request is refused and leaves the table, or it is allowed and binds its vector.** -/
theorem serve_outcome (t : InterruptTable) (caller : Ring) (r : Registers) :
    Outcome t caller r (t.serve caller r) := by
  unfold serve
  cases hq : InterruptRequest.decode r with
  | error e => exact .refused e fun q h => by cases hq.symm.trans h
  | ok q =>
    have hforbidden (h : ¬ q.Allowed caller t.capacity) :
        ∀ q', InterruptRequest.decode r = .ok q' → ¬ q'.Allowed caller t.capacity := by
      intro q' hq'
      obtain rfl := Except.ok.inj (hq.symm.trans hq')
      exact h
    dsimp only
    cases hp : q.permit caller with
    | error e =>
      refine .refused e (hforbidden fun h => ?_)
      cases hp.symm.trans (InterruptRequest.permit_eq_ok_iff.2 ⟨h.vector, h.privilege⟩)
    | ok u =>
      obtain ⟨hvector, hprivilege⟩ := InterruptRequest.permit_eq_ok_iff.1 hp
      dsimp only
      cases hb : t.bind q.vector.toNat q.handler q.dpl with
      | error e =>
        refine .refused _ (hforbidden fun h => ?_)
        cases hb.symm.trans (bind_eq_ok_iff.2 ⟨h.slot, rfl⟩)
      | ok t' =>
        obtain ⟨hslot, rfl⟩ := bind_eq_ok_iff.1 hb
        exact .bound hq ⟨hvector, hprivilege, hslot⟩

theorem serve_of_allowed (decode : InterruptRequest.decode r = .ok q)
    (allowed : q.Allowed caller t.capacity) :
    t.serve caller r =
      (.ok (), ⟨t.table.put q.vector.toNat (interruptGate q.handler q.dpl)⟩) := by
  have h := serve_outcome t caller r
  generalize t.serve caller r = served at h ⊢
  cases h with
  | refused e forbidden => exact absurd allowed (forbidden q decode)
  | @bound q' decode' _ =>
    obtain rfl := Except.ok.inj (decode.symm.trans decode')
    rfl

theorem serve_eq_ok_iff :
    (t.serve caller r).1 = .ok () ↔
      ∃ q, InterruptRequest.decode r = .ok q ∧ q.Allowed caller t.capacity := by
  constructor
  · intro h
    have houtcome := serve_outcome t caller r
    generalize t.serve caller r = served at houtcome h
    cases houtcome with
    | refused e _ => cases h
    | bound decode allowed => exact ⟨_, decode, allowed⟩
  · rintro ⟨q, decode, allowed⟩
    rw [serve_of_allowed decode allowed]

/-- A refused request leaves the table. -/
theorem serve_of_error {e : Refusal} (h : (t.serve caller r).1 = .error e) :
    (t.serve caller r).2 = t := by
  have houtcome := serve_outcome t caller r
  generalize t.serve caller r = served at houtcome h ⊢
  cases houtcome with
  | refused e' _ => rfl
  | bound decode allowed => cases h

end InterruptTable

/-! ### Runs -/

/-- A request to bind a vector, and the ring that makes it. -/
structure VectorCall where
  caller : Ring
  registers : Registers

/-- A request that was accepted, and the ring that made it. -/
structure Binding where
  ring : Ring
  request : InterruptRequest
deriving DecidableEq, Repr

/-- The gate that was asked for. -/
def Binding.gate (b : Binding) : Descriptor := interruptGate b.request.handler b.request.dpl

/-- The first of some bindings that names a vector. In a list that begins with the latest binding,
this is the last one that was made. -/
def Binding.first? (l : List Binding) (v : Nat) : Option Binding :=
  l.find? (·.request.vector.toNat = v)

theorem Binding.first?_cons_self (b : Binding) (l : List Binding) :
    first? (b :: l) b.request.vector.toNat = some b :=
  List.find?_cons_of_pos (by simp)

theorem Binding.first?_cons_of_ne {b : Binding} {v : Nat} (h : v ≠ b.request.vector.toNat)
    (l : List Binding) : first? (b :: l) v = first? l v :=
  List.find?_cons_of_neg (by simpa using Ne.symm h)

namespace InterruptTable

/-- The table after a request. -/
def after (t : InterruptTable) (c : VectorCall) : InterruptTable :=
  (t.serve c.caller c.registers).2

/-- The table after a sequence of requests. -/
def run (t : InterruptTable) (calls : List VectorCall) : InterruptTable := calls.foldl after t

/-- The binding that a request makes, if it is accepted. -/
def binding? (t : InterruptTable) (c : VectorCall) : Option Binding :=
  match InterruptRequest.decode c.registers, (t.serve c.caller c.registers).1 with
  | .ok q, .ok () => some ⟨c.caller, q⟩
  | _, _ => none

/-- The bindings that a sequence of requests makes, the latest first. -/
def bindings (t : InterruptTable) : List VectorCall → List Binding
  | [] => []
  | c :: calls => (t.after c).bindings calls ++ (t.binding? c).toList

/-- A table in which every vector is bound as it was asked for: the exceptions to `handlers`, and
the others as the bindings say, or else to `default`. -/
structure BoundAsAsked (capacity : Nat) (default : Word) (handlers : Nat → Word)
    (l : List Binding) (t : InterruptTable) : Prop where
  capacity_eq : t.capacity = capacity
  exception (v : Nat) : v < exceptionCount →
    t.table.slots[v]? = some (interruptGate (handlers v) .core)
  unbound (v : Nat) : exceptionCount ≤ v → v < capacity → Binding.first? l v = none →
    t.table.slots[v]? = some (interruptGate default .core)
  bound (v : Nat) (b : Binding) : Binding.first? l v = some b →
    t.table.slots[v]? = some b.gate ∧ b.ring ≤ b.gate.dpl

namespace BoundAsAsked

variable {capacity : Nat} {default : Word} {handlers : Nat → Word} {l : List Binding}
  {t : InterruptTable}

/-- An allowed request binds its vector and leaves the others. -/
theorem put (h : BoundAsAsked capacity default handlers l t) {q : InterruptRequest}
    {caller : Ring} (allowed : q.Allowed caller t.capacity) :
    BoundAsAsked capacity default handlers (⟨caller, q⟩ :: l)
      ⟨t.table.put q.vector.toNat (interruptGate q.handler q.dpl)⟩ where
  capacity_eq := capacity_put.trans h.capacity_eq
  exception v hv := by
    have hne : v ≠ q.vector.toNat := Nat.ne_of_lt (Nat.lt_of_lt_of_le hv allowed.vector)
    rw [slots_put_of_ne hne]
    exact h.exception v hv
  unbound v hv hcap hnone := by
    have hne : v ≠ q.vector.toNat := by
      rintro rfl
      cases hnone.symm.trans (Binding.first?_cons_self ⟨caller, q⟩ l)
    rw [Binding.first?_cons_of_ne hne] at hnone
    rw [slots_put_of_ne hne]
    exact h.unbound v hv hcap hnone
  bound v b hsome := by
    by_cases hv : v = q.vector.toNat
    · subst hv
      obtain rfl := Option.some.inj ((Binding.first?_cons_self ⟨caller, q⟩ l).symm.trans hsome)
      refine ⟨slots_put_self allowed.slot, ?_⟩
      rw [Binding.gate, dpl_interruptGate]
      exact allowed.privilege
    · rw [Binding.first?_cons_of_ne hv] at hsome
      rw [slots_put_of_ne hv]
      exact h.bound v b hsome

/-- **One request keeps every vector bound as asked.** -/
theorem after (h : BoundAsAsked capacity default handlers l t) (c : VectorCall) :
    BoundAsAsked capacity default handlers ((t.binding? c).toList ++ l) (t.after c) := by
  have houtcome := serve_outcome t c.caller c.registers
  rw [binding?, InterruptTable.after]
  generalize t.serve c.caller c.registers = served at houtcome ⊢
  cases houtcome with
  | refused e _ =>
    cases InterruptRequest.decode c.registers <;> exact h
  | bound decode allowed =>
    rw [decode]
    exact h.put allowed

/-- So does a sequence of requests. -/
theorem run (h : BoundAsAsked capacity default handlers l t) (calls : List VectorCall) :
    BoundAsAsked capacity default handlers (t.bindings calls ++ l) (t.run calls) := by
  induction calls generalizing t l with
  | nil => exact h
  | cons c calls ih =>
    rw [bindings, List.append_assoc]
    exact ih (h.after c)

end BoundAsAsked

/-! ### A new table -/

/-- The entries of a function by their argument. -/
theorem lookup_graph {α : Type} (l : List Nat) (f : Nat → α) (v : Nat) :
    (l.map fun i => (i, f i)).lookup v = if v ∈ l then some (f v) else none := by
  induction l with
  | nil => rfl
  | cons i l ih =>
    rw [List.map_cons, List.lookup_cons, ih]
    by_cases hv : v = i
    · simp [hv]
    · simp [hv, beq_eq_false_iff_ne.2 hv]

variable {t : InterruptTable} {default : Word} {handlers : Nat → Word}

theorem capacity_bindAll (t : InterruptTable) (handler : Word) :
    (t.bindAll handler).capacity = t.capacity :=
  Array.size_replicate

theorem slots_bindAll {v : Nat} (hv : v < t.capacity) (handler : Word) :
    (t.bindAll handler).table.slots[v]? = some (interruptGate handler .core) := by
  have hslots : (t.bindAll handler).table.slots =
      Array.replicate t.capacity (interruptGate handler .core) := rfl
  rw [hslots, Array.getElem?_replicate, if_pos hv]

/-- The exceptions are bound in a table that has room for them. -/
theorem bindExceptions_eq_ok (h : exceptionCount ≤ t.capacity) (handlers : Nat → Word) :
    (t.bindExceptions handlers).1 = .ok () ∧
      (t.bindExceptions handlers).2.capacity = t.capacity ∧
      ∀ v, (t.bindExceptions handlers).2.table.slots[v]? =
        if v < exceptionCount then some (interruptGate (handlers v) .core)
        else t.table.slots[v]? := by
  have hfit : ∀ e ∈ (List.range exceptionCount).map
      fun i => (i, interruptGate (handlers i) .core), e.1 < t.table.capacity := by
    intro e he
    obtain ⟨i, hi, rfl⟩ := List.mem_map.1 he
    exact Nat.lt_of_lt_of_le (List.mem_range.1 hi) h
  have hnodup : (((List.range exceptionCount).map
      fun i => (i, interruptGate (handlers i) .core)).map (·.1)).Nodup := by
    rw [List.map_map]
    change ((List.range exceptionCount).map id).Nodup
    rw [List.map_id]
    exact List.nodup_range
  have hcapacity : (t.bindExceptions handlers).2.capacity = t.capacity := by
    rw [bindExceptions, InterruptTable.capacity]
    exact capacity_setEach
  refine ⟨setEach_eq_ok hfit, hcapacity, fun v => ?_⟩
  rw [bindExceptions]
  dsimp only
  rw [slots_setEach hfit hnodup, lookup_graph]
  simp only [List.mem_range]
  split
  · rw [Option.some_or]
  · rw [Option.none_or]

/-- Before any request, every vector is bound as asked. -/
theorem BoundAsAsked.start (h : exceptionCount ≤ t.capacity) :
    BoundAsAsked t.capacity default handlers []
      ((t.bindAll default).bindExceptions handlers).2 := by
  have hcap : exceptionCount ≤ (t.bindAll default).capacity := by rwa [capacity_bindAll]
  obtain ⟨-, hcapacity, hslots⟩ := bindExceptions_eq_ok hcap handlers
  refine ⟨hcapacity.trans (capacity_bindAll t default), fun v hv => ?_, fun v hv hlt _ => ?_, nofun⟩
  · rw [hslots, if_pos hv]
  · rw [hslots, if_neg (Nat.not_lt.2 hv)]
    exact slots_bindAll hlt default

end InterruptTable

end FourRings
