import FourRings.Proofs.Fields
import FourRings.Proofs.Slots

/-!
# Runs of patches

The three patches change addresses and nothing else. `patches_keep_type` is the main statement: on
every table a patch is accepted exactly if the type of its slot is right, and it leaves what decides
on privilege and type. So patches never get in each other's way. However many of them follow one
another, each is accepted as on the first table, and a slot holds what the last patch that was
accepted for it would have made of its first descriptor.
-/

namespace FourRings

/-- A call of one of the three patches. -/
inductive PatchCall where
  | callGate (s : Selector) (handler : Word) (params : Byte)
  | tss (s : Selector) (base limit : Word)
  | ldt (s : Selector) (base limit : Word)
deriving DecidableEq, Repr

namespace PatchCall

def selector : PatchCall → Selector
  | .callGate s _ _ | .tss s _ _ | .ldt s _ _ => s

/-- The number of the slot that the call is for. -/
def slot (p : PatchCall) : Nat := p.selector.index

/-- Whether a descriptor has the type that the call is for. -/
def Suits (p : PatchCall) (d : Descriptor) : Prop :=
  match p with
  | .callGate .. => d.systemType? = some .callGate
  | .tss .. => d.systemType? = some .tssAvailable ∨ d.systemType? = some .tssBusy
  | .ldt .. => d.systemType? = some .ldt

/-- What the call makes of the descriptor in its slot. -/
def rewrite : PatchCall → Descriptor → Descriptor
  | .callGate _ handler params, d => d.withGateTarget handler params
  | .tss _ base limit, d | .ldt _ base limit, d => d.withBaseLimit base limit

/-- What is read of the descriptor `d'` that the call made of `d`. -/
def Describes (p : PatchCall) (d d' : Descriptor) : Prop :=
  d'.access = d.access ∧
    match p with
    | .callGate _ handler params =>
      d'.gateSelector = d.gateSelector ∧ d'.gateOffset = handler ∧
        d'.params.toNat = params.toNat % 32
    | .tss _ base limit | .ldt _ base limit =>
      d'.flags = d.flags ∧ d'.base = base ∧ d'.limit.toNat = limit.toNat % 0x100000

end PatchCall

namespace DescriptorTable

def perform (t : DescriptorTable) : PatchCall → Except TableError DescriptorTable
  | .callGate s handler params => t.patchCallGate s handler params
  | .tss s base limit => t.patchTss s base limit
  | .ldt s base limit => t.patchLdt s base limit

def Accepts (t : DescriptorTable) (p : PatchCall) : Prop := ∃ t', t.perform p = .ok t'

/-- The table after a call. -/
def after (t : DescriptorTable) (p : PatchCall) : DescriptorTable :=
  (t.perform p).toOption.getD t

/-- The table after a sequence of calls. -/
def run (t : DescriptorTable) (l : List PatchCall) : DescriptorTable := l.foldl after t

end DescriptorTable

/-! ### One patch on the other -/

namespace Descriptor

/-- The last base and limit count. -/
theorem withBaseLimit_withBaseLimit (d : Descriptor) (base limit base' limit' : Word) :
    (d.withBaseLimit base limit).withBaseLimit base' limit' = d.withBaseLimit base' limit' := by
  rw [withBaseLimit, access_withBaseLimit, flags_withBaseLimit, ← withBaseLimit]

/-- The last target counts. -/
theorem withGateTarget_withGateTarget (d : Descriptor) (offset offset' : Word)
    (params params' : Byte) :
    (d.withGateTarget offset params).withGateTarget offset' params' =
      d.withGateTarget offset' params' := by
  rw [withGateTarget, access_withGateTarget, gateSelector_withGateTarget, ← withGateTarget]

end Descriptor

namespace PatchCall

open Descriptor

variable {p q : PatchCall} {d d' : Descriptor}

theorem any_isTask_iff {type : Option SystemType} :
    type.any (·.isTask) ↔ type = some .tssAvailable ∨ type = some .tssBusy := by
  rcases type with _ | type
  · simp
  · cases type <;> simp [SystemType.isTask]

@[simp] theorem access_rewrite : (p.rewrite d).access = d.access := by
  cases p with
  | callGate _ _ _ => exact access_withGateTarget ..
  | tss _ _ _ => exact access_withBaseLimit ..
  | ldt _ _ _ => exact access_withBaseLimit ..

theorem Suits.congr (h : d'.access = d.access) : p.Suits d' ↔ p.Suits d := by
  have htype : d'.systemType? = d.systemType? := by rw [systemType?, h, systemType?]
  cases p <;> simp only [Suits, htype]

theorem describes_rewrite (p : PatchCall) (d : Descriptor) : p.Describes d (p.rewrite d) := by
  refine ⟨access_rewrite, ?_⟩
  have hlimit (base limit : Word) :
      (d.withBaseLimit base limit).limit.toNat = limit.toNat % 0x100000 := by
    rw [limit_withBaseLimit, BitVec.toNat_setWidth]
  cases p with
  | callGate _ handler params =>
    refine ⟨gateSelector_withGateTarget .., gateOffset_withGateTarget .., ?_⟩
    exact (congrArg BitVec.toNat (params_withGateTarget ..)).trans (BitVec.toNat_setWidth ..)
  | tss _ base limit =>
    exact ⟨flags_withBaseLimit .., base_withBaseLimit .., hlimit base limit⟩
  | ldt _ base limit =>
    exact ⟨flags_withBaseLimit .., base_withBaseLimit .., hlimit base limit⟩

/-- Of two calls that suit a descriptor, the later one leaves nothing of the earlier. -/
theorem rewrite_rewrite (hp : p.Suits d) (hq : q.Suits d) :
    q.rewrite (p.rewrite d) = q.rewrite d := by
  cases p <;> cases q
  case callGate.callGate => exact withGateTarget_withGateTarget ..
  case tss.tss | tss.ldt | ldt.tss | ldt.ldt => exact withBaseLimit_withBaseLimit ..
  -- a gate is no task and no local table
  all_goals grind [Suits]

end PatchCall

namespace DescriptorTable

variable {t t' : DescriptorTable} {p q : PatchCall} {d : Descriptor} {i : Nat}

/-! ### One call -/

theorem perform_eq_ok_iff :
    t.perform p = .ok t' ↔
      ∃ d, t.slots[p.slot]? = some d ∧ p.Suits d ∧ t' = t.put p.slot (p.rewrite d) := by
  cases p with
  | callGate s handler params => exact patchCallGate_eq_ok_iff
  | tss s base limit =>
    change t.patchTss s base limit = .ok t' ↔ _
    simp only [patchTss_eq_ok_iff, PatchCall.any_isTask_iff]
    rfl
  | ldt s base limit => exact patchLdt_eq_ok_iff

theorem accepts_iff : t.Accepts p ↔ ∃ d, t.slots[p.slot]? = some d ∧ p.Suits d := by
  constructor
  · rintro ⟨t', h⟩
    obtain ⟨d, hslot, hsuits, -⟩ := perform_eq_ok_iff.1 h
    exact ⟨d, hslot, hsuits⟩
  · rintro ⟨d, hslot, hsuits⟩
    exact ⟨_, perform_eq_ok_iff.2 ⟨d, hslot, hsuits, rfl⟩⟩

theorem after_of_suits (hslot : t.slots[p.slot]? = some d) (hsuits : p.Suits d) :
    t.after p = t.put p.slot (p.rewrite d) := by
  rw [after, perform_eq_ok_iff.2 ⟨d, hslot, hsuits, rfl⟩]
  rfl

theorem after_of_not_accepts (h : ¬ t.Accepts p) : t.after p = t := by
  rw [after]
  cases hp : t.perform p with
  | ok t' => exact absurd ⟨t', hp⟩ h
  | error _ => rfl

@[simp] theorem capacity_after : (t.after p).capacity = t.capacity := by
  by_cases h : t.Accepts p
  · obtain ⟨d, hslot, hsuits⟩ := accepts_iff.1 h
    rw [after_of_suits hslot hsuits, capacity_put]
  · rw [after_of_not_accepts h]

/-- A call writes its own slot, if it is accepted, and no other. -/
theorem slots_after (hslot : t.slots[i]? = some d) :
    (t.after p).slots[i]? = some d ∨
      i = p.slot ∧ p.Suits d ∧ (t.after p).slots[i]? = some (p.rewrite d) := by
  by_cases h : t.Accepts p
  · obtain ⟨e, he, hsuits⟩ := accepts_iff.1 h
    rw [after_of_suits he hsuits]
    by_cases hi : i = p.slot
    · subst hi
      obtain rfl : d = e := Option.some.inj (hslot.symm.trans he)
      exact Or.inr ⟨rfl, hsuits, slots_put_self (lt_capacity_of_slots hslot)⟩
    · exact Or.inl ((slots_put_of_ne hi).trans hslot)
  · rw [after_of_not_accepts h]
    exact Or.inl hslot

/-! ### Runs -/

theorem run_append (t : DescriptorTable) (l l' : List PatchCall) :
    t.run (l ++ l') = (t.run l).run l' :=
  List.foldl_append

@[simp] theorem capacity_run (t : DescriptorTable) (l : List PatchCall) :
    (t.run l).capacity = t.capacity := by
  induction l generalizing t with
  | nil => rfl
  | cons p l ih => exact (ih (t.after p)).trans capacity_after

/-- **What patches leave of a slot**: its access byte, and all that a further patch makes of it. -/
theorem slots_run (l : List PatchCall) (hslot : t.slots[i]? = some d) :
    ∃ d', (t.run l).slots[i]? = some d' ∧ d'.access = d.access ∧
      ∀ p : PatchCall, p.Suits d → p.rewrite d' = p.rewrite d := by
  induction l generalizing t d with
  | nil => exact ⟨d, hslot, rfl, fun _ _ => rfl⟩
  | cons q l ih =>
    rcases slots_after (p := q) hslot with hq | ⟨-, hsuits, hq⟩
    · exact ih hq
    · obtain ⟨d', hd', haccess, hrewrite⟩ := ih hq
      refine ⟨d', hd', haccess.trans PatchCall.access_rewrite, fun p hp => ?_⟩
      rw [hrewrite p ((PatchCall.Suits.congr PatchCall.access_rewrite).2 hp),
        PatchCall.rewrite_rewrite hsuits hp]

/-- Patches do not change which patches are accepted. -/
theorem accepts_run_iff (l : List PatchCall) : (t.run l).Accepts p ↔ t.Accepts p := by
  cases hslot : t.slots[p.slot]? with
  | none =>
    have hrun : (t.run l).slots[p.slot]? = none := by
      rw [Array.getElem?_eq_none_iff] at hslot ⊢
      exact Nat.le_trans (Nat.le_of_eq (capacity_run t l)) hslot
    simp only [accepts_iff, hslot, hrun]
  | some d =>
    obtain ⟨d', hd', haccess, -⟩ := slots_run l hslot
    simp only [accepts_iff, hslot, hd', Option.some.injEq, exists_eq_left',
      PatchCall.Suits.congr haccess]

/-- A slot for which no call is accepted stays as it is. -/
theorem slots_run_of_not_accepts {l : List PatchCall}
    (h : ∀ p ∈ l, p.slot = i → ¬ t.Accepts p) : (t.run l).slots[i]? = t.slots[i]? := by
  induction l generalizing t with
  | nil => rfl
  | cons p l ih =>
    obtain ⟨hp, hl⟩ := List.forall_mem_cons.1 h
    have hafter : (t.after p).slots[i]? = t.slots[i]? := by
      by_cases hi : p.slot = i
      · rw [after_of_not_accepts (hp hi)]
      · by_cases hacc : t.Accepts p
        · obtain ⟨d, hslot, hsuits⟩ := accepts_iff.1 hacc
          rw [after_of_suits hslot hsuits, slots_put_of_ne (Ne.symm hi)]
        · rw [after_of_not_accepts hacc]
    refine (ih fun q hq hqi => ?_).trans hafter
    exact mt (accepts_run_iff [p]).1 (hl q hq hqi)

/-- The last call that is accepted for a slot makes it what it would have made of it at first. -/
theorem slots_run_last {before after : List PatchCall} (hslot : t.slots[p.slot]? = some d)
    (hsuits : p.Suits d) (hlast : ∀ q ∈ after, q.slot = p.slot → ¬ t.Accepts q) :
    (t.run (before ++ p :: after)).slots[p.slot]? = some (p.rewrite d) := by
  obtain ⟨d', hd', haccess, hrewrite⟩ := slots_run before hslot
  have hsuits' : p.Suits d' := (PatchCall.Suits.congr haccess).2 hsuits
  have hp : ((t.run before).after p).slots[p.slot]? = some (p.rewrite d) := by
    rw [after_of_suits hd' hsuits', slots_put_self (lt_capacity_of_slots hd'), hrewrite p hsuits]
  rw [run_append]
  refine (slots_run_of_not_accepts (t := (t.run before).after p) fun q hq hqi => ?_).trans hp
  have hreach : (t.run before).after p = t.run (before ++ [p]) := (run_append t before [p]).symm
  rw [hreach]
  exact mt (accepts_run_iff _).1 (hlast q hq hqi)

/-- **Patches never change privilege or type.** On every table, a call is accepted exactly if its
slot exists and holds a descriptor of its type. It then writes this slot alone, keeps the access
byte, and the selector of a gate or the flags of a task or local table, and what it was called with
is read back. A call that is refused changes nothing. After any calls every access byte is what it
was and the same calls are accepted as before, and the last one that was accepted for a slot says
alone what is read there. -/
theorem patches_keep_type (t : DescriptorTable) :
    (∀ p : PatchCall,
      (t.Accepts p ↔ p.slot < t.capacity ∧ ∃ d, t.slots[p.slot]? = some d ∧ p.Suits d) ∧
      (t.Accepts p → (t.after p).capacity = t.capacity ∧
        (∀ i, i ≠ p.slot → (t.after p).slots[i]? = t.slots[i]?) ∧
        ∃ d d', t.slots[p.slot]? = some d ∧ (t.after p).slots[p.slot]? = some d' ∧
          p.Describes d d') ∧
      (¬ t.Accepts p → t.after p = t)) ∧
    ∀ l : List PatchCall,
      (∀ p, (t.run l).Accepts p ↔ t.Accepts p) ∧
      (∀ (i : Nat) (d : Descriptor), t.slots[i]? = some d →
        ∃ d' : Descriptor, (t.run l).slots[i]? = some d' ∧ d'.access = d.access) ∧
      (∀ i, (∀ p ∈ l, p.slot = i → ¬ t.Accepts p) → (t.run l).slots[i]? = t.slots[i]?) ∧
      ∀ before p after, l = before ++ p :: after → t.Accepts p →
        (∀ q ∈ after, q.slot = p.slot → ¬ t.Accepts q) →
        ∃ d d', t.slots[p.slot]? = some d ∧ (t.run l).slots[p.slot]? = some d' ∧
          p.Describes d d' := by
  refine ⟨fun p => ⟨?_, fun h => ?_, after_of_not_accepts⟩,
    fun l => ⟨fun p => accepts_run_iff l, fun i d hslot => ?_,
      fun i => slots_run_of_not_accepts, ?_⟩⟩
  · rw [accepts_iff]
    exact ⟨fun ⟨d, hslot, hsuits⟩ => ⟨lt_capacity_of_slots hslot, d, hslot, hsuits⟩, And.right⟩
  · obtain ⟨d, hslot, hsuits⟩ := accepts_iff.1 h
    have hafter := after_of_suits hslot hsuits
    refine ⟨capacity_after, fun i hi => ?_, d, p.rewrite d, hslot, ?_, p.describes_rewrite d⟩
    · rw [hafter, slots_put_of_ne hi]
    · rw [hafter, slots_put_self (lt_capacity_of_slots hslot)]
  · obtain ⟨d', hd', haccess, -⟩ := slots_run l hslot
    exact ⟨d', hd', haccess⟩
  · rintro before p after rfl h hlast
    obtain ⟨d, hslot, hsuits⟩ := accepts_iff.1 h
    exact ⟨d, p.rewrite d, hslot, slots_run_last hslot hsuits hlast, p.describes_rewrite d⟩

end DescriptorTable

end FourRings
