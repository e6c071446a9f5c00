import FourRings.Proofs.Admission
import FourRings.Proofs.Fields

/-!
# What one request does

`Tables.Outcome` lists all that a request can do to the tables. It is refused and leaves nothing;
or it is refused after the handed-over state was deposited, because the slot turns out to hold
another type of descriptor; or it is accepted, and then one slot is overwritten in one of the six
ways of `Tables.Edit`. `serve_outcome` says that the list is complete, and `serve_of_edit` that
every edit on it is carried out.
-/

namespace FourRings

/-! ### Permitted requests -/

/-- What a request asks of the caller and of the descriptor that its slot holds. -/
def TableRequest.Permitted (q : TableRequest) (gdt : DescriptorTable) (caller : Ring)
    (current : Descriptor) : Prop :=
  match q with
  | .descriptor _ d => MayInstall gdt caller current d
  | .callGate .. => current.isGate → ValidTarget gdt caller current.gateSelector
  | .tss .. | .ldt .. =>
    caller ≤ current.dpl ∧ (caller = .core ∨ current.systemType? ≠ some .tssBusy)

/-- Whether a slot holds the type of descriptor that a request edits. -/
def TableRequest.Suits (q : TableRequest) (current : Descriptor) : Prop :=
  match q with
  | .descriptor .. => True
  | .callGate .. => current.systemType? = some .callGate
  | .tss .. => current.systemType?.any (·.isTask)
  | .ldt .. => current.systemType? = some .ldt

theorem permit_eq_ok_iff {gdt : DescriptorTable} {caller : Ring} {q : TableRequest} :
    permit gdt caller q = .ok () ↔
      q.selector.index ≠ 0 ∧ ∃ current, gdt.slots[q.selector.index]? = some current ∧
        q.Permitted gdt caller current := by
  unfold permit
  by_cases h0 : q.selector.index = 0
  · simp [h0]
  · rw [if_neg h0]
    cases hd : gdt.getAt q.selector with
    | error e =>
      refine ⟨fun h => (by cases h), ?_⟩
      rintro ⟨-, d, h, -⟩
      rw [DescriptorTable.getAt, DescriptorTable.get_eq_ok_iff.2 h] at hd
      cases hd
    | ok current =>
      have hslot := DescriptorTable.get_eq_ok_iff.1 hd
      have hpermit : (match q with
          | .descriptor _ d => permitRaw gdt caller current d
          | .callGate .. =>
            if current.isGate then checkTarget gdt caller current.gateSelector else .ok ()
          | .tss .. | .ldt .. => permitHandover caller current) = .ok () ↔
          q.Permitted gdt caller current := by
        cases q with
        | descriptor s d => exact permitRaw_eq_ok_iff
        | callGate s handler params =>
          by_cases hg : current.isGate <;>
            simp [hg, TableRequest.Permitted, checkTarget_eq_ok_iff]
        | tss s base => exact permitHandover_eq_ok_iff
        | ldt s base limit => exact permitHandover_eq_ok_iff
      constructor
      · intro h
        exact ⟨h0, current, hslot, hpermit.1 h⟩
      · rintro ⟨-, d, h, hq⟩
        obtain rfl : current = d := Option.some.inj (hslot.symm.trans h)
        exact hpermit.2 hq

namespace Tables

variable {t : Tables} {memory : RingMemory} {caller : Ring}

/-! ### Deposits and edits -/

/-- A request of an outer ring that deposits task state: the address of the copy and the vault with
the copy in it. -/
inductive Deposit (t : Tables) (memory : RingMemory) (caller : Ring) :
    TableRequest → Word → Vault → Prop
  | tss {selector : Selector} {base : Word} {slot : TaskSlot} {x : Tss}
      (slot_eq : TaskSlot.ofSelector? selector = some slot) (owner : slot.owner = caller)
      (owns : memory.owns caller base Tss.size) (read : memory.readTss base = some x)
      (ok : t.vault.TaskOk t.gdt memory caller x) :
      Deposit t memory caller (.tss selector base) (t.vault.address.tss slot)
        (t.vault.setTss slot { x with cr3 := t.vault.directory })
  | ldt {selector : Selector} {base limit : Word} {slot : LdtSlot} {l : Ldt}
      (slot_eq : LdtSlot.ofSelector? selector = some slot) (owner : slot.owner = caller)
      (owns : memory.owns caller base (limit.toNat + 1)) (read : memory.readLdt base = some l)
      (limit_eq : limit = 7 ∨ limit = Ldt.limit)
      (ok : ∀ d ∈ (Vault.trimLdt l limit).entries, Vault.EntryOk caller d) :
      Deposit t memory caller (.ldt selector base limit) (t.vault.address.ldt slot)
        (t.vault.setLdt slot (Vault.trimLdt l limit))

theorem takeTss_eq_ok_iff {selector : Selector} {base copy : Word} {vault : Vault} :
    t.takeTss memory caller selector base = .ok (copy, vault) ↔
      Deposit t memory caller (.tss selector base) copy vault := by
  rw [takeTss, seq_eq_ok_iff, ensure_eq_ok_iff]
  constructor
  · rintro ⟨ho, h⟩
    cases hr : memory.readTss base with
    | none => simp [hr] at h
    | some y =>
      rw [hr] at h
      obtain ⟨slot, hs, hown, hok, hx⟩ := Vault.depositTss_eq_ok_iff.1 h
      obtain ⟨rfl, rfl⟩ := Prod.mk.inj hx
      exact .tss hs hown ho hr hok
  · rintro ⟨hs, hown, ho, hr, hok⟩
    refine ⟨ho, ?_⟩
    rw [hr]
    exact Vault.depositTss_eq_ok_iff.2 ⟨_, hs, hown, hok, rfl⟩

theorem takeLdt_eq_ok_iff {selector : Selector} {base limit copy : Word} {vault : Vault} :
    t.takeLdt memory caller selector base limit = .ok (copy, vault) ↔
      Deposit t memory caller (.ldt selector base limit) copy vault := by
  rw [takeLdt, seq_eq_ok_iff, ensure_eq_ok_iff]
  constructor
  · rintro ⟨⟨-, ho⟩, h⟩
    cases hr : memory.readLdt base with
    | none => simp [hr] at h
    | some l =>
      rw [hr] at h
      obtain ⟨slot, hs, hown, hl, he, hx⟩ := Vault.depositLdt_eq_ok_iff.1 h
      obtain ⟨rfl, rfl⟩ := Prod.mk.inj hx
      exact .ldt hs hown ho hr hl he
  · rintro (_ | ⟨hs, hown, ho, hr, hl, he⟩)
    have hlimit : limit ≤ Ldt.limit := by
      rcases hl with rfl | rfl <;> decide
    refine ⟨⟨hlimit, ho⟩, ?_⟩
    rw [hr]
    exact Vault.depositLdt_eq_ok_iff.2 ⟨_, hs, hown, hl, he, rfl⟩

/-- How an accepted request changes the descriptor `current` of its slot, and the vault. -/
inductive Edit (t : Tables) (memory : RingMemory) (caller : Ring) :
    TableRequest → Descriptor → Descriptor → Vault → Prop
  | install {s : Selector} {current d : Descriptor} (ok : MayInstall t.gdt caller current d) :
      Edit t memory caller (.descriptor s d) current d t.vault
  | retarget {s : Selector} {handler : Word} {params : Byte} {current : Descriptor}
      (type : current.systemType? = some .callGate)
      (target : ValidTarget t.gdt caller current.gateSelector) :
      Edit t memory caller (.callGate s handler params) current
        (current.withGateTarget handler params) t.vault
  | rebaseTss {s : Selector} {base : Word} {current : Descriptor} (core : caller = .core)
      (type : current.systemType?.any (·.isTask)) :
      Edit t memory caller (.tss s base) current (current.withBaseLimit base Tss.limit) t.vault
  | rebaseLdt {s : Selector} {base limit : Word} {current : Descriptor} (core : caller = .core)
      (type : current.systemType? = some .ldt) :
      Edit t memory caller (.ldt s base limit) current (current.withBaseLimit base limit) t.vault
  | adoptTss {s : Selector} {base copy : Word} {current : Descriptor} {vault : Vault}
      (outer : caller ≠ .core) (privilege : caller ≤ current.dpl)
      (type : current.systemType? = some .tssAvailable)
      (deposit : Deposit t memory caller (.tss s base) copy vault) :
      Edit t memory caller (.tss s base) current (current.withBaseLimit copy Tss.limit) vault
  | adoptLdt {s : Selector} {base limit copy : Word} {current : Descriptor} {vault : Vault}
      (outer : caller ≠ .core) (privilege : caller ≤ current.dpl)
      (type : current.systemType? = some .ldt)
      (deposit : Deposit t memory caller (.ldt s base limit) copy vault) :
      Edit t memory caller (.ldt s base limit) current (current.withBaseLimit copy limit) vault

/-- An edit installs a descriptor, or it keeps the access byte of a system descriptor. -/
theorem Edit.install_or_patch {q : TableRequest} {current new : Descriptor} {vault : Vault}
    (edit : Edit t memory caller q current new vault) :
    (MayInstall t.gdt caller current new ∧ vault = t.vault) ∨
      (new.access = current.access ∧ ∃ type, current.systemType? = some type) := by
  cases edit with
  | install ok => exact Or.inl ⟨ok, rfl⟩
  | retarget type _ => exact Or.inr ⟨Descriptor.access_withGateTarget .., _, type⟩
  | rebaseTss _ type =>
    obtain ⟨type, htype, -⟩ := (Option.any_eq_true _ _).1 type
    exact Or.inr ⟨Descriptor.access_withBaseLimit .., type, htype⟩
  | rebaseLdt _ type => exact Or.inr ⟨Descriptor.access_withBaseLimit .., _, type⟩
  | adoptTss _ _ type _ => exact Or.inr ⟨Descriptor.access_withBaseLimit .., _, type⟩
  | adoptLdt _ _ type _ => exact Or.inr ⟨Descriptor.access_withBaseLimit .., _, type⟩

/-- Code and data are written by an installation only. -/
theorem Edit.mayInstall {q : TableRequest} {current new : Descriptor} {vault : Vault}
    (edit : Edit t memory caller q current new vault) (hsegment : new.access.isSegment) :
    MayInstall t.gdt caller current new ∧ vault = t.vault := by
  rcases edit.install_or_patch with h | ⟨haccess, type, htype⟩
  · exact h
  · rw [haccess, Descriptor.isSegment_eq_false_of_systemType? htype] at hsegment
    cases hsegment

/-! ### Outcomes -/

/-- All that can become of a request. -/
inductive Outcome (t : Tables) (memory : RingMemory) (caller : Ring) (r : Registers) :
    Served → Prop
  | refused (e : Refusal) : Outcome t memory caller r (.error e, t)
  /-- The state is deposited, and then its slot turns out not to suit it. -/
  | stray {q : TableRequest} {current : Descriptor} {copy : Word} {vault : Vault}
      (expected : String) (decode : TableRequest.decode r = .ok q)
      (slot : t.gdt.slots[q.selector.index]? = some current) (outer : caller ≠ .core)
      (deposit : Deposit t memory caller q copy vault) (misfit : ¬ q.Suits current) :
      Outcome t memory caller r
        (.error (.table (.typeMismatch q.selector.index expected current.access)), { t with vault })
  | accepted {q : TableRequest} {current new : Descriptor} {vault : Vault}
      (decode : TableRequest.decode r = .ok q) (null : q.selector.index ≠ 0)
      (slot : t.gdt.slots[q.selector.index]? = some current)
      (edit : Edit t memory caller q current new vault) :
      Outcome t memory caller r (.ok (), ⟨t.gdt.put q.selector.index new, vault⟩)

/-- A task slot that is not busy is available. -/
theorem type_eq_available {current : Descriptor} (h : current.systemType?.any (·.isTask))
    (hb : current.systemType? ≠ some .tssBusy) : current.systemType? = some .tssAvailable := by
  obtain ⟨type, ht, htask⟩ := (Option.any_eq_true _ _).1 h
  cases type <;> simp_all [SystemType.isTask]

variable {r : Registers} {q : TableRequest} {current : Descriptor}

theorem Outcome.of_edit {new : Descriptor} {vault : Vault} {gdt : DescriptorTable}
    (decode : TableRequest.decode r = .ok q) (null : q.selector.index ≠ 0)
    (slot : t.gdt.slots[q.selector.index]? = some current)
    (put : gdt = t.gdt.put q.selector.index new) (edit : Edit t memory caller q current new vault) :
    Outcome t memory caller r (.ok (), ⟨gdt, vault⟩) := by
  subst put
  exact .accepted decode null slot edit

theorem outcome_settle {t' : Tables} {x : Except TableError DescriptorTable}
    (herr : ∀ e, x = .error e → Outcome t memory caller r (.error (.table e), t'))
    (hok : ∀ gdt, x = .ok gdt → Outcome t memory caller r (.ok (), { t' with gdt })) :
    Outcome t memory caller r (t'.settle x) := by
  cases x with
  | error e => exact herr e rfl
  | ok gdt => exact hok gdt rfl

theorem perform_outcome (decode : TableRequest.decode r = .ok q) (null : q.selector.index ≠ 0)
    (slot : t.gdt.slots[q.selector.index]? = some current)
    (permitted : q.Permitted t.gdt caller current) :
    Outcome t memory caller r (t.perform memory caller q) := by
  cases q with
  | descriptor s d =>
    refine outcome_settle (fun e _ => .refused _) fun gdt h => ?_
    obtain ⟨-, rfl⟩ := DescriptorTable.set_eq_ok_iff.1 h
    exact .of_edit decode null slot rfl (.install permitted)
  | callGate s handler params =>
    refine outcome_settle (fun e _ => .refused _) fun gdt h => ?_
    obtain ⟨d, hd, htype, rfl⟩ := DescriptorTable.patchCallGate_eq_ok_iff.1 h
    obtain rfl : current = d := Option.some.inj (slot.symm.trans hd)
    have hgate : current.isGate := by simp [Descriptor.isGate, htype, SystemType.isGate]
    exact .of_edit decode null slot rfl (.retarget htype (permitted hgate))
  | tss s base =>
    rw [perform]
    split
    · rename_i hcore
      refine outcome_settle (fun e _ => .refused _) fun gdt h => ?_
      obtain ⟨d, hd, htype, rfl⟩ := DescriptorTable.patchTss_eq_ok_iff.1 h
      obtain rfl : current = d := Option.some.inj (slot.symm.trans hd)
      exact .of_edit decode null slot rfl (.rebaseTss hcore htype)
    · rename_i houter
      obtain ⟨hle, hidle⟩ := permitted
      have hidle := hidle.resolve_left houter
      cases htake : t.takeTss memory caller s base with
      | error e => exact .refused e
      | ok x =>
        obtain ⟨copy, vault⟩ := x
        have hdeposit := takeTss_eq_ok_iff.1 htake
        dsimp only
        by_cases hsuits : (TableRequest.tss s base).Suits current
        · have hpatch : t.gdt.patchTss s copy Tss.limit =
              .ok (t.gdt.put s.index (current.withBaseLimit copy Tss.limit)) :=
            DescriptorTable.patchTss_eq_ok_iff.2 ⟨current, slot, hsuits, rfl⟩
          rw [hpatch]
          exact .of_edit decode null slot rfl
            (.adoptTss houter hle (type_eq_available hsuits hidle) hdeposit)
        · rw [DescriptorTable.patchTss_of_misfit (s := s) slot hsuits]
          exact .stray (q := .tss s base) _ decode slot houter hdeposit hsuits
  | ldt s base limit =>
    rw [perform]
    split
    · rename_i hcore
      refine outcome_settle (fun e _ => .refused _) fun gdt h => ?_
      obtain ⟨d, hd, htype, rfl⟩ := DescriptorTable.patchLdt_eq_ok_iff.1 h
      obtain rfl : current = d := Option.some.inj (slot.symm.trans hd)
      exact .of_edit decode null slot rfl (.rebaseLdt hcore htype)
    · rename_i houter
      obtain ⟨hle, -⟩ := permitted
      cases htake : t.takeLdt memory caller s base limit with
      | error e => exact .refused e
      | ok x =>
        obtain ⟨copy, vault⟩ := x
        have hdeposit := takeLdt_eq_ok_iff.1 htake
        dsimp only
        by_cases hsuits : (TableRequest.ldt s base limit).Suits current
        · have hpatch : t.gdt.patchLdt s copy limit =
              .ok (t.gdt.put s.index (current.withBaseLimit copy limit)) :=
            DescriptorTable.patchLdt_eq_ok_iff.2 ⟨current, slot, hsuits, rfl⟩
          rw [hpatch]
          exact .of_edit decode null slot rfl (.adoptLdt houter hle hsuits hdeposit)
        · rw [DescriptorTable.patchLdt_of_misfit (s := s) slot hsuits]
          exact .stray (q := .ldt s base limit) _ decode slot houter hdeposit hsuits

/-- **All that a request does is on the list of outcomes.** -/
theorem serve_outcome (t : Tables) (memory : RingMemory) (caller : Ring) (r : Registers) :
    Outcome t memory caller r (t.serve memory caller r) := by
  unfold serve
  cases hq : TableRequest.decode r with
  | error e => exact .refused e
  | ok q =>
    dsimp only
    cases hp : permit t.gdt caller q with
    | error e => exact .refused e
    | ok u =>
      obtain ⟨null, current, slot, permitted⟩ := permit_eq_ok_iff.1 hp
      exact perform_outcome hq null slot permitted

/-- **Every edit on the list is carried out.** -/
theorem serve_of_edit {new : Descriptor} {vault : Vault}
    (decode : TableRequest.decode r = .ok q) (null : q.selector.index ≠ 0)
    (slot : t.gdt.slots[q.selector.index]? = some current)
    (edit : Edit t memory caller q current new vault) :
    t.serve memory caller r = (.ok (), ⟨t.gdt.put q.selector.index new, vault⟩) := by
  have hserve (permitted : q.Permitted t.gdt caller current) :
      t.serve memory caller r = t.perform memory caller q := by
    rw [serve, decode]
    dsimp only
    rw [permit_eq_ok_iff.2 ⟨null, current, slot, permitted⟩]
  cases edit with
  | @install s _ _ ok =>
    have hset : t.gdt.setAt s new = .ok (t.gdt.put s.index new) :=
      DescriptorTable.set_eq_ok_iff.2 ⟨DescriptorTable.lt_capacity_of_slots slot, rfl⟩
    rw [hserve ok, perform, hset]
    rfl
  | @retarget s handler params _ type target =>
    have hpatch : t.gdt.patchCallGate s handler params =
        .ok (t.gdt.put s.index (current.withGateTarget handler params)) :=
      DescriptorTable.patchCallGate_eq_ok_iff.2 ⟨current, slot, type, rfl⟩
    rw [hserve fun _ => target, perform, hpatch]
    rfl
  | @rebaseTss s base _ core type =>
    have hpatch : t.gdt.patchTss s base Tss.limit =
        .ok (t.gdt.put s.index (current.withBaseLimit base Tss.limit)) :=
      DescriptorTable.patchTss_eq_ok_iff.2 ⟨current, slot, type, rfl⟩
    rw [hserve ⟨by rw [core]; exact Nat.zero_le _, Or.inl core⟩, perform, if_pos core, hpatch]
    rfl
  | @rebaseLdt s base limit _ core type =>
    have hpatch : t.gdt.patchLdt s base limit =
        .ok (t.gdt.put s.index (current.withBaseLimit base limit)) :=
      DescriptorTable.patchLdt_eq_ok_iff.2 ⟨current, slot, type, rfl⟩
    rw [hserve ⟨by rw [core]; exact Nat.zero_le _, Or.inl core⟩, perform, if_pos core, hpatch]
    rfl
  | @adoptTss s base copy _ _ outer privilege type deposit =>
    have htask : current.systemType?.any (·.isTask) := by simp [type, SystemType.isTask]
    have hpatch : t.gdt.patchTss s copy Tss.limit =
        .ok (t.gdt.put s.index (current.withBaseLimit copy Tss.limit)) :=
      DescriptorTable.patchTss_eq_ok_iff.2 ⟨current, slot, htask, rfl⟩
    rw [hserve ⟨privilege, Or.inr (by simp [type])⟩, perform, if_neg outer,
      takeTss_eq_ok_iff.2 deposit]
    dsimp only
    rw [hpatch]
    rfl
  | @adoptLdt s base limit copy _ _ outer privilege type deposit =>
    have hpatch : t.gdt.patchLdt s copy limit =
        .ok (t.gdt.put s.index (current.withBaseLimit copy limit)) :=
      DescriptorTable.patchLdt_eq_ok_iff.2 ⟨current, slot, type, rfl⟩
    rw [hserve ⟨privilege, Or.inr (by simp [type])⟩, perform, if_neg outer,
      takeLdt_eq_ok_iff.2 deposit]
    dsimp only
    rw [hpatch]
    rfl

end Tables

end FourRings
