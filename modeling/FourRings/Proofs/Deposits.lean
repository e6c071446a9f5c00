import FourRings.Proofs.Faults
import FourRings.Proofs.StateSlot

/-!
# Deposits in the vault

A deposit is checked as a whole before anything of it is written. `deposits_idempotent` is the main
statement: a refused deposit leaves the vault, an accepted one replaces the copy of one slot, and
the copy passes the same checks again.

It is about the vault in memory, where an edit that was made cannot be taken back. Deposits end
there as `Vault.depositTss` and `Vault.depositLdt` do (`on_placeTss`, `on_placeLdt`), and what these
leave is said first.
-/

namespace FourRings

variable {s : Vault} {gdt : DescriptorTable} {memory : RingMemory} {r : Ring}
  {selector : Selector} {address : Word} {s' : Vault}

namespace Vault

/-! ### What is deposited -/

/-- `s'` is `s` but for the copy that it keeps for the slot `k`. -/
structure DiffersAt (k : StateSlot) (s s' : Vault) : Prop where
  address : s'.address = s.address
  directory : s'.directory = s.directory
  others : ∀ k', k' ≠ k → k'.copy s' = k'.copy s

theorem differsAt_setTss (s : Vault) (k : TaskSlot) (t : Tss) :
    DiffersAt (.task k) s (s.setTss k t) :=
  ⟨rfl, rfl, fun _ hk => StateSlot.copy_setTss hk⟩

theorem differsAt_setLdt (s : Vault) (k : LdtSlot) (l : Ldt) :
    DiffersAt (.ldt k) s (s.setLdt k l) :=
  ⟨rfl, rfl, fun _ hk => StateSlot.copy_setLdt hk⟩

theorem setTss_setTss (s : Vault) (k : TaskSlot) (t t' : Tss) :
    (s.setTss k t).setTss k t' = s.setTss k t' := by
  simp only [setTss, Vault.mk.injEq, true_and, and_true]
  funext k'
  split <;> rfl

theorem setLdt_setLdt (s : Vault) (k : LdtSlot) (l l' : Ldt) :
    (s.setLdt k l).setLdt k l' = s.setLdt k l' := by
  simp only [setLdt, Vault.mk.injEq, true_and]
  funext k'
  split <;> rfl

/-- The page directory is not looked at, and of the vault the local tables alone. -/
theorem TaskOk.stored {t : Tss} (h : s.TaskOk gdt memory r t) (k : TaskSlot) (t' : Tss)
    (directory : Word) : (s.setTss k t').TaskOk gdt memory r { t with cr3 := directory } :=
  ⟨h.backLink, h.eflags, h.iopl, h.ioMap, h.ldt, h.code, h.stack, h.data, h.inner⟩

/-- A table is cut to whole entries. -/
theorem entries_trimLdt {limit : Word} (h : limit = 7 ∨ limit = Ldt.limit) (l : Ldt) :
    (trimLdt l limit).entries =
      l.entries.take ((limit.toNat + 1) / 8) ++
        List.replicate (2 - (limit.toNat + 1) / 8) .null := by
  rcases h with rfl | rfl <;> rfl

theorem trimLdt_trimLdt (l : Ldt) (limit : Word) :
    trimLdt (trimLdt l limit) limit = trimLdt l limit := by
  unfold trimLdt
  split <;> rfl

/-! ### A second deposit -/

/-- Task state that was accepted is accepted again as it is kept. -/
theorem depositTss_again {t : Tss}
    (h : s.depositTss gdt memory r selector t = .ok (address, s')) :
    ∃ k : TaskSlot, k.selector.index = selector.index ∧ k.owner = r ∧
      address = s.address.tss k ∧ s' = s.setTss k { t with cr3 := s.directory } ∧
      ∀ again : Selector, again.index = selector.index →
        s'.depositTss gdt memory r again (s'.tss k) = .ok (address, s') := by
  obtain ⟨k, hslot, howner, hok, heq⟩ := depositTss_eq_ok_iff.1 h
  obtain ⟨rfl, rfl⟩ := Prod.mk.inj heq
  refine ⟨k, StateSlot.index_of_taskSlot hslot, howner, rfl, rfl, fun again hagain => ?_⟩
  have hslot' : TaskSlot.ofSelector? again = some k := by
    rw [TaskSlot.ofSelector?, hagain]
    exact hslot
  rw [tss_setTss, if_pos rfl]
  exact depositTss_eq_ok_iff.2 ⟨k, hslot', howner, hok.stored k _ _,
    Prod.ext rfl (setTss_setTss s k _ _).symm⟩

/-- So is a local table. -/
theorem depositLdt_again {l : Ldt} {limit : Word}
    (h : s.depositLdt r selector l limit = .ok (address, s')) :
    ∃ k : LdtSlot, k.selector.index = selector.index ∧ k.owner = r ∧
      address = s.address.ldt k ∧ (limit = 7 ∨ limit = Ldt.limit) ∧
      s' = s.setLdt k (trimLdt l limit) ∧
      ∀ again : Selector, again.index = selector.index →
        s'.depositLdt r again (s'.ldt k) limit = .ok (address, s') := by
  obtain ⟨k, hslot, howner, hlimit, hentries, heq⟩ := depositLdt_eq_ok_iff.1 h
  obtain ⟨rfl, rfl⟩ := Prod.mk.inj heq
  refine ⟨k, StateSlot.index_of_ldtSlot hslot, howner, rfl, hlimit, rfl, fun again hagain => ?_⟩
  have hslot' : LdtSlot.ofSelector? again = some k := by
    rw [LdtSlot.ofSelector?, hagain]
    exact hslot
  rw [ldt_setLdt, if_pos rfl]
  refine depositLdt_eq_ok_iff.2 ⟨k, hslot', howner, hlimit, ?_, Prod.ext rfl ?_⟩
  · rw [trimLdt_trimLdt]
    exact hentries
  · rw [trimLdt_trimLdt, setLdt_setLdt]

/-- **A deposit is all or nothing, touches one copy, and can be repeated.** Take any vault, global
table, memory, ring and selector, and hand any state over. In memory the deposit does not fault, and
ends as it does on values. If it is refused the vault is what it was. If it is accepted the selector
names a slot of the ring and nothing but the copy for this slot differs. The copy of task state is
what was handed over, with the page directory of the vault; the copy of a local table has its
entries up to the limit, which is that of one entry or of two, and null entries after them. To
deposit the copy itself, by any selector of the slot, succeeds and leaves the vault. -/
theorem deposits_idempotent (s : Vault) (gdt : DescriptorTable) (memory : RingMemory) (r : Ring)
    (selector : Selector) :
    (∀ t : Tss, ∃ answer s', (Strict.placeTss gdt memory r selector t).on s = some (answer, s') ∧
      s.depositTss gdt memory r selector t = answer.map (·, s') ∧
      (∀ e, answer = .error e → s' = s) ∧
      ∀ address, answer = .ok address → ∃ k : TaskSlot,
        k.selector.index = selector.index ∧ k.owner = r ∧ address = s.address.tss k ∧
        DiffersAt (.task k) s s' ∧ s'.tss k = { t with cr3 := s.directory } ∧
        ∀ again : Selector, again.index = selector.index →
          (Strict.placeTss gdt memory r again (s'.tss k)).on s' = some (.ok address, s')) ∧
    ∀ (l : Ldt) (limit : Word), ∃ answer s',
      (Strict.placeLdt r selector l limit).on s = some (answer, s') ∧
      s.depositLdt r selector l limit = answer.map (·, s') ∧
      (∀ e, answer = .error e → s' = s) ∧
      ∀ address, answer = .ok address → ∃ k : LdtSlot,
        k.selector.index = selector.index ∧ k.owner = r ∧ address = s.address.ldt k ∧
        DiffersAt (.ldt k) s s' ∧ (limit = 7 ∨ limit = 15) ∧
        (s'.ldt k).entries = l.entries.take ((limit.toNat + 1) / 8) ++
          List.replicate (2 - (limit.toNat + 1) / 8) .null ∧
        ∀ again : Selector, again.index = selector.index →
          (Strict.placeLdt r again (s'.ldt k) limit).on s' = some (.ok address, s') := by
  constructor
  · intro t
    rw [on_placeTss]
    cases h : s.depositTss gdt memory r selector t with
    | error e => exact ⟨_, _, rfl, rfl, fun _ _ => rfl, nofun⟩
    | ok x =>
      refine ⟨_, _, rfl, rfl, nofun, ?_⟩
      rintro address ⟨⟩
      obtain ⟨k, hindex, howner, haddress, hvault, hagain⟩ := depositTss_again h
      refine ⟨k, hindex, howner, haddress, hvault ▸ differsAt_setTss s k _, ?_, fun again hi => ?_⟩
      · rw [hvault, tss_setTss, if_pos rfl]
      · rw [on_placeTss, hagain again hi]
        rfl
  · intro l limit
    rw [on_placeLdt]
    cases h : s.depositLdt r selector l limit with
    | error e => exact ⟨_, _, rfl, rfl, fun _ _ => rfl, nofun⟩
    | ok x =>
      refine ⟨_, _, rfl, rfl, nofun, ?_⟩
      rintro address ⟨⟩
      obtain ⟨k, hindex, howner, haddress, hlimit, hvault, hagain⟩ := depositLdt_again h
      refine ⟨k, hindex, howner, haddress, hvault ▸ differsAt_setLdt s k _, hlimit, ?_,
        fun again hi => ?_⟩
      · rw [hvault, ldt_setLdt, if_pos rfl, entries_trimLdt hlimit]
      · rw [on_placeLdt, hagain again hi]
        rfl

/-- A vault that keeps a full table of the services. -/
def servedVault : Vault where
  address := ⟨fun _ => 0x600, fun _ => 0x700⟩
  ldt := fun k => if k = .libs then .ofRing .libs 0x7CE else {}

/-- A table whose second entry is one of the core. -/
def mixedTable : Ldt := { Ldt.ofRing .libs 0x6FF with data := (Ldt.ofRing .core 0x7FF).data }

/-- The services hand over the first entry of a table alone, over the full table that was kept, and
then the copy by another selector of the slot. -/
theorem deposits_idempotent_mixedTable :
    ∃ s', (Strict.placeLdt .libs Ring.libs.ldtSelector mixedTable 7).on servedVault =
        some (.ok 0x700, s') ∧
      (s'.ldt .libs).entries = [mixedTable.code, .null] ∧
      (Strict.placeLdt .libs (.ofGlobal 16 .libs) (s'.ldt .libs) 7).on s' =
        some (.ok 0x700, s') := by
  obtain ⟨answer, s', hplace, -, -, hok⟩ :=
    (deposits_idempotent servedVault ⟨#[]⟩ .ownedByNone .libs Ring.libs.ldtSelector).2 mixedTable 7
  have hanswer : answer = .ok 0x700 := by
    have hfst := congrArg (Option.map Prod.fst) hplace
    exact (Option.some.inj hfst).symm.trans (by decide +kernel)
  obtain ⟨k, hindex, howner, -, -, -, hentries, hagain⟩ := hok _ hanswer
  obtain rfl : k = .libs := by
    cases k with
    | libs => rfl
    | devs | users => cases howner
  subst hanswer
  exact ⟨s', hplace, hentries, hagain _ (by decide)⟩

end Vault

end FourRings
