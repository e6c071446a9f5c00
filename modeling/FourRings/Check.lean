/-!
# Checks

A checked operation is a chain of conditions, each with the error that its failure raises; the first
failure decides. `ensure` is one link of such a chain. The lemmas say when a chain succeeds.
-/

namespace FourRings

instance decEqExcept {ε α : Type} [DecidableEq ε] [DecidableEq α] : DecidableEq (Except ε α)
  | .ok a, .ok b => decidable_of_iff (a = b) ⟨congrArg _, Except.ok.inj⟩
  | .error d, .error e => decidable_of_iff (d = e) ⟨congrArg _, Except.error.inj⟩
  | .ok _, .error _ => isFalse nofun
  | .error _, .ok _ => isFalse nofun

/-- Passes if `p` holds and fails with `e` otherwise. -/
def ensure {ε : Type} (p : Prop) [Decidable p] (e : ε) : Except ε Unit :=
  if p then .ok () else .error e

theorem ensure_eq_ok_iff {ε : Type} {p : Prop} [Decidable p] {e : ε} :
    ensure p e = .ok () ↔ p := by
  unfold ensure; split <;> simp_all

theorem ensure_of_not {ε : Type} {p : Prop} [Decidable p] {e : ε} (h : ¬ p) :
    ensure p e = .error e :=
  if_neg h

theorem ensure_congr {ε : Type} {p q : Prop} [Decidable p] [Decidable q] {e : ε} (h : p ↔ q) :
    ensure p e = ensure q e := by
  by_cases hp : p
  · rw [ensure_eq_ok_iff.2 hp, ensure_eq_ok_iff.2 (h.1 hp)]
  · rw [ensure_of_not hp, ensure_of_not (mt h.2 hp)]

theorem ensure_and_of_left {ε : Type} {p q : Prop} [Decidable p] [Decidable q] {e : ε} (h : p) :
    ensure (p ∧ q) e = ensure q e :=
  ensure_congr (and_iff_right h)

theorem bind_eq_ok_iff {ε α β : Type} {x : Except ε α} {f : α → Except ε β} {b : β} :
    (x >>= f) = .ok b ↔ ∃ a, x = .ok a ∧ f a = .ok b := by
  cases x <;> simp [bind, Except.bind]

theorem seq_eq_ok_iff {ε β : Type} {x : Except ε Unit} {f : Unit → Except ε β} {b : β} :
    (x >>= f) = .ok b ↔ x = .ok () ∧ f () = .ok b := by
  rw [bind_eq_ok_iff]
  exact ⟨fun ⟨_, hx, hf⟩ => ⟨hx, hf⟩, fun ⟨hx, hf⟩ => ⟨(), hx, hf⟩⟩

theorem forM_eq_ok_iff {ε α : Type} {l : List α} {f : α → Except ε Unit} :
    l.forM f = .ok () ↔ ∀ a ∈ l, f a = .ok () := by
  induction l with
  | nil => simp [pure, Except.pure]
  | cons a l ih =>
    change (f a >>= fun _ => l.forM f) = .ok () ↔ _
    rw [bind_eq_ok_iff, List.forall_mem_cons, ← ih]
    exact ⟨fun ⟨_, h⟩ => h, fun h => ⟨(), h⟩⟩

end FourRings
