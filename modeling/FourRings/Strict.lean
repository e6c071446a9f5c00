import FourRings.Check

/-!
# Computations that fault

Two things stop the machine without an error: an index past the end of an array, and a sum, a
difference or a product that does not fit its word. `Strict` computations fault there. One that
equals `total x` never faults and ends as `x` does.

`InPlace` computations edit a state besides. Neither an error nor what follows it undoes an edit
that was made before.
-/

namespace FourRings

/-- A computation that may fail with an error or fault. -/
abbrev Strict (ε α : Type) := ExceptT ε Option α

namespace Strict

variable {ε α β : Type}

/-- A computation that cannot fault. -/
def total (x : Except ε α) : Strict ε α := ExceptT.mk (some x)

def fault : Strict ε α := ExceptT.mk none

/-! ### Operations that can fault -/

/-- The element at an index, which must lie in the array. -/
def fetch (a : Array α) (i : Nat) : Strict ε α :=
  if h : i < a.size then return a[i] else fault

/-- Overwrites the element at an index, which must lie in the array. -/
def store (a : Array α) (i : Nat) (x : α) : Strict ε (Array α) :=
  if h : i < a.size then return a.set i x else fault

/-- The sum of two words, which must not overflow. -/
def add {n : Nat} (x y : BitVec n) : Strict ε (BitVec n) :=
  if x.uaddOverflow y then fault else return x + y

/-- The difference of two words, which must not underflow. -/
def sub {n : Nat} (x y : BitVec n) : Strict ε (BitVec n) :=
  if x.usubOverflow y then fault else return x - y

/-- The product of two words, which must not overflow. -/
def mul {n : Nat} (x y : BitVec n) : Strict ε (BitVec n) :=
  if x.umulOverflow y then fault else return x * y

theorem fetch_of_some {a : Array α} {i : Nat} {x : α} (h : a[i]? = some x) :
    (fetch a i : Strict ε α) = pure x := by
  obtain ⟨hi, rfl⟩ := Array.getElem?_eq_some_iff.1 h
  exact dif_pos hi

theorem store_of_lt {a : Array α} {i : Nat} (h : i < a.size) (x : α) :
    (store a i x : Strict ε (Array α)) = pure (a.set i x) :=
  dif_pos h

/-- Words that add up like the numbers they stand for do not overflow. -/
theorem add_of_toNat {n : Nat} {x y : BitVec n} (h : (x + y).toNat = x.toNat + y.toNat) :
    (add x y : Strict ε (BitVec n)) = pure (x + y) := by
  have hno : ¬ x.uaddOverflow y := by
    rw [BitVec.uaddOverflow, decide_eq_true_eq, ← h]
    exact Nat.not_le.2 (x + y).isLt
  exact if_neg hno

/-- The last word has no successor. -/
example : (add (BitVec.allOnes 32) 1 : Strict ε (BitVec 32)) = fault := rfl

theorem sub_of_le {n : Nat} {x y : BitVec n} (h : y ≤ x) :
    (sub x y : Strict ε (BitVec n)) = pure (x - y) := by
  have hno : ¬ x.usubOverflow y := by
    rw [BitVec.usubOverflow, decide_eq_true_eq]
    exact Nat.not_lt.2 h
  exact if_neg hno

theorem mul_of_toNat {n : Nat} {x y : BitVec n} (h : (x * y).toNat = x.toNat * y.toNat) :
    (mul x y : Strict ε (BitVec n)) = pure (x * y) := by
  have hno : ¬ x.umulOverflow y := by
    rw [BitVec.umulOverflow, decide_eq_true_eq, ← h]
    exact Nat.not_le.2 (x * y).isLt
  exact if_neg hno

/-! ### Computations that do not fault -/

/-- If the first part of a computation does not fault, and the rest does not after its success, the
whole does not. -/
theorem bind_eq_total {s : Strict ε α} {x : Except ε α} {f : α → Strict ε β}
    {g : α → Except ε β} (hs : s = total x) (hf : ∀ a, x = .ok a → f a = total (g a)) :
    s >>= f = total (x >>= g) := by
  subst hs
  cases x with
  | error e => rfl
  | ok a => exact hf a rfl

/-- What stands after a check may rely on it. -/
theorem guard_eq_total {p : Prop} [Decidable p] {e : ε} {f : Unit → Strict ε α} {x : Except ε α}
    (hpass : p → f () = total x) (hfail : ¬ p → x = .error e) :
    total (ensure p e) >>= f = total x := by
  by_cases h : p
  · rw [ensure_eq_ok_iff.2 h]
    exact hpass h
  · rw [ensure_of_not h, hfail h]
    rfl

theorem adapt_total {ε' : Type} (f : ε → ε') (x : Except ε α) :
    (total x).adapt f = total (x.mapError f) := by
  cases x <;> rfl

theorem forM_eq_total {l : List α} {f : α → Strict ε Unit} {g : α → Except ε Unit}
    (h : ∀ a ∈ l, f a = total (g a)) : l.forM f = total (l.forM g) := by
  induction l with
  | nil => rfl
  | cons a l ih =>
    obtain ⟨ha, hl⟩ := List.forall_mem_cons.1 h
    exact bind_eq_total ha fun _ _ => ih hl

end Strict

/-! ### Edits in place -/

/-- A computation that edits a state of type `σ`, and may fail with an error or fault. -/
abbrev InPlace (σ ε α : Type) := ExceptT ε (StateT σ Option) α

namespace InPlace

variable {σ ε α β : Type}

/-- A computation that leaves the state. -/
def keep (x : Strict ε α) : InPlace σ ε α := ExceptT.mk fun s => x.run.map (·, s)

/-- Replaces the state. -/
def update (f : σ → Strict ε σ) : InPlace σ ε Unit := do
  let s ← keep (f (← get))
  set s

/-- The outcome of a computation, and the state that it leaves. There is none after a fault. -/
def on (x : InPlace σ ε α) (s : σ) : Option (Except ε α × σ) := x.run.run s

/-- What a call answers and leaves, given its result. A call that fails leaves the state. -/
def outcome (s : σ) : Except ε (α × σ) → Except ε α × σ
  | .error e => (.error e, s)
  | .ok (a, s') => (.ok a, s')

/-- A step that edits nothing. If it fails, nothing was edited before. -/
theorem on_keep_bind {x : Except ε α} {f : α → InPlace σ ε β} {g : α → Except ε (β × σ)} {s : σ}
    (h : ∀ a, x = .ok a → (f a).on s = some (outcome s (g a))) :
    (keep (Strict.total x) >>= f).on s = some (outcome s (x >>= g)) := by
  cases x with
  | error e => rfl
  | ok a => exact h a rfl

/-- What stands after a check may rely on it. -/
theorem on_keep_guard {p : Prop} [Decidable p] {e : ε} {f : Unit → InPlace σ ε β}
    {x : Except ε (β × σ)} {s : σ} (hpass : p → (f ()).on s = some (outcome s x))
    (hfail : ¬ p → x = .error e) :
    (keep (Strict.total (ensure p e)) >>= f).on s = some (outcome s x) := by
  by_cases h : p
  · rw [ensure_eq_ok_iff.2 h]
    exact hpass h
  · rw [ensure_of_not h, hfail h]
    rfl

theorem on_keep_pure_bind (a : α) (f : α → InPlace σ ε β) (s : σ) :
    (keep (pure a) >>= f).on s = (f a).on s := rfl

theorem on_bind_of_ok {x : InPlace σ ε α} {f : α → InPlace σ ε β} {s s' : σ} {a : α}
    (h : x.on s = some (.ok a, s')) : (x >>= f).on s = (f a).on s' := by
  change (x.run.run s).bind _ = _
  rw [on] at h
  rw [h]
  rfl

theorem on_update_of_pure {f : σ → Strict ε σ} {s s' : σ} (h : f s = pure s') :
    (update f).on s = some (.ok (), s') := by
  change ((f s).run.map (·, s)).bind _ = _
  rw [h]
  rfl

end InPlace

end FourRings
