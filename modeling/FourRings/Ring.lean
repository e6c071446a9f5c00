/-!
# Privilege rings

The four rings of the protected machine, from the core (level 0, most privileged) to the users
(level 3). `a ≤ b` reads "`a` is at least as privileged as `b`".
-/

namespace FourRings

/-- A privilege ring. -/
inductive Ring where
  /-- Level 0: descriptor tables, paging, the screen. -/
  | core
  /-- Level 1: device drivers. -/
  | devs
  /-- Level 2: shared services. -/
  | libs
  /-- Level 3: user tasks. -/
  | users
deriving DecidableEq, Repr, Inhabited

namespace Ring

/-- The rings, most privileged first. -/
def all : List Ring := [.core, .devs, .libs, .users]

/-- The number of the ring. -/
def level : Ring → Nat
  | .core => 0
  | .devs => 1
  | .libs => 2
  | .users => 3

/-- The ring as a two-bit field. -/
def bits : Ring → BitVec 2
  | .core => 0
  | .devs => 1
  | .libs => 2
  | .users => 3

/-- The ring that a two-bit field names. -/
def ofBits (b : BitVec 2) : Ring :=
  if b = 0 then .core else if b = 1 then .devs else if b = 2 then .libs else .users

/-- The rings that are more privileged than `r`, the core first. -/
def inner (r : Ring) : List Ring := all.take r.level

/-- The name of the ring in messages. -/
def name (r : Ring) : String := s!"Ring{r.level}"

instance : LE Ring := ⟨fun a b => a.level ≤ b.level⟩

instance : LT Ring := ⟨fun a b => a.level < b.level⟩

instance (a b : Ring) : Decidable (a ≤ b) := inferInstanceAs (Decidable (a.level ≤ b.level))

instance (a b : Ring) : Decidable (a < b) := inferInstanceAs (Decidable (a.level < b.level))

theorem le_def {a b : Ring} : a ≤ b ↔ a.level ≤ b.level := Iff.rfl

/-- A ring is inside another if it is one of its inner rings. -/
theorem mem_inner {k r : Ring} : k ∈ r.inner ↔ k < r := by
  cases k <;> cases r <;> decide

theorem ne_users_of_lt {k r : Ring} (h : k < r) : k ≠ .users := by
  rintro rfl
  cases r <;> exact absurd h (by decide)

/-- Every level below that of a ring is the level of one of its inner rings. -/
theorem exists_lt_of_level {r : Ring} {i : Nat} (h : i < r.level) : ∃ k < r, k.level = i := by
  have hk : ∀ r : Ring, ∀ i < r.level, ∃ k ∈ all, k < r ∧ k.level = i := by
    intro r
    cases r <;> decide
  obtain ⟨k, -, hlt, hlevel⟩ := hk r i h
  exact ⟨k, hlt, hlevel⟩

@[simp] theorem ofBits_bits (r : Ring) : ofBits r.bits = r := by
  cases r <;> decide

@[simp] theorem bits_ofBits (b : BitVec 2) : (ofBits b).bits = b := by
  revert b; decide

@[simp] theorem toNat_bits (r : Ring) : r.bits.toNat = r.level := by
  cases r <;> rfl

end Ring

end FourRings
