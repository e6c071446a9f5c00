import FourRings.Selector

/-!
# The memory map

An 8 MiB pool of memory. The descriptor tables lie at its top; below them lie four regions of
64 KiB, one for each ring, the core's highest. The first stack of a ring starts one word below the
region above its own. All flat segments start at address 0, so a ring's reach is an end address.

Addresses of the map are natural numbers: all of them lie far below `addressSpace`, and sums of an
address and a length cannot wrap.
-/

namespace FourRings

/-- The addresses from `start` up to, but not including, `stop`. -/
structure AddressRange where
  /-- The first address. -/
  start : Nat
  /-- The address just past the last one. -/
  stop : Nat
deriving DecidableEq, Repr, Inhabited

namespace AddressRange

instance : Membership Nat AddressRange where
  mem r a := r.start ≤ a ∧ a < r.stop

instance (a : Nat) (r : AddressRange) : Decidable (a ∈ r) :=
  inferInstanceAs (Decidable (r.start ≤ a ∧ a < r.stop))

theorem mem_iff {a : Nat} {r : AddressRange} : a ∈ r ↔ r.start ≤ a ∧ a < r.stop := Iff.rfl

/-- Whether the `size` addresses from `start` on all lie within the range. An empty block must
still start and end inside. -/
def Covers (r : AddressRange) (start size : Nat) : Prop :=
  r.start ≤ start ∧ start + size ≤ r.stop

instance (r : AddressRange) (start size : Nat) : Decidable (r.Covers start size) :=
  inferInstanceAs (Decidable (r.start ≤ start ∧ start + size ≤ r.stop))

end AddressRange

namespace MemoryMap

/-- The number of addresses that a word can hold. -/
def addressSpace : Nat := 0x100000000

/-- Offsets that do not wrap are added as numbers. -/
theorem toNat_add_ofNat {w : Word} {n : Nat} (h : w.toNat + n < addressSpace) :
    (w + BitVec.ofNat 32 n).toNat = w.toNat + n := by
  rw [addressSpace] at h
  rw [BitVec.toNat_add, BitVec.toNat_ofNat]
  omega

/-- Bytes of a page. -/
def pageSize : Nat := 0x1000

/-- Bytes of the pool. -/
def poolSize : Nat := 0x800000

/-- Slots of the global descriptor table. -/
def gdtEntries : Nat := 8192

/-- Bytes of the global descriptor table. -/
def gdtSize : Nat := gdtEntries * 8

/-- Address of the global descriptor table. -/
def gdtStart : Nat := poolSize - gdtSize

/-- Slots of the interrupt table. -/
def idtEntries : Nat := 256

/-- Bytes kept for the interrupt table: twice its size, so that it owns a whole page. -/
def idtSize : Nat := idtEntries * 8 * 2

/-- Address of the interrupt table. -/
def idtStart : Nat := gdtStart - idtSize

/-- Bytes of the region of one ring. -/
def regionSize : Nat := 0x10000

/-- Load address of the boot image. -/
def imageStart : Nat := 0x200000

end MemoryMap

namespace Ring

open MemoryMap

/-- The private region of the ring: its data, task state and stacks. The regions lie below the
tables, each one below that of the next inner ring. -/
def region (r : Ring) : AddressRange where
  start := idtStart - (r.level + 1) * regionSize
  stop := idtStart - r.level * regionSize

/-- The address just past the last byte that the flat segments of the ring reach: the core reaches
the whole pool, and any other ring what lies below the region of the next inner ring. -/
def reach (r : Ring) : Nat := if r = .core then poolSize else r.region.stop

/-- The limit, in pages, of the flat segments of the ring. -/
def pageLimit (r : Ring) : Nat := r.reach / pageSize - 1

/-- The address at which the first stack of the ring starts. -/
def firstStack (r : Ring) : Nat := r.region.stop - 4

end Ring

namespace MemoryMap

/-- First byte of the upper part of the pool that only the supervisor may touch. -/
def supervisorStart : Nat := Ring.libs.region.start

/-- End of the low part of memory that only the supervisor may touch. -/
def lowMemoryEnd : Nat := 0x100000

/-- Whether only the supervisor may touch the page of `addr`. -/
def SupervisorOnly (addr : Nat) : Prop := addr < lowMemoryEnd ∨ supervisorStart ≤ addr

instance (addr : Nat) : Decidable (SupervisorOnly addr) :=
  inferInstanceAs (Decidable (addr < lowMemoryEnd ∨ supervisorStart ≤ addr))

end MemoryMap

end FourRings
