import FourRings.Paging.Map

/-!
# Page walks

How the processor translates a linear address. The upper ten bits number an entry of the page
directory, the next ten an entry of the page table that it names, and the frame that this one names
takes the place of both. Each of the two entries can forbid the access.

The processor finds the entries in memory. `PageMap.word?` is what it finds at an address of the
map.
-/

namespace FourRings

open MemoryMap

namespace PageEntry

/-- The address of the table or of the frame that an entry names. -/
def frame (e : Word) : Word := e.extractLsb' 12 20 ++ 0#12

def flags (e : Word) : BitVec 12 := e.extractLsb' 0 12

def present (e : Word) : Bool := (flags e).getLsbD 0

def writable (e : Word) : Bool := (flags e).getLsbD 1

/-- Whether the users may follow the entry, and not the inner rings alone. -/
def userAccessible (e : Word) : Bool := (flags e).getLsbD 2

end PageEntry

/-- The two entries on the way from a linear address to its frame. -/
structure Walk where
  directoryEntry : Word
  tableEntry : Word
deriving DecidableEq, Repr

namespace Walk

open PageEntry

/-- Whether a ring may read what the walk leads to. Only the users are held off. -/
def Readable (w : Walk) (r : Ring) : Prop :=
  r = .users → userAccessible w.directoryEntry ∧ userAccessible w.tableEntry

/-- Whether a ring may write what the walk leads to. Write protection binds the inner rings too. -/
def Writable (w : Walk) (r : Ring) : Prop :=
  w.Readable r ∧ writable w.directoryEntry ∧ writable w.tableEntry

end Walk

namespace PageMap

open PageEntry

/-- The word at an address of the map: first the directory, then one table after the other. -/
def word? (m : PageMap) (addr : Nat) : Option Word :=
  if addr < m.address.toNat ∨ addr % 4 ≠ 0 then none
  else
    let i := (addr - m.address.toNat) / 4
    if i < tableEntries then m.directory[i]? else m.entries[i - tableEntries]?

/-- Walks from the directory to the frame of a linear address, if both entries are present. -/
def walk? (m : PageMap) (a : Word) : Option Walk := do
  let directoryEntry ← m.word? ((frame m.address).toNat + 4 * (a.extractLsb' 22 10).toNat)
  guard (present directoryEntry)
  let tableEntry ← m.word? ((frame directoryEntry).toNat + 4 * (a.extractLsb' 12 10).toNat)
  guard (present tableEntry)
  return ⟨directoryEntry, tableEntry⟩

/-- Whether a ring may read the byte at a linear address. -/
def Readable (m : PageMap) (r : Ring) (a : Word) : Prop := ∃ w, m.walk? a = some w ∧ w.Readable r

/-- Whether a ring may write the byte at a linear address. -/
def Writable (m : PageMap) (r : Ring) (a : Word) : Prop := ∃ w, m.walk? a = some w ∧ w.Writable r

end PageMap

end FourRings
