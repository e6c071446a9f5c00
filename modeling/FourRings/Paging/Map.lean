import FourRings.Check
import FourRings.MemoryMap
import FourRings.Paging.Error

/-!
# The page map

Two page tables map the pool, and a page directory names them. `PageMap` keeps the entries of both
tables in the order of the pages they map, so the entry of an address is the one of its page number.
The structure lies in memory with the directory first and a table in each of the next pages.

`identity` maps every page to itself. Edits change the flags of a run of pages or move it to other
frames; a refused edit changes nothing.
-/

namespace FourRings

open MemoryMap

/-- Entries of a page directory, and of a page table. -/
def tableEntries : Nat := 1024

/-- The number of page tables. -/
def tableCount : Nat := poolSize / (tableEntries * pageSize)

/-- The number of pages of the pool. -/
def pageCount : Nat := tableCount * tableEntries

namespace PageFlags

/-- Present and writable, for the core alone. -/
def supervisor : BitVec 12 := 0x003

/-- Present and writable for every ring. -/
def user : BitVec 12 := 0x007

/-- Present for every ring, and written by none. -/
def shared : BitVec 12 := 0x005

end PageFlags

/-- A page directory with its tables. -/
structure PageMap where
  /-- The address of the directory. -/
  address : Word
  directory : Vector Word tableEntries
  entries : Vector Word pageCount
deriving DecidableEq

namespace PageMap

/-- A map of nothing. -/
def empty (address : Word) : PageMap where
  address := address
  directory := .replicate tableEntries 0
  entries := .replicate pageCount 0

/-- The address of a page table. -/
def tableAddress (m : PageMap) (table : Nat) : Word :=
  m.address + BitVec.ofNat 32 (pageSize * (table + 1))

/-- The flags that the identity map gives the page at `addr`, where `shared` is the part of memory
that all rings read. -/
def identityFlags (shared : AddressRange) (addr : Nat) : BitVec 12 :=
  if SupervisorOnly addr then PageFlags.supervisor
  else if addr ∈ shared then PageFlags.shared
  else PageFlags.user

/-- Maps every page of the pool to itself. The directory leaves the decision on access to the
tables. -/
def identity (m : PageMap) (shared : AddressRange) : PageMap where
  address := m.address
  directory := .ofFn fun i =>
    if i.val < tableCount then m.tableAddress i.val ||| PageFlags.user.setWidth 32 else 0
  entries := .ofFn fun page =>
    let addr := page.val * pageSize
    BitVec.ofNat 32 addr ||| (identityFlags shared addr).setWidth 32

/-- The number of the first of `pages` pages from `addr` on, if they are pages of the pool. -/
def firstPage (addr : Word) (pages : Nat) : Except PagingError Nat := do
  ensure (addr.toNat % pageSize = 0) (.misaligned addr (BitVec.ofNat 32 pageSize))
  ensure (addr.toNat + pages * pageSize < addressSpace) (.sizeOverflow addr pages)
  ensure (addr.toNat + pages * pageSize ≤ poolSize)
    (.outOfRange addr (BitVec.ofNat 32 (pages * pageSize)))
  return addr.toNat / pageSize

/-- The entry of the page at `addr`. -/
def entry (m : PageMap) (addr : Word) : Except PagingError Word := do
  let page ← firstPage (addr.extractLsb' 12 20 ++ 0#12) 1
  return m.entries[page]?.getD 0

/-- Replaces the entries of `pages` pages, the `n`-th by `f n`. -/
def editPages (m : PageMap) (first pages : Nat) (f : Nat → Word → Word) : PageMap :=
  let edit (i : Nat) (e : Word) := if first ≤ i ∧ i < first + pages then f (i - first) e else e
  { m with entries := m.entries.mapIdx edit }

/-- Gives `pages` pages from `addr` on the given flags. -/
def setFlags (m : PageMap) (addr : Word) (pages flags : Nat) : Except PagingError PageMap := do
  ensure (flags < 0x1000) (.invalidFlags flags)
  let first ← firstPage addr pages
  return m.editPages first pages fun _ e => e.extractLsb' 12 20 ++ BitVec.ofNat 12 flags

/-- Moves `pages` pages from `addr` on to the frames from `frame` on. Their flags stay. -/
def moveWindow (m : PageMap) (addr : Word) (pages : Nat) (frame : Word) :
    Except PagingError PageMap := do
  let first ← firstPage addr pages
  ensure (frame.toNat % pageSize = 0) (.misaligned frame (BitVec.ofNat 32 pageSize))
  ensure (frame.toNat + pages * pageSize < addressSpace) (.sizeOverflow frame pages)
  return m.editPages first pages fun n e =>
    (frame + BitVec.ofNat 32 (n * pageSize)).extractLsb' 12 20 ++ e.extractLsb' 0 12

/-- Writes a directory entry as it is. There is no map if there is no such entry. -/
def writeDirectory? (m : PageMap) (index : Nat) (value : Word) : Option PageMap :=
  if h : index < tableEntries then some { m with directory := m.directory.set index value }
  else none

end PageMap

end FourRings
