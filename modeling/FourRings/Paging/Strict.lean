import FourRings.Paging.Map
import FourRings.Strict

/-!
# Editing pages on a machine that faults

`PageMap.setFlags` and `PageMap.moveWindow` once more, step by step and on machine words: counts of
pages and flags have 64 bits, addresses and sizes have 32. The page tables are edited in place, one
entry after another. What could fault in this loop is not checked there, but before it.
-/

namespace FourRings

open MemoryMap Strict

/-- Page tables, as they lie one after another in memory. -/
abbrev PageTables := Array (Array Word)

namespace PageMap

/-- One of the page tables of the map. -/
def table (m : PageMap) (t : Nat) : Array Word :=
  m.entries.toArray.extract (t * tableEntries) ((t + 1) * tableEntries)

/-- The page tables of the map. -/
def tables (m : PageMap) : PageTables := .ofFn fun t : Fin tableCount => m.table t.val

end PageMap

namespace PageTables

/-- The bits of an entry that are flags. The others are its frame. -/
def flagMask : Word := 0xFFF

/-- Bytes of a page, as a word. -/
def pageBytes : Word := BitVec.ofNat 32 pageSize

/-- The numbers of the first of `pages` pages from `addr` on and of the page after the last one. -/
def range (addr : Word) (pages : BitVec 64) : Strict PagingError (BitVec 64 × BitVec 64) := do
  total (ensure (addr % pageBytes = 0) (.misaligned addr pageBytes))
  let count : Word := pages.setWidth 32
  let size := count * pageBytes
  total (ensure (pages.toNat < addressSpace ∧ ¬ count.umulOverflow pageBytes)
    (.sizeOverflow addr pages.toNat))
  total (ensure (¬ addr.uaddOverflow size) (.sizeOverflow addr pages.toNat))
  total (ensure (addr + size ≤ BitVec.ofNat 32 poolSize) (.outOfRange addr size))
  let first := (addr / pageBytes).setWidth 64
  let stop ← add first pages
  return (first, stop)

/-- Edits the entry of a page. -/
def editEntry (page : BitVec 64) (f : Word → Strict PagingError Word) (tables : PageTables) :
    Strict PagingError PageTables := do
  let t := page.toNat / tableEntries
  let i := page.toNat % tableEntries
  let table ← fetch tables t
  let entry ← f (← fetch table i)
  let table ← store table i entry
  store tables t table

/-- Edits the entries of the pages from `first` up to, but not including, `stop`. The pages are
counted from 0 for `f`. -/
def eachPage (first stop : BitVec 64) (f : BitVec 64 → Word → Strict PagingError Word) :
    InPlace PageTables PagingError Unit :=
  forM (List.range (stop.toNat - first.toNat)) fun n =>
    .update (editEntry (first + BitVec.ofNat 64 n) (f (BitVec.ofNat 64 n)))

/-- Gives `pages` pages from `addr` on the given flags. -/
def setFlags (addr : Word) (pages flags : BitVec 64) : InPlace PageTables PagingError Unit := do
  .keep (total (ensure (flags &&& ~~~flagMask.setWidth 64 = 0) (.invalidFlags flags.toNat)))
  let (first, stop) ← .keep (range addr pages)
  eachPage first stop fun _ e => return (e &&& ~~~flagMask) ||| flags.setWidth 32

/-- Moves `pages` pages from `addr` on to the frames from `frame` on. Their flags stay. -/
def moveWindow (addr : Word) (pages : BitVec 64) (frame : Word) :
    InPlace PageTables PagingError Unit := do
  let (first, stop) ← .keep (range addr pages)
  .keep (total (ensure (frame % pageBytes = 0) (.misaligned frame pageBytes)))
  let count : Word := pages.setWidth 32
  .keep (total (ensure
    (¬ count.umulOverflow pageBytes ∧ ¬ frame.uaddOverflow (count * pageBytes))
    (.sizeOverflow frame pages.toNat)))
  eachPage first stop fun n e => do
    let offset ← mul (n.setWidth 32) pageBytes
    let address ← add frame offset
    return address ||| (e &&& flagMask)

end PageTables

end FourRings
