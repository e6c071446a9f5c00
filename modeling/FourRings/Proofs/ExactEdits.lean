import FourRings.Paging.Strict
import FourRings.Proofs.PageEdits

/-!
# Exact edits of the page map

`PageMap.edits_exact` is the main statement: which edits of a page map are accepted, said in
integers, what an accepted edit leaves in every entry, and that all this holds on the machine too,
where words are narrow and the tables are edited in place. There the edits never fault, and a
refused one has edited nothing.

The machine follows the page map step by step. Before the loop, each check in machine words is the
check in integers (`range_eq`); in the loop, the pages done so far are edited and the others are
not (`on_eachPage`). A step that edits nothing is taken by `on_keep_bind`, so that a refusal after
it finds the tables as they were.
-/

namespace FourRings

open MemoryMap Strict InPlace PageEntry

/-! ### Masks -/

namespace PageTables

theorem getLsbD_flagMask (i : Nat) : flagMask.getLsbD i = decide (i < 12) := by
  have hmask : flagMask = (BitVec.allOnes 12).setWidth 32 := rfl
  rw [hmask, BitVec.getLsbD_setWidth, BitVec.getLsbD_allOnes]
  by_cases hi : i < 12
  · simp [hi, Nat.lt_trans hi (by decide : 12 < 32)]
  · simp [hi]

/-- The bits under the mask are the flags. -/
theorem and_flagMask (e : Word) : e &&& flagMask = (flags e).setWidth 32 := by
  apply BitVec.eq_of_getLsbD_eq
  intro i hi
  rw [BitVec.getLsbD_and, getLsbD_flagMask, BitVec.getLsbD_setWidth, flags,
    BitVec.getLsbD_extractLsb', Nat.zero_add]
  simp [hi, Bool.and_comm]

/-- The others are the frame. -/
theorem and_not_flagMask (e : Word) : e &&& ~~~flagMask = frame e := by
  apply BitVec.eq_of_getLsbD_eq
  intro i hi
  rw [BitVec.getLsbD_and, BitVec.getLsbD_not, getLsbD_flagMask, frame, BitVec.getLsbD_append]
  by_cases h : i < 12
  · simp [h]
  · have hsum : 12 + (i - 12) = i := by omega
    have hlt : i - 12 < 20 := by omega
    simp [h, hi, hsum, hlt]

/-- Flags fit an entry if no bit is set above the mask. -/
theorem and_not_mask_eq_zero_iff {flags : BitVec 64} :
    flags &&& ~~~flagMask.setWidth 64 = 0 ↔ flags.toNat < 0x1000 := by
  have hbit {i : Nat} (hi : i < 64) :
      (flags &&& ~~~flagMask.setWidth 64).getLsbD i = (flags.getLsbD i && !decide (i < 12)) := by
    rw [BitVec.getLsbD_and, BitVec.getLsbD_not, BitVec.getLsbD_setWidth, getLsbD_flagMask]
    simp [hi]
  constructor
  · intro h
    refine Nat.lt_pow_two_of_testBit (n := 12) flags.toNat fun i hi => ?_
    rw [BitVec.testBit_toNat]
    by_cases hi64 : i < 64
    · have hzero := hbit hi64
      rw [h] at hzero
      simpa [Nat.not_lt.2 hi] using hzero.symm
    · exact BitVec.getLsbD_of_ge _ _ (Nat.not_lt.1 hi64)
  · intro h
    apply BitVec.eq_of_getLsbD_eq
    intro i hi
    refine (hbit hi).trans (Eq.trans ?_ BitVec.getLsbD_zero.symm)
    by_cases hi12 : i < 12
    · simp [hi12]
    · have hle : 2 ^ 12 ≤ 2 ^ i := Nat.pow_le_pow_right (by decide) (Nat.not_lt.1 hi12)
      rw [← BitVec.testBit_toNat, Nat.testBit_lt_two_pow (Nat.lt_of_lt_of_le h hle),
        Bool.false_and]

end PageTables

/-! ### Tables in memory -/

namespace PageMap

variable {m : PageMap} {t i page first count : Nat}

theorem size_entries (m : PageMap) : m.entries.toArray.size = pageCount :=
  m.entries.size_toArray

theorem getElem?_table (ht : t < tableCount) :
    (m.table t)[i]? = if i < tableEntries then m.entries[t * tableEntries + i]? else none := by
  have hcount : pageCount = tableCount * tableEntries := rfl
  have hstop : (t + 1) * tableEntries ≤ pageCount := Nat.mul_le_mul_right tableEntries ht
  rw [table, Array.getElem?_extract, size_entries, Nat.min_eq_left hstop, Nat.succ_mul,
    Nat.add_sub_cancel_left, Vector.getElem?_toArray]

theorem getElem?_tables : m.tables[t]? = if t < tableCount then some (m.table t) else none := by
  rw [tables, Array.getElem?_ofFn]
  split <;> rfl

theorem getElem_editPages {f : Nat → Word → Word} (hpage : page < pageCount) :
    (m.editPages first count f).entries[page] =
      if first ≤ page ∧ page < first + count then f (page - first) m.entries[page]
      else m.entries[page] := by
  simp only [editPages, Vector.getElem_mapIdx]

/-- The last of a run of pages can be edited after the others. -/
theorem editPages_succ {f : Nat → Word → Word} :
    m.editPages first (count + 1) f =
      (m.editPages first count f).editPages (first + count) 1 fun _ => f count := by
  refine eq_of_entries rfl rfl fun page hpage => ?_
  rw [getElem_editPages, getElem_editPages, getElem_editPages]
  by_cases hlast : page = first + count
  · subst hlast
    simp
  · have hiff : (first ≤ page ∧ page < first + (count + 1)) ↔
        (first ≤ page ∧ page < first + count) := by omega
    have hno : ¬ (first + count ≤ page ∧ page < first + count + 1) := by omega
    simp only [hiff, hno, if_false]

/-- Tables and the places in them number the pages in their order. -/
theorem eq_page_iff (hi : i < tableEntries) :
    t * tableEntries + i = page ↔ t = page / tableEntries ∧ i = page % tableEntries := by
  rw [tableEntries] at hi ⊢
  omega

theorem lt_pageCount (ht : t < tableCount) (hi : i < tableEntries) :
    t * tableEntries + i < pageCount := by
  have hcount : tableCount = 2 := rfl
  simp only [hcount, tableEntries, pageCount] at ht hi ⊢
  omega

theorem size_table (ht : t < tableCount) : (m.table t).size = tableEntries := by
  have hcount : pageCount = tableCount * tableEntries := rfl
  have hstop : (t + 1) * tableEntries ≤ pageCount := Nat.mul_le_mul_right tableEntries ht
  rw [table, Array.size_extract, size_entries, Nat.min_eq_left hstop, Nat.succ_mul,
    Nat.add_sub_cancel_left]

theorem getElem?_table_editPages_one {f : Word → Word} (ht : t < tableCount)
    (hi : i < tableEntries) (hpage : page < pageCount) :
    ((m.editPages page 1 fun _ => f).table t)[i]? =
      if t = page / tableEntries ∧ i = page % tableEntries then some (f m.entries[page])
      else (m.table t)[i]? := by
  have hlt := lt_pageCount ht hi
  rw [getElem?_table ht, getElem?_table ht, if_pos hi, if_pos hi, Vector.getElem?_eq_getElem hlt,
    Vector.getElem?_eq_getElem hlt, getElem_editPages hlt]
  by_cases heq : t * tableEntries + i = page
  · subst heq
    rw [if_pos ⟨Nat.le_refl _, Nat.lt_succ_self _⟩, if_pos ((eq_page_iff hi).1 rfl)]
  · rw [if_neg (by omega), if_neg (mt (eq_page_iff hi).2 heq)]

theorem table_editPages_one {f : Word → Word} (ht : t < tableCount) (hpage : page < pageCount) :
    (m.editPages page 1 fun _ => f).table t =
      if t = page / tableEntries then
        (m.table t).setIfInBounds (page % tableEntries) (f m.entries[page])
      else m.table t := by
  apply Array.ext_getElem?
  intro i
  by_cases hi : i < tableEntries
  · rw [getElem?_table_editPages_one ht hi hpage]
    by_cases htable : t = page / tableEntries
    · rw [if_pos htable, Array.getElem?_setIfInBounds, size_table ht]
      by_cases hplace : i = page % tableEntries
      · rw [if_pos ⟨htable, hplace⟩, if_pos hplace.symm, if_pos (hplace ▸ hi)]
      · rw [if_neg fun h => hplace h.2, if_neg (Ne.symm hplace)]
    · rw [if_neg fun h => htable h.1, if_neg htable]
  · have hnone (m' : PageMap) : (m'.table t)[i]? = none := by
      rw [getElem?_table ht, if_neg hi]
    have hne : page % tableEntries ≠ i := fun h => hi (h ▸ Nat.mod_lt page (by decide))
    rw [hnone]
    split
    · rw [Array.getElem?_setIfInBounds, if_neg hne, hnone]
    · exact (hnone m).symm

/-- Editing a page edits one entry of one table. -/
theorem tables_editPages_one {f : Word → Word} (hpage : page < pageCount) :
    (m.editPages page 1 fun _ => f).tables =
      m.tables.setIfInBounds (page / tableEntries)
        ((m.table (page / tableEntries)).setIfInBounds (page % tableEntries)
          (f m.entries[page])) := by
  apply Array.ext_getElem?
  intro t
  have hsize : m.tables.size = tableCount := Array.size_ofFn
  rw [Array.getElem?_setIfInBounds, getElem?_tables, getElem?_tables, hsize]
  by_cases ht : t < tableCount
  · rw [if_pos ht, table_editPages_one ht hpage]
    by_cases heq : t = page / tableEntries
    · subst heq
      simp [ht]
    · simp [heq, Ne.symm heq, ht]
  · have hne : page / tableEntries ≠ t := by
      have hcount : pageCount = 2048 := rfl
      have htables : tableCount = 2 := rfl
      rw [tableEntries]
      omega
    rw [if_neg ht, if_neg ht, if_neg hne]

end PageMap

namespace PageTables

open PageMap

variable {m : PageMap} {first count page : Nat}

/-- The entry of a page is found in its table, and edited there. -/
theorem editEntry_tables {f : Word → Strict PagingError Word} {g : Word → Word}
    (hpage : page < pageCount) (hpure : f m.entries[page] = pure (g m.entries[page]))
    {p : BitVec 64} (hp : p.toNat = page) :
    editEntry p f m.tables = pure (m.editPages page 1 fun _ => g).tables := by
  have hcount : pageCount = 2048 := rfl
  have htables : tableCount = 2 := rfl
  have ht : page / tableEntries < tableCount := by
    rw [tableEntries]
    omega
  have hi : page % tableEntries < tableEntries := Nat.mod_lt page (by decide)
  have htable : m.tables[page / tableEntries]? = some (m.table (page / tableEntries)) := by
    rw [getElem?_tables, if_pos ht]
  have hentry : (m.table (page / tableEntries))[page % tableEntries]? = some m.entries[page] := by
    rw [getElem?_table ht, if_pos hi, ← Vector.getElem?_eq_getElem hpage,
      (eq_page_iff hi).2 ⟨rfl, rfl⟩]
  have hsize : page % tableEntries < (m.table (page / tableEntries)).size := by
    rwa [size_table ht]
  have hsizes : page / tableEntries < m.tables.size := by
    rwa [tables, Array.size_ofFn]
  rw [editEntry, hp, fetch_of_some htable, pure_bind, fetch_of_some hentry, pure_bind, hpure,
    pure_bind, store_of_lt hsize, pure_bind, store_of_lt hsizes, tables_editPages_one hpage,
    Array.setIfInBounds, dif_pos hsizes, Array.setIfInBounds, dif_pos hsize]

/-! ### The loop -/

/-- The result of a call, as the tables that it leaves in memory. -/
def inMemory (x : Except PagingError PageMap) : Except PagingError (Unit × PageTables) :=
  x.map fun m => ((), m.tables)

theorem inMemory_bind {α : Type} (x : Except PagingError α) (g : α → Except PagingError PageMap) :
    inMemory (x >>= g) = x >>= fun a => inMemory (g a) := by
  cases x <;> rfl

/-- What a call answers and leaves in memory. -/
theorem outcome_edit (m : PageMap) (e : PageEdit) :
    outcome m.tables (inMemory (m.edit e)) = (m.answer e, (m.after e).tables) := by
  rw [answer, after]
  cases m.edit e <;> rfl

/-- **The loop does not fault**, and edits its pages. -/
theorem on_eachPage {f : BitVec 64 → Word → Strict PagingError Word} {g : Nat → Word → Word}
    (hinside : first + count ≤ pageCount)
    (hpure : ∀ n < count, ∀ e, f (BitVec.ofNat 64 n) e = pure (g n e)) :
    (eachPage (BitVec.ofNat 64 first) (BitVec.ofNat 64 (first + count)) f).on m.tables =
      some (.ok (), (m.editPages first count g).tables) := by
  have hcount : pageCount = 2048 := rfl
  have hfirst : (BitVec.ofNat 64 first).toNat = first := by
    rw [BitVec.toNat_ofNat]
    omega
  have hrange :
      (BitVec.ofNat 64 (first + count)).toNat - (BitVec.ofNat 64 first).toNat = count := by
    rw [hfirst, BitVec.toNat_ofNat]
    omega
  rw [eachPage, hrange]
  clear hrange
  -- induction on the pages that are done
  induction count with
  | zero =>
    have hnone : m.editPages first 0 g = m :=
      eq_of_entries rfl rfl fun page hpage => by
        rw [getElem_editPages hpage, if_neg (by omega)]
    rw [hnone]
    rfl
  | succ count ih =>
    rw [List.range_succ, List.forM_append]
    have hbefore := ih (by omega) fun n hn => hpure n (by omega)
    rw [on_bind_of_ok hbefore, editPages_succ]
    have hpage : (BitVec.ofNat 64 first + BitVec.ofNat 64 count).toNat = first + count := by
      rw [BitVec.toNat_add, hfirst, BitVec.toNat_ofNat]
      omega
    have hlt : first + count < pageCount := by omega
    rw [List.forM_cons, on_bind_of_ok (on_update_of_pure
      (editEntry_tables hlt (hpure count (Nat.lt_succ_self count) _) hpage))]
    rfl

/-! ### Ranges of pages -/

theorem mod_pageBytes_eq_zero_iff {addr : Word} :
    addr % pageBytes = 0 ↔ addr.toNat % pageSize = 0 := by
  rw [BitVec.toNat_inj.symm, BitVec.toNat_umod]
  rfl

/-- Sizes are formed without loss if the count fits a word and the product does not overflow. -/
theorem toNat_size {pages : BitVec 64} (hcount : pages.toNat * pageSize < addressSpace) :
    (pages.setWidth 32 * pageBytes).toNat = pages.toNat * pageSize := by
  rw [pageSize, addressSpace] at hcount
  rw [BitVec.toNat_mul, BitVec.toNat_setWidth]
  change pages.toNat % 2 ^ 32 * 4096 % 2 ^ 32 = pages.toNat * 4096
  omega

/-- The two checks of the count. -/
theorem size_fits_iff {pages : BitVec 64} :
    (pages.toNat < addressSpace ∧ ¬ (pages.setWidth 32 : Word).umulOverflow pageBytes) ↔
      pages.toNat * pageSize < addressSpace := by
  rw [BitVec.umulOverflow, decide_eq_true_eq, BitVec.toNat_setWidth]
  change (pages.toNat < 4294967296 ∧ ¬ pages.toNat % 4294967296 * 4096 ≥ 4294967296) ↔
    pages.toNat * 4096 < 4294967296
  omega

theorem add_fits_iff {addr size : Word} :
    ¬ addr.uaddOverflow size ↔ addr.toNat + size.toNat < addressSpace := by
  rw [BitVec.uaddOverflow, decide_eq_true_eq]
  exact Nat.not_le

/-- The number of a page in 64 bits. -/
theorem setWidth_div_pageBytes (addr : Word) :
    (addr / pageBytes).setWidth 64 = BitVec.ofNat 64 (addr.toNat / pageSize) := by
  apply BitVec.eq_of_toNat_eq
  have haddr := addr.isLt
  rw [BitVec.toNat_setWidth, BitVec.toNat_udiv, BitVec.toNat_ofNat]
  rfl

theorem add_pages {first : Nat} {pages : BitVec 64} (h : first + pages.toNat < addressSpace) :
    (add (BitVec.ofNat 64 first) pages : Strict PagingError (BitVec 64)) =
      pure (BitVec.ofNat 64 (first + pages.toNat)) := by
  have hsum : (BitVec.ofNat 64 first + pages).toNat =
      (BitVec.ofNat 64 first).toNat + pages.toNat := by
    rw [addressSpace] at h
    rw [BitVec.toNat_add, BitVec.toNat_ofNat]
    omega
  rw [add_of_toNat hsum, BitVec.ofNat_add, BitVec.ofNat_toNat, BitVec.setWidth_eq]

/-- **The numbers of the pages do not overflow.** -/
theorem range_eq (addr : Word) (pages : BitVec 64) :
    range addr pages = total ((firstPage addr pages.toNat).map fun first =>
      (BitVec.ofNat 64 first, BitVec.ofNat 64 (first + pages.toNat))) := by
  refine guard_eq_total (fun haligned => ?_) fun hmisaligned => ?_
  · rw [mod_pageBytes_eq_zero_iff] at haligned
    rw [firstPage, ensure_eq_ok_iff.2 haligned]
    dsimp only
    by_cases hspace : addr.toNat + pages.toNat * pageSize < addressSpace
    · have hcount : pages.toNat * pageSize < addressSpace := by omega
      have hsize := toNat_size hcount
      have hfits := hspace
      rw [← hsize] at hfits
      rw [ensure_eq_ok_iff.2 (size_fits_iff.2 hcount), ensure_eq_ok_iff.2 (add_fits_iff.2 hfits),
        ensure_eq_ok_iff.2 hspace]
      have hend : (addr + pages.setWidth 32 * pageBytes).toNat =
          addr.toNat + pages.toNat * pageSize := by
        rw [BitVec.toNat_add, hsize]
        exact Nat.mod_eq_of_lt hspace
      have hpool : addr + pages.setWidth 32 * pageBytes ≤ BitVec.ofNat 32 poolSize ↔
          addr.toNat + pages.toNat * pageSize ≤ poolSize := by
        rw [BitVec.le_def, hend]
        rfl
      refine guard_eq_total (fun hinside => ?_) fun houtside => ?_
      · have hlt : addr.toNat / pageSize + pages.toNat < addressSpace := by
          simp only [pageSize, addressSpace] at hspace ⊢
          omega
        rw [ensure_eq_ok_iff.2 (hpool.1 hinside), setWidth_div_pageBytes, add_pages hlt]
        rfl
      · have hsize' : pages.setWidth 32 * pageBytes = BitVec.ofNat 32 (pages.toNat * pageSize) := by
          rw [← hsize, BitVec.ofNat_toNat, BitVec.setWidth_eq]
        rw [ensure_of_not (mt hpool.2 houtside), hsize']
        rfl
    · rw [ensure_of_not hspace]
      refine guard_eq_total (fun hcount => ?_) fun hcount => rfl
      refine guard_eq_total (fun hfits => ?_) fun hfits => rfl
      rw [add_fits_iff, toNat_size (size_fits_iff.1 hcount)] at hfits
      exact absurd hfits hspace
  · rw [firstPage, ensure_of_not (mt mod_pageBytes_eq_zero_iff.2 hmisaligned)]
    rfl

/-! ### Calls -/

theorem on_range_bind {addr : Word} {pages : BitVec 64}
    {f : BitVec 64 × BitVec 64 → InPlace PageTables PagingError Unit}
    {g : Nat → Except PagingError PageMap}
    (h : ∀ first, PagesInPool addr pages.toNat → first = addr.toNat / pageSize →
      first + pages.toNat ≤ pageCount →
      (f (BitVec.ofNat 64 first, BitVec.ofNat 64 (first + pages.toNat))).on m.tables =
        some (outcome m.tables (inMemory (g first)))) :
    (keep (range addr pages) >>= f).on m.tables =
      some (outcome m.tables (inMemory (firstPage addr pages.toNat >>= g))) := by
  rw [range_eq, inMemory_bind]
  cases hfirst : firstPage addr pages.toNat with
  | error e => rfl
  | ok first =>
    obtain ⟨hpool, heq⟩ := firstPage_eq_ok_iff.1 hfirst
    refine h first hpool heq ?_
    obtain ⟨haligned, hstop⟩ := hpool
    have hcount : pageCount = 2048 := rfl
    simp only [pageSize, poolSize] at haligned hstop heq
    omega

/-- The flags of an entry are replaced under the mask. -/
theorem replace_flags (e : Word) {bits : BitVec 64} (h : bits.toNat < 0x1000) :
    (e &&& ~~~flagMask) ||| bits.setWidth 32 =
      e.extractLsb' 12 20 ++ BitVec.ofNat 12 bits.toNat := by
  have hbits : bits.setWidth 32 = (BitVec.ofNat 12 bits.toNat).setWidth 32 := by
    apply BitVec.eq_of_toNat_eq
    rw [BitVec.toNat_setWidth, BitVec.toNat_setWidth, BitVec.toNat_ofNat]
    omega
  have haligned : (frame e).toNat % pageSize = 0 := by
    rw [toNat_frame, Nat.mul_mod_left]
  rw [and_not_flagMask, hbits]
  apply eq_of_fields
  · rw [frame_or haligned, frame_append]
  · rw [flags_or haligned, flags_append]

/-- The frame of an entry is replaced beside the mask. -/
theorem replace_frame (e : Word) {address : Word} (h : address.toNat % pageSize = 0) :
    address ||| (e &&& flagMask) = address.extractLsb' 12 20 ++ e.extractLsb' 0 12 := by
  rw [and_flagMask]
  apply eq_of_fields
  · rw [frame_or h, frame_append, frame_of_aligned h]
  · rw [flags_or h, flags_append, flags]

theorem on_setFlags (m : PageMap) (addr : Word) (pages bits : BitVec 64) :
    (setFlags addr pages bits).on m.tables =
      some (outcome m.tables (inMemory (m.setFlags addr pages.toNat bits.toNat))) := by
  rw [setFlags, PageMap.setFlags, ensure_congr and_not_mask_eq_zero_iff, inMemory_bind]
  refine on_keep_bind fun _ hbits => on_range_bind fun first _ _ hinside => ?_
  have hbits := ensure_eq_ok_iff.1 hbits
  dsimp only
  refine on_eachPage hinside fun n _ e => ?_
  rw [replace_flags e hbits]

/-- The offset of a page from the first one does not overflow. -/
theorem mul_pageBytes {n : Nat} (hn : n < pageCount) :
    (mul ((BitVec.ofNat 64 n).setWidth 32) pageBytes : Strict PagingError Word) =
      pure (BitVec.ofNat 32 (n * pageSize)) := by
  have hcount : pageCount = 2048 := rfl
  have hword : (BitVec.ofNat 64 n).setWidth 32 = BitVec.ofNat 32 n := by
    apply BitVec.eq_of_toNat_eq
    rw [BitVec.toNat_setWidth, BitVec.toNat_ofNat, BitVec.toNat_ofNat]
    omega
  have hproduct : (BitVec.ofNat 32 n * pageBytes).toNat =
      (BitVec.ofNat 32 n).toNat * pageBytes.toNat := by
    have hbytes : pageBytes.toNat = 4096 := rfl
    rw [BitVec.toNat_mul, BitVec.toNat_ofNat, hbytes]
    omega
  rw [hword, mul_of_toNat hproduct, pageBytes, ← BitVec.ofNat_mul]

theorem offset_lt {frame : Word} {n pages : Nat} (hn : n < pages)
    (hspace : frame.toNat + pages * pageSize < addressSpace) :
    frame.toNat + n * pageSize < addressSpace :=
  Nat.lt_of_le_of_lt
    (Nat.add_le_add_left (Nat.mul_le_mul_right pageSize (Nat.le_of_lt hn)) frame.toNat) hspace

/-- Nor does the address of its frame. -/
theorem add_offset {frame : Word} {n pages : Nat} (hn : n < pages)
    (hspace : frame.toNat + pages * pageSize < addressSpace) :
    (add frame (BitVec.ofNat 32 (n * pageSize)) : Strict PagingError Word) =
      pure (frame + BitVec.ofNat 32 (n * pageSize)) := by
  have hlt := offset_lt hn hspace
  apply add_of_toNat
  rw [toNat_add_ofNat hlt, BitVec.toNat_ofNat, Nat.mod_eq_of_lt]
  exact Nat.lt_of_le_of_lt (Nat.le_add_left _ _) hlt

theorem on_moveWindow (m : PageMap) (addr : Word) (pages : BitVec 64) (frame : Word) :
    (moveWindow addr pages frame).on m.tables =
      some (outcome m.tables (inMemory (m.moveWindow addr pages.toNat frame))) := by
  rw [moveWindow, PageMap.moveWindow]
  refine on_range_bind fun first hpool _ hinside => ?_
  have hcount : pages.toNat * pageSize < addressSpace := by
    obtain ⟨-, hstop⟩ := hpool
    have hlt : poolSize < addressSpace := by decide
    omega
  have hspan : (¬ (pages.setWidth 32 : Word).umulOverflow pageBytes ∧
        ¬ frame.uaddOverflow (pages.setWidth 32 * pageBytes)) ↔
      frame.toNat + pages.toNat * pageSize < addressSpace := by
    rw [and_iff_right (size_fits_iff.2 hcount).2, add_fits_iff, toNat_size hcount]
  dsimp only
  rw [ensure_congr mod_pageBytes_eq_zero_iff, ensure_congr hspan, inMemory_bind]
  refine on_keep_bind fun _ haligned => ?_
  rw [inMemory_bind]
  refine on_keep_bind fun _ hspace => ?_
  have haligned := ensure_eq_ok_iff.1 haligned
  have hspace := ensure_eq_ok_iff.1 hspace
  refine on_eachPage hinside fun n hn e => ?_
  rw [mul_pageBytes (by omega), pure_bind, add_offset hn hspace, pure_bind,
    replace_frame e (aligned_add haligned n)]

end PageTables

/-! ### What is edited -/

namespace PageMap

/-- `m'` is `m` but for the entries of `pages` pages from `addr` on. For the `n`-th of them, `nth`
relates the entry before and the entry after. -/
structure Edited (m m' : PageMap) (addr : Word) (pages : Nat) (nth : Nat → Word → Word → Prop) :
    Prop where
  address : m'.address = m.address
  directory : m'.directory = m.directory
  outside : ∀ (page : Nat) (hpage : page < pageCount),
    ¬ (addr.toNat ≤ 4096 * page ∧ 4096 * page < addr.toNat + 4096 * pages) →
      m'.entries[page] = m.entries[page]
  inside : ∀ n < pages, ∃ page, ∃ hpage : page < pageCount, 4096 * page = addr.toNat + 4096 * n ∧
    nth n m.entries[page] m'.entries[page]

theorem answer_eq_ok_iff {m : PageMap} {e : PageEdit} : m.answer e = .ok () ↔ e.Accepted := by
  rw [answer]
  constructor
  · intro h
    cases hedit : m.edit e with
    | ok m' => exact (edit_eq_ok_iff.1 hedit).1
    | error _ =>
      rw [hedit] at h
      nomatch h
  · intro h
    rw [edit_eq_ok_iff.2 ⟨h, rfl⟩]
    rfl

theorem pagesInPool_iff {addr : Word} {pages : Nat} :
    PagesInPool addr pages ↔
      addr.toNat % 4096 = 0 ∧ addr.toNat + 4096 * pages ≤ 0x800000 := by
  rw [PagesInPool, Nat.mul_comm pages pageSize]
  rfl

theorem edited_after {m : PageMap} {e : PageEdit} {nth : Nat → Word → Word → Prop}
    (haccepted : e.Accepted) (hpool : PagesInPool e.addr e.pages)
    (hnth : ∀ n < e.pages, ∀ entry, nth n entry (e.rewrite n entry)) :
    Edited m (m.after e) e.addr e.pages nth := by
  obtain ⟨haligned, hstop⟩ := pagesInPool_iff.1 hpool
  have hcount : pageCount = 2048 := rfl
  refine ⟨address_after m e, directory_after m e, fun page hpage hout => ?_, fun n hn => ?_⟩
  · have hnotIn : ¬ PageIn e.addr e.pages page := by
      simp only [PageIn, pageSize]
      omega
    rw [getElem_after m e hpage, if_neg fun h => hnotIn h.2]
  · have hpage : e.addr.toNat / pageSize + n < pageCount := by
      rw [pageSize]
      omega
    have hpageIn : PageIn e.addr e.pages (e.addr.toNat / pageSize + n) :=
      ⟨Nat.le_add_right _ _, Nat.add_lt_add_left hn _⟩
    refine ⟨_, hpage, ?_, ?_⟩
    · rw [pageSize]
      omega
    · rw [getElem_after m e hpage, if_pos ⟨haccepted, hpageIn⟩, Nat.add_sub_cancel_left]
      exact hnth n hn _

/-- An accepted edit of flags replaces the flags of its pages. -/
theorem edited_flags (m : PageMap) {e : FlagEdit} (h : e.Accepted) :
    Edited m (m.after (.flags e)) e.addr e.pages fun _ old new =>
      frame new = frame old ∧ (flags new).toNat = e.flags := by
  refine edited_after (e := .flags e) h h.2 fun n _ entry => ⟨?_, ?_⟩
  · exact frame_append _ _
  · refine (congrArg BitVec.toNat (flags_append _ _)).trans ?_
    rw [BitVec.toNat_ofNat]
    exact Nat.mod_eq_of_lt h.1

/-- An accepted move replaces the frames of its pages. -/
theorem edited_window (m : PageMap) {e : WindowMove} (h : e.Accepted) :
    Edited m (m.after (.window e)) e.addr e.pages fun n old new =>
      (frame new).toNat = e.frame.toNat + 4096 * n ∧ flags new = flags old := by
  obtain ⟨hpool, haligned, hspace⟩ := h
  refine edited_after (e := .window e) ⟨hpool, haligned, hspace⟩ hpool fun n hn entry => ⟨?_, ?_⟩
  · have hframe : frame (PageEdit.rewrite (.window e) n entry) =
        e.frame + BitVec.ofNat 32 (n * pageSize) :=
      (frame_append _ _).trans (frame_of_aligned (aligned_add haligned n))
    rw [hframe, toNat_add_ofNat (PageTables.offset_lt hn hspace), Nat.mul_comm n pageSize]
    rfl
  · exact flags_append _ _

/-- **Edits of the page map are exact**, and leave the map if they are refused. Take any map, any
address and any count of 64 bits. To set flags is accepted just if the flags have 12 bits, the
address is aligned to pages and the pages end in the pool. To move them to other frames is accepted
just if both addresses are aligned, the pages end in the pool and the frames below 4 GiB. All sums
are sums of integers. An accepted call edits the pages that it names and nothing else: it replaces
the flags of each and keeps the frame, or sets the frame of the `n`-th to the `n`-th frame and keeps
the flags. And a machine that edits the tables in place and faults on a sum, a product or an index
out of range gives that answer and leaves those tables. -/
theorem edits_exact (m : PageMap) (addr : Word) (pages : BitVec 64) :
    (∀ bits : BitVec 64,
      let call := PageEdit.flags ⟨addr, pages.toNat, bits.toNat⟩
      (m.answer call = .ok () ↔
        bits.toNat < 0x1000 ∧ addr.toNat % 4096 = 0 ∧
          addr.toNat + 4096 * pages.toNat ≤ 0x800000) ∧
      (m.answer call = .ok () →
        Edited m (m.after call) addr pages.toNat fun _ old new =>
          frame new = frame old ∧ (flags new).toNat = bits.toNat) ∧
      (m.answer call ≠ .ok () → m.after call = m) ∧
      (PageTables.setFlags addr pages bits).on m.tables =
        some (m.answer call, (m.after call).tables)) ∧
    ∀ target : Word,
      let call := PageEdit.window ⟨addr, pages.toNat, target⟩
      (m.answer call = .ok () ↔
        addr.toNat % 4096 = 0 ∧ target.toNat % 4096 = 0 ∧
          addr.toNat + 4096 * pages.toNat ≤ 0x800000 ∧
          target.toNat + 4096 * pages.toNat < 0x100000000) ∧
      (m.answer call = .ok () →
        Edited m (m.after call) addr pages.toNat fun n old new =>
          (frame new).toNat = target.toNat + 4096 * n ∧ flags new = flags old) ∧
      (m.answer call ≠ .ok () → m.after call = m) ∧
      (PageTables.moveWindow addr pages target).on m.tables =
        some (m.answer call, (m.after call).tables) := by
  have hrefused (e : PageEdit) (h : m.answer e ≠ .ok ()) : m.after e = m := by
    rw [after_eq, if_neg (mt answer_eq_ok_iff.2 h)]
  constructor
  · intro bits call
    have haccepted : m.answer call = .ok () ↔ bits.toNat < 0x1000 ∧ PagesInPool addr pages.toNat :=
      answer_eq_ok_iff
    refine ⟨?_, fun h => edited_flags m (haccepted.1 h), hrefused call, ?_⟩
    · rw [haccepted, pagesInPool_iff]
    · rw [PageTables.on_setFlags, ← PageTables.outcome_edit]
      rfl
  · intro target call
    have haccepted : m.answer call = .ok () ↔ PagesInPool addr pages.toNat ∧
        target.toNat % pageSize = 0 ∧ target.toNat + pages.toNat * pageSize < addressSpace :=
      answer_eq_ok_iff
    refine ⟨?_, fun h => edited_window m (haccepted.1 h), hrefused call, ?_⟩
    · rw [haccepted, pagesInPool_iff, Nat.mul_comm pages.toNat pageSize]
      exact ⟨fun ⟨⟨haddr, hstop⟩, htarget, hspace⟩ => ⟨haddr, htarget, hstop, hspace⟩,
        fun ⟨haddr, htarget, hstop, hspace⟩ => ⟨⟨haddr, hstop⟩, htarget, hspace⟩⟩
    · rw [PageTables.on_moveWindow, ← PageTables.outcome_edit]
      rfl

/-- No page may be moved to the last frame of all, as its end is not an address. Nothing may. -/
example (m : PageMap) :
    m.answer (.window ⟨0x7FF000, 1, 0xFFFFF000⟩) = .error (.sizeOverflow 0xFFFFF000 1) ∧
      m.answer (.window ⟨0x800000, 0, 0xFFFFF000⟩) = .ok () :=
  ⟨rfl, rfl⟩

end PageMap

end FourRings
