import FourRings.Paging.Walk

/-!
# The identity map

What the processor finds in the map that `PageMap.identity` builds, whatever was in its memory.
`identity_walks` is the main statement: walks lead every address of the pool to its own frame, with
the access that its page allows, and no other address anywhere. Hence the users read all of the part
of memory that is shared, nobody writes it, and what belongs to the supervisor stays closed to them.

The flags of an entry and the address in it do not touch, so each is read back alone (`flags_or`,
`frame_or`). A walk is then followed through the memory of the map, one level at a time.
-/

namespace FourRings

open MemoryMap

/-! ### Entries -/

namespace PageEntry

theorem toNat_frame (e : Word) : (frame e).toNat = e.toNat / pageSize * pageSize := by
  have he := e.isLt
  rw [frame, BitVec.toNat_append, BitVec.extractLsb'_toNat, Nat.shiftRight_eq_div_pow,
    Nat.shiftLeft_eq]
  change e.toNat / 4096 % 1048576 * 4096 ||| 0 = e.toNat / 4096 * 4096
  rw [Nat.or_zero]
  omega

theorem toNat_flags (e : Word) : (flags e).toNat = e.toNat % pageSize := by
  rw [flags, BitVec.extractLsb'_toNat, Nat.shiftRight_zero]
  rfl

theorem frame_of_aligned {e : Word} (h : e.toNat % pageSize = 0) : frame e = e := by
  apply BitVec.eq_of_toNat_eq
  rw [toNat_frame]
  exact Nat.div_mul_cancel (Nat.dvd_of_mod_eq_zero h)

/-- Flags that are put on an address are read back. -/
theorem flags_or {e : Word} (h : e.toNat % pageSize = 0) (f : BitVec 12) :
    flags (e ||| f.setWidth 32) = f := by
  have hflags : e.extractLsb' 0 12 = 0#12 := by
    apply BitVec.eq_of_toNat_eq
    exact (toNat_flags e).trans h
  rw [flags, BitVec.extractLsb'_or, hflags, BitVec.zero_or,
    BitVec.extractLsb'_setWidth_of_le (by decide), BitVec.extractLsb'_eq_self]

/-- So is the address. -/
theorem frame_or {e : Word} (h : e.toNat % pageSize = 0) (f : BitVec 12) :
    frame (e ||| f.setWidth 32) = e := by
  have hf := f.isLt
  have hflags : (f.setWidth 32).extractLsb' 12 20 = 0#20 := by
    apply BitVec.eq_of_toNat_eq
    rw [BitVec.extractLsb'_toNat, BitVec.toNat_setWidth, Nat.shiftRight_eq_div_pow]
    change f.toNat % 4294967296 / 4096 % 1048576 = 0
    omega
  rw [frame, BitVec.extractLsb'_or, hflags, BitVec.or_zero]
  exact frame_of_aligned h

end PageEntry

namespace PageMap

open PageEntry

variable {m : PageMap} {shared : AddressRange}

/-! ### The map in memory -/

/-- A place in memory for a page map: whole pages, within the address space. -/
structure Placed (m : PageMap) : Prop where
  aligned : m.address.toNat % pageSize = 0
  fits : m.address.toNat + (tableCount + 1) * pageSize ≤ addressSpace

theorem toNat_tableAddress (h : m.Placed) {table : Nat} (htable : table < tableCount) :
    (m.tableAddress table).toNat = m.address.toNat + pageSize * (table + 1) := by
  have hfits := h.fits
  have hcount : tableCount = 2 := rfl
  simp only [hcount, pageSize, addressSpace] at htable hfits ⊢
  rw [tableAddress, BitVec.toNat_add, BitVec.toNat_ofNat, pageSize]
  omega

theorem tableAddress_aligned (h : m.Placed) {table : Nat} (htable : table < tableCount) :
    (m.tableAddress table).toNat % pageSize = 0 := by
  rw [toNat_tableAddress h htable, Nat.add_mul_mod_self_left]
  exact h.aligned

theorem word?_directory (h : m.Placed) {i : Nat} (hi : i < tableEntries) :
    m.word? (m.address.toNat + 4 * i) = m.directory[i]? := by
  have haligned := h.aligned
  simp only [pageSize] at haligned
  have hindex : (m.address.toNat + 4 * i - m.address.toNat) / 4 = i := by omega
  have hinside : ¬ (m.address.toNat + 4 * i < m.address.toNat ∨
      (m.address.toNat + 4 * i) % 4 ≠ 0) := by omega
  rw [word?, if_neg hinside]
  dsimp only
  rw [hindex, if_pos hi]

theorem word?_table (h : m.Placed) {table i : Nat} :
    m.word? (m.address.toNat + pageSize * (table + 1) + 4 * i) =
      m.entries[table * tableEntries + i]? := by
  have haligned := h.aligned
  simp only [pageSize, tableEntries] at haligned ⊢
  have hindex : (m.address.toNat + 4096 * (table + 1) + 4 * i - m.address.toNat) / 4 =
      1024 + (table * 1024 + i) := by omega
  have hinside : ¬ (m.address.toNat + 4096 * (table + 1) + 4 * i < m.address.toNat ∨
      (m.address.toNat + 4096 * (table + 1) + 4 * i) % 4 ≠ 0) := by omega
  rw [word?, if_neg hinside]
  dsimp only
  rw [hindex, if_neg (by rw [tableEntries]; omega), tableEntries, Nat.add_sub_cancel_left]

/-! ### Walks -/

theorem guard_bind_eq_some_iff {α : Type} {p : Prop} [Decidable p] {x : Option α} {a : α} :
    (do guard p; x) = some a ↔ p ∧ x = some a := by
  unfold guard
  split
  · rename_i h
    exact (and_iff_right h).symm
  · rename_i h
    exact iff_of_false nofun fun hc => h hc.1

/-- A walk finds two present entries, the second where the first one says. -/
theorem walk?_eq_some_iff {a : Word} {w : Walk} :
    m.walk? a = some w ↔
      m.word? ((frame m.address).toNat + 4 * (a.extractLsb' 22 10).toNat) =
        some w.directoryEntry ∧ present w.directoryEntry = true ∧
      m.word? ((frame w.directoryEntry).toNat + 4 * (a.extractLsb' 12 10).toNat) =
        some w.tableEntry ∧ present w.tableEntry = true := by
  unfold walk?
  constructor
  · intro h
    obtain ⟨d, hd, h⟩ := Option.bind_eq_some_iff.1 h
    obtain ⟨hdpresent, h⟩ := guard_bind_eq_some_iff.1 h
    obtain ⟨e, he, h⟩ := Option.bind_eq_some_iff.1 h
    obtain ⟨hepresent, h⟩ := guard_bind_eq_some_iff.1 h
    cases h
    exact ⟨hd, hdpresent, he, hepresent⟩
  · rintro ⟨hd, hdpresent, he, hepresent⟩
    exact Option.bind_eq_some_iff.2 ⟨_, hd, guard_bind_eq_some_iff.2 ⟨hdpresent,
      Option.bind_eq_some_iff.2 ⟨_, he, guard_bind_eq_some_iff.2 ⟨hepresent, rfl⟩⟩⟩⟩

theorem toNat_directoryIndex (a : Word) : (a.extractLsb' 22 10).toNat = (a >>> 22).toNat := by
  have ha := a.isLt
  rw [BitVec.extractLsb'_toNat, BitVec.toNat_ushiftRight, Nat.shiftRight_eq_div_pow]
  omega

theorem toNat_tableIndex (a : Word) :
    (a.extractLsb' 12 10).toNat = a.toNat / pageSize % tableEntries := by
  rw [BitVec.extractLsb'_toNat, Nat.shiftRight_eq_div_pow]
  rfl

/-- Tables and the entries in them number the pages in their order. -/
theorem page_eq (a : Word) :
    (a >>> 22).toNat * tableEntries + a.toNat / pageSize % tableEntries = a.toNat / pageSize := by
  rw [BitVec.toNat_ushiftRight, Nat.shiftRight_eq_div_pow]
  change a.toNat / 4194304 * 1024 + a.toNat / 4096 % 1024 = a.toNat / 4096
  omega

/-- The first entry of a walk is the one in the directory. -/
theorem word?_directoryEntry (h : m.Placed) (a : Word) :
    m.word? ((frame m.address).toNat + 4 * (a.extractLsb' 22 10).toNat) =
      m.directory[(a >>> 22).toNat]? := by
  have hindex : (a >>> 22).toNat < tableEntries := by
    rw [← toNat_directoryIndex]
    exact (a.extractLsb' 22 10).isLt
  rw [frame_of_aligned h.aligned, toNat_directoryIndex, word?_directory h hindex]

/-- Where the directory names the table of the address, the second entry is that of the page. -/
theorem word?_tableEntry (h : m.Placed) {a d : Word} (htable : (a >>> 22).toNat < tableCount)
    (hd : frame d = m.tableAddress (a >>> 22).toNat) :
    m.word? ((frame d).toNat + 4 * (a.extractLsb' 12 10).toNat) =
      m.entries[a.toNat / pageSize]? := by
  rw [hd, toNat_tableAddress h htable, toNat_tableIndex, word?_table h, page_eq]

/-! ### The map that is built -/

/-- Every page is present. -/
theorem identityFlags_present (addr : Nat) : (identityFlags shared addr).getLsbD 0 = true := by
  unfold identityFlags
  split
  · rfl
  · split <;> rfl

/-- A page is open to the users unless the supervisor keeps it. -/
theorem identityFlags_user {addr : Nat} :
    (identityFlags shared addr).getLsbD 2 = true ↔ ¬ SupervisorOnly addr := by
  unfold identityFlags
  split
  · rename_i h
    exact iff_of_false nofun (not_not_intro h)
  · rename_i h
    split <;> exact iff_of_true rfl h

/-- A page is closed to writers if it is shared with the users. -/
theorem identityFlags_writable {addr : Nat} :
    (identityFlags shared addr).getLsbD 1 = false ↔ ¬ SupervisorOnly addr ∧ addr ∈ shared := by
  unfold identityFlags
  split
  · rename_i h
    exact iff_of_false nofun fun hc => hc.1 h
  · rename_i h
    split
    · rename_i hshared
      exact iff_of_true rfl ⟨h, hshared⟩
    · rename_i hshared
      exact iff_of_false nofun fun hc => hshared hc.2

@[simp] theorem address_identity (m : PageMap) (shared : AddressRange) :
    (m.identity shared).address = m.address := by
  rw [identity]

@[simp] theorem tableAddress_identity (m : PageMap) (shared : AddressRange) (table : Nat) :
    (m.identity shared).tableAddress table = m.tableAddress table := by
  rw [tableAddress, tableAddress, address_identity]

theorem Placed.identity (h : m.Placed) (shared : AddressRange) : (m.identity shared).Placed where
  aligned := by rw [address_identity]; exact h.aligned
  fits := by rw [address_identity]; exact h.fits

/-- Nothing but the address of the map is left of what it was. -/
theorem identity_congr {m' : PageMap} (h : m'.address = m.address) (shared : AddressRange) :
    m'.identity shared = m.identity shared := by
  unfold identity tableAddress
  rw [h]

theorem directory_identity_of_lt (m : PageMap) (shared : AddressRange) {i : Nat}
    (hi : i < tableCount) :
    (m.identity shared).directory[i]? =
      some (m.tableAddress i ||| PageFlags.user.setWidth 32) := by
  have hentries : i < tableEntries := Nat.lt_trans hi (by decide)
  rw [Vector.getElem?_eq_getElem hentries]
  unfold identity
  rw [Vector.getElem_ofFn, if_pos hi]

theorem directory_identity_of_le (m : PageMap) (shared : AddressRange) {i : Nat}
    (hi : tableCount ≤ i) (hentries : i < tableEntries) :
    (m.identity shared).directory[i]? = some 0 := by
  rw [Vector.getElem?_eq_getElem hentries]
  unfold identity
  rw [Vector.getElem_ofFn, if_neg (Nat.not_lt.2 hi)]

/-- The entry of a page names the page itself. -/
theorem getElem_identity (m : PageMap) (shared : AddressRange) {page : Nat}
    (hpage : page < pageCount) :
    (m.identity shared).entries[page] = BitVec.ofNat 32 (page * pageSize) |||
      (identityFlags shared (page * pageSize)).setWidth 32 := by
  unfold identity
  rw [Vector.getElem_ofFn]

theorem entries_identity (m : PageMap) (shared : AddressRange) {a : Word}
    (ha : a.toNat < poolSize) :
    (m.identity shared).entries[a.toNat / pageSize]? =
      some (frame a ||| (identityFlags shared (frame a).toNat).setWidth 32) := by
  have hpage : a.toNat / pageSize < pageCount := by
    change a.toNat < 8388608 at ha
    change a.toNat / 4096 < 2048
    omega
  have hframe : BitVec.ofNat 32 (a.toNat / pageSize * pageSize) = frame a := by
    rw [← toNat_frame, BitVec.ofNat_toNat, BitVec.setWidth_eq]
  rw [Vector.getElem?_eq_getElem hpage, getElem_identity m shared hpage, hframe, ← toNat_frame]

/-! ### Walks of the identity map -/

/-- A walk that leads `a` to its own frame: through an open entry of the directory that names the
table of `a`, to an entry with the access that the page of `a` allows. -/
structure LeadsToSelf (map : PageMap) (shared : AddressRange) (a : Word) (w : Walk) : Prop where
  walk : map.walk? a = some w
  slot : map.directory[(a >>> 22).toNat]? = some w.directoryEntry
  table : frame w.directoryEntry = map.tableAddress (a >>> 22).toNat
  directory_present : present w.directoryEntry = true
  directory_user : userAccessible w.directoryEntry = true
  directory_writable : writable w.directoryEntry = true
  self : frame w.tableEntry = frame a
  present : present w.tableEntry = true
  user : userAccessible w.tableEntry = true ↔ ¬ SupervisorOnly (frame a).toNat
  readOnly : writable w.tableEntry = false ↔
    ¬ SupervisorOnly (frame a).toNat ∧ (frame a).toNat ∈ shared

/-- **Every address of the pool leads to itself.** -/
theorem exists_leadsToSelf (h : m.Placed) (shared : AddressRange) {a : Word}
    (ha : a.toNat < poolSize) : ∃ w, LeadsToSelf (m.identity shared) shared a w := by
  have htable : (a >>> 22).toNat < tableCount := by
    rw [BitVec.toNat_ushiftRight, Nat.shiftRight_eq_div_pow]
    change a.toNat < 8388608 at ha
    change a.toNat / 4194304 < 2
    omega
  have hplaced := h.identity shared
  have htableAligned := tableAddress_aligned h htable
  have hframeAligned : (frame a).toNat % pageSize = 0 := by
    rw [toNat_frame, Nat.mul_mod_left]
  have hdirectoryFlags := flags_or htableAligned PageFlags.user
  have hdirectoryFrame := frame_or htableAligned PageFlags.user
  have htableFlags := flags_or hframeAligned (identityFlags shared (frame a).toNat)
  have htableFrame := frame_or hframeAligned (identityFlags shared (frame a).toNat)
  have hslot := directory_identity_of_lt m shared htable
  have hentry := entries_identity m shared ha
  -- from here on the two entries are known by their fields alone
  generalize m.tableAddress (a >>> 22).toNat ||| PageFlags.user.setWidth 32 = d at *
  generalize frame a ||| (identityFlags shared (frame a).toNat).setWidth 32 = e at *
  have hnames : frame d = (m.identity shared).tableAddress (a >>> 22).toNat := by
    rw [hdirectoryFrame, tableAddress_identity]
  have hfirst := (word?_directoryEntry hplaced a).trans hslot
  have hsecond := (word?_tableEntry hplaced htable hnames).trans hentry
  have hd : present d = true := by
    rw [present, hdirectoryFlags]
    rfl
  have he : present e = true := by
    rw [present, htableFlags, identityFlags_present]
  refine ⟨⟨d, e⟩, walk?_eq_some_iff.2 ⟨hfirst, hd, hsecond, he⟩, hslot, hnames, hd, ?_, ?_,
    htableFrame, he, ?_, ?_⟩
  · rw [userAccessible, hdirectoryFlags]
    rfl
  · rw [writable, hdirectoryFlags]
    rfl
  · rw [userAccessible, htableFlags]
    exact identityFlags_user
  · rw [writable, htableFlags]
    exact identityFlags_writable

/-- No address past the pool leads anywhere. -/
theorem walk?_identity_of_le (h : m.Placed) (shared : AddressRange) {a : Word}
    (ha : poolSize ≤ a.toNat) :
    (m.identity shared).directory[(a >>> 22).toNat]? = some 0 ∧
      (m.identity shared).walk? a = none := by
  have hplaced := h.identity shared
  have hindex : tableCount ≤ (a >>> 22).toNat ∧ (a >>> 22).toNat < tableEntries := by
    have hlt := a.isLt
    rw [BitVec.toNat_ushiftRight, Nat.shiftRight_eq_div_pow]
    change 8388608 ≤ a.toNat at ha
    change 2 ≤ a.toNat / 4194304 ∧ a.toNat / 4194304 < 1024
    omega
  have hslot := directory_identity_of_le m shared hindex.1 hindex.2
  refine ⟨hslot, Option.eq_none_iff_forall_ne_some.2 fun w hw => ?_⟩
  obtain ⟨hfirst, hpresent, -⟩ := walk?_eq_some_iff.1 hw
  rw [word?_directoryEntry hplaced, hslot] at hfirst
  rw [← Option.some.inj hfirst] at hpresent
  cases hpresent

/-! ### Access -/

namespace LeadsToSelf

variable {map : PageMap} {a : Word} {w : Walk} {r : Ring}

theorem readable_iff (h : LeadsToSelf map shared a w) :
    map.Readable r a ↔ (r = .users → ¬ SupervisorOnly (frame a).toNat) := by
  constructor
  · rintro ⟨w', hw', hread⟩ hr
    obtain rfl := Option.some.inj (h.walk.symm.trans hw')
    exact h.user.1 (hread hr).2
  · intro hopen
    exact ⟨w, h.walk, fun hr => ⟨h.directory_user, h.user.2 (hopen hr)⟩⟩

theorem not_writable (h : LeadsToSelf map shared a w) (hopen : ¬ SupervisorOnly (frame a).toNat)
    (hshared : (frame a).toNat ∈ shared) : ¬ map.Writable r a := by
  rintro ⟨w', hw', -, -, hwrite⟩
  obtain rfl := Option.some.inj (h.walk.symm.trans hw')
  cases hwrite.symm.trans (h.readOnly.2 ⟨hopen, hshared⟩)

end LeadsToSelf

/-- What the supervisor keeps consists of whole pages. -/
theorem supervisorOnly_frame {a : Word} :
    SupervisorOnly (frame a).toNat ↔ SupervisorOnly a.toNat := by
  have hlow : lowMemoryEnd = 256 * pageSize := rfl
  have hstart : supervisorStart = 1983 * pageSize := rfl
  rw [toNat_frame, SupervisorOnly, SupervisorOnly, hlow, hstart]
  simp only [pageSize]
  omega

/-- A range that starts with a page holds the page of each of its addresses. -/
theorem frame_mem {a : Word} (hstart : shared.start % pageSize = 0) (ha : a.toNat ∈ shared) :
    (frame a).toNat ∈ shared := by
  rw [AddressRange.mem_iff] at ha ⊢
  rw [toNat_frame]
  simp only [pageSize] at hstart ⊢
  omega

/-- **The identity map leads every address of the pool to itself, and no other anywhere.** Whatever
was in a map before, the walk of an address of the pool goes through an entry of the directory that
is open to all and names the table of the address, and ends in its own frame with the access of its
page: what belongs to the supervisor holds the users off, and what is shared with the users nobody
writes. Directory entries past the pool are empty. What is built depends on the address of the map
and on the shared range alone; if that starts with a page, the users read every byte of it that is
not the supervisor's and no ring writes it; and whatever it is, no byte of the supervisor's is open
to the users. -/
theorem identity_walks (m : PageMap) (h : m.Placed) (shared : AddressRange) :
    let map := m.identity shared
    (∀ a : Word, a.toNat < poolSize → ∃ w, LeadsToSelf map shared a w) ∧
    (∀ a : Word, poolSize ≤ a.toNat →
      map.directory[(a >>> 22).toNat]? = some 0 ∧ map.walk? a = none) ∧
    (∀ m' : PageMap, m'.address = m.address → m'.identity shared = map) ∧
    (shared.start % pageSize = 0 → ∀ a : Word, a.toNat ∈ shared → ¬ SupervisorOnly a.toNat →
      map.Readable .users a ∧ ∀ r, ¬ map.Writable r a) ∧
    ∀ a : Word, SupervisorOnly a.toNat → ¬ map.Readable .users a := by
  intro map
  refine ⟨fun a => exists_leadsToSelf h shared, fun a => walk?_identity_of_le h shared,
    fun m' hm' => identity_congr hm' shared, fun hstart a hshared hopen => ?_,
    fun a hclosed hread => ?_⟩
  · have ha : a.toNat < poolSize := by
      have hstop : supervisorStart < poolSize := by decide
      have hbelow : ¬ supervisorStart ≤ a.toNat := fun hc => hopen (.inr hc)
      omega
    obtain ⟨w, hw⟩ := exists_leadsToSelf h shared ha
    have hpage : ¬ SupervisorOnly (frame a).toNat := mt supervisorOnly_frame.1 hopen
    exact ⟨hw.readable_iff.2 fun _ => hpage,
      fun r => hw.not_writable hpage (frame_mem hstart hshared)⟩
  · rcases Nat.lt_or_ge a.toNat poolSize with ha | ha
    · obtain ⟨w, hw⟩ := exists_leadsToSelf h shared ha
      exact hw.readable_iff.1 hread rfl (supervisorOnly_frame.2 hclosed)
    · obtain ⟨w, hw, -⟩ := hread
      cases hw.symm.trans (walk?_identity_of_le h shared ha).2

/-- The image of the boot loader as it is shared, with a start on a page and an end within one. -/
def sharedImage : AddressRange := ⟨imageStart, imageStart + 0x1234⟩

theorem identity_walks_sharedImage :
    let m := empty 0x900000
    let map := m.identity sharedImage
    m.Placed ∧ (∃ w, LeadsToSelf map sharedImage 0x7FFFFF w) ∧ map.walk? 0x800000 = none ∧
      (map.identity sharedImage = map) ∧
      (map.Readable .users 0x201233 ∧ ∀ r, ¬ map.Writable r 0x201233) ∧
      ¬ map.Readable .users 0x7BF000 := by
  intro m map
  have hplaced : m.Placed := ⟨by decide, by decide⟩
  obtain ⟨hself, hpast, hcongr, hshared, hclosed⟩ := identity_walks m hplaced sharedImage
  exact ⟨hplaced, hself 0x7FFFFF (by decide), (hpast 0x800000 (by decide)).2,
    hcongr map (address_identity m sharedImage),
    hshared (by decide) 0x201233 (by decide) (by decide), hclosed 0x7BF000 (by decide)⟩

end PageMap

end FourRings
