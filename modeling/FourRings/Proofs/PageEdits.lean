import FourRings.Proofs.IdentityMap

/-!
# Edits of the page map

Two calls edit a page map: one sets the flags of a run of pages, the other moves a run of pages to
other frames. `edits_do_not_interfere` is the main statement: however calls of both kinds follow one
another, the flags that result are those of the first kind alone and the frames those of the second,
and each call has the answer that it would have had at the start. So the pages that the supervisor
keeps or that are shared stay closed however windows are moved.

An entry consists of its flags and its frame (`PageEntry.eq_of_fields`). What a call does to the one
and to the other is said by `PageEdit.flagsAt` and `PageEdit.frameAt`, without the map.
-/

namespace FourRings

open MemoryMap

/-- A call to set the flags of `pages` pages from `addr` on. -/
structure FlagEdit where
  addr : Word
  pages : Nat
  flags : Nat
deriving DecidableEq, Repr

/-- A call to move `pages` pages from `addr` on to the frames from `frame` on. -/
structure WindowMove where
  addr : Word
  pages : Nat
  frame : Word
deriving DecidableEq, Repr

/-- A call to edit a page map. -/
inductive PageEdit where
  | flags (e : FlagEdit)
  | window (e : WindowMove)
deriving DecidableEq, Repr

/-! ### Runs of calls -/

namespace PageMap

def edit (m : PageMap) : PageEdit → Except PagingError PageMap
  | .flags e => m.setFlags e.addr e.pages e.flags
  | .window e => m.moveWindow e.addr e.pages e.frame

/-- What a call answers. -/
def answer (m : PageMap) (e : PageEdit) : Except PagingError Unit := (m.edit e).map fun _ => ()

/-- The map after a call. -/
def after (m : PageMap) (e : PageEdit) : PageMap := (m.edit e).toOption.getD m

/-- The map after a sequence of calls. -/
def run (m : PageMap) (l : List PageEdit) : PageMap := l.foldl after m

/-- The answers to a sequence of calls. -/
def answers (m : PageMap) : List PageEdit → List (Except PagingError Unit)
  | [] => []
  | e :: l => m.answer e :: (m.after e).answers l

end PageMap

/-- `l` consists of the calls `F` and `V`, each kind in its order. -/
inductive Interleaves : List PageEdit → List FlagEdit → List WindowMove → Prop
  | nil : Interleaves [] [] []
  | flags {l F V} (e : FlagEdit) : Interleaves l F V → Interleaves (.flags e :: l) (e :: F) V
  | window {l F V} (e : WindowMove) : Interleaves l F V → Interleaves (.window e :: l) F (e :: V)

namespace Interleaves

theorem flagEdits (F : List FlagEdit) : Interleaves (F.map .flags) F [] := by
  induction F with
  | nil => exact .nil
  | cons e F ih => exact .flags e ih

theorem windowMoves (V : List WindowMove) : Interleaves (V.map .window) [] V := by
  induction V with
  | nil => exact .nil
  | cons e V ih => exact .window e ih

end Interleaves

/-! ### What a call asks of a page -/

/-- A block of whole pages in the pool. -/
def PagesInPool (addr : Word) (pages : Nat) : Prop :=
  addr.toNat % pageSize = 0 ∧ addr.toNat + pages * pageSize ≤ poolSize

/-- Whether a page is one of `pages` pages from `addr` on. -/
def PageIn (addr : Word) (pages page : Nat) : Prop :=
  addr.toNat / pageSize ≤ page ∧ page < addr.toNat / pageSize + pages

instance (addr : Word) (pages : Nat) : Decidable (PagesInPool addr pages) :=
  inferInstanceAs (Decidable (_ ∧ _))

instance (addr : Word) (pages page : Nat) : Decidable (PageIn addr pages page) :=
  inferInstanceAs (Decidable (_ ∧ _))

namespace FlagEdit

/-- When the call is accepted. -/
def Accepted (e : FlagEdit) : Prop := e.flags < 0x1000 ∧ PagesInPool e.addr e.pages

instance (e : FlagEdit) : Decidable e.Accepted := inferInstanceAs (Decidable (_ ∧ _))

/-- The flags of a page after the call. -/
def flagsAt (e : FlagEdit) (page : Nat) (old : BitVec 12) : BitVec 12 :=
  if e.Accepted ∧ PageIn e.addr e.pages page then BitVec.ofNat 12 e.flags else old

end FlagEdit

namespace WindowMove

/-- When the call is accepted. -/
def Accepted (e : WindowMove) : Prop :=
  PagesInPool e.addr e.pages ∧ e.frame.toNat % pageSize = 0 ∧
    e.frame.toNat + e.pages * pageSize < addressSpace

instance (e : WindowMove) : Decidable e.Accepted := inferInstanceAs (Decidable (_ ∧ _))

/-- The frame of a page after the call. -/
def frameAt (e : WindowMove) (page : Nat) (old : Word) : Word :=
  if e.Accepted ∧ PageIn e.addr e.pages page then
    e.frame + BitVec.ofNat 32 ((page - e.addr.toNat / pageSize) * pageSize)
  else old

end WindowMove

namespace PageEdit

def Accepted : PageEdit → Prop
  | .flags e => e.Accepted
  | .window e => e.Accepted

instance : (e : PageEdit) → Decidable e.Accepted
  | .flags e => inferInstanceAs (Decidable e.Accepted)
  | .window e => inferInstanceAs (Decidable e.Accepted)

def addr : PageEdit → Word
  | .flags e => e.addr
  | .window e => e.addr

def pages : PageEdit → Nat
  | .flags e => e.pages
  | .window e => e.pages

/-- What becomes of the entry of the `n`-th page. -/
def rewrite : PageEdit → Nat → Word → Word
  | .flags e, _, entry => entry.extractLsb' 12 20 ++ BitVec.ofNat 12 e.flags
  | .window e, n, entry =>
    (e.frame + BitVec.ofNat 32 (n * pageSize)).extractLsb' 12 20 ++ entry.extractLsb' 0 12

/-- The flags of a page after a call. Moves keep them. -/
def flagsAt : PageEdit → Nat → BitVec 12 → BitVec 12
  | .flags e, page, old => e.flagsAt page old
  | .window _, _, old => old

/-- The frame of a page after a call. Edits of flags keep it. -/
def frameAt : PageEdit → Nat → Word → Word
  | .flags _, _, old => old
  | .window e, page, old => e.frameAt page old

end PageEdit

namespace PageEntry

theorem flags_append (frame : BitVec 20) (flags : BitVec 12) :
    PageEntry.flags (frame ++ flags) = flags :=
  BitVec.extractLsb'_append_eq_right

theorem frame_append (e : Word) (flags : BitVec 12) :
    frame (e.extractLsb' 12 20 ++ flags) = frame e := by
  have hframe : (e.extractLsb' 12 20 ++ flags).extractLsb' 12 20 = e.extractLsb' 12 20 :=
    BitVec.extractLsb'_append_eq_left
  rw [frame, hframe, frame]

/-- Pages after an aligned one are aligned. -/
theorem aligned_add {addr : Word} (h : addr.toNat % pageSize = 0) (n : Nat) :
    (addr + BitVec.ofNat 32 (n * pageSize)).toNat % pageSize = 0 := by
  simp only [pageSize, BitVec.toNat_add, BitVec.toNat_ofNat] at h ⊢
  omega

theorem eq_of_fields {e e' : Word} (hframe : frame e = frame e') (hflags : flags e = flags e') :
    e = e' := by
  have h₁ := congrArg BitVec.toNat hframe
  have h₂ := congrArg BitVec.toNat hflags
  rw [toNat_frame, toNat_frame] at h₁
  rw [toNat_flags, toNat_flags] at h₂
  apply BitVec.eq_of_toNat_eq
  rw [← Nat.div_add_mod' e.toNat pageSize, h₁, h₂, Nat.div_add_mod']

end PageEntry

namespace PageMap

open PageEntry

variable {m m' : PageMap}

/-! ### One call -/

theorem firstPage_eq_ok_iff {addr : Word} {pages first : Nat} :
    firstPage addr pages = .ok first ↔
      PagesInPool addr pages ∧ first = addr.toNat / pageSize := by
  have hpool : poolSize < addressSpace := by decide
  simp only [firstPage, seq_eq_ok_iff, ensure_eq_ok_iff, PagesInPool]
  constructor
  · rintro ⟨haligned, -, hinside, hfirst⟩
    exact ⟨⟨haligned, hinside⟩, (Except.ok.inj hfirst).symm⟩
  · rintro ⟨⟨haligned, hinside⟩, rfl⟩
    exact ⟨haligned, Nat.lt_of_le_of_lt hinside hpool, hinside, rfl⟩

/-- **What a call does**, if it is accepted: it rewrites the entries of its pages. -/
theorem edit_eq_ok_iff {e : PageEdit} :
    m.edit e = .ok m' ↔
      e.Accepted ∧ m' = m.editPages (e.addr.toNat / pageSize) e.pages e.rewrite := by
  cases e with
  | flags e =>
    change m.setFlags e.addr e.pages e.flags = .ok m' ↔ e.Accepted ∧ _
    rw [setFlags, seq_eq_ok_iff, ensure_eq_ok_iff, bind_eq_ok_iff, FlagEdit.Accepted]
    simp only [firstPage_eq_ok_iff]
    constructor
    · rintro ⟨hflags, first, ⟨hpages, rfl⟩, hm'⟩
      exact ⟨⟨hflags, hpages⟩, (Except.ok.inj hm').symm⟩
    · rintro ⟨⟨hflags, hpages⟩, rfl⟩
      exact ⟨hflags, _, ⟨hpages, rfl⟩, rfl⟩
  | window e =>
    change m.moveWindow e.addr e.pages e.frame = .ok m' ↔ e.Accepted ∧ _
    rw [moveWindow, bind_eq_ok_iff, WindowMove.Accepted]
    simp only [seq_eq_ok_iff, ensure_eq_ok_iff, firstPage_eq_ok_iff]
    constructor
    · rintro ⟨first, ⟨hpages, rfl⟩, haligned, hspace, hm'⟩
      exact ⟨⟨hpages, haligned, hspace⟩, (Except.ok.inj hm').symm⟩
    · rintro ⟨⟨hpages, haligned, hspace⟩, rfl⟩
      exact ⟨_, ⟨hpages, rfl⟩, haligned, hspace, rfl⟩

theorem after_eq (m : PageMap) (e : PageEdit) :
    m.after e =
      if e.Accepted then m.editPages (e.addr.toNat / pageSize) e.pages e.rewrite else m := by
  rw [after]
  split
  · rename_i h
    rw [edit_eq_ok_iff.2 ⟨h, rfl⟩]
    rfl
  · rename_i h
    cases hedit : m.edit e with
    | ok m' => exact absurd (edit_eq_ok_iff.1 hedit).1 h
    | error _ => rfl

/-- The answer to a call does not depend on the map. -/
theorem answer_eq (m m' : PageMap) (e : PageEdit) : m.answer e = m'.answer e := by
  have hanswer : ∀ m : PageMap, m.answer e = (fun _ => ()) <$> m.edit e := fun _ => rfl
  -- the guards of a call look at its arguments alone, and the map that it returns is forgotten
  cases e with
  | flags e => simp only [hanswer, edit, setFlags, map_bind, map_pure]
  | window e => simp only [hanswer, edit, moveWindow, map_bind, map_pure]

@[simp] theorem directory_after (m : PageMap) (e : PageEdit) :
    (m.after e).directory = m.directory := by
  rw [after_eq]
  split
  · rw [editPages]
  · rfl

@[simp] theorem address_after (m : PageMap) (e : PageEdit) :
    (m.after e).address = m.address := by
  rw [after_eq]
  split
  · rw [editPages]
  · rfl

theorem getElem_after (m : PageMap) (e : PageEdit) {page : Nat} (hpage : page < pageCount) :
    (m.after e).entries[page] =
      if e.Accepted ∧ PageIn e.addr e.pages page then
        e.rewrite (page - e.addr.toNat / pageSize) m.entries[page]
      else m.entries[page] := by
  by_cases h : e.Accepted
  · have hafter : m.after e = m.editPages (e.addr.toNat / pageSize) e.pages e.rewrite := by
      rw [after_eq, if_pos h]
    simp only [hafter, editPages, Vector.getElem_mapIdx, h, true_and, PageIn]
  · have hafter : m.after e = m := by
      rw [after_eq, if_neg h]
    simp only [hafter, h, false_and, if_false]

/-- **A call sets the flags that it says**, and only edits of flags do. -/
theorem flags_after (m : PageMap) (e : PageEdit) {page : Nat} (hpage : page < pageCount) :
    flags (m.after e).entries[page] = e.flagsAt page (flags m.entries[page]) := by
  rw [getElem_after m e hpage]
  cases e with
  | flags e =>
    change flags (if e.Accepted ∧ PageIn e.addr e.pages page then _ else _) =
      if e.Accepted ∧ PageIn e.addr e.pages page then _ else _
    by_cases h : e.Accepted ∧ PageIn e.addr e.pages page
    · rw [if_pos h, if_pos h]
      exact flags_append _ _
    · rw [if_neg h, if_neg h]
  | window e =>
    change _ = flags m.entries[page]
    split
    · exact flags_append _ _
    · rfl

/-- **A call moves a page to the frame that it says**, and only moves do. -/
theorem frame_after (m : PageMap) (e : PageEdit) {page : Nat} (hpage : page < pageCount) :
    frame (m.after e).entries[page] = e.frameAt page (frame m.entries[page]) := by
  rw [getElem_after m e hpage]
  cases e with
  | flags e =>
    change _ = frame m.entries[page]
    split
    · exact frame_append _ _
    · rfl
  | window e =>
    change frame (if e.Accepted ∧ PageIn e.addr e.pages page then _ else _) =
      if e.Accepted ∧ PageIn e.addr e.pages page then _ else _
    by_cases h : e.Accepted ∧ PageIn e.addr e.pages page
    · rw [if_pos h, if_pos h]
      exact (frame_append _ _).trans (frame_of_aligned (aligned_add h.1.2.1 _))
    · rw [if_neg h, if_neg h]

/-! ### Runs -/

variable {l l' : List PageEdit} {F : List FlagEdit} {V : List WindowMove}

@[simp] theorem directory_run (m : PageMap) (l : List PageEdit) :
    (m.run l).directory = m.directory := by
  induction l generalizing m with
  | nil => rfl
  | cons e l ih => exact (ih (m.after e)).trans (directory_after m e)

@[simp] theorem address_run (m : PageMap) (l : List PageEdit) :
    (m.run l).address = m.address := by
  induction l generalizing m with
  | nil => rfl
  | cons e l ih => exact (ih (m.after e)).trans (address_after m e)

/-- Every call of a run is answered as on the first map. -/
theorem answers_eq (m : PageMap) (l : List PageEdit) : m.answers l = l.map m.answer := by
  have hall : ∀ m' : PageMap, m'.answers l = l.map m.answer := by
    induction l with
    | nil => exact fun _ => rfl
    | cons e l ih =>
      intro m'
      rw [answers, List.map_cons, ih (m'.after e), answer_eq m' m]
  exact hall m

/-- The flags after a run are those of its edits of flags, one on the other. -/
theorem flags_run (h : Interleaves l F V) (m : PageMap) {page : Nat} (hpage : page < pageCount) :
    flags (m.run l).entries[page] =
      F.foldl (fun old e => e.flagsAt page old) (flags m.entries[page]) := by
  induction h generalizing m with
  | nil => rfl
  | flags e _ ih => exact (ih (m.after (.flags e))).trans (by rw [flags_after]; rfl)
  | window e _ ih => exact (ih (m.after (.window e))).trans (by rw [flags_after]; rfl)

/-- The frames after a run are those of its moves, one on the other. -/
theorem frame_run (h : Interleaves l F V) (m : PageMap) {page : Nat} (hpage : page < pageCount) :
    frame (m.run l).entries[page] =
      V.foldl (fun old e => e.frameAt page old) (frame m.entries[page]) := by
  induction h generalizing m with
  | nil => rfl
  | flags e _ ih => exact (ih (m.after (.flags e))).trans (by rw [frame_after]; rfl)
  | window e _ ih => exact (ih (m.after (.window e))).trans (by rw [frame_after]; rfl)

theorem eq_of_entries {m m' : PageMap} (haddress : m.address = m'.address)
    (hdirectory : m.directory = m'.directory)
    (hentries : ∀ (page : Nat) (hpage : page < pageCount), m.entries[page] = m'.entries[page]) :
    m = m' := by
  obtain ⟨address, directory, entries⟩ := m
  obtain ⟨address', directory', entries'⟩ := m'
  obtain rfl := haddress
  obtain rfl := hdirectory
  obtain rfl : entries = entries' := Vector.ext hentries
  rfl

/-- The order of the calls of different kinds does not matter. -/
theorem run_eq_of_interleaves (h : Interleaves l F V) (h' : Interleaves l' F V) (m : PageMap) :
    m.run l' = m.run l := by
  refine eq_of_entries ?_ ?_ fun page hpage => ?_
  · rw [address_run, address_run]
  · rw [directory_run, directory_run]
  · apply eq_of_fields
    · rw [frame_run h m hpage, frame_run h' m hpage]
    · rw [flags_run h m hpage, flags_run h' m hpage]

theorem flags_identity (m : PageMap) (shared : AddressRange) {page : Nat}
    (hpage : page < pageCount) :
    flags (m.identity shared).entries[page] = identityFlags shared (page * pageSize) := by
  have haligned : (BitVec.ofNat 32 (page * pageSize)).toNat % pageSize = 0 := by
    rw [BitVec.toNat_ofNat]
    simp only [pageSize]
    omega
  rw [getElem_identity m shared hpage, flags_or haligned]

/-- **Edits of flags and moves of windows do not interfere.** Take any calls `F` of the first kind
and `V` of the second, refused ones among them, and let `l` be any order in which they follow one
another. Every other such order ends in the same map; each call has the answer that it would have
had at the start; the directory stays; of every entry the flags are those that `F` alone leaves, and
the frame that which `V` alone leaves. And on the identity map, moves leave all flags, so that no
page of the supervisor's is opened to the users, and no page that is shared with them to writers. -/
theorem edits_do_not_interfere (m : PageMap) (h : Interleaves l F V) :
    (∀ l', Interleaves l' F V → m.run l' = m.run l) ∧
    m.answers l = l.map m.answer ∧
    (m.run l).directory = m.directory ∧
    (∀ (page : Nat) (hpage : page < pageCount),
      flags (m.run l).entries[page] = flags (m.run (F.map .flags)).entries[page] ∧
        frame (m.run l).entries[page] = frame (m.run (V.map .window)).entries[page]) ∧
    ∀ (shared : AddressRange) (page : Nat) (hpage : page < pageCount),
      let built := (m.identity shared).entries[page]
      let moved := ((m.identity shared).run (V.map .window)).entries[page]
      flags moved = flags built ∧
        (SupervisorOnly (page * pageSize) → userAccessible moved = false) ∧
        (¬ SupervisorOnly (page * pageSize) → page * pageSize ∈ shared →
          writable moved = false) := by
  refine ⟨fun l' h' => run_eq_of_interleaves h h' m, answers_eq m l, directory_run m l,
    fun page hpage => ⟨?_, ?_⟩, fun shared page hpage => ?_⟩
  · rw [flags_run h m hpage, flags_run (.flagEdits F) m hpage]
  · rw [frame_run h m hpage, frame_run (.windowMoves V) m hpage]
  · intro built moved
    have hflags : flags moved = flags built := flags_run (.windowMoves V) _ hpage
    have hidentity : flags moved = identityFlags shared (page * pageSize) :=
      hflags.trans (flags_identity m shared hpage)
    refine ⟨hflags, fun hclosed => ?_, fun hopen hshared => ?_⟩
    · rw [userAccessible, hidentity, Bool.eq_false_iff]
      exact fun hc => identityFlags_user.1 hc hclosed
    · rw [writable, hidentity]
      exact identityFlags_writable.2 ⟨hopen, hshared⟩

/-- Two pages are closed to writers, and one of them is moved. Two more calls are refused. -/
def relocation : List PageEdit :=
  [.flags ⟨0x300000, 2, 0x005⟩, .window ⟨0x300000, 1, 0x600000⟩, .window ⟨0x7FF000, 2, 0x600000⟩,
    .flags ⟨0x300000, 1, 0x1000⟩]

theorem edits_do_not_interfere_relocation :
    let F : List FlagEdit := [⟨0x300000, 2, 0x005⟩, ⟨0x300000, 1, 0x1000⟩]
    let V : List WindowMove := [⟨0x300000, 1, 0x600000⟩, ⟨0x7FF000, 2, 0x600000⟩]
    let m := (empty 0x900000).identity sharedImage
    Interleaves relocation F V ∧
      m.run (V.map .window ++ F.map .flags) = m.run relocation ∧
      m.answers relocation =
        [.ok (), .ok (), .error (.outOfRange 0x7FF000 0x2000), .error (.invalidFlags 0x1000)] ∧
      userAccessible (m.run (V.map .window)).entries[0x7BF] = false ∧
      writable (m.run (V.map .window)).entries[0x201] = false := by
  intro F V m
  have h : Interleaves relocation F V :=
    .flags _ (.window _ (.window _ (.flags _ .nil)))
  have h' : Interleaves (V.map .window ++ F.map .flags) F V :=
    .window _ (.window _ (.flags _ (.flags _ .nil)))
  obtain ⟨hsame, hanswers, -, -, -⟩ := edits_do_not_interfere m h
  obtain ⟨-, -, -, -, hidentity⟩ := edits_do_not_interfere (empty 0x900000) h
  refine ⟨h, hsame _ h', hanswers.trans ?_, ?_, ?_⟩
  · decide
  · exact (hidentity sharedImage 0x7BF (by decide)).2.1 (by decide)
  · exact (hidentity sharedImage 0x201 (by decide)).2.2 (by decide) (by decide)

end PageMap

end FourRings
