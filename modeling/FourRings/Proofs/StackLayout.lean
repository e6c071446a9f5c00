import FourRings.Proofs.Placement

/-!
# The stacks of a block

A block holds the stacks of two tasks, one for each inner ring and one for the task itself, behind
the local table and the task state. `stacks_apart` is the main statement: the stacks that the built
task state names do not overlap each other or what lies before them, and stay within the block.

The stacks of a block are numbered in the order in which they lie there. Which task names which of
them is said by `places`. No number occurs twice in it, and stacks of different numbers do not
overlap.
-/

namespace FourRings

open MemoryMap

/-- No address lies in both ranges. -/
def AddressRange.Apart (r s : AddressRange) : Prop := ∀ a ∈ r, a ∉ s

/-- The addresses of the stack that starts at `top`. -/
def stackRange (top : Word) : AddressRange := ⟨top.toNat - stackSize, top.toNat⟩

/-- The tops of the task's own stack and of those for entries to the first `inner` rings. -/
def Tss.stackTops (t : Tss) (inner : Nat) : List Word :=
  t.esp :: (Ring.all.take inner).map fun k => (t.innerStack k).esp

namespace TaskBlock

/-- The addresses of the block. -/
def range (t : TaskBlock) : AddressRange := ⟨t.start.toNat, t.start.toNat + size t.inner⟩

/-- The addresses of the local table and of the state of both tasks. -/
def stateRanges (t : TaskBlock) : List AddressRange :=
  [⟨t.ldtBase.toNat, t.ldtBase.toNat + ldtSpace⟩,
    ⟨t.firstBase.toNat, t.firstBase.toNat + tssSpace⟩,
    ⟨t.secondBase.toNat, t.secondBase.toNat + tssSpace⟩]

/-- The tops of all stacks that the tasks of the block name. -/
def stackTops (t : TaskBlock) : List Word :=
  t.first.stackTops t.inner ++ t.second.stackTops t.inner

/-- The top of the stack of number `j`. -/
def top (start : Word) (j : Nat) : Word :=
  start + BitVec.ofNat 32 (ldtSpace + 2 * tssSpace + (j + 1) * stackSize)

/-- The numbers of the stacks of both tasks, of each its own first and then those for inner
rings. -/
def places (inner : Nat) : List Nat :=
  (inner :: List.range inner) ++ (inner :: List.range inner).map (inner + 1 + ·)

variable {t : TaskBlock} {start : Word} {inner i j k : Nat}

/-! ### Which stacks are named -/

theorem top_firstStacks (t : TaskBlock) (k : Nat) : t.firstStacks.top k = top t.start k := by
  rw [firstStacks, StackBlock.top, top, BitVec.add_assoc, ← BitVec.ofNat_add]

theorem top_secondStacks (t : TaskBlock) (k : Nat) :
    t.secondStacks.top k = top t.start (t.inner + 1 + k) := by
  have hoffset : ldtSpace + 2 * tssSpace + StackBlock.size t.inner + (k + 1) * stackSize =
      ldtSpace + 2 * tssSpace + (t.inner + 1 + k + 1) * stackSize := by
    rw [StackBlock.size, Nat.add_assoc, ← Nat.add_mul, Nat.add_assoc (t.inner + 1)]
  rw [secondStacks, StackBlock.top, top, BitVec.add_assoc, ← BitVec.ofNat_add, hoffset]

/-- The rings that have inner stacks, by their levels. -/
theorem map_level_take (h : inner ≤ 3) :
    (Ring.all.take inner).map Ring.level = List.range inner := by
  have hall : ∀ n ≤ 3, (Ring.all.take n).map Ring.level = List.range n := by decide
  exact hall inner h

/-- The state of a task names all of the task's stacks. -/
theorem stackTops_state (l : TaskSegments) (kind : TaskKind) (entry cr3 : Word) {s : StackBlock}
    (h : s.inner ≤ 3) :
    (l.state kind { entry, stackTop := s.taskTop, cr3 } s.ringTops).stackTops s.inner =
      (s.inner :: List.range s.inner).map s.top := by
  have hring : ∀ k ∈ Ring.all.take s.inner,
      ((l.state kind { entry, stackTop := s.taskTop, cr3 } s.ringTops).innerStack k).esp =
        s.top k.level := by
    intro k hk
    have hlevel : k.level < s.inner := by
      rw [← List.mem_range, ← map_level_take h]
      exact List.mem_map_of_mem hk
    have hk' : k ≠ .users := by
      rintro rfl
      exact absurd (Nat.lt_of_lt_of_le hlevel h) (by decide)
    rw [TaskSegments.innerStack_state hk' (StackBlock.getElem?_ringTops hlevel)]
  rw [Tss.stackTops, List.map_cons, ← map_level_take h, List.map_map, List.map_congr_left hring]
  rfl

/-- The rings beyond have no stack. -/
theorem innerStack_state_of_le (l : TaskSegments) (kind : TaskKind) (c : TaskStart)
    {s : StackBlock} {k : Ring} (h : s.inner ≤ k.level) :
    (l.state kind c s.ringTops).innerStack k = {} := by
  have hnone : s.ringTops[k.level]? = none := by
    rw [List.getElem?_eq_none_iff, StackBlock.ringTops, List.length_map, List.length_range]
    exact h
  cases k with
  | users => rfl
  | core | devs | libs =>
    change innerStackPointer s.ringTops _ = {}
    rw [innerStackPointer, hnone]

/-- A block is built if there is a stack for each inner ring of its tasks. -/
theorem build_eq_ok {p : Roster} (hring : p.segments.ring.level ≤ inner) (hinner : inner ≤ 3)
    (start : Word) (entries : TaskEntries) :
    ∃ t, build start inner p entries = .ok t ∧ t.start = start ∧ t.inner = inner ∧
      t.stackTops = (places inner).map (top start) ∧
      ∀ k : Ring, inner ≤ k.level → t.first.innerStack k = {} ∧ t.second.innerStack k = {} := by
  let t : TaskBlock := { start, inner, ldt := .ofRing p.segments.ring p.pageLimit }
  let state (d : Duty) (entry : Word) (s : StackBlock) : Tss :=
    p.segments.state d.kind { entry, stackTop := s.taskTop } s.ringTops
  have hbuild (d : Duty) (entry : Word) (s : StackBlock) (hs : s.inner = inner) :
      p.segments.build d.kind { entry, stackTop := s.taskTop } s.ringTops =
        .ok (state d entry s) := by
    have hlength : s.ringTops.length = inner := by
      rw [StackBlock.ringTops, List.length_map, List.length_range, hs]
    exact TaskSegments.build_eq_ok_iff.2 ⟨by rw [hlength]; exact ⟨hring, hinner⟩, rfl⟩
  refine ⟨{ t with
    first := state p.first entries.first t.firstStacks
    second := state p.second entries.second t.secondStacks }, ?_, rfl, rfl, ?_, fun k hk => ?_⟩
  · change (p.segments.build _ _ _ >>= fun _ => p.segments.build _ _ _ >>= _) = _
    rw [hbuild p.first entries.first t.firstStacks rfl,
      hbuild p.second entries.second t.secondStacks rfl]
    rfl
  · have hfirst : (state p.first entries.first t.firstStacks).stackTops inner =
        (inner :: List.range inner).map (top start) :=
      (stackTops_state _ _ _ _ hinner).trans
        (List.map_congr_left fun k _ => top_firstStacks t k)
    have hsecond : (state p.second entries.second t.secondStacks).stackTops inner =
        (inner :: List.range inner).map fun k => top start (inner + 1 + k) :=
      (stackTops_state _ _ _ _ hinner).trans
        (List.map_congr_left fun k _ => top_secondStacks t k)
    change _ ++ _ = _
    rw [hfirst, hsecond, places, List.map_append, List.map_map]
    rfl
  · exact ⟨innerStack_state_of_le p.segments _ _ hk, innerStack_state_of_le p.segments _ _ hk⟩

/-! ### Where they lie -/

/-- No stack is named twice. -/
theorem nodup_places (inner : Nat) : (places inner).Nodup := by
  have hnodup : (inner :: List.range inner).Nodup :=
    List.nodup_cons.2 ⟨List.not_mem_range_self, List.nodup_range⟩
  have hlt : ∀ k ∈ inner :: List.range inner, k < inner + 1 := by
    simp
    omega
  have hnodup' : ((inner :: List.range inner).map (inner + 1 + ·)).Nodup :=
    List.Pairwise.map _ (fun a b hne heq => hne (Nat.add_left_cancel heq)) hnodup
  refine List.nodup_append.2 ⟨hnodup, hnodup', ?_⟩
  intro a ha b hb
  obtain ⟨k, -, rfl⟩ := List.mem_map.1 hb
  have := hlt a ha
  omega

theorem lt_of_mem_places (h : j ∈ places inner) : j < 2 * (inner + 1) := by
  simp only [places, List.mem_append, List.mem_cons, List.mem_range, List.mem_map] at h
  omega

theorem size_eq (inner : Nat) : size inner = 240 + 2 * ((inner + 1) * 1024) := rfl

theorem toNat_top (hend : start.toNat + size inner < addressSpace) (hj : j < 2 * (inner + 1)) :
    (top start j).toNat = start.toNat + (240 + (j + 1) * 1024) := by
  have hsize := size_eq inner
  refine toNat_add_ofNat (Nat.lt_of_le_of_lt (Nat.add_le_add_left ?_ _) hend)
  change 240 + (j + 1) * 1024 ≤ _
  omega

theorem stackRange_top (hend : start.toNat + size inner < addressSpace)
    (hj : j < 2 * (inner + 1)) :
    stackRange (top start j) =
      ⟨start.toNat + (240 + j * 1024), start.toNat + (240 + (j + 1) * 1024)⟩ := by
  have hsize : stackSize = 1024 := rfl
  rw [stackRange, toNat_top hend hj, hsize, AddressRange.mk.injEq]
  omega

/-- Stacks of different numbers do not overlap. -/
theorem apart_top (hend : start.toNat + size inner < addressSpace) (hi : i < 2 * (inner + 1))
    (hj : j < 2 * (inner + 1)) (hne : i ≠ j) :
    (stackRange (top start i)).Apart (stackRange (top start j)) := by
  rw [stackRange_top hend hi, stackRange_top hend hj]
  intro a ha ha'
  simp only [AddressRange.mem_iff] at ha ha'
  omega

/-- A stack lies behind the state of the tasks. -/
theorem apart_stateRanges {r : AddressRange} (hend : t.start.toNat + size t.inner < addressSpace)
    (hj : j < 2 * (t.inner + 1)) (hr : r ∈ t.stateRanges) :
    (stackRange (top t.start j)).Apart r := by
  have hsize := size_eq t.inner
  have hfirst : t.firstBase.toNat = t.start.toNat + 16 := toNat_add_ofNat (n := ldtSpace) (by
    change _ + 16 < _
    omega)
  have hsecond : t.secondBase.toNat = t.start.toNat + 128 :=
    toNat_add_ofNat (n := ldtSpace + tssSpace) (by
      change _ + 128 < _
      omega)
  have hstop : r.stop ≤ t.start.toNat + 240 := by
    simp only [stateRanges, List.mem_cons, List.not_mem_nil, or_false, hfirst, hsecond] at hr
    rcases hr with rfl | rfl | rfl <;> simp [ldtBase, ldtSpace, tssSpace]
  rw [stackRange_top hend hj]
  intro a ha ha'
  simp only [AddressRange.mem_iff] at ha ha'
  omega

/-- **No two stacks of a block overlap.** Lay the tasks of any roster out with at least as many
inner stacks as its ring has inner rings, and no more than three, at any aligned address from which
the block does not reach the end of memory. This succeeds. The state of both tasks then names a
stack of its own and one for each of the inner rings, in all two for each: no two of them overlap,
each starts at an aligned address and lies in the block as a whole, and none reaches into the local
table or the task state. The other stacks of the state are null. -/
theorem stacks_apart {p : Roster} (hring : p.segments.ring.level ≤ inner) (hinner : inner ≤ 3)
    (haligned : start.toNat % 16 = 0) (hend : start.toNat + size inner < addressSpace)
    (entries : TaskEntries) :
    ∃ t, build start inner p entries = .ok t ∧ t.start = start ∧ t.inner = inner ∧
      t.stackTops.length = 2 * (inner + 1) ∧
      (t.stackTops.map stackRange).Pairwise AddressRange.Apart ∧
      (∀ top ∈ t.stackTops, top.toNat % 16 = 0 ∧ stackSize ≤ top.toNat ∧
        t.range.Covers (top.toNat - stackSize) stackSize ∧
        ∀ r ∈ t.stateRanges, (stackRange top).Apart r) ∧
      ∀ k : Ring, inner ≤ k.level → t.first.innerStack k = {} ∧ t.second.innerStack k = {} := by
  obtain ⟨t, hbuild, rfl, rfl, htops, hbeyond⟩ := build_eq_ok hring hinner start entries
  refine ⟨t, hbuild, rfl, rfl, ?_, ?_, fun w hw => ?_, hbeyond⟩
  · rw [htops, List.length_map, places]
    simp
    omega
  · rw [htops, List.pairwise_map, List.pairwise_map]
    exact (nodup_places t.inner).imp_of_mem fun hi hj hne =>
      apart_top hend (lt_of_mem_places hi) (lt_of_mem_places hj) hne
  · rw [htops] at hw
    obtain ⟨j, hj, rfl⟩ := List.mem_map.1 hw
    have hlt := lt_of_mem_places hj
    have htop := toNat_top hend hlt
    have hsize := size_eq t.inner
    have hstack : stackSize = 1024 := rfl
    refine ⟨by omega, by omega, ⟨?_, ?_⟩, fun r hr => apart_stateRanges hend hlt hr⟩
    · change t.start.toNat ≤ _
      omega
    · change _ ≤ t.start.toNat + size t.inner
      omega

/-- The last place that a block of the users can take: it ends 16 bytes below the end of memory. -/
theorem stacks_apart_users :
    size 3 = 0x20F0 ∧ ∃ t, build 0xFFFFDF00 3 .users ⟨0x103000, 0x104000⟩ = .ok t ∧
      t.stackTops.length = 8 ∧ (t.stackTops.map stackRange).Pairwise AddressRange.Apart ∧
      (∀ top ∈ t.stackTops, top.toNat % 16 = 0 ∧
        (⟨0xFFFFDF00, 0xFFFFFFF0⟩ : AddressRange).Covers (top.toNat - stackSize) stackSize) ∧
      t.first.innerStack .users = {} := by
  have hlevel : Roster.users.segments.ring.level ≤ 3 := by decide
  have haligned : (0xFFFFDF00 : Word).toNat % 16 = 0 := by decide
  have hend : (0xFFFFDF00 : Word).toNat + size 3 < addressSpace := by decide
  obtain ⟨t, hbuild, hstart, hinner, hlength, happart, htops, hbeyond⟩ :=
    stacks_apart hlevel (Nat.le_refl 3) haligned hend ⟨0x103000, 0x104000⟩
  have hrange : t.range = ⟨0xFFFFDF00, 0xFFFFFFF0⟩ := by
    rw [range, hstart, hinner]
    decide
  refine ⟨rfl, t, hbuild, hlength, happart, fun top htop => ?_, (hbeyond .users (by decide)).1⟩
  obtain ⟨htop, -, hcovers, -⟩ := htops top htop
  exact ⟨htop, hrange ▸ hcovers⟩

end TaskBlock

end FourRings
