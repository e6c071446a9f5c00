import FourRings.Proofs.Screen

/-!
# Runs of console calls

`run_stays_on_screen` is the main statement: whatever calls a console gets, in whatever order, the
cursor stays on the screen, the cells behind the screen are never touched, and the listener is told
of places on the screen only, each time of the one that the cursor is in.

`Within` is what a run keeps. One call keeps it, as each operation does (`perform_follows`).
-/

namespace FourRings

open Screen

/-- A call of an operation of a console. -/
inductive ConsoleCall where
  | byte (byte color : Byte)
  | bytes (text : List Byte) (color : Byte)
  | bytesAt (text : List Byte) (color : Byte) (row col : Nat)
  | cell (row col : Nat) (byte color : Byte)
  | move (row col : Nat)
  | clear
  | scroll
  | write (text : String) (color : Byte)
  | serve (q : PrintRequest) (text : List Byte)

/-- The calls that write at a place of their own and leave the cursor. -/
def ConsoleCall.KeepsCursor : ConsoleCall → Prop
  | .bytesAt .. | .cell .. => True
  | .serve q _ => q.position.isSome
  | _ => False

namespace Console

def perform (c : Console) : ConsoleCall → Option Console
  | .byte byte color => c.writeByte byte color
  | .bytes text color => c.writeBytes text color
  | .bytesAt text color row col => c.writeBytesAt text color row col
  | .cell row col byte color => c.writeCell row col byte color
  | .move row col => some (c.moveCursor row col)
  | .clear => c.clear
  | .scroll => c.scrollUp
  | .write text color => c.write text color
  | .serve q text => c.serve q text

def run (c : Console) (calls : List ConsoleCall) : Option Console := calls.foldlM perform c

/-- What the listener was told: each position as a word. -/
def words (c : Console) : List (BitVec 16) := c.moves.map (BitVec.ofNat 16)

variable {c c' : Console}

/-- **One call stays on the screen.** -/
theorem perform_follows (h : c.OnScreen) (e : ConsoleCall) :
    ∃ c', c.perform e = some c' ∧ Follows c c' ∧
      (e.KeepsCursor → c'.row = c.row ∧ c'.col = c.col) := by
  cases e with
  | byte byte color =>
    obtain ⟨c₁, hwrite, h₁⟩ := writeByte_follows h byte color
    exact ⟨c₁, hwrite, h₁, False.elim⟩
  | bytes text color =>
    obtain ⟨c₁, hwrite, h₁⟩ := writeBytes_follows h text color
    exact ⟨c₁, hwrite, h₁, False.elim⟩
  | bytesAt text color row col =>
    obtain ⟨c₁, hwrite, h₁, hcursor⟩ := writeBytesAt_follows h text color row col
    exact ⟨c₁, hwrite, h₁, fun _ => hcursor⟩
  | cell row col byte color =>
    obtain ⟨c₁, hwrite, h₁, hcursor⟩ := writeCell_follows h row col byte color
    exact ⟨c₁, hwrite, h₁, fun _ => hcursor⟩
  | move row col => exact ⟨_, rfl, moveCursor_follows h row col, False.elim⟩
  | clear =>
    obtain ⟨c₁, hclear, h₁⟩ := clear_follows h
    exact ⟨c₁, hclear, h₁, False.elim⟩
  | scroll =>
    obtain ⟨c₁, hscroll, h₁⟩ := scrollUp_follows h
    exact ⟨c₁, hscroll, h₁, False.elim⟩
  | write text color =>
    obtain ⟨c₁, hwrite, h₁⟩ := writeBytes_follows h (Text.utf8 text) color
    exact ⟨c₁, hwrite, h₁, False.elim⟩
  | serve q text => exact serve_follows h q text

/-! ### Runs -/

/-- What every run keeps: the cursor is on the screen, the cells behind the screen are those of
`cells`, and the listener was told of places on the screen only. -/
structure Within (cells : Array Cell) (c : Console) : Prop where
  onScreen : c.OnScreen
  cells (i : Nat) : size ≤ i → c.cells[i]? = cells[i]?
  moves : ∀ p ∈ c.moves, p < size

theorem Follows.within {cells : Array Cell} (h : Within cells c) (hcall : Follows c c') :
    Within cells c' where
  onScreen := hcall.onScreen
  cells i hi := (hcall.cells i hi).trans (h.cells i hi)
  moves p hp := by
    rcases hcall.moves with hquiet | htold
    · rw [hquiet] at hp
      exact h.moves p hp
    · rw [htold, List.mem_append, List.mem_singleton] at hp
      rcases hp with hp | rfl
      · exact h.moves p hp
      · exact hcall.onScreen.position_lt

theorem run_within {cells : Array Cell} (h : Within cells c) (calls : List ConsoleCall) :
    ∃ c', c.run calls = some c' ∧ Within cells c' := by
  induction calls generalizing c with
  | nil => exact ⟨c, rfl, h⟩
  | cons e calls ih =>
    obtain ⟨c₁, hperform, hcall, -⟩ := perform_follows h.onScreen e
    obtain ⟨c₂, hrun, h₂⟩ := ih (hcall.within h)
    refine ⟨c₂, ?_, h₂⟩
    rw [run, List.foldlM_cons, hperform, Option.bind_eq_bind, Option.bind_some]
    exact hrun

/-- The position of a cursor on the screen fits into a word. -/
theorem toNat_ofNat_place {p : Nat} (h : p < size) : (BitVec.ofNat 16 p).toNat = p :=
  Nat.mod_eq_of_lt (Nat.lt_trans h (by decide))

theorem Within.words_lt {cells : Array Cell} (h : Within cells c) :
    ∀ w ∈ c.words, w.toNat < size := by
  intro w hw
  obtain ⟨p, hp, rfl⟩ := List.mem_map.1 hw
  rw [toNat_ofNat_place (h.moves p hp)]
  exact h.moves p hp

theorem Follows.words (h : Follows c c') :
    c'.words = c.words ∨
      ∃ w, c'.words = c.words ++ [w] ∧ w.toNat = c'.row * cols + c'.col ∧ w.toNat < size := by
  have hposition := h.onScreen.position_lt
  have hword := toNat_ofNat_place hposition
  rcases h.moves with hquiet | htold
  · left
    rw [Console.words, hquiet, Console.words]
  · refine .inr ⟨BitVec.ofNat 16 c'.position, ?_, hword, ?_⟩
    · rw [Console.words, htold, List.map_append]
      rfl
    · rw [hword]
      exact hposition

/-- **A console never leaves the screen.** Take a console over any array that holds a screen, with
or without a listener, and let it get any calls. None of them touches a cell outside the array.
After them the cursor is on the screen, the cells behind the screen hold what they held at first,
and all that the listener was told are positions on the screen. Whatever call comes next has a
result too. One that writes at a place of its own leaves the cursor. Of each call the listener is
told at most once, and then the position of the cursor that the call leaves. -/
theorem run_stays_on_screen {cells : Array Cell} (hcells : size ≤ cells.size) (listening : Bool)
    (calls : List ConsoleCall) :
    ∃ start c, ofCells? cells listening = some start ∧ start.run calls = some c ∧
      c.row < rows ∧ c.col < cols ∧
      (∀ i, size ≤ i → c.cells[i]? = cells[i]?) ∧
      (∀ w ∈ c.words, w.toNat < size) ∧
      ∀ e : ConsoleCall, ∃ c', c.perform e = some c' ∧
        (e.KeepsCursor → c'.row = c.row ∧ c'.col = c.col) ∧
        (c'.words = c.words ∨
          ∃ w, c'.words = c.words ++ [w] ∧ w.toNat = c'.row * cols + c'.col ∧ w.toNat < size) := by
  have hfirst : 0 < rows ∧ 0 < cols := by decide
  have hstart : Within cells { cells, listening } :=
    ⟨⟨hcells, hfirst.1, hfirst.2⟩, fun _ _ => rfl, fun _ hp => absurd hp List.not_mem_nil⟩
  obtain ⟨c, hrun, h⟩ := run_within hstart calls
  refine ⟨_, c, if_pos hcells, hrun, h.onScreen.row, h.onScreen.col, h.cells, h.words_lt,
    fun e => ?_⟩
  obtain ⟨c', hperform, hcall, hkeeps⟩ := perform_follows h.onScreen e
  exact ⟨c', hperform, hkeeps, hcall.words⟩

/-- Calls that write at the end of the screen and off it, over an array with one more cell. -/
theorem run_stays_on_screen_corner :
    let cells : Array Cell := .replicate 2001 0x0141
    let calls : List ConsoleCall :=
      [.move 100 200, .byte 0x78 0x02, .scroll, .bytesAt [0x79, 0x0A, 0x7A] 0x02 24 79,
        .cell 25 0 0x78 0x02, .serve ⟨0x02, 0, some ⟨24, 79⟩⟩ [0x78, 0x79], .write "ok\n" 0x02]
    size ≤ cells.size ∧ ∃ start c, ofCells? cells true = some start ∧ start.run calls = some c ∧
      c.row < rows ∧ c.col < cols ∧ c.cells[2000]? = some 0x0141 ∧ c.cells[2001]? = none ∧
      (∀ w ∈ c.words, w.toNat < size) ∧
      ∃ c', c.perform (.bytesAt [0x0A] 0x02 24 0) = some c' ∧ c'.row = c.row ∧ c'.col = c.col := by
  intro cells calls
  have hsize : cells.size = 2001 := Array.size_replicate
  have hcells : size ≤ cells.size := by
    rw [hsize]
    decide
  obtain ⟨start, c, hstart, hrun, hrow, hcol, hbehind, hwords, hnext⟩ :=
    run_stays_on_screen hcells true calls
  obtain ⟨c', hperform, hkeeps, -⟩ := hnext (.bytesAt [0x0A] 0x02 24 0)
  refine ⟨hcells, start, c, hstart, hrun, hrow, hcol, ?_, ?_, hwords, c', hperform,
    hkeeps trivial⟩
  · rw [hbehind 2000 (by decide)]
    exact Array.getElem?_replicate.trans (if_pos (by decide))
  · rw [hbehind 2001 (by decide)]
    exact Array.getElem?_eq_none (Nat.le_of_eq hsize)

end Console

end FourRings
