import FourRings.Proofs.Screen
import FourRings.Screen.Terminal

/-!
# The screen as a window

A console keeps 25 rows and scrolls them in place. `screen_is_window` is the main statement: it
shows 25 lines of the terminal that keeps everything, the last ones that the cursor has come to. It
does not matter into which pieces a text is cut, and a text that is printed at a place leaves the
cursor.

`Shows c t top` says that the rows of `c` are the lines of `t` from `top` on. One character keeps
this up to a line below the screen (`Shows.feed`), and one scroll brings the cursor back in view
(`Shows.scrollUp`).
-/

namespace FourRings

open Screen

theorem Text.utf8_join (parts : List String) :
    utf8 (String.join parts) = parts.flatMap utf8 := by
  unfold utf8
  rw [String.toList_join, List.flatMap_assoc]

namespace Console

variable {c c' : Console} {t : Terminal} {top : Nat}

/-! ### Rows and lines -/

/-- The rows of the console are the lines of the terminal from `top` on, both cursors are in the
same place, and the terminal is blank below. -/
structure Shows (c : Console) (t : Terminal) (top : Nat) : Prop where
  row : t.row = top + c.row
  col : t.col = c.col
  cells (i j : Nat) : i < rows → j < cols → c.cell? i j = some (t.lines (top + i) j)
  blank (line j : Nat) : top + rows ≤ line → t.lines line j = .blank

theorem OnScreen.shows (h : c.OnScreen) : Shows c (.ofConsole c) 0 where
  row := (Nat.zero_add _).symm
  col := rfl
  cells i j hi hj := by
    have hindex : i * cols + j < c.cells.size := by
      have hcells := h.cells
      simp only [size, rows, cols] at hcells hi hj ⊢
      omega
    have hcell : c.cell? i j = some c.cells[i * cols + j] := Array.getElem?_eq_getElem hindex
    simp only [Terminal.ofConsole, Nat.zero_add, hi, if_true, hcell, Option.getD_some]
  blank line j hline := by
    have hline : ¬ line < rows := by omega
    simp only [Terminal.ofConsole, hline, if_false]

/-- Scrolling moves every row up by one. -/
theorem cell?_scrollUp (hcells : size ≤ c.cells.size) (hscroll : c.scrollUp = some c') {i j : Nat}
    (hi : i < rows) (hj : j < cols) :
    c'.cell? i j = if i + 1 < rows then c.cell? (i + 1) j else some .blank := by
  rw [scrollUp, if_pos hcells] at hscroll
  obtain rfl := Option.some.inj hscroll
  have hcols : cols = 80 := rfl
  have hrows : rows = 25 := rfl
  have hsize : size = 2000 := rfl
  rw [hrows] at hi
  rw [hcols] at hj
  rw [hsize] at hcells
  have hmin : min 2000 c.cells.size = 2000 := Nat.min_eq_left hcells
  simp only [cell?, hcols, hsize, Array.getElem?_append, Array.size_append, Array.size_extract,
    Array.size_replicate, Array.getElem?_extract, Array.getElem?_replicate, hmin]
  by_cases hnext : i + 1 < rows
  · rw [if_pos hnext]
    rw [hrows] at hnext
    rw [if_pos (by omega), if_pos (by omega), if_pos (by omega)]
    congr 1
    omega
  · rw [if_neg hnext]
    rw [hrows] at hnext
    rw [if_pos (by omega), if_neg (by omega), if_pos (by omega)]

theorem row_scrollUp (hcells : size ≤ c.cells.size) (hscroll : c.scrollUp = some c') :
    c'.row = c.row - 1 ∧ c'.col = c.col := by
  rw [scrollUp, if_pos hcells] at hscroll
  obtain rfl := Option.some.inj hscroll
  exact ⟨rfl, rfl⟩

/-- So the console shows the same terminal one line on. -/
theorem Shows.scrollUp (h : Shows c t top) (hcells : size ≤ c.cells.size) (hrow : 0 < c.row)
    (hscroll : c.scrollUp = some c') : Shows c' t (top + 1) where
  row := by
    rw [h.row, (row_scrollUp hcells hscroll).1]
    omega
  col := by
    rw [h.col, (row_scrollUp hcells hscroll).2]
  cells i j hi hj := by
    rw [cell?_scrollUp hcells hscroll hi hj]
    split
    · rename_i hnext
      rw [h.cells (i + 1) j hnext hj, Nat.add_assoc, Nat.add_comm 1 i]
    · rename_i hlast
      rw [h.blank _ j (by omega)]
  blank line j hline := h.blank line j (by omega)

/-- Scrolling into view shows the first line that it has to. -/
theorem Shows.scrollIntoView (h : Shows c t top) (hcells : size ≤ c.cells.size)
    (hrow : c.row ≤ rows) (htop : top = 0 ∨ rows - 1 ≤ c.row)
    (hscroll : c.scrollIntoView = some c') : Shows c' t t.top := by
  have hheight : rows = 25 := rfl
  have hrowEq := h.row
  unfold Console.scrollIntoView at hscroll
  split at hscroll
  · rename_i hlast
    have hnext : t.top = top + 1 := by
      rw [Terminal.top]
      omega
    rw [hnext]
    exact h.scrollUp hcells (by omega) hscroll
  · rename_i hlast
    have hsame : t.top = top := by
      rw [Terminal.top]
      omega
    obtain rfl := Option.some.inj hscroll
    rw [hsame]
    exact h

/-- A cell is written in the same place of both. -/
theorem Shows.setCell (h : Shows c t top) (hrow : c.row < rows) (hcol : c.col < cols) {cell : Cell}
    (hset : c.setCell c.position cell = some c') : Shows c' (t.setCell cell) top := by
  unfold Console.setCell at hset
  split at hset
  · rename_i hposition
    obtain rfl := Option.some.inj hset
    refine ⟨h.row, h.col, fun i j hi hj => ?_, fun line j hline => ?_⟩
    · have hplace : c.position = i * cols + j ↔ top + i = t.row ∧ j = t.col := by
        have hwidth : cols = 80 := rfl
        rw [position, h.row, h.col, hwidth]
        rw [hwidth] at hj hcol
        omega
      have hold : c.cells[i * cols + j]? = some (t.lines (top + i) j) := h.cells i j hi hj
      simp only [cell?, Array.getElem?_set, Terminal.setCell, hplace, hold]
      split
      · rfl
      · rfl
    · have hother : ¬ (line = t.row ∧ j = t.col) := by
        rw [h.row]
        omega
      simp only [Terminal.setCell, hother, if_false]
      exact h.blank line j hline
  · cases hset

theorem Shows.newLine (h : Shows c t top) :
    Shows { c with row := c.row + 1, col := 0 } { t with row := t.row + 1, col := 0 } top where
  row := by rw [h.row, Nat.add_assoc]
  col := rfl
  cells := h.cells
  blank := h.blank

theorem Shows.moveTo (h : Shows c t top) (col : Nat) : Shows { c with col } { t with col } top where
  row := h.row
  col := rfl
  cells := h.cells
  blank := h.blank

theorem Shows.nextColumn (h : Shows c t top) : Shows c.nextColumn t.nextColumn top := by
  unfold Console.nextColumn Terminal.nextColumn
  rw [h.col]
  split
  · exact h.moveTo _
  · exact h.newLine

/-- **One character keeps the window.** -/
theorem Shows.feed (h : Shows c t t.top) (hscreen : c.OnScreen) {color byte : Byte}
    (hfeed : c.feed color byte = some c') :
    Shows c' (t.feed color byte) (t.feed color byte).top := by
  have hrow := hscreen.row
  -- the window has moved only with the cursor in the last row
  have htop : t.top = 0 ∨ rows - 1 ≤ c.row := by
    have hrowEq := h.row
    rw [Terminal.top] at hrowEq ⊢
    omega
  unfold Console.feed at hfeed
  unfold Terminal.feed
  split at hfeed
  · rename_i hline
    rw [if_pos hline]
    exact h.newLine.scrollIntoView hscreen.cells hrow (by dsimp only; omega) hfeed
  · rename_i hline
    rw [if_neg hline]
    split at hfeed
    · rename_i hreturn
      rw [if_pos hreturn]
      exact (h.moveTo 0).scrollIntoView hscreen.cells (Nat.le_of_lt hrow) htop hfeed
    · rename_i hreturn
      rw [if_neg hreturn]
      obtain ⟨c₁, hset, hscroll⟩ := Option.bind_eq_some_iff.1 hfeed
      obtain ⟨c₂, hset', hsize, hrow', -⟩ :=
        setCell_eq_some hscreen.cells hscreen.position_lt (.of byte color)
      obtain rfl := Option.some.inj (hset.symm.trans hset')
      have hcells : size ≤ c₁.nextColumn.cells.size := by
        rw [cells_nextColumn, hsize]
        exact hscreen.cells
      have hnext := row_nextColumn c₁
      exact (h.setCell hrow hscreen.col hset).nextColumn.scrollIntoView hcells (by omega) (by omega)
        hscroll

/-- So does a text. -/
theorem Shows.feedAll (h : Shows c t t.top) (hscreen : c.OnScreen) {color : Byte}
    {text : List Byte} (hfeed : c.feedAll color text = some c') :
    Shows c' (t.feedAll color text) (t.feedAll color text).top := by
  induction text generalizing c t with
  | nil =>
    obtain rfl := Option.some.inj hfeed
    exact h
  | cons byte text ih =>
    rw [Console.feedAll, List.foldlM_cons] at hfeed
    obtain ⟨c₁, hbyte, hrest⟩ := Option.bind_eq_some_iff.1 hfeed
    obtain ⟨c₂, hbyte', hscreen₁, -⟩ := feed_eq_some hscreen color byte
    obtain rfl := Option.some.inj (hbyte.symm.trans hbyte')
    exact ih (h.feed hscreen hbyte) hscreen₁ hrest

/-! ### The listener -/

/-- The console without its listener. -/
def unheard (c : Console) : Console := { c with listening := false, moves := [] }

theorem unheard_notify (c : Console) : c.notify.unheard = c.unheard := by
  unfold notify
  split <;> rfl

/-- Without the listener, a console is its cells and its cursor. -/
theorem unheard_eq_iff :
    c.unheard = c'.unheard ↔ c.cells = c'.cells ∧ c.row = c'.row ∧ c.col = c'.col := by
  rw [unheard, unheard, Console.mk.injEq]
  simp only [and_true]

theorem unheard_scrollIntoView (c : Console) :
    c.scrollIntoView.map unheard = c.unheard.scrollIntoView := by
  unfold scrollIntoView scrollUp
  change _ = if rows ≤ c.row then if size ≤ c.cells.size then _ else _ else _
  split
  · split
    · rfl
    · rfl
  · rfl

theorem unheard_setCell (c : Console) (index : Nat) (cell : Cell) :
    (c.setCell index cell).map unheard = c.unheard.setCell index cell := by
  unfold setCell
  change _ = if h : index < c.cells.size then _ else _
  split
  · rfl
  · rfl

theorem unheard_nextColumn (c : Console) : c.nextColumn.unheard = c.unheard.nextColumn := by
  unfold nextColumn
  change _ = if c.col + 1 < cols then _ else _
  split
  · rfl
  · rfl

/-- What is written does not depend on who listens. -/
theorem unheard_feed (c : Console) (color byte : Byte) :
    (c.feed color byte).map unheard = c.unheard.feed color byte := by
  unfold feed
  split
  · exact unheard_scrollIntoView _
  · split
    · exact unheard_scrollIntoView _
    · have hposition : c.unheard.position = c.position := rfl
      rw [hposition, ← unheard_setCell, Option.bind_eq_bind]
      cases c.setCell c.position (.of byte color) with
      | none => rfl
      | some c₁ =>
        rw [Option.map_some, Option.bind_some, Option.bind_some, unheard_scrollIntoView,
          unheard_nextColumn]

theorem unheard_feedAll (c : Console) (color : Byte) (text : List Byte) :
    (c.feedAll color text).map unheard = c.unheard.feedAll color text := by
  induction text generalizing c with
  | nil => rfl
  | cons byte text ih =>
    rw [feedAll, feedAll, List.foldlM_cons, List.foldlM_cons, ← unheard_feed]
    cases c.feed color byte with
    | none => rfl
    | some c₁ => exact ih c₁

theorem unheard_writeBytes (c : Console) (text : List Byte) (color : Byte) :
    (c.writeBytes text color).map unheard = c.unheard.feedAll color text := by
  rw [writeBytes, Option.map_map, ← unheard_feedAll]
  congr 1
  funext c₁
  exact unheard_notify c₁

/-- A text in pieces, each of which the listener is told of. -/
def writeEach (c : Console) (color : Byte) (parts : List String) : Option Console :=
  parts.foldlM (fun c part => c.write part color) c

theorem unheard_writeEach (c : Console) (color : Byte) (parts : List String) :
    (c.writeEach color parts).map unheard =
      c.unheard.feedAll color (parts.flatMap Text.utf8) := by
  induction parts generalizing c with
  | nil => rfl
  | cons part parts ih =>
    have hpart : (c.write part color).map unheard = c.unheard.feedAll color (Text.utf8 part) :=
      unheard_writeBytes c (Text.utf8 part) color
    rw [writeEach, List.foldlM_cons, List.flatMap_cons, feedAll, List.foldlM_append]
    change _ = c.unheard.feedAll color (Text.utf8 part) >>= _
    rw [← hpart]
    cases c.write part color with
    | none => rfl
    | some c₁ => exact ih c₁

/-- Into which pieces a text is cut does not matter. -/
theorem exists_writeEach (h : c.OnScreen) (color : Byte) (parts : List String) :
    ∃ c₁ c₂, c.writeEach color parts = some c₁ ∧
      c.writeBytes (Text.utf8 (String.join parts)) color = some c₂ ∧
      c₁.cells = c₂.cells ∧ c₁.row = c₂.row ∧ c₁.col = c₂.col := by
  obtain ⟨d, hd, -⟩ := feedAll_eq_some (c := c.unheard) ⟨h.cells, h.row, h.col⟩ color
    (parts.flatMap Text.utf8)
  obtain ⟨c₁, hc₁, h₁⟩ := Option.map_eq_some_iff.1 ((unheard_writeEach c color parts).trans hd)
  have hwhole := unheard_writeBytes c (Text.utf8 (String.join parts)) color
  rw [Text.utf8_join, hd] at hwhole
  obtain ⟨c₂, hc₂, h₂⟩ := Option.map_eq_some_iff.1 hwhole
  refine ⟨c₁, c₂, hc₁, ?_, unheard_eq_iff.1 (h₁.trans h₂.symm)⟩
  rw [Text.utf8_join]
  exact hc₂

/-! ### Printing -/

/-- What is printed at a place of the screen is what would be printed with the cursor there. -/
theorem exists_writeBytesAt (h : c.OnScreen) (text : List Byte) (color : Byte) {row col : Nat}
    (hplace : row < rows ∧ col < cols) :
    ∃ c₁ c₂, c.writeBytesAt text color row col = some c₁ ∧
      { c with row, col }.writeBytes text color = some c₂ ∧
      c₁.cells = c₂.cells ∧ c₁.row = c.row ∧ c₁.col = c.col := by
  have hplaced : { c with row, col }.OnScreen := ⟨h.cells, hplace.1, hplace.2⟩
  obtain ⟨printed, hfeed, -⟩ := feedAll_eq_some hplaced color text
  obtain ⟨hcells₁, hrow₁, hcol₁⟩ := fields_notify { printed with row := c.row, col := c.col }
  refine ⟨{ printed with row := c.row, col := c.col }.notify, printed.notify, ?_, ?_,
    hcells₁.trans (fields_notify printed).1.symm, hrow₁, hcol₁⟩
  · rw [writeBytesAt, if_pos hplace, hfeed]
    rfl
  · rw [writeBytes, hfeed, Option.map_some]

/-- **The screen is a window on an unbounded terminal.** Print a text on a console, and on the
terminal that starts with its rows. The screen then shows 25 lines of the terminal, from the first
one that has not scrolled away, and its cursor is where the terminal's is. A text that is written in
pieces leaves the same cells and cursor as the whole text at once. A text that is printed at a place
of the screen leaves the same cells as with the cursor there, and the cursor where it was; at any
other place nothing happens. -/
theorem screen_is_window (c : Console) (h : c.OnScreen) (text : List Byte) (color : Byte) :
    let t := (Terminal.ofConsole c).feedAll color text
    (∃ c', c.writeBytes text color = some c' ∧
      (∀ i < rows, ∀ j < cols, c'.cell? i j = some (t.lines (t.top + i) j)) ∧
      c'.row = t.row - t.top ∧ c'.col = t.col) ∧
    (∀ parts : List String, ∃ c₁ c₂, c.writeEach color parts = some c₁ ∧
      c.writeBytes (Text.utf8 (String.join parts)) color = some c₂ ∧
      c₁.cells = c₂.cells ∧ c₁.row = c₂.row ∧ c₁.col = c₂.col) ∧
    (∀ row col : Nat, row < rows ∧ col < cols →
      ∃ c₁ c₂, c.writeBytesAt text color row col = some c₁ ∧
        { c with row, col }.writeBytes text color = some c₂ ∧
        c₁.cells = c₂.cells ∧ c₁.row = c.row ∧ c₁.col = c.col) ∧
    ∀ row col : Nat, ¬ (row < rows ∧ col < cols) →
      c.writeBytesAt text color row col = some c := by
  intro t
  refine ⟨?_, exists_writeEach h color, fun row col => exists_writeBytesAt h text color,
    fun row col hplace => if_neg hplace⟩
  have htop : (Terminal.ofConsole c).top = 0 := by
    have hrow := h.row
    change c.row - (rows - 1) = 0
    omega
  have hstart : Shows c (.ofConsole c) (Terminal.ofConsole c).top := by
    rw [htop]
    exact h.shows
  obtain ⟨printed, hfeed, -⟩ := feedAll_eq_some h color text
  obtain ⟨hcells, hrow, hcol⟩ := fields_notify printed
  have hshows : Shows printed t t.top := hstart.feedAll h hfeed
  refine ⟨printed.notify, ?_, fun i hi j hj => ?_, ?_, ?_⟩
  · rw [writeBytes, hfeed, Option.map_some]
  · rw [cell?, hcells]
    exact hshows.cells i j hi hj
  · rw [hrow, hshows.row, Nat.add_sub_cancel_left]
  · rw [hcol, hshows.col]

/-- A screen with the cursor in its last place. -/
def corner : Console :=
  { cells := .replicate size 0, row := rows - 1, col := cols - 1, listening := true }

theorem screen_is_window_corner :
    let text : List Byte := [0x78, 0x0A, 0x79]
    corner.OnScreen ∧
      (∃ c', corner.writeBytes text 0x02 = some c' ∧ c'.cell? 22 79 = some (.of 0x78 0x02) ∧
        c'.cell? 23 79 = some .blank ∧ c'.cell? 24 0 = some (.of 0x79 0x02) ∧
        c'.row = 24 ∧ c'.col = 1) ∧
      (∃ c₁ c₂, corner.writeEach 0x02 ["x", "\n", "y"] = some c₁ ∧
        corner.writeBytes (Text.utf8 (String.join ["x", "\n", "y"])) 0x02 = some c₂ ∧
        c₁.cells = c₂.cells ∧ c₁.row = c₂.row ∧ c₁.col = c₂.col) ∧
      (∃ c₁ c₂, corner.writeBytesAt text 0x02 24 79 = some c₁ ∧
        corner.writeBytes text 0x02 = some c₂ ∧
        c₁.cells = c₂.cells ∧ c₁.row = 24 ∧ c₁.col = 79) ∧
      corner.writeBytesAt text 0x02 25 0 = some corner := by
  intro text
  have hscreen : corner.OnScreen :=
    ⟨Nat.le_of_eq Array.size_replicate.symm, by decide, by decide⟩
  obtain ⟨⟨c', hprint, hcells, hrow, hcol⟩, hparts, hplace, hoff⟩ :=
    screen_is_window corner hscreen text 0x02
  refine ⟨hscreen, ⟨c', hprint, ?_, ?_, ?_, hrow.trans (by decide), hcol.trans (by decide)⟩,
    hparts _, hplace 24 79 (by decide), hoff 25 0 (by decide)⟩
  · exact (hcells 22 (by decide) 79 (by decide)).trans (by decide)
  · exact (hcells 23 (by decide) 79 (by decide)).trans (by decide)
  · exact (hcells 24 (by decide) 0 (by decide)).trans (by decide)

end Console

end FourRings
