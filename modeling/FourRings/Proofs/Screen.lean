import FourRings.Screen.Print

/-!
# Operations of the screen

A console whose array holds a screen and whose cursor lies on it is `OnScreen`. Each operation stays
within the array and leaves such a console: the cursor may leave the screen by one row in between,
and then the screen scrolls. `serve_follows` says this of a request to print.

While a text is printed nothing changes but the cursor and the screen (`SameOutside`). An operation
then tells the listener at most once, at its end (`Follows`).
-/

namespace FourRings

namespace Console

open Screen

/-- The array holds a screen and the cursor lies on it. -/
structure OnScreen (c : Console) : Prop where
  cells : size ≤ c.cells.size
  row : c.row < rows
  col : c.col < cols

variable {c c' d : Console}

/-- The place of a row and a column. -/
theorem place_lt {row col : Nat} (hrow : row < rows) (hcol : col < cols) :
    row * cols + col < size := by
  simp only [size, rows, cols] at hrow hcol ⊢
  omega

theorem OnScreen.position_lt (h : c.OnScreen) : c.position < size := place_lt h.row h.col

/-! ### What lies outside the screen -/

/-- The cells behind the screen are the same, and the listener was told nothing. -/
structure SameOutside (c c' : Console) : Prop where
  cells (i : Nat) : size ≤ i → c'.cells[i]? = c.cells[i]?
  moves : c'.moves = c.moves

theorem SameOutside.refl (c : Console) : SameOutside c c := ⟨fun _ _ => rfl, rfl⟩

theorem SameOutside.trans (h : SameOutside c c') (h' : SameOutside c' d) : SameOutside c d :=
  ⟨fun i hi => (h'.cells i hi).trans (h.cells i hi), h'.moves.trans h.moves⟩

theorem sameOutside_place (c : Console) (row col : Nat) : SameOutside c { c with row, col } :=
  ⟨fun _ _ => rfl, rfl⟩

/-- Whatever stands in front of them, the cells behind the screen stay in their places. -/
theorem getElem?_append_extract {screen cells : Array Cell} (hscreen : screen.size = size)
    (hcells : size ≤ cells.size) {i : Nat} (hi : size ≤ i) :
    (screen ++ cells.extract size)[i]? = cells[i]? := by
  rw [Array.getElem?_append_right (by omega), Array.getElem?_extract, hscreen]
  split
  · rw [Nat.add_sub_cancel' hi]
  · rw [Array.getElem?_eq_none (by omega)]

/-! ### Printing -/

theorem scrollUp_eq_some (hcells : size ≤ c.cells.size) (hrow : c.row ≤ rows)
    (hcol : c.col < cols) : ∃ c', c.scrollUp = some c' ∧ c'.OnScreen ∧ SameOutside c c' := by
  -- 24 old rows and the new one
  have hscreen : (c.cells.extract cols size ++ Array.replicate cols Cell.blank).size = size := by
    rw [Array.size_append, Array.size_extract, Array.size_replicate, Nat.min_eq_left hcells]
    rfl
  have hpos : 0 < rows := by decide
  refine ⟨_, if_pos hcells, ⟨?_, ?_, hcol⟩,
    ⟨fun i hi => getElem?_append_extract hscreen hcells hi, rfl⟩⟩
  · rw [Array.size_append, hscreen]
    exact Nat.le_add_right ..
  · change c.row - 1 < rows
    omega

theorem scrollIntoView_eq_some (hcells : size ≤ c.cells.size) (hrow : c.row ≤ rows)
    (hcol : c.col < cols) :
    ∃ c', c.scrollIntoView = some c' ∧ c'.OnScreen ∧ SameOutside c c' := by
  unfold scrollIntoView
  split
  · exact scrollUp_eq_some hcells hrow hcol
  · rename_i hlast
    exact ⟨c, rfl, ⟨hcells, Nat.lt_of_not_le hlast, hcol⟩, .refl c⟩

theorem setCell_eq_some (hcells : size ≤ c.cells.size) {index : Nat} (hindex : index < size)
    (cell : Cell) :
    ∃ c', c.setCell index cell = some c' ∧ c'.cells.size = c.cells.size ∧ c'.row = c.row ∧
      c'.col = c.col ∧ SameOutside c c' := by
  have hinside : index < c.cells.size := Nat.lt_of_lt_of_le hindex hcells
  refine ⟨_, dif_pos hinside, Array.size_set hinside, rfl, rfl, fun i hi => ?_, rfl⟩
  exact Array.getElem?_set_ne hinside (by omega)

theorem cells_nextColumn (c : Console) : c.nextColumn.cells = c.cells := by
  unfold nextColumn
  split <;> rfl

theorem row_nextColumn (c : Console) : c.row ≤ c.nextColumn.row ∧ c.nextColumn.row ≤ c.row + 1 := by
  unfold nextColumn
  split
  · exact ⟨Nat.le_refl _, Nat.le_succ _⟩
  · exact ⟨Nat.le_succ _, Nat.le_refl _⟩

theorem col_nextColumn_lt (c : Console) : c.nextColumn.col < cols := by
  unfold nextColumn
  split
  · assumption
  · change 0 < cols
    decide

theorem sameOutside_nextColumn (c : Console) : SameOutside c c.nextColumn := by
  unfold nextColumn
  split
  · exact sameOutside_place c c.row (c.col + 1)
  · exact sameOutside_place c (c.row + 1) 0

theorem feed_eq_some (h : c.OnScreen) (color byte : Byte) :
    ∃ c', c.feed color byte = some c' ∧ c'.OnScreen ∧ SameOutside c c' := by
  have hcols : 0 < cols := by decide
  unfold feed
  split
  · obtain ⟨c₁, hscroll, h₁, hsame⟩ :=
      scrollIntoView_eq_some (c := { c with row := c.row + 1, col := 0 }) h.cells h.row hcols
    exact ⟨c₁, hscroll, h₁, (sameOutside_place c _ _).trans hsame⟩
  · split
    · obtain ⟨c₁, hscroll, h₁, hsame⟩ :=
        scrollIntoView_eq_some (c := { c with col := 0 }) h.cells (Nat.le_of_lt h.row) hcols
      exact ⟨c₁, hscroll, h₁, (sameOutside_place c _ _).trans hsame⟩
    · obtain ⟨c₁, hset, hcells, hrow, -, hsame₁⟩ :=
        setCell_eq_some h.cells h.position_lt (.of byte color)
      have hnextCells : size ≤ c₁.nextColumn.cells.size := by
        rw [cells_nextColumn, hcells]
        exact h.cells
      have hnextRow : c₁.nextColumn.row ≤ rows := by
        refine Nat.le_trans (row_nextColumn c₁).2 ?_
        rw [hrow]
        exact h.row
      obtain ⟨c₂, hscroll, h₂, hsame₂⟩ :=
        scrollIntoView_eq_some hnextCells hnextRow (col_nextColumn_lt c₁)
      refine ⟨c₂, ?_, h₂, (hsame₁.trans (sameOutside_nextColumn c₁)).trans hsame₂⟩
      rw [hset, Option.bind_eq_bind, Option.bind_some]
      exact hscroll

theorem feedAll_eq_some (h : c.OnScreen) (color : Byte) (text : List Byte) :
    ∃ c', c.feedAll color text = some c' ∧ c'.OnScreen ∧ SameOutside c c' := by
  induction text generalizing c with
  | nil => exact ⟨c, rfl, h, .refl c⟩
  | cons byte text ih =>
    obtain ⟨c₁, hfeed, h₁, hsame₁⟩ := feed_eq_some h color byte
    obtain ⟨c₂, hrest, h₂, hsame₂⟩ := ih h₁
    refine ⟨c₂, ?_, h₂, hsame₁.trans hsame₂⟩
    rw [feedAll, List.foldlM_cons, hfeed, Option.bind_eq_bind, Option.bind_some]
    exact hrest

/-! ### What an operation leaves -/

/-- What an operation makes of a console: the cursor is on the screen, the cells behind the screen
are the same, and the listener was told where the cursor is now, or nothing. -/
structure Follows (c c' : Console) : Prop where
  onScreen : c'.OnScreen
  cells (i : Nat) : size ≤ i → c'.cells[i]? = c.cells[i]?
  moves : c'.moves = c.moves ∨ c'.moves = c.moves ++ [c'.position]

theorem SameOutside.follows (h : SameOutside c c') (hscreen : c'.OnScreen) : Follows c c' :=
  ⟨hscreen, h.cells, .inl h.moves⟩

theorem SameOutside.notify (h : SameOutside c c') (hscreen : c'.OnScreen) :
    Follows c c'.notify := by
  unfold Console.notify
  split
  · refine ⟨⟨hscreen.cells, hscreen.row, hscreen.col⟩, h.cells, .inr ?_⟩
    rw [h.moves]
    rfl
  · exact h.follows hscreen

theorem writeByte_follows (h : c.OnScreen) (byte color : Byte) :
    ∃ c', c.writeByte byte color = some c' ∧ Follows c c' := by
  obtain ⟨c₁, hfeed, h₁, hsame⟩ := feed_eq_some h color byte
  refine ⟨c₁.notify, ?_, hsame.notify h₁⟩
  rw [writeByte, hfeed, Option.map_some]

theorem writeBytes_follows (h : c.OnScreen) (text : List Byte) (color : Byte) :
    ∃ c', c.writeBytes text color = some c' ∧ Follows c c' := by
  obtain ⟨c₁, hfeed, h₁, hsame⟩ := feedAll_eq_some h color text
  refine ⟨c₁.notify, ?_, hsame.notify h₁⟩
  rw [writeBytes, hfeed, Option.map_some]

theorem fields_notify (c : Console) :
    c.notify.cells = c.cells ∧ c.notify.row = c.row ∧ c.notify.col = c.col := by
  unfold notify
  split
  · exact ⟨rfl, rfl, rfl⟩
  · exact ⟨rfl, rfl, rfl⟩

/-- What is printed at a place leaves the cursor, also where the text wraps and scrolls. -/
theorem writeBytesAt_follows (h : c.OnScreen) (text : List Byte) (color : Byte)
    (row col : Nat) :
    ∃ c', c.writeBytesAt text color row col = some c' ∧ Follows c c' ∧ c'.row = c.row ∧
      c'.col = c.col := by
  unfold writeBytesAt
  split
  · rename_i hplace
    obtain ⟨c₁, hfeed, h₁, hsame⟩ :=
      feedAll_eq_some (c := { c with row, col }) ⟨h.cells, hplace.1, hplace.2⟩ color text
    have hback : SameOutside c { c₁ with row := c.row, col := c.col } :=
      ((sameOutside_place c row col).trans hsame).trans (sameOutside_place c₁ c.row c.col)
    rw [hfeed]
    exact ⟨_, rfl, hback.notify ⟨h₁.cells, h.row, h.col⟩, (fields_notify _).2⟩
  · exact ⟨c, rfl, (SameOutside.refl c).follows h, rfl, rfl⟩

theorem writeCell_follows (h : c.OnScreen) (row col : Nat) (byte color : Byte) :
    ∃ c', c.writeCell row col byte color = some c' ∧ Follows c c' ∧ c'.row = c.row ∧
      c'.col = c.col := by
  unfold writeCell
  split
  · rename_i hplace
    have hindex := place_lt hplace.1 hplace.2
    obtain ⟨c₁, hset, hsize, hrow, hcol, hsame⟩ :=
      setCell_eq_some h.cells hindex (.of byte color)
    refine ⟨c₁, hset, hsame.follows ⟨?_, ?_, ?_⟩, hrow, hcol⟩
    · rw [hsize]
      exact h.cells
    · rw [hrow]
      exact h.row
    · rw [hcol]
      exact h.col
  · exact ⟨c, rfl, (SameOutside.refl c).follows h, rfl, rfl⟩

theorem moveCursor_follows (h : c.OnScreen) (row col : Nat) : Follows c (c.moveCursor row col) :=
  have hplace : rows - 1 < rows ∧ cols - 1 < cols := by decide
  (sameOutside_place c _ _).notify ⟨h.cells, Nat.lt_of_le_of_lt (Nat.min_le_right ..) hplace.1,
    Nat.lt_of_le_of_lt (Nat.min_le_right ..) hplace.2⟩

theorem clear_follows (h : c.OnScreen) : ∃ c', c.clear = some c' ∧ Follows c c' := by
  have hscreen : (Array.replicate size Cell.blank).size = size := Array.size_replicate
  have hcells := h.cells
  refine ⟨_, if_pos hcells, SameOutside.notify (c := c) ⟨fun i hi => ?_, rfl⟩ ⟨?_, ?_, ?_⟩⟩
  · exact getElem?_append_extract hscreen hcells hi
  · rw [Array.size_append, hscreen]
    exact Nat.le_add_right ..
  · change 0 < rows
    decide
  · change 0 < cols
    decide

theorem scrollUp_follows (h : c.OnScreen) : ∃ c', c.scrollUp = some c' ∧ Follows c c' := by
  obtain ⟨c₁, hscroll, h₁, hsame⟩ := scrollUp_eq_some h.cells (Nat.le_of_lt h.row) h.col
  exact ⟨c₁, hscroll, hsame.follows h₁⟩

/-- **A request to print stays on the screen.** One that says where leaves the cursor. -/
theorem serve_follows (h : c.OnScreen) (q : PrintRequest) (text : List Byte) :
    ∃ c', c.serve q text = some c' ∧ Follows c c' ∧
      (q.position.isSome → c'.row = c.row ∧ c'.col = c.col) := by
  unfold serve
  split
  · rename_i hnone
    obtain ⟨c₁, hwrite, h₁⟩ := writeBytes_follows h text q.color
    refine ⟨c₁, hwrite, h₁, fun hplace => ?_⟩
    rw [hnone] at hplace
    cases hplace
  · obtain ⟨c₁, hwrite, h₁, hcursor⟩ := writeBytesAt_follows h text q.color _ _
    exact ⟨c₁, hwrite, h₁, fun _ => hcursor⟩

end Console

end FourRings
