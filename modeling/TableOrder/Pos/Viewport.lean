import TableOrder.Lib.Window
import TableOrder.Pos.Board

/-!
# The part of the grid that is drawn

The home tab and the layout editor draw the cells of the grid around the cursor, each with its own
copy of the arithmetic. Both are the window of `Window.around` in each direction (`posHomeView_eq`,
`posEditorView_eq`), so they show the same cells, in boxes beside each other (`homeViewport`).
-/

namespace TableOrder

open CLib
open Window (Cells around)

/-! ## Panes -/

structure UiRect where
  top : Int
  left : Int
  h : Int
  w : Int
  deriving DecidableEq

structure PosFrame where
  header : UiRect
  main : UiRect
  side : UiRect
  footer : UiRect

/-- The tab is only printed. -/
def uiPosLayoutFrame (rows cols : Int) : PosFrame :=
  let headerH := 2
  let footerH := 2
  let innerTop := headerH
  let innerH := rows - headerH - footerH
  let innerH := if innerH < 6 then 6 else innerH
  let sideW := cols.tdiv 3
  let sideW := if sideW < 26 then 26 else sideW
  let sideW := if 42 < sideW then 42 else sideW
  let mainW := cols - sideW - 1
  let (mainW, sideW) := if mainW < 20 then (cols, 0) else (mainW, sideW)
  { header := ⟨0, 0, headerH, cols⟩
    main := ⟨innerTop, 0, innerH, mainW⟩
    side := if 0 < sideW then ⟨innerTop, mainW + 1, innerH, sideW⟩ else ⟨innerTop, cols, innerH, 0⟩
    footer := ⟨rows - footerH, 0, footerH, cols⟩ }

/-! ## The rows of a pane -/

def uiRectContains (r : UiRect) (y x : Int) : Bool :=
  r.top ≤ y && y < r.top + r.h && r.left ≤ x && x < r.left + r.w

/-- The row of the terminal that `ui_pos_print_in` prints on. -/
def uiPosPrintIn (rows : Int) (r : UiRect) (row col : Int) : Option Int :=
  if row < 0 ∨ col < 0 then none
  else
    let y := r.top + 1 + row
    let x := r.left + 1 + col
    if uiRectContains r y x = false then none
    else if r.left + r.w - 2 - x ≤ 0 then none
    else if y < rows then some y
    else none

/-- The row of the main pane is printed on, and still there when the footer was drawn over two rows. -/
def PosFrame.keeps (frame : PosFrame) (rows row : Int) : Bool :=
  (uiPosPrintIn rows frame.main row 0).any fun y => y != frame.footer.top && y != frame.footer.top + 1

/-- What is left of a list that was printed from this row of the main pane on. -/
def rowsKept {α : Type} (rows cols : Int) (first : Nat) (printed : List α) : List α :=
  (printed.zipIdx.filter fun r => (uiPosLayoutFrame rows cols).keeps rows (first + r.2 : Nat)).map (·.1)

/-- How many rows of the main pane the drawing leaves. -/
def paneRows (rows cols : Int) : Int :=
  if (uiPosLayoutFrame rows cols).main.w < 4 then 0 else rows - 5

theorem uiPosPrintIn_eq (rows row : Int) (r : UiRect) : uiPosPrintIn rows r row 0 =
    if 0 ≤ row ∧ row + 1 < r.h ∧ 4 ≤ r.w ∧ r.top + 1 + row < rows then some (r.top + 1 + row)
    else none := by
  unfold uiPosPrintIn uiRectContains
  by_cases hrow : row < 0
  · simp [hrow]
  · simp only [hrow, Int.lt_irrefl, or_self, if_false]
    by_cases hin : row + 1 < r.h ∧ 4 ≤ r.w ∧ r.top + 1 + row < rows
    · rw [if_neg (by simp; omega), if_neg (by omega), if_pos hin.2.2, if_pos (by omega)]
    · have hnone : ¬ (0 ≤ row ∧ row + 1 < r.h ∧ 4 ≤ r.w ∧ r.top + 1 + row < rows) := fun h => hin h.2
      rw [if_neg hnone]
      split
      · rfl
      · next hcontains =>
        split
        · rfl
        · simp only [add_zero, le_add_iff_nonneg_right, zero_le_one, decide_true, Bool.and_true,
            add_lt_add_iff_left, Bool.and_eq_false_imp, Bool.and_eq_true, decide_eq_true_eq,
            decide_eq_false_iff_not, not_lt, and_imp, Classical.not_imp, not_le] at hcontains
          rw [if_neg (by omega)]

theorem keeps_iff (rows cols : Int) (row : Nat) :
    (uiPosLayoutFrame rows cols).keeps rows row = true ↔ (row : Int) < paneRows rows cols := by
  have htop : (uiPosLayoutFrame rows cols).main.top = 2 := rfl
  have hfooter : (uiPosLayoutFrame rows cols).footer.top = rows - 2 := rfl
  have hheight : rows - 4 ≤ (uiPosLayoutFrame rows cols).main.h := by
    show rows - 4 ≤ if rows - 2 - 2 < 6 then 6 else rows - 2 - 2
    split <;> omega
  rw [PosFrame.keeps, uiPosPrintIn_eq, htop, hfooter, paneRows]
  generalize (uiPosLayoutFrame rows cols).main = main at hheight ⊢
  split
  · simp only [Int.reduceAdd, Option.any_some, Bool.and_eq_true, bne_iff_ne, ne_eq]
    split <;> omega
  · simp only [Option.any_none, Bool.false_eq_true, false_iff, not_lt]
    split <;> omega

/-- The first rows are left. -/
theorem rowsKept_eq {α : Type} (rows cols : Int) (first : Nat) (printed : List α) :
    rowsKept rows cols first printed = printed.take (paneRows rows cols - first).toNat := by
  have hfrom (n : Nat) : ((printed.zipIdx n).filter fun r =>
      (uiPosLayoutFrame rows cols).keeps rows (first + r.2 : Nat)).map (·.1) =
        printed.take (paneRows rows cols - (first + n : Nat)).toNat := by
    induction printed generalizing n with
    | nil => simp
    | cons a printed ih =>
      have hkeeps := keeps_iff rows cols (first + n)
      rw [List.zipIdx_cons, List.filter_cons]
      cases hrow : (uiPosLayoutFrame rows cols).keeps rows (first + n : Nat) with
      | true =>
        have hlt := hkeeps.mp hrow
        have hrest : (paneRows rows cols - (first + n : Nat)).toNat =
            (paneRows rows cols - (first + (n + 1) : Nat)).toNat + 1 := by omega
        rw [if_pos rfl, List.map_cons, ih (n + 1), hrest, List.take_succ_cons]
      | false =>
        have hge : ¬ ((first + n : Nat) : Int) < paneRows rows cols := by
          rw [← hkeeps, hrow]
          exact Bool.false_ne_true
        have hnone : (paneRows rows cols - (first + n : Nat)).toNat = 0 := by omega
        have hrest : (paneRows rows cols - (first + (n + 1) : Nat)).toNat = 0 := by omega
        rw [if_neg Bool.false_ne_true, ih (n + 1), hnone, hrest, List.take_zero, List.take_zero]
  exact hfrom 0

/-! ## The two copies -/

/-- `view_c0`, `view_r0`, `view_cols`, `view_rows`, `cell_w` and `cell_h`. -/
structure GridView where
  viewC0 : Int
  viewR0 : Int
  viewCols : Int
  viewRows : Int
  cellW : Int
  cellH : Int
  deriving DecidableEq

/-- The arithmetic of `ui_draw_pos_home`; `none` asks for a larger terminal. -/
def posHomeView (layout : StoreLayout) (curRow curCol rows cols : Int) : Option GridView :=
  let main := (uiPosLayoutFrame rows cols).main
  let usableH := main.h - 2
  let usableW := main.w - 2
  if usableH < 4 ∨ usableW < 10 then none
  else
    let minCellW := 12
    let minCellH := 6
    let viewCols := usableW.tdiv minCellW
    let viewRows := usableH.tdiv minCellH
    let viewCols := if viewCols < 1 then 1 else viewCols
    let viewRows := if viewRows < 1 then 1 else viewRows
    let viewCols := if layout.gridCols < viewCols then layout.gridCols else viewCols
    let viewRows := if layout.gridRows < viewRows then layout.gridRows else viewRows
    let cellW := usableW.tdiv viewCols
    let cellH := usableH.tdiv viewRows
    let viewC0 := curCol - viewCols.tdiv 2
    let viewR0 := curRow - viewRows.tdiv 2
    let viewC0 := if viewC0 < 0 then 0 else viewC0
    let viewR0 := if viewR0 < 0 then 0 else viewR0
    let viewC0 :=
      if layout.gridCols < viewC0 + viewCols then
        if layout.gridCols - viewCols < 0 then 0 else layout.gridCols - viewCols
      else viewC0
    let viewR0 :=
      if layout.gridRows < viewR0 + viewRows then
        if layout.gridRows - viewRows < 0 then 0 else layout.gridRows - viewRows
      else viewR0
    some ⟨viewC0, viewR0, viewCols, viewRows, cellW, cellH⟩

/-- The arithmetic of `ui_draw_pos_layout_editor`. -/
def posEditorView (layout : StoreLayout) (curRow curCol rows cols : Int) : Option GridView :=
  let main := (uiPosLayoutFrame rows cols).main
  let usableH := main.h - 2
  let usableW := main.w - 2
  if usableH < 4 ∨ usableW < 10 then none
  else
    let minCellW := 12
    let minCellH := 6
    let viewCols := usableW.tdiv minCellW
    let viewRows := usableH.tdiv minCellH
    let viewCols := if viewCols < 1 then 1 else viewCols
    let viewRows := if viewRows < 1 then 1 else viewRows
    let viewCols := if layout.gridCols < viewCols then layout.gridCols else viewCols
    let viewRows := if layout.gridRows < viewRows then layout.gridRows else viewRows
    let cellW := usableW.tdiv viewCols
    let cellH := usableH.tdiv viewRows
    let viewC0 := curCol - viewCols.tdiv 2
    let viewR0 := curRow - viewRows.tdiv 2
    let viewC0 := if viewC0 < 0 then 0 else viewC0
    let viewR0 := if viewR0 < 0 then 0 else viewR0
    let viewC0 :=
      if layout.gridCols < viewC0 + viewCols then
        if layout.gridCols - viewCols < 0 then 0 else layout.gridCols - viewCols
      else viewC0
    let viewR0 :=
      if layout.gridRows < viewR0 + viewRows then
        if layout.gridRows - viewRows < 0 then 0 else layout.gridRows - viewRows
      else viewR0
    some ⟨viewC0, viewR0, viewCols, viewRows, cellW, cellH⟩

/-! ## The boxes -/

/-- A box of `ui_pos_draw_table_box` with the table in it. -/
structure TableBox where
  top : Int
  left : Int
  h : Int
  w : Int
  table : TablePlacement
  selected : Bool
  deriving DecidableEq

def uiPosDrawTableBox (top left h w : Int) (tp : TablePlacement) (selected : Bool) :
    Option TableBox :=
  if h < 3 ∨ w < 6 then none else some ⟨top, left, h, w, tp, selected⟩

/-- One turn of the loop over the tables. -/
def posHomeBox (main : UiRect) (view : GridView) (curRow curCol : Int) (tp : TablePlacement) :
    Option TableBox :=
  if !tp.active then none
  else if tp.col < view.viewC0 ∨ view.viewC0 + view.viewCols ≤ tp.col ∨ tp.row < view.viewR0 ∨
      view.viewR0 + view.viewRows ≤ tp.row then none
  else
    let relC := tp.col - view.viewC0
    let relR := tp.row - view.viewR0
    let left := main.left + 1 + relC * view.cellW
    let top := main.top + 1 + relR * view.cellH
    if main.left + main.w - 1 < left + view.cellW ∨ main.top + main.h - 1 < top + view.cellH then none
    else
      uiPosDrawTableBox top left view.cellH view.cellW tp
        (decide (tp.row = curRow ∧ tp.col = curCol))

/-- The boxes of the home tab. -/
def uiDrawPosHome (layout : StoreLayout) (curRow curCol rows cols : Int) : List TableBox :=
  match posHomeView layout curRow curCol rows cols with
  | none => []
  | some view =>
    layout.used.filterMap (posHomeBox (uiPosLayoutFrame rows cols).main view curRow curCol)

/-- The boxes of the layout editor, which looks up the table of every cell. -/
def uiDrawPosLayoutEditor (layout : StoreLayout) (curRow curCol rows cols : Int) : List TableBox :=
  match posEditorView layout curRow curCol rows cols with
  | none => []
  | some view =>
    let main := (uiPosLayoutFrame rows cols).main
    (List.range view.viewRows.toNat).flatMap fun (vr : Nat) =>
      (List.range view.viewCols.toNat).filterMap fun (vc : Nat) =>
        let gr := view.viewR0 + vr
        let gc := view.viewC0 + vc
        (layoutFindAt layout gr gc).bind fun tp =>
          uiPosDrawTableBox (main.top + 1 + vr * view.cellH) (main.left + 1 + vc * view.cellW)
            view.cellH view.cellW tp (decide (gr = curRow ∧ gc = curCol))

/-! ## One window in each direction -/

abbrev GridView.ofCells (c r : Cells) : GridView :=
  ⟨c.first, r.first, c.size, r.size, c.cell, r.cell⟩

/-- Both copies, over the size of the main pane. -/
def paneView (main : UiRect) (layout : StoreLayout) (curRow curCol : Int) : Option GridView :=
  if main.h - 2 < 4 ∨ main.w - 2 < 10 then none
  else
    some (.ofCells (around (main.w - 2) 12 layout.gridCols curCol)
      (around (main.h - 2) 6 layout.gridRows curRow))

theorem posHomeView_eq (layout : StoreLayout) (curRow curCol rows cols : Int) :
    posHomeView layout curRow curCol rows cols =
      paneView (uiPosLayoutFrame rows cols).main layout curRow curCol := by
  unfold posHomeView paneView
  simp only [GridView.ofCells, around]

theorem posEditorView_eq (layout : StoreLayout) (curRow curCol rows cols : Int) :
    posEditorView layout curRow curCol rows cols =
      paneView (uiPosLayoutFrame rows cols).main layout curRow curCol := by
  unfold posEditorView paneView
  simp only [GridView.ofCells, around]

/-- The two windows, once a tab draws. -/
structure Drawable (main : UiRect) (layout : StoreLayout) (curRow curCol : Int) (c r : Cells) : Prop where
  cols : c.Fits (main.w - 2) 10 layout.gridCols curCol
  rows : r.Fits (main.h - 2) 4 layout.gridRows curRow

theorem drawable_of_view {main : UiRect} {layout : StoreLayout} {curRow curCol : Int} {view : GridView}
    (hcursor : Board.Inside layout curRow curCol)
    (hview : paneView main layout curRow curCol = some view) :
    ∃ c r, view = .ofCells c r ∧ Drawable main layout curRow curCol c r := by
  obtain ⟨hrow, hrows, hcol, hcols⟩ := hcursor
  unfold paneView at hview
  split at hview
  · cases hview
  · next husable =>
    refine ⟨_, _, (Option.some.inj hview).symm, ?_, ?_⟩
    · exact Window.around_spec hcol hcols (by decide) (by decide) (by omega)
    · exact Window.around_spec hrow hrows (by decide) (by decide) (by omega)

/-- The box of a cell of the two windows. -/
def cellBox (main : UiRect) (c r : Cells) (curRow curCol : Int) (tp : TablePlacement) : TableBox where
  top := main.top + 1 + r.start tp.row
  left := main.left + 1 + c.start tp.col
  h := r.cell
  w := c.cell
  table := tp
  selected := decide (tp.row = curRow ∧ tp.col = curCol)

namespace Drawable

variable {main : UiRect} {layout : StoreLayout} {curRow curCol : Int} {c r : Cells}

/-- Neither guard ever skips a table of the windows. -/
theorem posHomeBox_eq_some (h : Drawable main layout curRow curCol c r) {tp : TablePlacement}
    {box : TableBox} : posHomeBox main (.ofCells c r) curRow curCol tp = some box ↔
      (tp.active = true ∧ c.Shows tp.col ∧ r.Shows tp.row) ∧
        box = cellBox main c r curRow curCol tp := by
  have hwide := h.cols.cell
  have hhigh := h.rows.cell
  have hguard : (tp.col < c.first ∨ c.first + c.size ≤ tp.col ∨ tp.row < r.first ∨
      r.first + r.size ≤ tp.row) ↔ ¬(c.Shows tp.col ∧ r.Shows tp.row) := by
    unfold Cells.Shows
    omega
  unfold posHomeBox
  simp only [hguard]
  cases hactive : tp.active with
  | false => simp
  | true =>
    by_cases hshows : c.Shows tp.col ∧ r.Shows tp.row
    · have hc := h.cols.inside (by decide) hshows.1
      have hr := h.rows.inside (by decide) hshows.2
      unfold Cells.start at hc hr
      have hfits : ¬(main.left + main.w - 1 < main.left + 1 + (tp.col - c.first) * c.cell + c.cell ∨
          main.top + main.h - 1 < main.top + 1 + (tp.row - r.first) * r.cell + r.cell) := by
        omega
      have hbox : ¬(r.cell < 3 ∨ c.cell < 6) := by
        omega
      simp only [hshows, hfits, uiPosDrawTableBox, hbox]
      simp [cellBox, Cells.start, eq_comm]
    · simp [hshows]

theorem mem_uiDrawPosHome (h : Drawable main layout curRow curCol c r) {rows cols : Int}
    (hmain : main = (uiPosLayoutFrame rows cols).main)
    (hview : posHomeView layout curRow curCol rows cols = some (.ofCells c r)) (box : TableBox) :
    box ∈ uiDrawPosHome layout curRow curCol rows cols ↔
      ∃ tp ∈ layout.used, (tp.active = true ∧ c.Shows tp.col ∧ r.Shows tp.row) ∧
        box = cellBox main c r curRow curCol tp := by
  subst hmain
  unfold uiDrawPosHome
  simp only [hview, List.mem_filterMap, h.posHomeBox_eq_some]

end Drawable

/-! ## What the two tabs draw -/

def GridView.Shows (view : GridView) (row col : Int) : Prop :=
  view.viewR0 ≤ row ∧ row < view.viewR0 + view.viewRows ∧
    view.viewC0 ≤ col ∧ col < view.viewC0 + view.viewCols

/-- The box is inside the border of the pane. -/
structure TableBox.InPane (box : TableBox) (pane : UiRect) : Prop where
  top : pane.top < box.top
  bottom : box.top + box.h < pane.top + pane.h
  left : pane.left < box.left
  right : box.left + box.w < pane.left + pane.w

/-- One of two boxes is left of the other, or above it. -/
def TableBox.Apart (box box' : TableBox) : Prop :=
  box.left + box.w ≤ box'.left ∨ box'.left + box'.w ≤ box.left ∨
    box.top + box.h ≤ box'.top ∨ box'.top + box'.h ≤ box.top

structure HomeViewport (layout : StoreLayout) (curRow curCol rows cols : Int) (view : GridView) :
    Prop where
  /-- The two divisors. -/
  divides : 0 < view.viewCols ∧ 0 < view.viewRows
  inGrid : ∀ row col, view.Shows row col → Board.Inside layout row col
  cursor : view.Shows curRow curCol
  drawn : ∀ tp ∈ layout.used, tp.active = true → view.Shows tp.row tp.col →
    ∃ box ∈ uiDrawPosHome layout curRow curCol rows cols, box.table = tp
  inPane : ∀ box ∈ uiDrawPosHome layout curRow curCol rows cols,
    view.Shows box.table.row box.table.col ∧ box.InPane (uiPosLayoutFrame rows cols).main
  apart : ∀ box ∈ uiDrawPosHome layout curRow curCol rows cols,
    ∀ box' ∈ uiDrawPosHome layout curRow curCol rows cols,
      (box.table.row, box.table.col) ≠ (box'.table.row, box'.table.col) → box.Apart box'
  editor : posEditorView layout curRow curCol rows cols = some view

theorem GridView.shows_ofCells {c r : Cells} {row col : Int} :
    (GridView.ofCells c r).Shows row col ↔ c.Shows col ∧ r.Shows row := by
  show (r.first ≤ row ∧ row < r.first + r.size ∧ c.first ≤ col ∧ col < c.first + c.size) ↔ _
  unfold Cells.Shows
  omega

namespace Drawable

variable {main : UiRect} {layout : StoreLayout} {curRow curCol : Int} {c r : Cells}

theorem cellBox_inPane (h : Drawable main layout curRow curCol c r) {tp : TablePlacement}
    (hc : c.Shows tp.col) (hr : r.Shows tp.row) :
    (cellBox main c r curRow curCol tp).InPane main := by
  obtain ⟨hleft, hright⟩ := h.cols.inside (by decide) hc
  obtain ⟨htop, hbottom⟩ := h.rows.inside (by decide) hr
  constructor <;> simp only [cellBox] <;> omega

theorem cellBox_apart (h : Drawable main layout curRow curCol c r) {tp tp' : TablePlacement}
    (hcell : (tp.row, tp.col) ≠ (tp'.row, tp'.col)) :
    (cellBox main c r curRow curCol tp).Apart (cellBox main c r curRow curCol tp') := by
  simp only [TableBox.Apart, cellBox]
  rcases Int.lt_trichotomy tp.col tp'.col with hlt | hcol | hgt
  · have hbeside := h.cols.apart (by decide) hlt
    omega
  · rcases Int.lt_trichotomy tp.row tp'.row with hlt | hrow | hgt
    · have habove := h.rows.apart (by decide) hlt
      omega
    · exact absurd (by rw [hrow, hcol]) hcell
    · have habove := h.rows.apart (by decide) hgt
      omega
  · have hbeside := h.cols.apart (by decide) hgt
    omega

end Drawable

/-- The home tab draws a part of the grid that holds the cursor, all tables of it inside the pane and
beside each other; the layout editor shows the same part. -/
theorem homeViewport {layout : StoreLayout} {curRow curCol rows cols : Int} {view : GridView}
    (hcursor : Board.Inside layout curRow curCol)
    (hview : posHomeView layout curRow curCol rows cols = some view) :
    HomeViewport layout curRow curCol rows cols view := by
  have hpane := hview
  rw [posHomeView_eq] at hpane
  obtain ⟨c, r, rfl, hdraw⟩ := drawable_of_view hcursor hpane
  have hmem := hdraw.mem_uiDrawPosHome rfl hview
  constructor
  case divides => exact ⟨hdraw.cols.size, hdraw.rows.size⟩
  case inGrid =>
    intro row col hshows
    obtain ⟨⟨hleft, hright⟩, htop, hbottom⟩ := GridView.shows_ofCells.mp hshows
    have hcols := hdraw.cols
    have hrows := hdraw.rows
    exact ⟨Int.le_trans hrows.first htop, Int.lt_of_lt_of_le hbottom hrows.last,
      Int.le_trans hcols.first hleft, Int.lt_of_lt_of_le hright hcols.last⟩
  case cursor => exact GridView.shows_ofCells.mpr ⟨hdraw.cols.cursor, hdraw.rows.cursor⟩
  case drawn =>
    intro tp htp hactive hshows
    exact ⟨_, (hmem _).mpr ⟨tp, htp, ⟨hactive, GridView.shows_ofCells.mp hshows⟩, rfl⟩, rfl⟩
  case inPane =>
    intro box hbox
    obtain ⟨tp, -, ⟨-, hc, hr⟩, rfl⟩ := (hmem _).mp hbox
    exact ⟨GridView.shows_ofCells.mpr ⟨hc, hr⟩, hdraw.cellBox_inPane hc hr⟩
  case apart =>
    intro box hbox box' hbox' hcell
    obtain ⟨tp, -, -, rfl⟩ := (hmem _).mp hbox
    obtain ⟨tp', -, -, rfl⟩ := (hmem _).mp hbox'
    exact hdraw.cellBox_apart hcell
  case editor => rw [posEditorView_eq, ← posHomeView_eq, hview]

theorem homeViewport_default :
    HomeViewport layoutInitDefault 2 4 24 80 ⟨2, 1, 4, 3, 12, 6⟩ :=
  homeViewport (by decide) (by decide)

end TableOrder
