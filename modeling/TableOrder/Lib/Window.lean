import Mathlib.Algebra.Order.Ring.Int
import Mathlib.Tactic.Common

/-!
# A window on a line of cells

A pane of some length shows a part of a line of `grid` cells, all of one length, around a cursor:
`around` is the usual integer arithmetic, with a least cell length and clamped at both ends. The
window is part of the line and holds the cursor (`around_spec`), and its cells lie in the pane one
after the other (`Cells.Fits.inside`, `Cells.Fits.apart`).
-/

namespace Window

/-- The cells `first`, `first + 1`, … of the line, `size` of them, each of length `cell`. -/
structure Cells where
  size : Int
  cell : Int
  first : Int
  deriving DecidableEq

def around (usable minCell grid cur : Int) : Cells :=
  let size := usable.tdiv minCell
  let size := if size < 1 then 1 else size
  let size := if grid < size then grid else size
  let first := cur - size.tdiv 2
  let first := if first < 0 then 0 else first
  let first :=
    if grid < first + size then if grid - size < 0 then 0 else grid - size
    else first
  ⟨size, usable.tdiv size, first⟩

/-- Cell `i` of the line is in the window. -/
def Cells.Shows (w : Cells) (i : Int) : Prop := w.first ≤ i ∧ i < w.first + w.size

instance (w : Cells) (i : Int) : Decidable (w.Shows i) :=
  inferInstanceAs (Decidable (_ ∧ _))

/-- Where cell `i` begins in the pane. -/
def Cells.start (w : Cells) (i : Int) : Int := (i - w.first) * w.cell

variable {usable minCell grid cur : Int}

theorem around_size (hgrid : 0 < grid) :
    0 < (around usable minCell grid cur).size ∧ (around usable minCell grid cur).size ≤ grid := by
  simp only [around]
  split <;> split <;> omega

/-- The window is a part of the line around the cursor. -/
theorem around_window (hcur : 0 ≤ cur) (hgrid : cur < grid) :
    let w := around usable minCell grid cur
    0 ≤ w.first ∧ w.first + w.size ≤ grid ∧ w.Shows cur := by
  intro w
  have hsize := @around_size usable minCell grid cur (by omega)
  have hfirst : w.first = if grid < (if cur - w.size.tdiv 2 < 0 then 0 else cur - w.size.tdiv 2) + w.size
      then if grid - w.size < 0 then 0 else grid - w.size
      else if cur - w.size.tdiv 2 < 0 then 0 else cur - w.size.tdiv 2 := rfl
  have hw : 0 < w.size ∧ w.size ≤ grid := hsize
  have hhalf : w.size.tdiv 2 = w.size / 2 := Int.tdiv_eq_ediv_of_nonneg (by omega)
  rw [hhalf] at hfirst
  unfold Cells.Shows
  rw [hfirst]
  split <;> split <;> omega

/-- The cells fill no more than the pane. -/
theorem around_fits (hgrid : 0 < grid) (husable : 0 ≤ usable) :
    let w := around usable minCell grid cur
    w.size * w.cell ≤ usable := by
  intro w
  have hcell : w.cell = usable / w.size := Int.tdiv_eq_ediv_of_nonneg husable
  rw [hcell]
  exact Int.mul_ediv_self_le (ne_of_gt (around_size hgrid).1)

/-- No cell is shorter than the least length, or else than the pane. -/
theorem around_cell {m : Int} (hgrid : 0 < grid) (hm : 0 < m) (hmin : m ≤ minCell)
    (husable : m ≤ usable) : m ≤ (around usable minCell grid cur).cell := by
  have hsize := @around_size usable minCell grid cur hgrid
  have hcell : (around usable minCell grid cur).cell =
      usable / (around usable minCell grid cur).size := Int.tdiv_eq_ediv_of_nonneg (by omega)
  have hle : (around usable minCell grid cur).size ≤ 1 ∨
      (around usable minCell grid cur).size ≤ usable / minCell := by
    have hquot : usable.tdiv minCell = usable / minCell := Int.tdiv_eq_ediv_of_nonneg (by omega)
    simp only [around, hquot]
    split <;> split <;> omega
  rw [hcell, Int.le_ediv_iff_mul_le hsize.1]
  rcases hle with hone | hquot
  · have : (around usable minCell grid cur).size = 1 := by omega
    rw [this]
    omega
  · have hfit : usable / minCell * minCell ≤ usable := Int.ediv_mul_le usable (by omega)
    calc m * (around usable minCell grid cur).size
        ≤ minCell * (usable / minCell) := by
          apply mul_le_mul hmin hquot (le_of_lt hsize.1) (by omega)
      _ = usable / minCell * minCell := Int.mul_comm _ _
      _ ≤ usable := hfit

/-- What a window is good for: the cells are in the pane of length `usable` and in the line, the cursor
is one of them, and each has at least the length `m`. -/
structure Cells.Fits (w : Cells) (usable m grid cur : Int) : Prop where
  size : 0 < w.size
  first : 0 ≤ w.first
  last : w.first + w.size ≤ grid
  cursor : w.Shows cur
  pane : w.size * w.cell ≤ usable
  cell : m ≤ w.cell

theorem around_spec {m : Int} (hcur : 0 ≤ cur) (hgrid : cur < grid) (hm : 0 < m) (hmin : m ≤ minCell)
    (husable : m ≤ usable) : (around usable minCell grid cur).Fits usable m grid cur := by
  obtain ⟨hfirst, hlast, hcursor⟩ := @around_window usable minCell grid cur hcur hgrid
  have hpos : 0 < grid := by omega
  exact ⟨(around_size hpos).1, hfirst, hlast, hcursor, around_fits hpos (by omega),
    around_cell hpos hm hmin husable⟩

section Pane

variable {w : Cells} {m : Int}

/-- A cell of the window lies in the pane. -/
theorem Cells.Fits.inside (h : w.Fits usable m grid cur) (hm : 0 ≤ m) {i : Int} (hi : w.Shows i) :
    0 ≤ w.start i ∧ w.start i + w.cell ≤ usable := by
  have hcell := Int.le_trans hm h.cell
  obtain ⟨hlow, hhigh⟩ := hi
  refine ⟨Int.mul_nonneg (by omega) hcell, ?_⟩
  calc w.start i + w.cell = (i - w.first + 1) * w.cell := by
        rw [Cells.start, Int.add_mul, Int.one_mul]
    _ ≤ w.size * w.cell := Int.mul_le_mul_of_nonneg_right (by omega) hcell
    _ ≤ usable := h.pane

/-- A later cell begins behind an earlier one. -/
theorem Cells.Fits.apart (h : w.Fits usable m grid cur) (hm : 0 ≤ m) {i j : Int} (hij : i < j) :
    w.start i + w.cell ≤ w.start j := by
  have hcell := Int.le_trans hm h.cell
  calc w.start i + w.cell = (i - w.first + 1) * w.cell := by
        rw [Cells.start, Int.add_mul, Int.one_mul]
    _ ≤ w.start j := Int.mul_le_mul_of_nonneg_right (by omega) hcell

end Pane

end Window
