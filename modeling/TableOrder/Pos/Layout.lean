import TableOrder.Server.Basic

/-!
# The table layout (`layout.c`, and the layout helpers of `ui.c`)

A layout is a grid and an array of 64 slots, of which the first `count` are in use; a slot past
the count keeps what it last held. The size of the array and the bound of the count are fields.
-/

namespace TableOrder

open CLib

abbrev MAX_GRID_ROWS : Nat := 24
abbrev MAX_GRID_COLS : Nat := 40
abbrev MAX_LAYOUT_TABLES : Nat := MAX_TABLES
abbrev MAX_TABLE_LABEL : Nat := 16

instance : NeZero MAX_TABLE_LABEL := ⟨by decide⟩

inductive TableZone where
  | outside
  | inside
  deriving DecidableEq

structure TablePlacement where
  tableId : Int
  zone : TableZone
  row : Int
  col : Int
  label : CStr MAX_TABLE_LABEL
  active : Bool
  deriving DecidableEq

structure StoreLayout where
  gridRows : Int
  gridCols : Int
  count : Nat
  tables : List TablePlacement
  size : tables.length = MAX_LAYOUT_TABLES
  bound : count ≤ MAX_LAYOUT_TABLES
  deriving DecidableEq

namespace StoreLayout

/-- The slots the loops run over. -/
def used (layout : StoreLayout) : List TablePlacement := layout.tables.take layout.count

/-- `layout->tables[i] = tp`. -/
def setSlot (layout : StoreLayout) (i : Nat) (tp : TablePlacement) : StoreLayout :=
  { layout with
    tables := layout.tables.set i tp
    size := by rw [List.length_set]; exact layout.size }

end StoreLayout

/-- A slot after `memset`. -/
def zeroPlacement : TablePlacement := ⟨0, .outside, 0, 0, CStr.empty MAX_TABLE_LABEL, false⟩

def layoutInit : StoreLayout where
  gridRows := 5
  gridCols := 7
  count := 0
  tables := List.replicate MAX_LAYOUT_TABLES zeroPlacement
  size := List.length_replicate
  bound := Nat.zero_le _

def layoutZoneName : TableZone → Bytes
  | .inside => lit "inside"
  | .outside => lit "outside"

/-- A full layout takes no more tables. -/
def layoutAddSlot (layout : StoreLayout) (tableId : Int) (zone : TableZone) (row col : Int)
    (label : Bytes) : StoreLayout :=
  if h : layout.count < MAX_LAYOUT_TABLES then
    { layout.setSlot layout.count
        ⟨tableId, zone, row, col, CStr.copy MAX_TABLE_LABEL label, true⟩ with
      count := layout.count + 1
      bound := h }
  else layout

def layoutInitDefault : StoreLayout :=
  let add := fun (layout : StoreLayout) (t : Int × TableZone × Int × Int × String) =>
    layoutAddSlot layout t.1 t.2.1 t.2.2.1 t.2.2.2.1 (lit t.2.2.2.2)
  [(1, .outside, 0, 0, "밖1"), (2, .outside, 0, 1, "밖2"), (3, .outside, 1, 0, "밖3"),
    (4, .outside, 1, 1, "밖4"), (5, .outside, 2, 0, "밖5"), (6, .outside, 2, 1, "밖6"),
    (7, .outside, 3, 0, "밖7"), (8, .outside, 3, 1, "밖8"), (9, .inside, 1, 3, "안1"),
    (10, .inside, 1, 4, "안2"), (11, .inside, 1, 5, "안3"), (12, .inside, 2, 3, "안4"),
    (13, .inside, 2, 4, "안5"), (14, .inside, 2, 5, "안6")].foldl add layoutInit

/-! ## Lookup -/

def layoutFindById (layout : StoreLayout) (tableId : Int) : Option TablePlacement :=
  layout.used.find? fun tp => tp.active && tp.tableId == tableId

/-- The table on a cell. -/
def onCell (row col : Int) (tp : TablePlacement) : Bool :=
  tp.active && tp.row == row && tp.col == col

def layoutFindAt (layout : StoreLayout) (row col : Int) : Option TablePlacement :=
  layout.used.find? (onCell row col)

/-- The same search, for the index. -/
def uiPosLayoutFindIndex (layout : StoreLayout) (row col : Int) : Option Nat :=
  layout.used.findIdx? (onCell row col)

def layoutMaxTableId (layout : StoreLayout) : Int :=
  layout.used.foldl
    (fun maxId tp => if tp.active && decide (maxId < tp.tableId) then tp.tableId else maxId) 0

/-! ## Slots -/

/-- Move the active slots to the front; what they leave behind stays past the new count. -/
def uiPosLayoutCompact (layout : StoreLayout) : StoreLayout :=
  let active := layout.used.filter (·.active)
  have hle : active.length ≤ layout.count :=
    Nat.le_trans (List.length_filter_le _ _) (List.length_take_le _ _)
  { layout with
    count := active.length
    tables := active ++ layout.tables.drop active.length
    size := by
      have hsize := layout.size
      have hbound := layout.bound
      rw [List.length_append, List.length_drop]
      omega
    bound := Nat.le_trans hle layout.bound }

/-- Shift the slots after `idx` down. The last one keeps its content, now past the count. -/
def uiPosLayoutRemoveAt (layout : StoreLayout) (idx : Nat) : StoreLayout :=
  if h : idx < layout.count then
    { layout with
      count := layout.count - 1
      tables := layout.used.eraseIdx idx ++ layout.tables.drop (layout.count - 1)
      size := by
        have hsize := layout.size
        have hbound := layout.bound
        have hused : layout.used.length = layout.count := by
          rw [StoreLayout.used, List.length_take]
          omega
        rw [List.length_append, List.length_eraseIdx_of_lt (by omega), List.length_drop]
        omega
      bound := Nat.le_trans (Nat.sub_le _ _) layout.bound }
  else layout

/-- The first inactive slot, or one more. The count is raised before the slot is written. -/
def uiPosLayoutAllocSlot (layout : StoreLayout) : Option (Nat × StoreLayout) :=
  match layout.used.findIdx? (!·.active) with
  | some i => some (i, layout)
  | none =>
    if h : layout.count < MAX_LAYOUT_TABLES then
      some (layout.count, { layout with count := layout.count + 1, bound := h })
    else none

/-! ## What the operations do to the slots in use -/

namespace StoreLayout

theorem length_used (layout : StoreLayout) : layout.used.length = layout.count := by
  rw [used, List.length_take, layout.size]
  exact Nat.min_eq_left layout.bound

theorem getElem?_used {layout : StoreLayout} {i : Nat} (h : i < layout.count) :
    layout.used[i]? = layout.tables[i]? := by
  rw [used, List.getElem?_take, if_pos h]

/-- A slot past the count is still one of the array. -/
theorem exists_slot {layout : StoreLayout} {i : Nat} (h : i < MAX_LAYOUT_TABLES) :
    ∃ tp, layout.tables[i]? = some tp :=
  ⟨_, List.getElem?_eq_getElem (by rw [layout.size]; exact h)⟩

theorem used_setSlot {layout : StoreLayout} {i : Nat} (tp : TablePlacement) :
    (layout.setSlot i tp).used = layout.used.set i tp := by
  rw [used, used, setSlot, List.take_set]

theorem used_removeAt (layout : StoreLayout) (idx : Nat) :
    (uiPosLayoutRemoveAt layout idx).used = layout.used.eraseIdx idx := by
  have hlen := layout.length_used
  unfold uiPosLayoutRemoveAt
  split
  · next h =>
    have herase : (layout.used.eraseIdx idx).length = layout.count - 1 := by
      rw [List.length_eraseIdx_of_lt (by omega), hlen]
    show (layout.used.eraseIdx idx ++ layout.tables.drop (layout.count - 1)).take _ = _
    rw [List.take_append_of_le_length herase.ge, List.take_of_length_le herase.le]
  · next h => rw [List.eraseIdx_of_length_le (by omega)]

/-- The slot is an inactive one among those in use, or the one past them when these are all active. -/
theorem alloc_cases {layout layout' : StoreLayout} {slot : Nat}
    (h : uiPosLayoutAllocSlot layout = some (slot, layout')) :
    (layout' = layout ∧ ∃ tp, layout.used[slot]? = some tp ∧ tp.active = false) ∨
    ((∀ tp ∈ layout.used, tp.active = true) ∧ slot = layout.count ∧
      ∃ hlt : layout.count < MAX_LAYOUT_TABLES,
        layout' = { layout with count := layout.count + 1, bound := hlt }) := by
  unfold uiPosLayoutAllocSlot at h
  split at h
  · next i hfind =>
    obtain ⟨rfl, rfl⟩ := Prod.mk.inj (Option.some.inj h)
    obtain ⟨hi, hinactive, -⟩ := List.findIdx?_eq_some_iff_getElem.mp hfind
    exact .inl ⟨rfl, _, List.getElem?_eq_getElem hi, by simpa using hinactive⟩
  · next hnone =>
    split at h
    · next hlt =>
      obtain ⟨rfl, rfl⟩ := Prod.mk.inj (Option.some.inj h)
      refine .inr ⟨?_, rfl, hlt, rfl⟩
      intro tp htp
      simpa using List.findIdx?_eq_none_iff.mp hnone tp htp
    · cases h

/-- Only the count can change. -/
theorem alloc_same {layout layout' : StoreLayout} {slot : Nat}
    (h : uiPosLayoutAllocSlot layout = some (slot, layout')) :
    layout'.tables = layout.tables ∧ layout'.gridRows = layout.gridRows ∧
      layout'.gridCols = layout.gridCols := by
  rcases alloc_cases h with ⟨rfl, -⟩ | ⟨-, -, -, rfl⟩
  · exact ⟨rfl, rfl, rfl⟩
  · exact ⟨rfl, rfl, rfl⟩

/-- There is a slot unless all 64 hold a table. -/
theorem alloc_isSome {layout : StoreLayout}
    (h : (layout.used.filter (·.active)).length < MAX_LAYOUT_TABLES) :
    (uiPosLayoutAllocSlot layout).isSome := by
  unfold uiPosLayoutAllocSlot
  split
  · rfl
  · next hnone =>
    have hall : layout.used.filter (·.active) = layout.used := by
      rw [List.filter_eq_self]
      intro tp htp
      simpa using List.findIdx?_eq_none_iff.mp hnone tp htp
    rw [hall, layout.length_used] at h
    rw [dif_pos h]
    rfl

/-- The new last slot of a layout with one more. -/
theorem used_grown {layout : StoreLayout} (hlt : layout.count < MAX_LAYOUT_TABLES)
    {old : TablePlacement} (hold : layout.tables[layout.count]? = some old) :
    StoreLayout.used { layout with count := layout.count + 1, bound := hlt } =
      layout.used ++ [old] := by
  show layout.tables.take (layout.count + 1) = _
  rw [List.take_add_one, hold]
  rfl

/-- The slot found is in use then, and so are those that were before. -/
theorem alloc_used {layout layout' : StoreLayout} {slot : Nat}
    (h : uiPosLayoutAllocSlot layout = some (slot, layout')) :
    layout.used <+: layout'.used ∧ slot < layout'.used.length := by
  rcases alloc_cases h with ⟨rfl, tp, htp, -⟩ | ⟨-, rfl, hlt, rfl⟩
  · exact ⟨List.prefix_rfl, (List.getElem?_eq_some_iff.mp htp).1⟩
  · obtain ⟨old, hold⟩ := layout.exists_slot hlt
    rw [used_grown hlt hold]
    refine ⟨List.prefix_append _ _, ?_⟩
    rw [List.length_append, length_used]
    exact Nat.lt_succ_self _

end StoreLayout

/-- The table found on a cell is on it, and in the slot found. -/
theorem uiPosLayoutFindIndex_eq_some {layout : StoreLayout} {row col : Int} {idx : Nat}
    (h : uiPosLayoutFindIndex layout row col = some idx) :
    ∃ tp, layout.used[idx]? = some tp ∧ tp.active = true ∧ tp.row = row ∧ tp.col = col := by
  obtain ⟨hlt, hcell, -⟩ := List.findIdx?_eq_some_iff_getElem.mp h
  refine ⟨_, List.getElem?_eq_getElem hlt, ?_⟩
  simpa [onCell, and_assoc] using hcell

theorem layoutFindAt_eq_none {layout : StoreLayout} {row col : Int} :
    layoutFindAt layout row col = none ↔
      ∀ tp ∈ layout.used, tp.active = true → ¬ (tp.row = row ∧ tp.col = col) := by
  simp [layoutFindAt, onCell]

theorem uiPosLayoutFindIndex_eq_none {layout : StoreLayout} {row col : Int} :
    uiPosLayoutFindIndex layout row col = none ↔ layoutFindAt layout row col = none := by
  rw [uiPosLayoutFindIndex, layoutFindAt, List.findIdx?_eq_none_iff, List.find?_eq_none]
  simp

/-- A cell with an index has a table. -/
theorem layoutFindAt_isSome {layout : StoreLayout} {row col : Int} {idx : Nat}
    (h : uiPosLayoutFindIndex layout row col = some idx) : (layoutFindAt layout row col).isSome := by
  rw [← Option.isNone_eq_false_iff, Bool.eq_false_iff, ne_eq, Option.isNone_iff_eq_none,
    ← uiPosLayoutFindIndex_eq_none, h]
  simp

/-- The largest id of an active table in the list, or `m`. -/
def maxIdFrom (m : Int) (tables : List TablePlacement) : Int :=
  tables.foldl
    (fun maxId tp => if tp.active && decide (maxId < tp.tableId) then tp.tableId else maxId) m

theorem layoutMaxTableId_eq (layout : StoreLayout) :
    layoutMaxTableId layout = maxIdFrom 0 layout.used := rfl

theorem maxIdFrom_cons (m : Int) (tp : TablePlacement) (tables : List TablePlacement) :
    maxIdFrom m (tp :: tables) =
      maxIdFrom (if tp.active && decide (m < tp.tableId) then tp.tableId else m) tables := rfl

theorem maxIdFrom_concat (m : Int) (tables : List TablePlacement) (tp : TablePlacement) :
    maxIdFrom m (tables ++ [tp]) =
      if tp.active && decide (maxIdFrom m tables < tp.tableId) then tp.tableId
      else maxIdFrom m tables := by
  rw [maxIdFrom, List.foldl_append]
  rfl

/-- Inactive slots do not count. -/
theorem maxIdFrom_filter (m : Int) (tables : List TablePlacement) :
    maxIdFrom m (tables.filter (·.active)) = maxIdFrom m tables := by
  induction tables generalizing m with
  | nil => rfl
  | cons tp tables ih =>
    cases hactive : tp.active with
    | true => rw [List.filter_cons_of_pos hactive, maxIdFrom_cons, maxIdFrom_cons, ih]
    | false => rw [List.filter_cons_of_neg (by simp [hactive]), ih, maxIdFrom_cons, hactive]; rfl

theorem maxIdFrom_spec (m : Int) (tables : List TablePlacement) :
    m ≤ maxIdFrom m tables ∧ (∀ tp ∈ tables, tp.active = true → tp.tableId ≤ maxIdFrom m tables) ∧
      (maxIdFrom m tables = m ∨
        ∃ tp ∈ tables, tp.active = true ∧ tp.tableId = maxIdFrom m tables) := by
  induction tables using List.reverseRecOn with
  | nil => exact ⟨le_rfl, by simp, .inl rfl⟩
  | append_singleton tables last ih =>
    obtain ⟨hle, hmax, hreached⟩ := ih
    rw [maxIdFrom_concat]
    have hmem : last ∈ tables ++ [last] := List.mem_append_right _ (List.mem_singleton_self _)
    by_cases hlarger : (last.active && decide (maxIdFrom m tables < last.tableId)) = true
    · rw [if_pos hlarger]
      obtain ⟨hactive, hlt⟩ := Bool.and_eq_true_iff.mp hlarger
      have hlt := of_decide_eq_true hlt
      refine ⟨by omega, ?_, .inr ⟨last, hmem, hactive, rfl⟩⟩
      intro tp htp hon
      rcases List.mem_append.mp htp with htp | htp
      · have := hmax tp htp hon
        omega
      · rw [List.mem_singleton.mp htp]
    · rw [if_neg hlarger]
      refine ⟨hle, ?_, ?_⟩
      · intro tp htp hon
        rcases List.mem_append.mp htp with htp | htp
        · exact hmax tp htp hon
        · rw [List.mem_singleton.mp htp] at hon ⊢
          simpa [hon] using hlarger
      · rcases hreached with hsame | ⟨tp, htp, hon, heq⟩
        · exact .inl hsame
        · exact .inr ⟨tp, List.mem_append_left _ htp, hon, heq⟩

/-! ## The file and the table count -/

def layoutLine (tp : TablePlacement) : Bytes :=
  lit "table=" ++ fmtInt tp.tableId ++ lit " zone=" ++ layoutZoneName tp.zone ++ lit " row=" ++
    fmtInt tp.row ++ lit " col=" ++ fmtInt tp.col ++ lit " label=" ++ tp.label.bytes ++ lit "\n"

/-- The text `layout_save` writes; `none` when the buffer is full. -/
def layoutSave (layout : StoreLayout) : Option Bytes :=
  let header := lit "# POS table layout (grid + placements)\ngrid_rows=" ++
    fmtInt layout.gridRows ++ lit "\ngrid_cols=" ++ fmtInt layout.gridCols ++ lit "\n"
  (layout.used.filter (·.active)).foldlM (fun body tp =>
    let line := layoutLine tp
    if 32768 ≤ body.length + line.length then none else some (body ++ line)) header

/-- The table count only ever grows. -/
def uiPosSyncMaxTables (w : World) (layout : StoreLayout) : World :=
  let maxId := layoutMaxTableId layout
  if maxId ≤ 0 then w
  else if w.ctx.cfg.maxTables < maxId then
    { w with ctx := { w.ctx with cfg := { w.ctx.cfg with maxTables := maxId } } }
  else w

@[simp] theorem uiPosSyncMaxTables_orders (w : World) (layout : StoreLayout) :
    (uiPosSyncMaxTables w layout).ctx.orders = w.ctx.orders := by
  unfold uiPosSyncMaxTables
  simp only
  split
  · rfl
  · split <;> rfl

@[simp] theorem uiPosSyncMaxTables_salesLog (w : World) (layout : StoreLayout) :
    (uiPosSyncMaxTables w layout).salesLog = w.salesLog := by
  unfold uiPosSyncMaxTables
  simp only
  split
  · rfl
  · split <;> rfl

end TableOrder
