import TableOrder.Keyed
import TableOrder.Pos.Keys

/-!
# The board of the layout editor

Of the state of the POS the layout editor has the layout and a cursor, a `Board`. An operation moves
the cursor, changes the grid, or changes one table, takes one away or adds one (`step_cases`), so that
every table afterwards is an old one or the new one (`mem_used_step`).

The tables of a board are meant to have ids and cells of their own, and the cursor to be on the grid.
Every operation keeps that, but for a new id that wraps around to one that is there (`Sound.step_iff`).
-/

namespace TableOrder

open CLib

/-! ## Boards -/

structure Board where
  layout : StoreLayout
  row : Int
  col : Int
  deriving DecidableEq

inductive BoardOp where
  /-- An arrow key moves the cursor; another key does nothing. -/
  | arrow (key : Key)
  | resize (rows cols : Int)
  | add
  | remove
  | rezone
  | label (text : Bytes)

namespace Board

/-- What is drawn. -/
def shown (b : Board) : List TablePlacement := b.layout.used.filter (·.active)

def arrow (b : Board) : Key → Board
  | .up => if 0 < b.row then { b with row := b.row - 1 } else b
  | .down => if b.row + 1 < b.layout.gridRows then { b with row := b.row + 1 } else b
  | .left => if 0 < b.col then { b with col := b.col - 1 } else b
  | .right => if b.col + 1 < b.layout.gridCols then { b with col := b.col + 1 } else b
  | _ => b

/-- The sizes the prompt takes. -/
def Accepts (rows cols : Int) : Prop :=
  0 < rows ∧ rows ≤ MAX_GRID_ROWS ∧ 0 < cols ∧ cols ≤ MAX_GRID_COLS

instance (rows cols : Int) : Decidable (Accepts rows cols) := by
  unfold Accepts
  infer_instance

def resize (b : Board) (rows cols : Int) : Board :=
  if Accepts rows cols then
    { layout := { b.layout with gridRows := rows, gridCols := cols }
      row := if rows ≤ b.row then rows - 1 else b.row
      col := if cols ≤ b.col then cols - 1 else b.col }
  else b

/-- The table of the add key. -/
def newTable (b : Board) (id : Int) : TablePlacement :=
  ⟨id, .outside, b.row, b.col, CStr.copy MAX_TABLE_LABEL (lit "T" ++ fmtInt id), true⟩

/-- The layout with the new table, where its cell is empty and there is a slot. -/
def added (b : Board) : Option StoreLayout :=
  if (layoutFindAt b.layout b.row b.col).isSome then none
  else
    (uiPosLayoutAllocSlot b.layout).map fun (slot, layout) =>
      layout.setSlot slot (b.newTable (IntSem.wrap.norm (layoutMaxTableId layout + 1)))

/-- Change the table under the cursor. -/
def edit (b : Board) (f : TablePlacement → TablePlacement) : Board :=
  match uiPosLayoutFindIndex b.layout b.row b.col with
  | some idx =>
    match b.layout.tables[idx]? with
    | some tp => { b with layout := b.layout.setSlot idx (f tp) }
    | none => b
  | none => b

def remove (b : Board) : Board :=
  match uiPosLayoutFindIndex b.layout b.row b.col with
  | some idx => { b with layout := uiPosLayoutRemoveAt b.layout idx }
  | none => b

def step (b : Board) : BoardOp → Board
  | .arrow key => b.arrow key
  | .resize rows cols => b.resize rows cols
  | .add => { b with layout := b.added.getD b.layout }
  | .remove => b.remove
  | .rezone => b.edit fun tp => { tp with zone := tp.zone.other }
  | .label text =>
    if text = [] then b else b.edit fun tp => { tp with label := CStr.copy MAX_TABLE_LABEL text }

end Board

/-! ## What an operation can do -/

/-- The same table with another zone or label. -/
structure SamePlace (tp tp' : TablePlacement) : Prop where
  tableId : tp'.tableId = tp.tableId
  row : tp'.row = tp.row
  col : tp'.col = tp.col
  active : tp'.active = tp.active

theorem SamePlace.refl (tp : TablePlacement) : SamePlace tp tp := ⟨rfl, rfl, rfl, rfl⟩

namespace Board

theorem edit_of_none {b : Board} (h : uiPosLayoutFindIndex b.layout b.row b.col = none)
    (f : TablePlacement → TablePlacement) : b.edit f = b := by
  rw [edit, h]

theorem remove_of_none {b : Board} (h : uiPosLayoutFindIndex b.layout b.row b.col = none) :
    b.remove = b := by
  rw [remove, h]

/-- An edit is at a table under the cursor, or does nothing. -/
theorem edit_cases (b : Board) {f : TablePlacement → TablePlacement}
    (hf : ∀ tp, SamePlace tp (f tp)) :
    b.edit f = b ∨ ∃ i tp tp', b.layout.used[i]? = some tp ∧ SamePlace tp tp' ∧
      b.edit f = { b with layout := b.layout.setSlot i tp' } := by
  unfold edit
  split
  · next idx hidx =>
    obtain ⟨tp, hused, -⟩ := uiPosLayoutFindIndex_eq_some hidx
    have hlt : idx < b.layout.count := by
      rw [← b.layout.length_used]
      exact (List.getElem?_eq_some_iff.mp hused).1
    rw [← StoreLayout.getElem?_used hlt, hused]
    exact .inr ⟨idx, tp, f tp, hused, hf tp, rfl⟩
  · exact .inl rfl

theorem step_cases (b : Board) (op : BoardOp) :
    -- the cursor only
    (∃ key, b.step op = b.arrow key) ∨
    -- the grid, and the cursor back inside
    (∃ rows cols, op = .resize rows cols ∧ Accepts rows cols) ∨
    -- another zone or label for one table
    (∃ i tp tp', b.layout.used[i]? = some tp ∧ SamePlace tp tp' ∧
      b.step op = { b with layout := b.layout.setSlot i tp' }) ∨
    -- a table less
    (∃ i, b.step op = { b with layout := uiPosLayoutRemoveAt b.layout i }) ∨
    -- a table more
    (∃ layout, op = .add ∧ b.added = some layout ∧ b.step op = { b with layout := layout }) := by
  have hnothing : b = b.arrow .other := rfl
  cases op with
  | arrow key => exact .inl ⟨key, rfl⟩
  | resize rows cols =>
    by_cases hok : Accepts rows cols
    · exact .inr (.inl ⟨rows, cols, rfl, hok⟩)
    · exact .inl ⟨.other, if_neg hok⟩
  | rezone =>
    have hsame (tp : TablePlacement) : SamePlace tp { tp with zone := tp.zone.other } :=
      ⟨rfl, rfl, rfl, rfl⟩
    rcases b.edit_cases hsame with hedit | hedit
    · exact .inl ⟨.other, hedit⟩
    · exact .inr (.inr (.inl hedit))
  | label text =>
    by_cases htext : text = []
    · exact .inl ⟨.other, if_pos htext⟩
    have hsame (tp : TablePlacement) :
        SamePlace tp { tp with label := CStr.copy MAX_TABLE_LABEL text } := ⟨rfl, rfl, rfl, rfl⟩
    rw [show b.step (.label text) = b.edit _ from if_neg htext]
    rcases b.edit_cases hsame with hedit | hedit
    · exact .inl ⟨.other, hedit⟩
    · exact .inr (.inr (.inl hedit))
  | remove =>
    show (∃ key, b.remove = _) ∨ _ ∨ _ ∨ (∃ i, b.remove = _) ∨ _
    unfold remove
    split
    · next idx hidx => exact .inr (.inr (.inr (.inl ⟨idx, rfl⟩)))
    · exact .inl ⟨.other, rfl⟩
  | add =>
    cases hadd : b.added with
    | none => exact .inl ⟨.other, by rw [step, hadd]; rfl⟩
    | some layout => exact .inr (.inr (.inr (.inr ⟨layout, rfl, rfl, by rw [step, hadd]; rfl⟩)))

theorem added_eq_some {b : Board} {layout : StoreLayout} :
    b.added = some layout ↔ layoutFindAt b.layout b.row b.col = none ∧ ∃ slot grown,
      uiPosLayoutAllocSlot b.layout = some (slot, grown) ∧
      grown.setSlot slot (b.newTable (IntSem.wrap.norm (layoutMaxTableId grown + 1))) = layout := by
  unfold added
  cases layoutFindAt b.layout b.row b.col <;> simp

/-! ## The cursor -/

/-- A cell of the grid. -/
def Inside (layout : StoreLayout) (row col : Int) : Prop :=
  0 ≤ row ∧ row < layout.gridRows ∧ 0 ≤ col ∧ col < layout.gridCols

instance (layout : StoreLayout) (row col : Int) : Decidable (Inside layout row col) := by
  unfold Inside
  infer_instance

theorem arrow_layout (b : Board) (key : Key) : (b.arrow key).layout = b.layout := by
  unfold arrow
  split <;> first | rfl | (split <;> rfl)

theorem arrow_cursor {b : Board} (key : Key) (h : Inside b.layout b.row b.col) :
    Inside b.layout (b.arrow key).row (b.arrow key).col := by
  obtain ⟨hrow, hrows, hcol, hcols⟩ := h
  unfold arrow Inside
  split
  · split <;> (try dsimp only) <;> omega
  · split <;> (try dsimp only) <;> omega
  · split <;> (try dsimp only) <;> omega
  · split <;> (try dsimp only) <;> omega
  · exact ⟨hrow, hrows, hcol, hcols⟩

theorem resize_cursor {b : Board} {rows cols : Int} (hok : Accepts rows cols)
    (h : Inside b.layout b.row b.col) :
    Inside (b.resize rows cols).layout (b.resize rows cols).row (b.resize rows cols).col := by
  obtain ⟨hrow, -, hcol, -⟩ := h
  rw [resize, if_pos hok]
  obtain ⟨hrows, -, hcols, -⟩ := hok
  unfold Inside
  dsimp only
  split <;> split <;> omega

theorem inside_added {b : Board} {layout : StoreLayout} (hadded : b.added = some layout)
    (row col : Int) : Inside layout row col ↔ Inside b.layout row col := by
  obtain ⟨-, slot, grown, hslot, rfl⟩ := added_eq_some.mp hadded
  obtain ⟨-, hrows, hcols⟩ := StoreLayout.alloc_same hslot
  show Inside grown row col ↔ Inside b.layout row col
  rw [Inside, Inside, hrows, hcols]

theorem inside_removeAt (layout : StoreLayout) (idx : Nat) (row col : Int) :
    Inside (uiPosLayoutRemoveAt layout idx) row col ↔ Inside layout row col := by
  unfold Inside uiPosLayoutRemoveAt
  split <;> rfl

/-- Only sizes the prompt takes change the grid. -/
theorem inside_step {b : Board} {op : BoardOp}
    (hop : ¬ ∃ rows cols, op = .resize rows cols ∧ Accepts rows cols) (row col : Int) :
    Inside (b.step op).layout row col ↔ Inside b.layout row col := by
  rcases b.step_cases op with ⟨key, hstep⟩ | hresize | ⟨i, tp, tp', -, -, hstep⟩ | ⟨i, hstep⟩ |
    ⟨layout, -, hadded, hstep⟩
  · rw [hstep, arrow_layout]
  · exact absurd hresize hop
  · rw [hstep]
    rfl
  · rw [hstep]
    exact inside_removeAt _ _ _ _
  · rw [hstep]
    exact inside_added hadded _ _

theorem step_cursor {b : Board} (h : Inside b.layout b.row b.col) (op : BoardOp) :
    Inside (b.step op).layout (b.step op).row (b.step op).col := by
  rcases b.step_cases op with ⟨key, hstep⟩ | ⟨rows, cols, rfl, hok⟩ | ⟨i, tp, tp', -, -, hstep⟩ |
    ⟨i, hstep⟩ | ⟨layout, -, hadded, hstep⟩
  · rw [hstep, arrow_layout]
    exact arrow_cursor key h
  · exact resize_cursor hok h
  · rw [hstep]
    exact h
  · rw [hstep]
    exact (inside_removeAt _ _ _ _).mpr h
  · rw [hstep]
    exact (inside_added hadded _ _).mpr h

/-! ## The tables after a step -/

/-- When all slots in use hold tables, a new one is counted with whatever its slot held. -/
theorem used_added {b : Board} (hactive : ∀ tp ∈ b.layout.used, tp.active = true) {slot : Nat}
    {grown : StoreLayout} (hslot : uiPosLayoutAllocSlot b.layout = some (slot, grown)) :
    ∃ old ∈ b.layout.tables, grown.used = b.layout.used ++ [old] ∧
      ∀ new, (grown.setSlot slot new).used = b.layout.used ++ [new] := by
  rcases StoreLayout.alloc_cases hslot with ⟨-, tp, htp, hinactive⟩ | ⟨-, rfl, hlt, rfl⟩
  · rw [hactive tp (List.mem_of_getElem? htp)] at hinactive
    cases hinactive
  · obtain ⟨old, hold⟩ := b.layout.exists_slot hlt
    refine ⟨old, List.mem_of_getElem? hold, StoreLayout.used_grown hlt hold, fun new => ?_⟩
    rw [StoreLayout.used_setSlot, StoreLayout.used_grown hlt hold, ← b.layout.length_used,
      List.set_append_right _ _ le_rfl, Nat.sub_self]
    rfl

/-- A table in the slot found is the new one or was there. -/
theorem mem_used_setSlot {b : Board} {slot : Nat} {grown : StoreLayout}
    (hslot : uiPosLayoutAllocSlot b.layout = some (slot, grown)) {new tp : TablePlacement}
    (h : tp ∈ (grown.setSlot slot new).used) : tp ∈ b.layout.used ∨ tp = new := by
  rcases StoreLayout.alloc_cases hslot with ⟨rfl, -⟩ | ⟨hactive, -⟩
  · rw [StoreLayout.used_setSlot] at h
    exact List.mem_or_eq_of_mem_set h
  · obtain ⟨old, -, -, hused⟩ := used_added hactive hslot
    rw [hused, List.mem_append, List.mem_singleton] at h
    exact h

/-- The new table is found on its cell. -/
theorem added_find {b : Board} (hcell : layoutFindAt b.layout b.row b.col = none) {slot : Nat}
    {grown : StoreLayout} (hslot : uiPosLayoutAllocSlot b.layout = some (slot, grown)) (id : Int) :
    layoutFindAt (grown.setSlot slot (b.newTable id)) b.row b.col = some (b.newTable id) := by
  have hmem : b.newTable id ∈ (grown.setSlot slot (b.newTable id)).used := by
    rw [StoreLayout.used_setSlot]
    exact List.mem_set (StoreLayout.alloc_used hslot).2 _
  cases hfind : layoutFindAt (grown.setSlot slot (b.newTable id)) b.row b.col with
  | none => exact absurd ⟨rfl, rfl⟩ (layoutFindAt_eq_none.mp hfind _ hmem rfl)
  | some tp =>
    have hon : onCell b.row b.col tp = true := List.find?_some hfind
    rcases mem_used_setSlot hslot (List.mem_of_find?_eq_some hfind) with hold | rfl
    · have hoff := layoutFindAt_eq_none.mp hcell tp hold
      simp only [onCell, Bool.and_eq_true, beq_iff_eq] at hon
      exact absurd ⟨hon.1.2, hon.2⟩ (hoff hon.1.1)
    · rfl

/-- Every table is an old one, maybe with another zone or label, or the new one. -/
theorem mem_used_step {b : Board} {op : BoardOp} {tp' : TablePlacement}
    (h : tp' ∈ (b.step op).layout.used) :
    (∃ tp ∈ b.layout.used, SamePlace tp tp') ∨
      (op = .add ∧ layoutFindAt b.layout b.row b.col = none ∧ ∃ slot grown,
        uiPosLayoutAllocSlot b.layout = some (slot, grown) ∧
        tp' = b.newTable (IntSem.wrap.norm (layoutMaxTableId grown + 1))) := by
  have hkept (hmem : tp' ∈ b.layout.used) : ∃ tp ∈ b.layout.used, SamePlace tp tp' :=
    ⟨tp', hmem, SamePlace.refl tp'⟩
  rcases b.step_cases op with ⟨key, hstep⟩ | ⟨rows, cols, rfl, hok⟩ | ⟨i, tp, new, htp, hsame, hstep⟩ |
    ⟨i, hstep⟩ | ⟨layout, hop, hadded, hstep⟩
  · rw [hstep, arrow_layout] at h
    exact .inl (hkept h)
  · rw [step, resize, if_pos hok] at h
    exact .inl (hkept h)
  · rw [hstep, StoreLayout.used_setSlot] at h
    rcases List.mem_or_eq_of_mem_set h with h | rfl
    · exact .inl (hkept h)
    · exact .inl ⟨tp, List.mem_of_getElem? htp, hsame⟩
  · rw [hstep, StoreLayout.used_removeAt] at h
    exact .inl (hkept (List.mem_of_mem_eraseIdx h))
  · rw [hstep] at h
    obtain ⟨hcell, slot, grown, hslot, rfl⟩ := added_eq_some.mp hadded
    rcases mem_used_setSlot hslot h with hold | hnew
    · exact .inl (hkept hold)
    · exact .inr ⟨hop, hcell, slot, grown, hslot, hnew⟩

/-! ## Tables with ids and cells of their own -/

/-- The slots in use hold tables with ids and cells of their own, and the cursor is on the grid. -/
structure Sound (b : Board) : Prop where
  count : b.layout.count ≤ MAX_LAYOUT_TABLES
  active : ∀ tp ∈ b.layout.used, tp.active = true
  ids : (b.layout.used.map (·.tableId)).Nodup
  cells : (b.layout.used.map fun tp => (tp.row, tp.col)).Nodup
  cursor : Inside b.layout b.row b.col

/-- The ids of all slots are values of an `int`. -/
def IdsFit (b : Board) : Prop := ∀ tp ∈ b.layout.tables, FitsInt tp.tableId

/-- A new table gets an id that is taken: of the slots it is counted with, one has the largest `int`,
and there is a table with the smallest. -/
def Clashes (b : Board) : Prop :=
  layoutFindAt b.layout b.row b.col = none ∧
    (∃ slot grown, uiPosLayoutAllocSlot b.layout = some (slot, grown) ∧
      layoutMaxTableId grown = 2147483647) ∧
    ∃ tp ∈ b.layout.used, tp.tableId = -2147483648

theorem Sound.keyed {κ : Type} {key : TablePlacement → κ} {b : Board} (h : b.Sound)
    (hnodup : (b.layout.used.map key).Nodup) : OrdMap.Keyed key (·.active = true) b.layout.used :=
  ⟨hnodup, h.active⟩

/-- The tables as they are, and a cursor on the grid. -/
theorem Sound.of_used {b b' : Board} (h : b.Sound) (hused : b'.layout.used = b.layout.used)
    (hcursor : Inside b'.layout b'.row b'.col) : b'.Sound where
  count := b'.layout.bound
  active := hused ▸ h.active
  ids := hused ▸ h.ids
  cells := hused ▸ h.cells
  cursor := hcursor

/-- The id the new one is one above is 0 or that of a slot. -/
theorem maxId_fits {b : Board} (hids : b.IdsFit) {slot : Nat} {grown : StoreLayout}
    (hslot : uiPosLayoutAllocSlot b.layout = some (slot, grown)) :
    0 ≤ layoutMaxTableId grown ∧ layoutMaxTableId grown ≤ 2147483647 ∧
      ∀ tp ∈ b.layout.used, tp.active = true → tp.tableId ≤ layoutMaxTableId grown := by
  obtain ⟨hpos, hmax, hreached⟩ := maxIdFrom_spec 0 grown.used
  rw [← layoutMaxTableId_eq] at hpos hmax hreached
  refine ⟨hpos, ?_, ?_⟩
  · rcases hreached with hzero | ⟨tp, htp, -, heq⟩
    · omega
    · have hslots := List.mem_of_mem_take htp
      rw [(StoreLayout.alloc_same hslot).1] at hslots
      have := (hids tp hslots).2
      omega
  · intro tp htp hon
    exact hmax tp ((StoreLayout.alloc_used hslot).1.subset htp) hon

/-- One above the largest id, which wraps around at the end of the range. -/
theorem newId_cases {m : Int} (h : 0 ≤ m ∧ m ≤ 2147483647) :
    m < 2147483647 ∧ IntSem.wrap.norm (m + 1) = m + 1 ∨
      m = 2147483647 ∧ IntSem.wrap.norm (m + 1) = -2147483648 := by
  rcases Int.lt_or_eq_of_le h.2 with hlt | rfl
  · exact .inl ⟨hlt, IntSem.wrap.norm_of_fits _ (by unfold FitsInt; omega)⟩
  · exact .inr ⟨rfl, by decide⟩

/-- A table more keeps the board sound unless its id is taken. -/
theorem Sound.add_iff {b : Board} (h : b.Sound) (hids : b.IdsFit)
    {layout : StoreLayout} (hadded : b.added = some layout) :
    Sound { b with layout := layout } ↔ ¬ b.Clashes := by
  obtain ⟨hcell, slot, grown, hslot, rfl⟩ := added_eq_some.mp hadded
  obtain ⟨old, -, hgrown, hused⟩ := used_added h.active hslot
  obtain ⟨hpos, hle, hmax⟩ := maxId_fits hids hslot
  have hcursor := step_cursor h.cursor .add
  rw [step, hadded] at hcursor
  have hclashes : b.Clashes ↔
      IntSem.wrap.norm (layoutMaxTableId grown + 1) ∈ b.layout.used.map (·.tableId) := by
    rw [List.mem_map]
    constructor
    · rintro ⟨-, ⟨slot', grown', hslot', hlast⟩, tp, htp, hid⟩
      rw [hslot] at hslot'
      obtain ⟨rfl, rfl⟩ := Prod.mk.inj (Option.some.inj hslot')
      exact ⟨tp, htp, by rw [hid, hlast]; decide⟩
    · rintro ⟨tp, htp, hid⟩
      have hbelow := hmax tp htp (h.active tp htp)
      rcases newId_cases ⟨hpos, hle⟩ with ⟨-, hnew⟩ | ⟨hlast, hnew⟩
      · omega
      · exact ⟨hcell, ⟨slot, grown, hslot, hlast⟩, tp, htp, hid.trans hnew⟩
  rw [hclashes]
  constructor
  · intro hsound htaken
    have hnodup := hsound.ids
    rw [show StoreLayout.used _ = _ from hused _, List.map_append, List.nodup_append] at hnodup
    exact hnodup.2.2 _ htaken _ (List.mem_singleton_self _) rfl
  · intro hfree
    have hempty : (b.row, b.col) ∉ b.layout.used.map fun tp => (tp.row, tp.col) := by
      rw [List.mem_map]
      rintro ⟨tp, htp, heq⟩
      exact layoutFindAt_eq_none.mp hcell tp htp (h.active tp htp) (Prod.mk.inj heq)
    have hid := (h.keyed h.ids).concat (a := b.newTable _) hfree rfl
    have hcells := (h.keyed h.cells).concat
      (a := b.newTable (IntSem.wrap.norm (layoutMaxTableId grown + 1))) hempty rfl
    rw [← hused] at hid hcells
    exact ⟨StoreLayout.bound _, hid.all, hid.nodup, hcells.nodup, hcursor⟩

/-- Of all operations only an added table can break soundness. -/
theorem Sound.step_iff {b : Board} (h : b.Sound) (hids : b.IdsFit) (op : BoardOp) :
    (b.step op).Sound ↔ (op = .add → ¬ b.Clashes) := by
  by_cases hop : op = .add
  · subst hop
    rw [step]
    cases hadded : b.added with
    | none =>
      refine iff_of_true h fun _ hclashes => ?_
      obtain ⟨hcell, ⟨slot, grown, hslot, -⟩, -⟩ := hclashes
      rw [added_eq_some.mpr ⟨hcell, slot, grown, hslot, rfl⟩] at hadded
      cases hadded
    | some layout =>
      rw [Option.getD_some, h.add_iff hids hadded]
      exact ⟨fun hfree _ => hfree, fun hfree => hfree rfl⟩
  refine iff_of_true ?_ fun hadd => absurd hadd hop
  have hcursor := step_cursor h.cursor op
  rcases b.step_cases op with ⟨key, hstep⟩ | ⟨rows, cols, rfl, hok⟩ | ⟨i, tp, tp', htp, hsame, hstep⟩ |
    ⟨i, hstep⟩ | ⟨layout, hadd, -⟩
  · rw [hstep] at hcursor ⊢
    exact h.of_used (by rw [arrow_layout]) hcursor
  · refine h.of_used ?_ hcursor
    show (b.resize rows cols).layout.used = _
    rw [resize, if_pos hok]
    rfl
  · rw [hstep] at hcursor ⊢
    have hactive : tp'.active = true := hsame.active.trans (h.active tp (List.mem_of_getElem? htp))
    have hids := (h.keyed h.ids).set htp hsame.tableId hactive
    have hcells := (h.keyed h.cells).set htp (by rw [hsame.row, hsame.col]) hactive
    rw [← StoreLayout.used_setSlot] at hids hcells
    exact ⟨StoreLayout.bound _, hids.all, hids.nodup, hcells.nodup, hcursor⟩
  · rw [hstep] at hcursor ⊢
    have hids := (h.keyed h.ids).eraseIdx i
    have hcells := (h.keyed h.cells).eraseIdx i
    rw [← StoreLayout.used_removeAt] at hids hcells
    exact ⟨StoreLayout.bound _, hids.all, hids.nodup, hcells.nodup, hcursor⟩
  · exact absurd hadd hop

theorem IdsFit.step {b : Board} (h : b.IdsFit) (op : BoardOp) : (b.step op).IdsFit := by
  have hset {layout : StoreLayout} (hlayout : ∀ tp ∈ layout.tables, FitsInt tp.tableId) {i : Nat}
      {new : TablePlacement} (hnew : FitsInt new.tableId) :
      ∀ tp ∈ (layout.setSlot i new).tables, FitsInt tp.tableId := by
    intro tp htp
    rcases List.mem_or_eq_of_mem_set htp with htp | rfl
    · exact hlayout tp htp
    · exact hnew
  rcases b.step_cases op with ⟨key, hstep⟩ | ⟨rows, cols, rfl, hok⟩ | ⟨i, tp, tp', htp, hsame, hstep⟩ |
    ⟨i, hstep⟩ | ⟨layout, -, hadded, hstep⟩
  · rw [hstep, IdsFit, arrow_layout]
    exact h
  · show ∀ tp ∈ (b.resize rows cols).layout.tables, _
    rw [resize, if_pos hok]
    exact h
  · rw [hstep]
    refine hset h ?_
    rw [hsame.tableId]
    exact h tp (List.mem_of_mem_take (List.mem_of_getElem? htp))
  · rw [hstep]
    intro tp htp
    rw [uiPosLayoutRemoveAt] at htp
    split at htp
    · rcases List.mem_append.mp htp with htp | htp
      · exact h tp (List.mem_of_mem_take (List.mem_of_mem_eraseIdx htp))
      · exact h tp (List.mem_of_mem_drop htp)
    · exact h tp htp
  · rw [hstep]
    obtain ⟨-, slot, grown, hslot, rfl⟩ := added_eq_some.mp hadded
    refine hset ?_ (IntSem.wrap_norm_fits _)
    rw [(StoreLayout.alloc_same hslot).1]
    exact h

/-! ## Tables on the grid -/

/-- Every table is on a cell of the grid, and arrow keys take the cursor to it. -/
def Shows (b : Board) : Prop :=
  ∀ tp ∈ b.layout.used, tp.active = true → Inside b.layout tp.row tp.col ∧
    ∃ keys : List Key, keys.foldl arrow b = { b with row := tp.row, col := tp.col }

/-- From a cell of the grid every other one can be reached. -/
theorem exists_keys {b : Board} (hcursor : Inside b.layout b.row b.col) {row col : Int}
    (hcell : Inside b.layout row col) :
    ∃ keys : List Key, keys.foldl arrow b = { b with row := row, col := col } := by
  -- by the number of rows and columns between
  induction hn : (b.row - row).natAbs + (b.col - col).natAbs generalizing b with
  | zero =>
    refine ⟨[], ?_⟩
    rw [show row = b.row by omega, show col = b.col by omega]
    rfl
  | succ n ih =>
    have hstep (key : Key) (hnext : ((b.arrow key).row - row).natAbs +
        ((b.arrow key).col - col).natAbs = n) :
        ∃ keys : List Key, keys.foldl arrow b = { b with row := row, col := col } := by
      have hlayout := b.arrow_layout key
      obtain ⟨keys, hkeys⟩ := ih (b := b.arrow key) (by rw [hlayout]; exact arrow_cursor key hcursor)
        (by rw [hlayout]; exact hcell) hnext
      exact ⟨key :: keys, by rw [List.foldl_cons, hkeys, hlayout]⟩
    obtain ⟨hrow, hrows, hcol, hcols⟩ := hcursor
    obtain ⟨hrow', hrows', hcol', hcols'⟩ := hcell
    rcases Int.lt_trichotomy b.row row with hlt | heq | hgt
    · exact hstep .down (by rw [arrow, if_pos (by omega)]; dsimp only; omega)
    · rcases Int.lt_trichotomy b.col col with hlt | heq | hgt
      · exact hstep .right (by rw [arrow, if_pos (by omega)]; dsimp only; omega)
      · omega
      · exact hstep .left (by rw [arrow, if_pos (by omega)]; dsimp only; omega)
    · exact hstep .up (by rw [arrow, if_pos (by omega)]; dsimp only; omega)

theorem shows_iff {b : Board} (hcursor : Inside b.layout b.row b.col) :
    b.Shows ↔ ∀ tp ∈ b.layout.used, tp.active = true → Inside b.layout tp.row tp.col := by
  constructor
  · exact fun h tp htp hon => (h tp htp hon).1
  · exact fun h tp htp hon => ⟨h tp htp hon, exists_keys hcursor (h tp htp hon)⟩

/-- The tables that are there stay inside sizes the prompt takes. -/
def FitsGrid (b : Board) (op : BoardOp) : Prop :=
  ∀ rows cols, op = .resize rows cols → Accepts rows cols →
    ∀ tp ∈ b.layout.used, tp.active = true → tp.row < rows ∧ tp.col < cols

theorem shows_step_iff {b : Board} (hcursor : Inside b.layout b.row b.col) (h : b.Shows)
    (op : BoardOp) : (b.step op).Shows ↔ b.FitsGrid op := by
  rw [shows_iff (step_cursor hcursor op)]
  rw [shows_iff hcursor] at h
  by_cases hresize : ∃ rows cols, op = .resize rows cols ∧ Accepts rows cols
  · obtain ⟨rows, cols, rfl, hok⟩ := hresize
    rw [step, resize, if_pos hok]
    constructor
    · rintro hinside _ _ ⟨rfl, rfl⟩ - tp htp hon
      obtain ⟨-, hrows, -, hcols⟩ := hinside tp htp hon
      exact ⟨hrows, hcols⟩
    · intro hfits tp htp hon
      obtain ⟨hrow, -, hcol, -⟩ := h tp htp hon
      obtain ⟨hrows, hcols⟩ := hfits rows cols rfl hok tp htp hon
      exact ⟨hrow, hrows, hcol, hcols⟩
  refine iff_of_true ?_ fun rows cols hop hok => absurd ⟨rows, cols, hop, hok⟩ hresize
  intro tp' htp' hon
  rw [inside_step hresize]
  rcases mem_used_step htp' with ⟨tp, htp, hsame⟩ | ⟨-, -, -, -, -, rfl⟩
  · rw [hsame.active] at hon
    rw [hsame.row, hsame.col]
    exact h tp htp hon
  · exact hcursor

end Board

end TableOrder
