import TableOrder.Client.Kitchen
import TableOrder.Lib.Rows

/-!
# The kitchen board and its keys

`ui_draw_kitchen` draws the open orders in three columns and counts the rows it has drawn; the keys
count all open orders. A column that is full leaves orders out, and from there on the highlighted
row is another order than the one the keys act on (`highlighted_iff`).
-/

namespace TableOrder

open CLib

/-! ## Drawing -/

/-- `"#%04d T%02d"` with `"%.8s"` beside it. -/
structure KitchenRow where
  y : Int
  x : Int
  orderId : Int
  tableId : Int
  name : Option Bytes
  reversed : Bool
  deriving DecidableEq

def OrderStatus.column : OrderStatus → Option Int
  | .waiting => some 0
  | .cooking => some 1
  | .done => some 2
  | .paid => none
  | .cancelled => none

/-- The loop of `ui_draw_kitchen`: `y_wait`, `y_cook` and `y_done`, `shown`, and the rows so far. -/
structure KitchenDraw where
  nextY : OrderStatus → Int
  shown : Nat
  rows : List KitchenRow

/-- A row below the screen takes a place in its column, and is not counted. -/
def drawKitchenOrder (sel : Nat) (rows colW : Int) (d : KitchenDraw) (o : Order) : KitchenDraw :=
  match o.status.column with
  | none => d
  | some column =>
    let currY := d.nextY o.status
    let d := { d with nextY := Function.update d.nextY o.status (currY + 1) }
    if rows - 3 ≤ currY then d
    else
      { d with
        shown := d.shown + 1
        rows := d.rows ++ [{
          y := currY
          x := column * colW + 3
          orderId := o.orderId
          tableId := o.tableId
          name := o.items.items.head?.map (·.name.bytes.take 8)
          reversed := d.shown == sel }] }

def uiDrawKitchen (orders : List Order) (sel : Nat) (rows cols : Int) : List KitchenRow :=
  (orders.foldl (drawKitchenOrder sel rows (cols.tdiv 3)) ⟨fun _ => 4, 0, []⟩).rows

/-! ## Keys -/

/-- The status a key asks for. -/
def kitchenRequest (key : Key) (status : OrderStatus) : Option OrderStatus :=
  match key, status with
  | .right, .waiting => some .cooking
  | .right, .cooking => some .done
  | .left, .done => some .cooking
  | .left, .cooking => some .waiting
  | .char 'c', status | .char 'C', status => if status = .cooking then none else some .cooking
  | .char 'd', status | .char 'D', status => if status = .done then none else some .done
  | _, _ => none

structure KitchenUpdate where
  orderId : Int
  status : OrderStatus
  deriving DecidableEq

def KitchenUpdate.text (u : KitchenUpdate) : Bytes :=
  clip 128 (lit "ORDER_UPDATE|order_id=" ++ fmtInt u.orderId ++ lit "|status=" ++
    statusToString u.status ++ lit "\n")

def kitchenSel (nids sel : Nat) : Key → Nat
  | .up => (sel + nids - 1) % (if nids = 0 then 1 else nids)
  | .down => (sel + 1) % (if nids = 0 then 1 else nids)
  | _ => sel

/-- One key: the cursor afterwards and the update that is sent. -/
def kitchenKey (board : Mirror) (sel : Nat) (key : Key) : Nat × Option KitchenUpdate :=
  let ids := uiKitchenCollectActive board.items MAX_ORDERS
  let sel := kitchenSel ids.length sel key
  match ids[sel]? with
  | none => (sel, none)
  | some oid =>
    match ordersFind board.items oid with
    | none => (sel, none)
    | some (_, o) => (sel, (kitchenRequest key o.status).map (⟨oid, ·⟩))

/-- A key that sends an update acts on the order at the cursor. -/
theorem kitchenKey_target {board : Mirror} {sel : Nat} {key : Key} {u : KitchenUpdate}
    (h : (kitchenKey board sel key).2 = some u) :
    (uiKitchenCollectActive board.items MAX_ORDERS)[sel]? = some u.orderId := by
  unfold kitchenKey at h
  simp only at h
  split at h
  · cases h
  · next oid hoid =>
    split at h
    · cases h
    · next o ho =>
      obtain ⟨status, hrequest, rfl⟩ := Option.map_eq_some_iff.mp h
      -- the arrows up and down ask for nothing
      have hsel : kitchenSel (uiKitchenCollectActive board.items MAX_ORDERS).length sel key = sel := by
        unfold kitchenSel
        split
        · cases hrequest
        · cases hrequest
        · rfl
      rw [hsel] at hoid
      exact hoid

/-! ## The places of the open orders -/

/-- The open orders with the row of each in its column, whether it is on the screen or not. -/
def kitchenPlaces (orders : List Order) : List (Order × Int) :=
  let active := orders.filter (!·.status.terminal)
  active.zipIdx.map fun r => (r.1, 4 + (active.take r.2).countP (·.status == r.1.status))

/-- The open orders that are drawn. -/
def kitchenShown (orders : List Order) (rows : Int) : List (Order × Int) :=
  (kitchenPlaces orders).filter fun p => decide (p.2 < rows - 3)

/-- The row of an order at its place. -/
def kitchenRow (colW : Int) (o : Order) (y : Int) (reversed : Bool) : KitchenRow where
  y := y
  x := o.status.column.getD 0 * colW + 3
  orderId := o.orderId
  tableId := o.tableId
  name := o.items.items.head?.map (·.name.bytes.take 8)
  reversed := reversed

theorem column_eq_none_iff {status : OrderStatus} : status.column = none ↔ status.terminal = true := by
  cases status <;> simp [OrderStatus.column, OrderStatus.terminal]

theorem kitchenPlaces_concat_terminal {o : Order} (h : o.status.terminal = true)
    (orders : List Order) : kitchenPlaces (orders ++ [o]) = kitchenPlaces orders := by
  unfold kitchenPlaces
  rw [List.filter_append, List.filter_cons_of_neg (by simp [h]), List.filter_nil, List.append_nil]

theorem kitchenPlaces_concat {o : Order} (h : o.status.terminal = false) (orders : List Order) :
    kitchenPlaces (orders ++ [o]) = kitchenPlaces orders ++
      [(o, (4 : Int) + (orders.filter (!·.status.terminal)).countP (·.status == o.status))] := by
  unfold kitchenPlaces
  rw [List.filter_append, List.filter_cons_of_pos (by simp [h]), List.filter_nil]
  simp only [List.zipIdx_append, List.map_append]
  congr 1
  · apply List.map_congr_left
    intro r hr
    have hlt := (List.mem_zipIdx' hr).1
    rw [List.take_append_of_le_length (by omega)]
  · simp

/-- What the loop has drawn of the orders so far. -/
structure KitchenDraw.Drawn (d : KitchenDraw) (sel : Nat) (rows colW : Int) (orders : List Order) :
    Prop where
  nextY : ∀ status, d.nextY status =
    4 + (orders.filter (!·.status.terminal)).countP (·.status == status)
  shown : d.shown = (kitchenShown orders rows).length
  rows : d.rows = (kitchenShown orders rows).zipIdx.map fun r =>
    kitchenRow colW r.1.1 r.1.2 (r.2 == sel)

section Drawn

variable {d : KitchenDraw} {sel : Nat} {rows colW : Int} {orders : List Order} {o : Order}

theorem KitchenDraw.Drawn.terminal (h : d.Drawn sel rows colW orders)
    (hterminal : o.status.terminal = true) :
    (drawKitchenOrder sel rows colW d o).Drawn sel rows colW (orders ++ [o]) := by
  have hshown : kitchenShown (orders ++ [o]) rows = kitchenShown orders rows := by
    unfold kitchenShown
    rw [kitchenPlaces_concat_terminal hterminal]
  rw [drawKitchenOrder, column_eq_none_iff.mpr hterminal]
  constructor
  · intro status
    rw [List.filter_append, List.filter_cons_of_neg (by simp [hterminal]), List.filter_nil,
      List.append_nil]
    exact h.nextY status
  · rw [hshown]
    exact h.shown
  · rw [hshown]
    exact h.rows

theorem KitchenDraw.Drawn.active (h : d.Drawn sel rows colW orders)
    (hterminal : o.status.terminal = false) :
    (drawKitchenOrder sel rows colW d o).Drawn sel rows colW (orders ++ [o]) := by
  obtain ⟨column, hcolumn⟩ : ∃ column, o.status.column = some column := by
    rw [← Option.ne_none_iff_exists', ne_eq, column_eq_none_iff, hterminal]
    simp
  have hnext (status : OrderStatus) :
      Function.update d.nextY o.status (d.nextY o.status + 1) status =
        4 + ((orders ++ [o]).filter (!·.status.terminal)).countP (·.status == status) := by
    rw [List.filter_append, List.filter_cons_of_pos (by simp [hterminal]), List.filter_nil,
      List.countP_append, List.countP_singleton, h.nextY o.status, Function.update_apply, h.nextY]
    by_cases hstatus : status = o.status
    · subst hstatus
      simp
      omega
    · rw [if_neg hstatus]
      simp [Ne.symm hstatus]
  have hsplit : kitchenShown (orders ++ [o]) rows = kitchenShown orders rows ++
      if d.nextY o.status < rows - 3 then [(o, d.nextY o.status)] else [] := by
    simp only [kitchenShown]
    rw [kitchenPlaces_concat hterminal, List.filter_append, h.nextY o.status]
    simp [List.filter_cons]
  rw [drawKitchenOrder, hcolumn]
  simp only
  by_cases hscreen : rows - 3 ≤ d.nextY o.status
  · rw [if_neg (by omega), List.append_nil] at hsplit
    rw [if_pos hscreen]
    exact ⟨hnext, hsplit ▸ h.shown, hsplit ▸ h.rows⟩
  · rw [if_pos (by omega)] at hsplit
    rw [if_neg hscreen]
    refine ⟨hnext, ?_, ?_⟩
    · rw [hsplit, List.length_append, ← h.shown, List.length_singleton]
    · rw [hsplit, List.zipIdx_append, List.map_append, ← h.rows]
      simp [kitchenRow, hcolumn, h.shown]

end Drawn

theorem foldl_drawKitchenOrder (sel : Nat) (rows colW : Int) (orders : List Order) :
    (orders.foldl (drawKitchenOrder sel rows colW) ⟨fun _ => 4, 0, []⟩).Drawn sel rows colW orders := by
  induction orders using List.reverseRecOn with
  | nil => exact ⟨fun _ => rfl, rfl, rfl⟩
  | append_singleton orders o ih =>
    rw [List.foldl_concat]
    cases hterminal : o.status.terminal with
    | true => exact ih.terminal hterminal
    | false => exact ih.active hterminal

/-- The highlighted row is the one of the drawn order at the cursor. -/
theorem reversed_iff {orders : List Order} {sel : Nat} {rows cols : Int} {row : KitchenRow} :
    row ∈ uiDrawKitchen orders sel rows cols ∧ row.reversed = true ↔
      ∃ p, (kitchenShown orders rows)[sel]? = some p ∧
        row = kitchenRow (cols.tdiv 3) p.1 p.2 true := by
  rw [uiDrawKitchen, (foldl_drawKitchenOrder sel rows (cols.tdiv 3) orders).rows, List.mem_map]
  constructor
  · rintro ⟨⟨⟨p, n⟩, hmem, rfl⟩, hreversed⟩
    have hn : n = sel := beq_iff_eq.mp hreversed
    subst hn
    refine ⟨p, List.mem_zipIdx_iff_getElem?.mp hmem, ?_⟩
    simp
  · rintro ⟨p, hp, rfl⟩
    exact ⟨⟨(p, sel), List.mem_zipIdx_iff_getElem?.mpr hp, by simp⟩, rfl⟩

theorem kitchenPlaces_map (orders : List Order) :
    (kitchenPlaces orders).map (·.1) = orders.filter (!·.status.terminal) := by
  unfold kitchenPlaces
  rw [List.map_map]
  exact List.zipIdx_map_fst 0 _

/-- The keys count the places, whether they are on the screen or not. -/
theorem collectActive_eq (board : Mirror) : uiKitchenCollectActive board.items MAX_ORDERS =
    (kitchenPlaces board.items).map (·.1.orderId) := by
  have hfits : (board.items.filter (!·.status.terminal)).length ≤ MAX_ORDERS :=
    Nat.le_trans (List.length_filter_le _ _) board.bound
  unfold uiKitchenCollectActive
  rw [List.take_of_length_le (by rw [List.length_map]; exact hfits), ← kitchenPlaces_map, List.map_map]
  rfl

/-! ## The highlighted order -/

/-- The highlighted row, if any, shows the order at the cursor, which is the one the keys act on. -/
def HighlightsTarget (board : Mirror) (sel : Nat) (rows cols : Int) : Prop :=
  ∀ row ∈ uiDrawKitchen board.items sel rows cols, row.reversed = true →
    (uiKitchenCollectActive board.items MAX_ORDERS)[sel]? = some row.orderId ∧
      ∀ key u, (kitchenKey board sel key).2 = some u → u.orderId = row.orderId

/-- Merging keeps the ids of the board distinct. -/
theorem uiMergeOrderMirror_nodup {orders : Mirror} (hnd : (orders.items.map (·.orderId)).Nodup)
    (incoming : Order) : ((uiMergeOrderMirror orders incoming).items.map (·.orderId)).Nodup := by
  unfold uiMergeOrderMirror
  cases hfind : ordersFindIndex orders.items incoming.orderId with
  | some i =>
    obtain ⟨o, ho, hid⟩ := ordersFindIndex_eq_some hfind
    simp only [Arr.modify_items, modify_eq_set ho]
    rw [map_set_of_eq (g := (·.orderId)) ho hid.symm]
    exact hnd
  | none =>
    cases hpush : orders.push? incoming with
    | none => exact hnd
    | some pushed =>
      obtain ⟨-, hitems⟩ := Arr.push?_eq_some.mp hpush
      show (pushed.items.map (·.orderId)).Nodup
      rw [hitems, List.map_append, List.nodup_append]
      refine ⟨hnd, List.nodup_singleton _, ?_⟩
      intro a ha b hb hab
      rw [List.map_singleton, List.mem_singleton] at hb
      rw [hab, hb] at ha
      exact ordersFindIndex_eq_none.mp hfind ha

/-- Every board of the kitchen has distinct ids. -/
theorem kitchenBoard_nodup (lines : List Bytes) :
    ((lines.foldl kitchenLine Kitchen.init).board.items.map (·.orderId)).Nodup := by
  have hline (board : Mirror) (line : Bytes) (hnd : (board.items.map (·.orderId)).Nodup) :
      ((mirrorLine board line).items.map (·.orderId)).Nodup := by
    unfold mirrorLine
    split
    · split
      · exact uiMergeOrderMirror_nodup hnd _
      · exact hnd
    · exact hnd
  rw [foldl_kitchenLine_board]
  induction lines using List.reverseRecOn with
  | nil => exact List.nodup_nil
  | append_singleton lines line ih =>
    rw [List.foldl_concat]
    exact hline _ line ih

/-- The highlighted row shows the order the keys act on, exactly when every open order up to the cursor
is on the screen, or none is highlighted. -/
theorem highlighted_iff {board : Mirror} (hnd : (board.items.map (·.orderId)).Nodup) {sel : Nat}
    (hsel : sel < (uiKitchenCollectActive board.items MAX_ORDERS).length) (rows cols : Int) :
    HighlightsTarget board sel rows cols ↔
      (∀ k ≤ sel, ∀ p, (kitchenPlaces board.items)[k]? = some p → p.2 < rows - 3) ∨
        (kitchenShown board.items rows).length ≤ sel := by
  have hids := collectActive_eq board
  rw [hids, List.length_map] at hsel
  have hplace := List.getElem?_eq_getElem hsel
  have htarget : (uiKitchenCollectActive board.items MAX_ORDERS)[sel]? =
      some (kitchenPlaces board.items)[sel].1.orderId := by
    rw [hids, List.getElem?_map, hplace]
    rfl
  have hplaces : ((kitchenPlaces board.items).map (·.1.orderId)).Nodup := by
    rw [show (kitchenPlaces board.items).map (·.1.orderId) =
      ((kitchenPlaces board.items).map (·.1)).map (·.orderId) from (List.map_map ..).symm,
      kitchenPlaces_map]
    exact hnd.sublist (List.filter_sublist.map _)
  constructor
  · intro h
    rw [or_iff_not_imp_right, Nat.not_le]
    intro hshown
    have hrow := List.getElem?_eq_getElem hshown
    have hdrawn : _ ∈ uiDrawKitchen board.items sel rows cols ∧ _ := reversed_iff.mpr ⟨_, hrow, rfl⟩
    have hid := (h _ hdrawn.1 hdrawn.2).1
    rw [htarget] at hid
    -- the same id, so the same order
    have hmem : (kitchenShown board.items rows)[sel] ∈ kitchenPlaces board.items :=
      (List.mem_filter.mp (List.getElem_mem hshown)).1
    have hsame := List.inj_on_of_nodup_map hplaces (List.getElem_mem hsel) hmem (Option.some.inj hid)
    rw [← hsame] at hrow
    intro k hk p hp
    have honScreen := Rows.forall_of_getElem?_filter hplaces.of_map hrow hplace k hk p hp
    exact of_decide_eq_true honScreen
  · intro h row hmem hreversed
    obtain ⟨p, hp, rfl⟩ := reversed_iff.mp ⟨hmem, hreversed⟩
    rcases h with hall | hnone
    · have hkeep : (kitchenShown board.items rows)[sel]? = (kitchenPlaces board.items)[sel]? :=
        Rows.getElem?_filter_of_forall (fun k hk p hp => decide_eq_true (hall k hk p hp)) hsel
      rw [hp, hplace] at hkeep
      cases hkeep
      refine ⟨htarget, fun key u hu => ?_⟩
      have hacts := kitchenKey_target hu
      rw [htarget] at hacts
      exact (Option.some.inj hacts).symm
    · rw [List.getElem?_eq_none hnone] at hp
      cases hp

/-- A terminal with three rows in each column. -/
def shortScreen : Int := 10

/-- Four waiting orders and one that is cooked. -/
def fullColumn : Mirror :=
  [riceOrder 1 .waiting, riceOrder 2 .waiting, riceOrder 3 .waiting, riceOrder 4 .waiting,
    riceOrder 5 .cooking].foldl uiMergeOrderMirror noOrders

/-- The third order is highlighted where it should be. -/
theorem highlighted_iff_third : HighlightsTarget fullColumn 2 shortScreen 80 ↔
    (∀ k ≤ 2, ∀ p, (kitchenPlaces fullColumn.items)[k]? = some p → p.2 < shortScreen - 3) ∨
      (kitchenShown fullColumn.items shortScreen).length ≤ 2 :=
  highlighted_iff (by decide +kernel) (by decide +kernel) shortScreen 80

/-- The cursor is at the fourth waiting order, which has no row, and the cooked one is highlighted. -/
theorem highlighted_fails : ¬ ∀ (board : Mirror) (sel : Nat) (rows cols : Int),
    (board.items.map (·.orderId)).Nodup →
    sel < (uiKitchenCollectActive board.items MAX_ORDERS).length →
    HighlightsTarget board sel rows cols := by
  intro hall
  have h := hall fullColumn 3 shortScreen 80 (by decide +kernel) (by decide +kernel)
  have hdrawn : ∃ row ∈ uiDrawKitchen fullColumn.items 3 shortScreen 80, row.reversed = true ∧
      row.orderId = 5 := by decide +kernel
  obtain ⟨row, hmem, hreversed, hid⟩ := hdrawn
  have htarget := (h row hmem hreversed).1
  rw [hid] at htarget
  revert htarget
  decide +kernel

end TableOrder
