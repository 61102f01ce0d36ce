import TableOrder.Pos.Highlight
import TableOrder.Pos.Layout

/-!
# The key handler of the POS (`ui_run_pos`)

After a key is read, `ui_run_pos` sets the tab for a function key and then runs one block for each
tab, in order: home, payment, menu, layout. Every block looks at the tab again, so a block that
changes it hands the same key on. `handleKey` is that sequence.

Whatever the key, only the payment block touches the orders, and only for Enter and `y`. On the
home tab this makes Enter on a table the one key that can pay (`homeKey_iff`).
-/

namespace TableOrder

open CLib

inductive PosTab where
  | home
  | payment
  | menu
  | sales
  | layout
  deriving DecidableEq

/-- What the operator answers at the prompts a key opens. A prompt that insists on an answer
repeats until it has one, so that `name` is not empty where an item is added. -/
structure Typed where
  table : Int
  rows : Int
  cols : Int
  price : Int
  popular : Int
  name : Bytes
  category : Bytes
  label : Bytes

/-- The local variables of `ui_run_pos`. A cursor in a list is never negative; the edit index is
`none` for -1. -/
structure Pos where
  tab : PosTab
  selMenu : Nat
  selPayment : Nat
  payTable : Int
  gridRow : Int
  gridCol : Int
  layoutEditIdx : Option Nat
  layoutMoveMode : Bool
  dirty : Bool
  layout : StoreLayout

variable (S : IntSem)

/-! ## The blocks -/

/-- The arrow keys of the two tabs with a grid. -/
def moveCursor (pos : Pos) : Key → Pos
  | .up => if 0 < pos.gridRow then { pos with gridRow := pos.gridRow - 1, dirty := true } else pos
  | .down =>
    if pos.gridRow + 1 < pos.layout.gridRows then
      { pos with gridRow := pos.gridRow + 1, dirty := true }
    else pos
  | .left => if 0 < pos.gridCol then { pos with gridCol := pos.gridCol - 1, dirty := true } else pos
  | .right =>
    if pos.gridCol + 1 < pos.layout.gridCols then
      { pos with gridCol := pos.gridCol + 1, dirty := true }
    else pos
  | _ => pos

def homeKeys (key : Key) (pos : Pos) (w : World) : Pos × World :=
  let pos := moveCursor pos key
  match key, layoutFindAt pos.layout pos.gridRow pos.gridCol with
  | .enter, some tp =>
    ({ pos with payTable := tp.tableId, tab := .payment, selPayment := 0, dirty := true }, w)
  | .char 'c', some tp =>
    ({ pos with dirty := true }, serverTouchStaff S (clearStaffCall w tp.tableId))
  | _, _ => (pos, w)

/-- `x ? x : 1`, the divisor of the cursor keys. -/
def orOne (n : Nat) : Nat := if n = 0 then 1 else n

def paymentKeys (env : Env) (typed : Typed) (key : Key) (pos : Pos) (w : World) : Pos × World :=
  let idxs := uiPosCollectTableOrderIndices w.ctx.orders.items pos.payTable MAX_ORDERS
  let nshow := idxs.length
  match key with
  | .char 't' =>
    if 0 < typed.table ∧ typed.table ≤ MAX_TABLES then
      ({ pos with payTable := typed.table, selPayment := 0, dirty := true }, w)
    else (pos, w)
  | .up =>
    ({ pos with selPayment := (pos.selPayment + nshow - 1) % orOne nshow, dirty := true }, w)
  | .down => ({ pos with selPayment := (pos.selPayment + 1) % orOne nshow, dirty := true }, w)
  | .enter =>
    match payRow w.ctx.orders.items idxs pos.selPayment with
    | some (oid, .done) => ({ pos with dirty := true }, (serverPayOrder S env w oid).2)
    | _ => (pos, w)
  | .char 'y' =>
    if 0 < pos.payTable then
      let ids := uiPosCollectTableDoneIds w.ctx.orders.items pos.payTable MAX_ORDERS
      ({ pos with dirty := pos.dirty || !ids.isEmpty },
        ids.foldl (fun w oid => (serverPayOrder S env w oid).2) w)
    else (pos, w)
  | _ => (pos, w)

/-- The catalog after an operation on it, or unchanged when it failed. -/
def storeMenu (w : World) (r : Except Bytes MenuCatalog) : World :=
  match r with
  | .ok menu => { w with ctx := { w.ctx with menu := menu } }
  | .error _ => w

def saveMenu (env : Env) (w : World) : World :=
  if env.menuSaved then { w with menuFile := some (menuSaveFile w.ctx.menu) } else w

def broadcastMenuSync (w : World) : World := broadcastRaw w menuSyncText

/-- `buf[0] ? buf : "기타"`, copied into a category field. -/
def categoryOr (typed : Bytes) : Category :=
  CStr.copy MAX_CATEGORY (if typed = [] then lit "기타" else typed)

/-- The item of the add prompts; the id is left to `menu_add_item`. -/
def addedItem (typed : Typed) : MenuItem where
  id := 0
  name := CStr.copy MAX_NAME typed.name
  category := categoryOr typed.category
  price := typed.price
  soldOut := 0
  popular := flag typed.popular

/-- The item of the edit prompts. -/
def editedItem (typed : Typed) (m : MenuItem) : MenuItem :=
  { m with
    name := CStr.copy MAX_NAME typed.name
    category := categoryOr typed.category
    price := typed.price
    popular := flag typed.popular }

/-- The keys that need an item act on the one at the cursor. -/
def menuKeys (env : Env) (typed : Typed) (key : Key) (pos : Pos) (w : World) : Pos × World :=
  let menu := w.ctx.menu
  let mc := menu.items.length
  let done := { pos with dirty := true }
  match key, menu.items[pos.selMenu]? with
  | .up, _ => ({ done with selMenu := (pos.selMenu + mc - 1) % orOne mc }, w)
  | .down, _ => ({ done with selMenu := (pos.selMenu + 1) % orOne mc }, w)
  | .char 's', some m | .char 'S', some m =>
    let w := storeMenu w (menuSetSoldout menu m.id (if m.soldOut = 0 then 1 else 0))
    (done, saveMenu env (serverSaveConfig env (broadcastMenuSync w)))
  | .char 'd', some m =>
    let w := saveMenu env (storeMenu w (menuDeleteItem menu m.id))
    ({ done with selMenu := 0 }, broadcastMenuSync w)
  | .char 'a', _ =>
    (done, broadcastMenuSync (saveMenu env (storeMenu w (menuAddItem S menu (addedItem typed)))))
  | .char 'e', some m =>
    let w := storeMenu w (menuUpdateItem menu m.id (editedItem typed m))
    (done, broadcastMenuSync (saveMenu env w))
  | .char 'c', some m =>
    let category := if typed.category = [] then lit "기타" else clip MAX_CATEGORY typed.category
    let w := storeMenu w (menuSetCategory menu m.id category)
    (done, broadcastMenuSync (saveMenu env w))
  | .char 'p', some m =>
    let w := storeMenu w (menuSetPopular menu m.id (if m.popular = 0 then 1 else 0))
    (done, broadcastMenuSync (saveMenu env w))
  | _, _ => (pos, w)

/-- The new table of the add key, on the cursor's cell. -/
def addedTable (pos : Pos) (newId : Int) : TablePlacement where
  tableId := newId
  zone := .outside
  row := pos.gridRow
  col := pos.gridCol
  label := CStr.copy MAX_TABLE_LABEL (lit "T" ++ fmtInt newId)
  active := true

def TableZone.other : TableZone → TableZone
  | .inside => .outside
  | .outside => .inside

/-- Change the slot being edited. -/
def editSlot (pos : Pos) (idx : Nat) (f : TablePlacement → TablePlacement) : Pos :=
  match pos.layout.tables[idx]? with
  | some tp => { pos with layout := pos.layout.setSlot idx (f tp), dirty := true }
  | none => pos

def layoutKeys (env : Env) (typed : Typed) (key : Key) (pos : Pos) (w : World) : Pos × World :=
  let pos := moveCursor pos key
  let pos := { pos with
    layoutEditIdx := uiPosLayoutFindIndex pos.layout pos.gridRow pos.gridCol }
  match key, pos.layoutEditIdx with
  | .char 'g', _ =>
    if 0 < typed.rows ∧ typed.rows ≤ MAX_GRID_ROWS ∧ 0 < typed.cols ∧ typed.cols ≤ MAX_GRID_COLS then
      ({ pos with
        layout := { pos.layout with gridRows := typed.rows, gridCols := typed.cols }
        gridRow := if typed.rows ≤ pos.gridRow then typed.rows - 1 else pos.gridRow
        gridCol := if typed.cols ≤ pos.gridCol then typed.cols - 1 else pos.gridCol
        dirty := true }, w)
    else (pos, w)
  | .char 'a', _ =>
    if (layoutFindAt pos.layout pos.gridRow pos.gridCol).isSome then (pos, w)
    else
      match uiPosLayoutAllocSlot pos.layout with
      | none => (pos, w)
      | some (slot, layout) =>
        let layout := layout.setSlot slot (addedTable pos (S.norm (layoutMaxTableId layout + 1)))
        ({ pos with layout := layout, layoutEditIdx := some slot, dirty := true },
          uiPosSyncMaxTables w layout)
  | .char 'd', some idx =>
    ({ pos with
      layout := uiPosLayoutRemoveAt pos.layout idx
      layoutEditIdx := none
      dirty := true }, w)
  | .char 'z', some idx => (editSlot pos idx fun tp => { tp with zone := tp.zone.other }, w)
  | .char 'l', some idx =>
    if typed.label = [] then ({ pos with dirty := true }, w)
    else (editSlot pos idx fun tp => { tp with label := CStr.copy MAX_TABLE_LABEL typed.label }, w)
  | .char 'm', some _ => ({ pos with layoutMoveMode := !pos.layoutMoveMode, dirty := true }, w)
  | .enter, some idx =>
    if pos.layoutMoveMode then
      let pos := if (layoutFindAt pos.layout pos.gridRow pos.gridCol).isSome then pos
        else editSlot pos idx fun tp => { tp with row := pos.gridRow, col := pos.gridCol }
      ({ pos with layoutMoveMode := false, dirty := true }, w)
    else (pos, w)
  | .char 's', _ =>
    let w := uiPosSyncMaxTables w pos.layout
    match layoutSave pos.layout, env.layoutSaved with
    | some text, true =>
      ({ pos with dirty := true }, serverSaveConfig env { w with layoutFile := some text })
    | _, _ => ({ pos with dirty := true }, w)
  | _, _ => (pos, w)

/-! ## One key -/

/-- F1 to F5. -/
def tabOfKey : Key → Option PosTab
  | .f 1 => some .home
  | .f 2 => some .payment
  | .f 3 => some .menu
  | .f 4 => some .sales
  | .f 5 => some .layout
  | _ => none

def selectTab (key : Key) (pos : Pos) : Pos :=
  match tabOfKey key with
  | some tab => { pos with tab := tab, dirty := true }
  | none => pos

def quit (w : World) : World := { w with ctx := { w.ctx with shuttingDown := true } }

/-- A block runs if its tab is selected when its turn comes. -/
def onTab (tab : PosTab) (block : Pos → World → Pos × World) (s : Pos × World) : Pos × World :=
  if s.1.tab = tab then block s.1 s.2 else s

def handleKey (env : Env) (typed : Typed) (key : Key) (pos : Pos) (w : World) : Pos × World :=
  if key = .char 'q' ∨ key = .char 'Q' then
    (pos, quit w)
  else
    let s := (selectTab key pos, w)
    let s := onTab .home (homeKeys S key) s
    let s := onTab .payment (paymentKeys S env typed key) s
    let s := onTab .menu (menuKeys S env typed key) s
    onTab .layout (layoutKeys S env typed key) s

/-! ## What the blocks leave alone -/

/-- No order changed and nothing was appended to the sales log. -/
def SameSales (w w' : World) : Prop :=
  w'.ctx.orders.items = w.ctx.orders.items ∧ w'.salesLog = w.salesLog

theorem SameSales.refl (w : World) : SameSales w w := ⟨rfl, rfl⟩

theorem SameSales.trans {u v w : World} (h : SameSales u v) (h' : SameSales v w) : SameSales u w :=
  ⟨h'.1.trans h.1, h'.2.trans h.2⟩

theorem sameSales_storeMenu (w : World) (r : Except Bytes MenuCatalog) :
    SameSales w (storeMenu w r) := by
  unfold storeMenu
  split <;> exact ⟨rfl, rfl⟩

theorem sameSales_saveMenu (env : Env) (w : World) : SameSales w (saveMenu env w) := by
  unfold saveMenu
  split <;> exact ⟨rfl, rfl⟩

theorem sameSales_saveConfig (env : Env) (w : World) : SameSales w (serverSaveConfig env w) :=
  ⟨by rw [serverSaveConfig_ctx], serverSaveConfig_salesLog env w⟩

theorem sameSales_sync (w : World) : SameSales w (broadcastMenuSync w) := ⟨rfl, rfl⟩

theorem sameSales_home (key : Key) (pos : Pos) (w : World) :
    SameSales w (homeKeys S key pos w).2 := by
  unfold homeKeys
  simp only
  split <;> exact ⟨rfl, rfl⟩

theorem sameSales_menu (env : Env) (typed : Typed) (key : Key) (pos : Pos) (w : World) :
    SameSales w (menuKeys S env typed key pos w).2 := by
  unfold menuKeys
  simp only
  split
  · exact SameSales.refl w
  · exact SameSales.refl w
  -- the two sold-out keys save the config between
  · exact (sameSales_storeMenu w _).trans ((sameSales_sync _).trans
      ((sameSales_saveConfig env _).trans (sameSales_saveMenu env _)))
  · exact (sameSales_storeMenu w _).trans ((sameSales_sync _).trans
      ((sameSales_saveConfig env _).trans (sameSales_saveMenu env _)))
  all_goals first
    | exact SameSales.refl w
    | exact (sameSales_storeMenu w _).trans ((sameSales_saveMenu env _).trans (sameSales_sync _))

theorem sameSales_layout (env : Env) (typed : Typed) (key : Key) (pos : Pos) (w : World) :
    SameSales w (layoutKeys S env typed key pos w).2 := by
  have hsync (layout : StoreLayout) : SameSales w (uiPosSyncMaxTables w layout) :=
    ⟨by rw [uiPosSyncMaxTables_orders], uiPosSyncMaxTables_salesLog w layout⟩
  unfold layoutKeys
  simp only
  split
  case h_8 =>
    split
    · exact (hsync _).trans (sameSales_saveConfig env _)
    · exact hsync _
  case h_2 =>
    split
    · exact SameSales.refl w
    · split
      · exact SameSales.refl w
      · exact hsync _
  all_goals first
    | exact SameSales.refl w
    | (split <;> exact SameSales.refl w)

theorem sameSales_payment {env : Env} {typed : Typed} {key : Key} (henter : key ≠ .enter)
    (hy : key ≠ .char 'y') (pos : Pos) (w : World) :
    SameSales w (paymentKeys S env typed key pos w).2 := by
  unfold paymentKeys
  simp only
  split
  · split <;> exact SameSales.refl w
  · exact SameSales.refl w
  · exact SameSales.refl w
  · exact absurd rfl henter
  · exact absurd rfl hy
  · exact SameSales.refl w

/-! ## A key on the home tab -/

/-- No order's status changed and no line was appended to the sales log. -/
def SellsNothing (w w' : World) : Prop :=
  w'.ctx.orders.items.map (·.status) = w.ctx.orders.items.map (·.status) ∧
    w'.salesLog = w.salesLog

theorem SameSales.sellsNothing {w w' : World} (h : SameSales w w') : SellsNothing w w' :=
  ⟨by rw [h.1], h.2⟩

/-- The id names a DONE order. -/
def NamesDone (orders : List Order) (orderId : Int) : Prop :=
  ∃ i o, ordersFind orders orderId = some (i, o) ∧ o.status = .done

theorem serverPayOrder_sellsNothing_iff (env : Env) (w : World) (orderId : Int) :
    SellsNothing w (serverPayOrder S env w orderId).2 ↔ ¬ NamesDone w.ctx.orders.items orderId := by
  rcases hpay : serverPayOrder S env w orderId with ⟨r, w'⟩
  rcases serverPayOrder_cases S hpay with ⟨⟨e, rfl⟩, rfl⟩ | ⟨i, o, hfind, hdone, rfl, -, hmoved⟩
  · refine iff_of_true ⟨rfl, rfl⟩ ?_
    rintro ⟨i, o, hfind, hdone⟩
    rw [serverPayOrder, hfind] at hpay
    simp [hdone] at hpay
  · refine iff_of_false ?_ (not_not.mpr ⟨i, o, hfind, hdone⟩)
    rintro ⟨hstatus, -⟩
    -- the order at this index was DONE and now is PAID
    have hi := congrArg (·[i]?) hstatus
    simp only [List.getElem?_map, hmoved.orders, hmoved.found,
      List.getElem?_set_self (List.getElem?_eq_some_iff.mp hmoved.found).1, Option.map_some,
      withStatus_status, hdone] at hi
    cases hi

/-- The order at the top of a table's list. -/
theorem payRow_first (v : World) (payTable : Int) :
    payRow v.ctx.orders.items
        (uiPosCollectTableOrderIndices v.ctx.orders.items payTable MAX_ORDERS) 0 =
      (v.ctx.orders.items.find? (listedFor payTable)).map fun o => (o.orderId, o.status) := by
  rw [collect_eq_positions, ← List.head?_filter, List.head?_eq_getElem?, Rows.getElem?_filter,
    payRow]
  cases (Rows.positions (listedFor payTable) v.ctx.orders.items)[0]? <;> rfl

/-- The cursor is on a table whose first order is DONE, also under the id it is paid by. -/
def FirstDone (pos : Pos) (w : World) : Prop :=
  ∃ tp o, layoutFindAt pos.layout pos.gridRow pos.gridCol = some tp ∧
    w.ctx.orders.items.find? (listedFor tp.tableId) = some o ∧ o.status = .done ∧
    NamesDone w.ctx.orders.items o.orderId

/-- The world when the payment block has run. -/
def afterPayment (env : Env) (typed : Typed) (key : Key) (pos : Pos) (w : World) : World :=
  (onTab .payment (paymentKeys S env typed key)
    (onTab .home (homeKeys S key) (selectTab key pos, w))).2

/-- The blocks below the payment block sell nothing. -/
theorem sameSales_afterPayment (env : Env) (typed : Typed) (key : Key) (pos : Pos) (w : World)
    (hq : ¬ (key = .char 'q' ∨ key = .char 'Q')) :
    SameSales (afterPayment S env typed key pos w) (handleKey S env typed key pos w).2 := by
  have hmenu (s : Pos × World) : SameSales s.2 (onTab .menu (menuKeys S env typed key) s).2 := by
    unfold onTab
    split
    · exact sameSales_menu S env typed key s.1 s.2
    · exact SameSales.refl s.2
  have hlayout (s : Pos × World) :
      SameSales s.2 (onTab .layout (layoutKeys S env typed key) s).2 := by
    unfold onTab
    split
    · exact sameSales_layout S env typed key s.1 s.2
    · exact SameSales.refl s.2
  rw [handleKey, if_neg hq]
  exact (hmenu _).trans (hlayout _)

/-- Only Enter leaves the home tab from inside its block. -/
theorem homeKeys_tab {key : Key} (henter : key ≠ .enter) (pos : Pos) (w : World) :
    (homeKeys S key pos w).1.tab = pos.tab := by
  have hmove : (moveCursor pos key).tab = pos.tab := by
    unfold moveCursor
    split <;> first | rfl | (split <;> rfl)
  unfold homeKeys
  simp only
  split
  · exact absurd rfl henter
  · exact hmove
  · exact hmove

/-- On the home tab no other key than Enter pays. -/
theorem sameSales_of_not_enter (env : Env) (typed : Typed) {key : Key} (henter : key ≠ .enter)
    {pos : Pos} (hhome : pos.tab = .home) (w : World) :
    SameSales w (afterPayment S env typed key pos w) := by
  have hblock : SameSales w (onTab .home (homeKeys S key) (selectTab key pos, w)).2 := by
    unfold onTab
    split
    · exact sameSales_home S key _ w
    · exact SameSales.refl w
  unfold afterPayment
  generalize hs : onTab .home (homeKeys S key) (selectTab key pos, w) = s at *
  by_cases hy : key = .char 'y'
  · -- 'y' selects no tab, so that its payment is not reached
    subst hy
    have htab : s.1.tab = .home := by
      have hselect : selectTab (.char 'y') pos = pos := rfl
      rw [← hs, hselect, onTab, if_pos hhome, homeKeys_tab S henter]
      exact hhome
    rw [onTab, htab, if_neg (by decide)]
    exact hblock
  · unfold onTab
    split
    · exact hblock.trans (sameSales_payment S henter hy s.1 s.2)
    · exact hblock

theorem homeKeys_enter (pos : Pos) (w : World) :
    homeKeys S .enter pos w = match layoutFindAt pos.layout pos.gridRow pos.gridCol with
      | some tp =>
        ({ pos with payTable := tp.tableId, tab := .payment, selPayment := 0, dirty := true }, w)
      | none => (pos, w) := by
  have hmove : moveCursor pos .enter = pos := rfl
  unfold homeKeys
  simp only [hmove]
  cases layoutFindAt pos.layout pos.gridRow pos.gridCol <;> rfl

/-- Enter on the payment tab pays when the order of the row is DONE, as read and as paid. -/
theorem paymentKeys_enter (env : Env) (typed : Typed) (pos : Pos) (w : World) :
    SellsNothing w (paymentKeys S env typed .enter pos w).2 ↔
      ¬ ∃ orderId, payRow w.ctx.orders.items
        (uiPosCollectTableOrderIndices w.ctx.orders.items pos.payTable MAX_ORDERS)
        pos.selPayment = some (orderId, .done) ∧ NamesDone w.ctx.orders.items orderId := by
  unfold paymentKeys
  simp only
  split
  · next orderId hrow =>
    rw [hrow, serverPayOrder_sellsNothing_iff]
    simp
  · next hrow =>
    refine iff_of_true ⟨rfl, rfl⟩ ?_
    rintro ⟨orderId, hdone, -⟩
    exact hrow orderId hdone

theorem afterPayment_enter (env : Env) (typed : Typed) {pos : Pos} (hhome : pos.tab = .home)
    (w : World) :
    SellsNothing w (afterPayment S env typed .enter pos w) ↔ ¬ FirstDone pos w := by
  have hselect : selectTab .enter pos = pos := rfl
  have hblock : onTab .home (homeKeys S .enter) (pos, w) = homeKeys S .enter pos w := if_pos hhome
  rw [afterPayment, hselect, hblock, homeKeys_enter]
  unfold FirstDone
  cases layoutFindAt pos.layout pos.gridRow pos.gridCol with
  | none =>
    have hskip : onTab .payment (paymentKeys S env typed .enter) (pos, w) = (pos, w) := by
      rw [onTab, if_neg]
      rw [hhome]
      decide
    refine iff_of_true ?_ (by simp)
    show SellsNothing w (onTab .payment (paymentKeys S env typed .enter) (pos, w)).2
    rw [hskip]
    exact ⟨rfl, rfl⟩
  | some tp =>
    -- the payment block finds its own tab selected, with the cursor on the first row
    simp only [onTab, if_true]
    rw [paymentKeys_enter, payRow_first, not_iff_not]
    constructor
    · rintro ⟨orderId, hrow, hnamed⟩
      obtain ⟨o, hfirst, ho⟩ := Option.map_eq_some_iff.mp hrow
      obtain ⟨rfl, hdone⟩ := Prod.mk.inj ho
      exact ⟨tp, o, rfl, hfirst, hdone, hnamed⟩
    · rintro ⟨_, o, hat, hfirst, hdone, hnamed⟩
      cases hat
      exact ⟨o.orderId, by rw [hfirst, Option.map_some, hdone], hnamed⟩

/-- The blocks below the payment block add nothing to what was sold. -/
theorem handleKey_sellsNothing (env : Env) (typed : Typed) {key : Key}
    (hq : ¬ (key = .char 'q' ∨ key = .char 'Q')) (pos : Pos) (w : World) :
    SellsNothing w (handleKey S env typed key pos w).2 ↔
      SellsNothing w (afterPayment S env typed key pos w) := by
  have hrest := sameSales_afterPayment S env typed key pos w hq
  rw [SellsNothing, SellsNothing, hrest.1, hrest.2]

/-- On the home tab a key sells nothing, unless it is Enter on a table whose first order is DONE:
the payment block then takes the same Enter. -/
theorem homeKey_iff (env : Env) (typed : Typed) (key : Key) {pos : Pos} (hhome : pos.tab = .home)
    (w : World) :
    SellsNothing w (handleKey S env typed key pos w).2 ↔ ¬ (key = .enter ∧ FirstDone pos w) := by
  by_cases hq : key = .char 'q' ∨ key = .char 'Q'
  · rw [handleKey, if_pos hq]
    refine iff_of_true ⟨rfl, rfl⟩ ?_
    rintro ⟨rfl, -⟩
    simp at hq
  rw [handleKey_sellsNothing S env typed hq]
  by_cases henter : key = .enter
  · subst henter
    rw [afterPayment_enter S env typed hhome w]
    simp
  · refine iff_of_true ?_ (fun h => henter h.1)
    exact (sameSales_of_not_enter S env typed henter hhome w).sellsNothing

/-- `ui_run_pos` before its first key, over a given layout. -/
def Pos.start (layout : StoreLayout) : Pos where
  tab := .home
  selMenu := 0
  selPayment := 0
  payTable := 0
  gridRow := 0
  gridCol := 0
  layoutEditIdx := none
  layoutMoveMode := false
  dirty := true
  layout := layout

/-- No answer at any prompt. -/
def Typed.nothing : Typed := ⟨0, 0, 0, 0, 0, [], [], []⟩

/-- Enter on table 1, which has one order that is cooking. -/
theorem homeKey_iff_cooking :
    let w := runOps .wrap (serverLoadPersistent (World.boot none none)).2
      [(Env.fair 1, .orderCreate (lit "ORDER_CREATE|table=1|items=1:1") 1),
        (Env.fair 2, .updateOrderStatus 1 .cooking)]
    SellsNothing w
        (handleKey .wrap (Env.fair 3) Typed.nothing .enter (Pos.start layoutInitDefault) w).2 ↔
      ¬ (Key.enter = .enter ∧ FirstDone (Pos.start layoutInitDefault) w) :=
  homeKey_iff .wrap (Env.fair 3) Typed.nothing .enter rfl _

/-- The same with the order DONE: Enter pays it. -/
theorem homeKey_fails : ¬ ∀ (S : IntSem) (env : Env) (typed : Typed) (key : Key) (pos : Pos),
    pos.tab = .home → ∀ w, SellsNothing w (handleKey S env typed key pos w).2 := by
  intro hall
  have hsold := hall .wrap (Env.fair 3) Typed.nothing .enter (Pos.start layoutInitDefault) rfl
    (runOps .wrap firstStart
      [(Env.fair 1, .orderCreate (lit "ORDER_CREATE|table=1|items=1:1") 1),
        (Env.fair 2, .updateOrderStatus 1 .done)])
  rw [handleKey_sellsNothing .wrap _ _ (by decide), afterPayment_enter .wrap _ _ rfl] at hsold
  have htable : (layoutFindAt layoutInitDefault 0 0).map (·.tableId) = some 1 := by
    decide +kernel
  have hfirst : ((runOps .wrap firstStart
      [(Env.fair 1, .orderCreate (lit "ORDER_CREATE|table=1|items=1:1") 1),
        (Env.fair 2, .updateOrderStatus 1 .done)]).ctx.orders.items.map
          fun o => (o.orderId, o.tableId, o.status)) = [(1, 1, .done)] := by
    decide +kernel
  -- from here on the state is opaque
  generalize runOps .wrap firstStart _ = w at *
  obtain ⟨tp, hat, htp⟩ := Option.map_eq_some_iff.mp htable
  obtain ⟨o, hitems, ho⟩ := List.map_eq_singleton_iff.mp hfirst
  obtain ⟨hid, ho⟩ := Prod.mk.inj ho
  obtain ⟨htab, hst⟩ := Prod.mk.inj ho
  apply hsold
  refine ⟨tp, o, hat, ?_, hst, 0, o, ?_, hst⟩
  · simp [hitems, listedFor, hst, htab, htp]
  · simp [hitems, ordersFind, ordersFindIndex]

end TableOrder
