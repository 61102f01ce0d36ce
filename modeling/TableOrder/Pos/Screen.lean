import TableOrder.Pos.Balance
import TableOrder.Pos.Calls
import TableOrder.Pos.LayoutFile
import TableOrder.Pos.SalesTail

/-!
# The screen of the POS (`ui_run_pos`)

The loop of `ui_run_pos` draws a tab only when something was marked dirty: by a key, or because one of
the two revision counters of the server is not what the loop saw last. A tab is drawn field by field, each
from its own look at the server, and the client threads go on in between. `Desk` is the POS thread
somewhere in its loop, beside the threads of the server.

The client threads count what they change, a staff call only after the unlock (`counted_hubStep`), and
the keys mark it (`marked_handleKey`).
-/

namespace TableOrder

open CLib

/-! ## Fields -/

/-- The counter that tells the loop when a field is to be drawn again. What only the POS changes has
none. -/
inductive Source where
  | orders
  | staff
  | own
  deriving DecidableEq

/-- What a tab reads from the server to print it, in a table's box or in a pane. Of the main pane the rows
count that the footer leaves. -/
inductive Field where
  /-- `ui_pos_table_summary`. -/
  | summary (box : Option TableBox) (tableId : Int)
  /-- `ui_pos_staff_active`. -/
  | call (box : Option TableBox) (tableId : Int)
  | message
  /-- The label of the table in the layout file. -/
  | label (tableId : Int)
  | payRows (payTable : Int) (sel : Nat) (rows cols : Int)
  | menu (sel : Nat) (rows cols : Int)
  | sales (rows cols : Int)
  /-- A box of the layout editor, which reads nothing. -/
  | table (box : TableBox)

inductive Content where
  | summary (sum : PosTableSummary)
  | call (active : Bool)
  | text (text : Bytes)
  | orders (rows : List (Order × Bool))
  | menu (rows : List (MenuItem × Bool)) (selected : Option MenuItem)
  | sales (rows : List LogLine)
  | table

namespace Field

def source : Field → Source
  | .summary _ _ => .orders
  | .payRows _ _ _ _ => .orders
  | .call _ _ => .staff
  | .message => .staff
  | .label _ => .own
  | .menu _ _ _ => .own
  | .sales _ _ => .own
  | .table _ => .own

/-- What the field shows if it is read now; `log` is what `sales.log` held when the server started. -/
def read (log : Bytes) (w : World) (now : Int) : Field → Content
  | .summary _ tableId => .summary (uiPosTableSummary .wrap w.ctx.orders.items tableId)
  | .call _ tableId => .call (uiPosStaffActive w.ctx now tableId)
  | .message => .text w.ctx.lastStaffMessage
  | .label tableId =>
    .text (((layoutLoad w.layoutFile).bind fun layout => layoutFindById layout tableId).elim []
      (·.label.bytes))
  | .payRows payTable sel rows cols =>
    let maxRows := (uiPosLayoutFrame rows cols).main.h - 5
    .orders (rowsKept rows cols 2 (uiDrawPosPaymentRows w.ctx.orders.items payTable sel maxRows))
  | .menu sel rows cols =>
    let items := w.ctx.menu.items
    let frame := uiPosLayoutFrame rows cols
    .menu (rowsKept rows cols 2
        ((items.take (frame.main.h - 5).toNat).zipIdx.map fun r => (r.1, r.2 == sel)))
      (if 0 < frame.side.w then items[min sel (items.length - 1)]? else none)
  | .sales rows cols => .sales (uiDrawPosSales (some (log ++ w.salesLog.flatten)) rows cols)
  | .table _ => .table

end Field

/-! ## Tabs -/

/-- Below the smallest size the home tab asks for a larger terminal and draws nothing else. -/
def homeFields (pos : Pos) (rows cols : Int) : List Field :=
  match posHomeView pos.layout pos.gridRow pos.gridCol rows cols with
  | none => []
  | some _ =>
    let boxes := uiDrawPosHome pos.layout pos.gridRow pos.gridCol rows cols
    let side :=
      match layoutFindAt pos.layout pos.gridRow pos.gridCol with
      | none => []
      | some tp => [.summary none tp.tableId, .call none tp.tableId]
    boxes.flatMap (fun box =>
        [.summary (some box) box.table.tableId, .call (some box) box.table.tableId]) ++
      if 0 < (uiPosLayoutFrame rows cols).side.w then side ++ [.message] else []

def paymentFields (pos : Pos) (rows cols : Int) : List Field :=
  let frame := uiPosLayoutFrame rows cols
  let side := if 0 < pos.payTable then [.label pos.payTable, .summary none pos.payTable] else []
  (if 0 < frame.side.w then side else []) ++
    [.payRows pos.payTable pos.selPayment rows cols]

def layoutFields (pos : Pos) (rows cols : Int) : List Field :=
  (uiDrawPosLayoutEditor pos.layout pos.gridRow pos.gridCol rows cols).map .table

def tabFields (pos : Pos) (rows cols : Int) : List Field :=
  match pos.tab with
  | .home => homeFields pos rows cols
  | .payment => paymentFields pos rows cols
  | .menu => [.menu pos.selMenu rows cols]
  | .sales => [.sales rows cols]
  | .layout => layoutFields pos rows cols

/-! ## The loop -/

/-- A field on the screen, with the time at which it was printed. -/
structure Drawn where
  field : Field
  time : Int
  shown : Content

/-- Where the POS thread is in its loop. -/
inductive LoopStage where
  | orders
  | staff
  | redraw
  | drawing (todo : List Field)
  | waiting

structure Desk where
  hub : Hub
  pos : Pos
  lastRev : Int
  lastStaffRev : Int
  lastAutoRedraw : Int
  stage : LoopStage
  /-- The size of the terminal at the top of the loop. -/
  rows : Int
  cols : Int
  /-- The tab that was drawn last, and for which size. -/
  screen : List Drawn
  screenRows : Int
  screenCols : Int
  /-- Ghost: the steps of other threads since the loop looked at a counter. -/
  passed : Source → Nat

/-- `(uint32_t)`. -/
def uint32 (x : Int) : Int := x % 4294967296

inductive DeskAction where
  /-- A step of the accept loop or of a client thread. -/
  | client (a : HubAction)
  /-- The POS thread goes on. While it waits for a key, the wait is over without one. -/
  | loop (rows cols now : Int)
  | key (env : Env) (typed : Typed) (key : Key)

namespace Desk

variable (d : Desk)

/-- The check of `orders_revision`, at the top of the loop. -/
def lookOrders (rows cols : Int) : Desk :=
  let rev := uint32 d.hub.world.ctx.ordersRevision
  let d := { d with
    stage := .staff
    rows := rows
    cols := cols
    passed := Function.update d.passed .orders 0 }
  if rev ≠ d.lastRev then
    { d with lastRev := rev, pos := { d.pos with selPayment := 0, dirty := true } }
  else d

/-- The check of `staff_revision`. -/
def lookStaff : Desk :=
  let rev := uint32 d.hub.world.ctx.staffRevision
  let d := { d with stage := .redraw, passed := Function.update d.passed .staff 0 }
  if rev ≠ d.lastStaffRev then { d with lastStaffRev := rev, pos := { d.pos with dirty := true } }
  else d

/-- The sales tab is marked once a second; then the tab is drawn if it is dirty. -/
def startDrawing (now : Int) : Desk :=
  let d :=
    if !d.pos.dirty ∧ d.pos.tab = .sales ∧ now ≠ d.lastAutoRedraw then
      { d with lastAutoRedraw := now, pos := { d.pos with dirty := true } }
    else d
  if d.pos.dirty then
    { d with
      pos := { d.pos with dirty := false }
      stage := .drawing (tabFields d.pos d.rows d.cols)
      screen := []
      screenRows := d.rows
      screenCols := d.cols }
  else { d with stage := .waiting }

end Desk

variable (log : Bytes)

def loopStep (rows cols now : Int) (d : Desk) : Desk :=
  match d.stage with
  | .orders => if d.hub.world.ctx.shuttingDown then d else d.lookOrders rows cols
  | .staff => d.lookStaff
  | .redraw => d.startDrawing now
  | .drawing [] => { d with stage := .waiting }
  | .drawing (field :: todo) =>
    { d with
      stage := .drawing todo
      screen := d.screen ++ [⟨field, now, field.read log d.hub.world now⟩] }
  | .waiting => { d with stage := .orders }

/-- A key is handled at once; what a payment does between its steps is left to the till. -/
def keyStep (env : Env) (typed : Typed) (key : Key) (d : Desk) : Desk :=
  match d.stage with
  | .waiting =>
    let s := handleKey .wrap env typed key d.pos d.hub.world
    { d with stage := .orders, pos := s.1, hub := { d.hub with world := s.2 } }
  | _ => d

/-- What the POS does comes from its keys only. -/
def clientStep (a : HubAction) (d : Desk) : Desk :=
  match a.fd with
  | none => d
  | some _ => { d with hub := hubStep a d.hub, passed := fun source => d.passed source + 1 }

def deskStep : DeskAction → Desk → Desk
  | .client a, d => clientStep a d
  | .loop rows cols now, d => loopStep log rows cols now d
  | .key env typed key, d => keyStep env typed key d

def runDesk (d : Desk) (as : List DeskAction) : Desk := Runs.run (deskStep log) d as

/-- `ui_run_pos` before its first turn, over a given layout. -/
def Desk.start (layout : StoreLayout) (w : World) : Desk where
  hub := Hub.start w
  pos := Pos.start layout
  lastRev := 0
  lastStaffRev := 0
  lastAutoRedraw := 0
  stage := .orders
  rows := 0
  cols := 0
  screen := []
  screenRows := 0
  screenCols := 0
  passed := fun _ => 0

/-! ## What the other threads do to the fields -/

/-- The counter behind a field, as the loop reads it. -/
def revision (w : World) : Source → Int
  | .orders => uint32 w.ctx.ordersRevision
  | .staff => uint32 w.ctx.staffRevision
  | .own => 0

/-- The fields of the source read the same. -/
def SameFields (source : Source) (w w' : World) : Prop :=
  ∀ log now (field : Field), field.source = source → field.read log w' now = field.read log w now

/-- Every source is as it was, or its counter went up. -/
def Counted (w w' : World) : Prop :=
  ∀ source, (SameFields source w w' ∧ revision w' source = revision w source) ∨
    revision w' source = (revision w source + 1) % (4294967296 : Nat)

theorem sameFields_orders {w w' : World} (h : w'.ctx.orders = w.ctx.orders) :
    SameFields .orders w w' := by
  intro log now field hsource
  cases field with
  | summary box tableId => rw [Field.read, h, Field.read]
  | payRows payTable sel rows cols => rw [Field.read, h, Field.read]
  | _ => cases hsource

theorem sameFields_staff {w w' : World} (h : SameStaff w w') : SameFields .staff w w' := by
  intro log now field hsource
  cases field with
  | call box tableId => rw [Field.read, uiPosStaffActive, h.callAt, Field.read, uiPosStaffActive]
  | message => rw [Field.read, h.message, Field.read]
  | _ => cases hsource

theorem sameFields_own {w w' : World} (hmenu : w'.ctx.menu = w.ctx.menu)
    (hsales : w'.salesLog = w.salesLog) (hlayout : w'.layoutFile = w.layoutFile) :
    SameFields .own w w' := by
  intro log now field hsource
  cases field with
  | label tableId => rw [Field.read, hlayout, Field.read]
  | menu sel rows cols => rw [Field.read, hmenu, Field.read]
  | sales rows cols => rw [Field.read, hsales, Field.read]
  | table box => rfl
  | _ => cases hsource

/-- The steps that neither touch the orders nor the calls. -/
theorem Counted.of_same {w w' : World} (horders : w'.ctx.orders = w.ctx.orders)
    (hrev : w'.ctx.ordersRevision = w.ctx.ordersRevision) (hstaff : SameStaff w w')
    (hown : SameFields .own w w') : Counted w w' := by
  intro source
  cases source with
  | orders => exact .inl ⟨sameFields_orders horders, by rw [revision, hrev, revision]⟩
  | staff => exact .inl ⟨sameFields_staff hstaff, by rw [revision, hstaff.revision, revision]⟩
  | own => exact .inl ⟨hown, rfl⟩

theorem Counted.refl (w : World) : Counted w w :=
  .of_same rfl rfl (SameStaff.refl w) (sameFields_own rfl rfl rfl)

theorem layoutFile_ordersMeta (env : Env) (w : World) (text : Bytes) :
    (appendOrdersMeta env w text).layoutFile = w.layoutFile := by
  unfold appendOrdersMeta
  split <;> rfl

theorem layoutFile_salesMeta (env : Env) (w : World) (text : Bytes) :
    (appendSalesMeta env w text).layoutFile = w.layoutFile := by
  unfold appendSalesMeta
  split <;> rfl

theorem layoutFile_saveConfig (env : Env) (w : World) :
    (serverSaveConfig env w).layoutFile = w.layoutFile := by
  unfold serverSaveConfig
  split <;> rfl

theorem layoutFile_pushed {w w' : World} {o : Order} (h : pushOrderLocked w o = some w') (env : Env) :
    (orderPushed .wrap env w' o).layoutFile = w.layoutFile := by
  obtain ⟨orders, -, rfl⟩ := Option.map_eq_some_iff.mp h
  show (serverSaveConfig env (appendOrdersMeta env _ _)).layoutFile = w.layoutFile
  rw [layoutFile_saveConfig, layoutFile_ordersMeta]
  rfl

theorem layoutFile_step (op : Op) (env : Env) (w : World) :
    (step .wrap (env, op) w).layoutFile = w.layoutFile := by
  have hmoved (orderId : Int) (st : OrderStatus) :
      (serverUpdateOrderStatus .wrap env w orderId st).2.layoutFile = w.layoutFile := by
    unfold serverUpdateOrderStatus
    split
    · rfl
    · split
      · rfl
      · split
        · rfl
        · exact layoutFile_ordersMeta env _ _
  have hcancelled (orderId tableId : Int) :
      (serverCancelOrder .wrap w orderId tableId).2.layoutFile = w.layoutFile := by
    unfold serverCancelOrder
    split
    · rfl
    · split
      · rfl
      · split <;> rfl
  cases op with
  | orderCreate line tableId =>
    show (orderCreateStep .wrap env w line tableId).2.layoutFile = w.layoutFile
    unfold orderCreateStep orderCreateLocked
    split
    · rfl
    · split
      · rfl
      · split
        · rfl
        · split
          · rfl
          · split
            · rfl
            · next hpush => exact layoutFile_pushed hpush env
  | createOrder tableId cart =>
    show (serverCreateOrder .wrap env w tableId cart).2.layoutFile = w.layoutFile
    unfold serverCreateOrder
    split
    · rfl
    · split
      · rfl
      · split
        · rfl
        · next hpush => exact layoutFile_pushed hpush env
  | orderUpdate line =>
    show (handleOrderUpdateClient .wrap env w line).layoutFile = w.layoutFile
    unfold handleOrderUpdateClient
    split
    · rfl
    · exact hmoved _ _
  | updateOrderStatus orderId status => exact hmoved orderId status
  | orderCancel line tableId =>
    show (orderCancelStep .wrap w line tableId).2.layoutFile = w.layoutFile
    unfold orderCancelStep
    split
    · rfl
    · exact hcancelled _ _
  | cancelOrder orderId tableId => exact hcancelled orderId tableId
  | payOrder orderId =>
    show (serverPayOrder .wrap env w orderId).2.layoutFile = w.layoutFile
    unfold serverPayOrder
    split
    · rfl
    · split
      · rfl
      · exact layoutFile_salesMeta env _ _
  | staffLog tbl => exact layoutFile_ordersMeta env w _
  | saveConfig => exact layoutFile_saveConfig env w
  | _ => rfl

/-- What a thread has to do: nothing of the POS, and a call is counted right after it is recorded. -/
structure Counts (todo : List Op) : Prop where
  client : ∀ op ∈ todo, op.isPos = false
  calls : ∀ tbl rest, .staffCall tbl :: rest <:+ todo → ∃ later, rest = .staffTouch :: later

def Hub.Counts (s : Hub) : Prop :=
  ∀ fd kind own todo, s.phase fd = .serving kind own todo → TableOrder.Counts todo

/-- No thread has recorded a change of this source that it has still to count. -/
def Hub.Settled (s : Hub) (source : Source) : Prop :=
  source = .staff → ∀ fd kind own todo, s.phase fd ≠ .serving kind own (.staffTouch :: todo)

theorem Counts.tail {op : Op} {todo : List Op} (h : Counts (op :: todo)) : Counts todo where
  client := fun op' hop' => h.client op' (List.mem_cons_of_mem op hop')
  calls := fun tbl rest hrest => h.calls tbl rest (hrest.trans (List.suffix_cons op todo))

theorem counts_turn (env : Env) (w : World) (fd : Int) (kind : ClientKind) (own : Int) (line : Bytes) :
    Counts (clientTurn .wrap env w fd kind own line).1 := by
  refine ⟨clientTurn_isPos env w fd kind own line, ?_⟩
  have hturn := clientTurn_cases .wrap env w fd kind own line
  generalize clientTurn .wrap env w fd kind own line = turn at hturn ⊢
  intro tbl rest hrest
  cases hturn with
  | called tbl' =>
    obtain ⟨rfl, rfl⟩ : tbl = tbl' ∧ rest = _ := by
      simpa [List.suffix_cons_iff] using hrest
    exact ⟨_, rfl⟩
  | _ => simp [List.suffix_cons_iff] at hrest

theorem Hub.Counts.step {s : Hub} (h : s.Counts) (a : HubAction) : (hubStep a s).Counts := by
  intro fd kind own todo hphase
  cases hubStep_todo hphase with
  | kept _ hphase => exact h fd kind own todo hphase
  | registered => exact ⟨by simp, by simp⟩
  | read env line _ _ => exact counts_turn env s.world fd kind own line
  | worked op _ hphase => exact (h fd kind own (op :: todo) hphase).tail

/-- A block marks what it changes: the result is dirty, or nothing is different but the slot that the
layout editor works on. -/
structure Marked (s s' : Pos × World) : Prop where
  keeps : s.1.dirty = true → s'.1.dirty = true
  marks : s'.1.dirty = false → s'.1 = { s.1 with layoutEditIdx := s'.1.layoutEditIdx } ∧ s'.2 = s.2

theorem Marked.refl (s : Pos × World) : Marked s s := ⟨id, fun _ => ⟨rfl, rfl⟩⟩

theorem Marked.trans {s s' s'' : Pos × World} (h : Marked s s') (h' : Marked s' s'') :
    Marked s s'' := by
  refine ⟨fun hdirty => h'.keeps (h.keeps hdirty), ?_⟩
  intro hclean
  obtain ⟨hpos', hworld'⟩ := h'.marks hclean
  have hmiddle : s'.1.dirty = false := by
    cases hdirty : s'.1.dirty with
    | false => rfl
    | true =>
      rw [h'.keeps hdirty] at hclean
      cases hclean
  obtain ⟨hpos, hworld⟩ := h.marks hmiddle
  refine ⟨?_, hworld'.trans hworld⟩
  rw [hpos', hpos]

end TableOrder
