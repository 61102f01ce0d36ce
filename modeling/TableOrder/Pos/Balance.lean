import TableOrder.Pos.Payment
import TableOrder.Server.Replay

/-!
# What a table owes (`ui_pos_table_summary`)

The POS shows for a table how many orders it has, what they cost together as long as they are not
paid, and what of this can be paid now. These numbers are sums over the orders in memory. The logs tell
the same from the outside: what was ordered for the table, less what was sold to it and less what was
cancelled, is what it is shown to owe (`summary_balances`).
-/

namespace TableOrder

open CLib

/-! ## The summary -/

structure PosTableSummary where
  orderCount : Int
  unpaidTotal : Int
  doneTotal : Int
  deriving DecidableEq

variable (S : IntSem)

/-- One turn of the loop over the orders. -/
def addToSummary (tableId : Int) (sum : PosTableSummary) (o : Order) : PosTableSummary :=
  if o.tableId ≠ tableId then sum
  else if o.status = .cancelled then sum
  else
    let sum := { sum with orderCount := S.norm (sum.orderCount + 1) }
    let sum := if o.status ≠ .paid then
        { sum with unpaidTotal := S.norm (sum.unpaidTotal + o.totalPrice) }
      else sum
    if o.status = .done then { sum with doneTotal := S.norm (sum.doneTotal + o.totalPrice) }
    else sum

def uiPosTableSummary (orders : List Order) (tableId : Int) : PosTableSummary :=
  orders.foldl (addToSummary S tableId) ⟨0, 0, 0⟩

/-- The orders of a table in one of these statuses. -/
def Order.isOf (tableId : Int) (statuses : OrderStatus → Bool) (o : Order) : Bool :=
  o.tableId == tableId && statuses o.status

/-- What these orders cost together. -/
def totalOf (p : Order → Bool) (orders : List Order) : Int :=
  ((orders.filter p).map (·.totalPrice)).sum

@[simp] theorem totalOf_nil (p : Order → Bool) : totalOf p [] = 0 := rfl

theorem totalOf_cons (p : Order → Bool) (o : Order) (os : List Order) :
    totalOf p (o :: os) = (if p o = true then o.totalPrice else 0) + totalOf p os := by
  unfold totalOf
  rw [List.filter_cons]
  split
  · rfl
  · rw [Int.zero_add]

theorem totalOf_perm {orders orders' : List Order} (h : orders.Perm orders') (p : Order → Bool) :
    totalOf p orders = totalOf p orders' := ((h.filter p).map _).sum_eq

theorem totalOf_filter (p q : Order → Bool) (orders : List Order) :
    totalOf p (orders.filter q) = totalOf (fun o => p o && q o) orders := by
  unfold totalOf
  rw [List.filter_filter]

/-- Statuses that exclude each other. -/
theorem totalOf_or (tableId : Int) {p q : OrderStatus → Bool}
    (h : ∀ st, ¬ (p st = true ∧ q st = true)) (orders : List Order) :
    totalOf (Order.isOf tableId fun st => p st || q st) orders =
      totalOf (Order.isOf tableId p) orders + totalOf (Order.isOf tableId q) orders := by
  induction orders with
  | nil => rfl
  | cons o os ih =>
    have hst := h o.status
    rw [totalOf_cons, totalOf_cons, totalOf_cons, ih]
    unfold Order.isOf
    cases o.tableId == tableId <;> cases hp : p o.status <;> cases hq : q o.status <;>
      simp [hp, hq] at hst ⊢ <;> omega

def notCancelled (st : OrderStatus) : Bool := st != .cancelled

def owed (st : OrderStatus) : Bool := st != .cancelled && st != .paid

def due (st : OrderStatus) : Bool := st == .done

theorem addToSummary_norm (tableId a b c : Int) (o : Order) :
    addToSummary .wrap tableId ⟨IntSem.wrap.norm a, IntSem.wrap.norm b, IntSem.wrap.norm c⟩ o =
      ⟨IntSem.wrap.norm (a + if o.isOf tableId notCancelled = true then 1 else 0),
        IntSem.wrap.norm (b + if o.isOf tableId owed = true then o.totalPrice else 0),
        IntSem.wrap.norm (c + if o.isOf tableId due = true then o.totalPrice else 0)⟩ := by
  unfold addToSummary Order.isOf
  by_cases htable : o.tableId = tableId
  · cases hst : o.status <;> simp [htable, notCancelled, owed, due, IntSem.wrap_norm_add_norm]
  · simp [htable]

theorem foldl_addToSummary (tableId a b c : Int) (orders : List Order) :
    orders.foldl (addToSummary .wrap tableId)
        ⟨IntSem.wrap.norm a, IntSem.wrap.norm b, IntSem.wrap.norm c⟩ =
      ⟨IntSem.wrap.norm (a + orders.countP (Order.isOf tableId notCancelled)),
        IntSem.wrap.norm (b + totalOf (Order.isOf tableId owed) orders),
        IntSem.wrap.norm (c + totalOf (Order.isOf tableId due) orders)⟩ := by
  induction orders generalizing a b c with
  | nil => simp
  | cons o os ih =>
    rw [List.foldl_cons, addToSummary_norm, ih, totalOf_cons, totalOf_cons, List.countP_cons]
    have hcount : (a + if o.isOf tableId notCancelled = true then 1 else 0) +
        (os.countP (Order.isOf tableId notCancelled) : Int) =
        a + ((os.countP (Order.isOf tableId notCancelled) +
          if o.isOf tableId notCancelled = true then 1 else 0 : Nat) : Int) := by
      split <;> push_cast <;> omega
    rw [hcount, Int.add_assoc, Int.add_assoc]

/-- The numbers shown are the sums over the orders of the table, as `int`s. -/
theorem uiPosTableSummary_eq (orders : List Order) (tableId : Int) :
    uiPosTableSummary .wrap orders tableId =
      ⟨IntSem.wrap.norm (orders.countP (Order.isOf tableId notCancelled)),
        IntSem.wrap.norm (totalOf (Order.isOf tableId owed) orders),
        IntSem.wrap.norm (totalOf (Order.isOf tableId due) orders)⟩ := by
  have hfold := foldl_addToSummary tableId 0 0 0 orders
  rw [Int.zero_add, Int.zero_add, Int.zero_add] at hfold
  exact hfold

/-! ## The orders in `orders.log` -/

/-- What the line of a new order says. -/
structure PlacedRecord where
  orderId : Int
  tableId : Int
  total : Int
  ts : Int
  deriving DecidableEq

def PlacedRecord.text (r : PlacedRecord) : Bytes :=
  lit "ORDER_CREATED id=" ++ fmtInt r.orderId ++ lit " table=" ++ fmtInt r.tableId ++
    lit " total=" ++ fmtInt r.total ++ lit " ts=" ++ fmtInt r.ts ++ lit "\n"

def placedRecord (o : Order) (ts : Int) : PlacedRecord := ⟨o.orderId, o.tableId, o.totalPrice, ts⟩

/-- The line is that of a new order. -/
def isPlaced (line : Bytes) : Bool :=
  startsWith (lit "ORDER_CREATED ") line && (logRecord line).isSome

theorem createdLogLine_eq {o : Order} (hfits : o.Fits) {ts : Int} (hts : FitsLong ts) :
    createdLogLine o ts = (placedRecord o ts).text := by
  have h1 := length_fmtInt_le hfits.orderId
  have h2 := length_fmtInt_le hfits.tableId
  have h3 := length_fmtInt_le hfits.totalPrice
  have h4 := length_fmtLong_le hts
  have e1 : (lit "ORDER_CREATED id=").length = 17 := rfl
  have e2 : (lit " table=").length = 7 := rfl
  have e3 : (lit " total=").length = 7 := rfl
  have e4 : (lit " ts=").length = 4 := rfl
  have e5 : (lit "\n").length = 1 := rfl
  refine clip_eq_self ?_
  show _ < 16384
  simp only [List.length_append, e1, e2, e3, e4, e5]
  omega

theorem isPlaced_created {o : Order} (hfits : o.Fits) {ts : Int} (hts : FitsLong ts) :
    isPlaced (createdLogLine o ts) = true := by
  have hhead : lit "ORDER_CREATED id=" = lit "ORDER_CREATED " ++ lit "id=" := rfl
  unfold isPlaced
  rw [logRecord_created hfits.orderId, createdLogLine_eq hfits hts]
  simp only [PlacedRecord.text, hhead, List.append_assoc, startsWith_append, Option.isSome_some,
    Bool.and_self]

theorem isPlaced_status (id : Int) (st : OrderStatus) (ts : Int) :
    isPlaced (statusLogLine id st ts) = false := by
  unfold isPlaced statusLogLine
  rfl

/-- The lines of new orders among those that were appended since `start`, and the orders: the same
ids, tables and totals in the same order. -/
def PlacedLog (start w : World) (lines : List Bytes) (placed : List PlacedRecord) : Prop :=
  w.ordersLog = start.ordersLog ++ lines ∧ lines.filter isPlaced = placed.map (·.text) ∧
    placed.map (fun r => (r.orderId, r.tableId, r.total)) =
      w.ctx.orders.items.map fun o => (o.orderId, o.tableId, o.totalPrice)

theorem PlacedLog.moved {start w w' : World} {i : Nat} {o : Order} {st : OrderStatus}
    {lines lines' : List Bytes} {placed : List PlacedRecord} (h : PlacedLog start w lines placed)
    (hm : Moved .wrap w w' i o st) (hlog : w'.ordersLog = w.ordersLog ++ lines')
    (hlines : lines'.filter isPlaced = []) : PlacedLog start w' (lines ++ lines') placed := by
  obtain ⟨hordersLog, hplaced, hsame⟩ := h
  refine ⟨by rw [hlog, hordersLog, List.append_assoc], ?_, ?_⟩
  · rw [List.filter_append, hlines, List.append_nil, hplaced]
  · have hi : (w.ctx.orders.items.map fun o => (o.orderId, o.tableId, o.totalPrice))[i]? =
        some (o.orderId, o.tableId, o.totalPrice) := by
      rw [List.getElem?_map, hm.found]
      rfl
    obtain ⟨hlt, hget⟩ := List.getElem?_eq_some_iff.mp hi
    rw [hsame, hm.orders, List.map_set]
    show _ = List.set _ i (o.orderId, o.tableId, o.totalPrice)
    rw [← hget, List.set_getElem_self]

theorem PlacedLog.step {start w w' : World} {env : Env} {op : Op} (hw' : WorldFits w')
    (hlater : FitsLong env.later) (h : ∃ lines placed, PlacedLog start w lines placed)
    (hlogged : Logged env op w w') : ∃ lines placed, PlacedLog start w' lines placed := by
  obtain ⟨lines, placed, hplaced⟩ := h
  cases hlogged with
  | quiet lines' horders hlog hnone hsales =>
    obtain ⟨hordersLog, hlines, hsame⟩ := hplaced
    refine ⟨lines ++ lines', placed, by rw [hlog, hordersLog, List.append_assoc], ?_, ?_⟩
    · have hquiet : lines'.filter isPlaced = [] := by
        apply List.filter_eq_nil_iff.mpr
        intro line hline
        unfold isPlaced
        rw [hnone line hline]
        simp
      rw [List.filter_append, hquiet, List.append_nil, hlines]
    · rw [horders, hsame]
  | created o hc hlog =>
    obtain ⟨hordersLog, hlines, hsame⟩ := hplaced
    have ho : o.Fits := by
      apply hw'.orders
      rw [hc.orders]
      simp
    refine ⟨lines ++ [createdLogLine o env.later], placed ++ [placedRecord o env.later],
      by rw [hlog, hordersLog, List.append_assoc], ?_, ?_⟩
    · rw [List.filter_append, hlines, List.filter_singleton, isPlaced_created ho hlater,
        createdLogLine_eq ho hlater, List.map_append]
      rfl
    · rw [List.map_append, hsame, hc.orders, List.map_append]
      rfl
  | cooked i o st hm hvalid hlog hsales =>
    refine ⟨_, placed, hplaced.moved hm hlog ?_⟩
    rw [List.filter_singleton, isPlaced_status]
    rfl
  | cancelled i o hreq hfind hst hm hlog hsales =>
    exact ⟨_, placed, hplaced.moved hm (hlog.trans (List.append_nil _).symm) rfl⟩
  | paid i o hm hst hlog hsales =>
    exact ⟨_, placed, hplaced.moved hm (hlog.trans (List.append_nil _).symm) rfl⟩

/-! ## The balance -/

/-- The numbers of a log, as far as they are about one table. -/
def tableTotal (tableId : Int) (records : List (Int × Int)) : Int :=
  ((records.filter fun r => r.1 == tableId).map (·.2)).sum

/-- What was ordered, sold and cancelled at a table explains what the POS shows for it. -/
structure Balanced (start w : World) (placed : List PlacedRecord) (sales : List SaleRecord) :
    Prop where
  placedLog : ∃ lines, w.ordersLog = start.ordersLog ++ lines ∧
    lines.filter isPlaced = placed.map (·.text)
  salesLog : w.salesLog = start.salesLog ++ sales.map (·.text)
  unpaid : ∀ t, (uiPosTableSummary .wrap w.ctx.orders.items t).unpaidTotal =
    IntSem.wrap.norm (tableTotal t (placed.map fun r => (r.tableId, r.total)) -
      tableTotal t (sales.map fun r => (r.tableId, r.total)) -
      totalOf (Order.isOf t (· == .cancelled)) w.ctx.orders.items)
  count : ∀ t, (uiPosTableSummary .wrap w.ctx.orders.items t).orderCount +
      w.ctx.orders.items.countP (Order.isOf t (· == .cancelled)) =
    placed.countP (·.tableId == t)

theorem tableTotal_eq (tableId : Int) (orders : List Order) :
    tableTotal tableId (orders.map fun o => (o.tableId, o.totalPrice)) =
      totalOf (Order.isOf tableId fun _ => true) orders := by
  unfold tableTotal totalOf
  rw [List.filter_map, List.map_map]
  congr 2
  apply List.filter_congr
  intro o _
  simp [Order.isOf]

/-- The orders of a table are owed, paid or cancelled. -/
theorem totalOf_statuses (tableId : Int) (orders : List Order) :
    totalOf (Order.isOf tableId fun _ => true) orders =
      totalOf (Order.isOf tableId owed) orders + totalOf (Order.isOf tableId (· == .paid)) orders +
        totalOf (Order.isOf tableId (· == .cancelled)) orders := by
  have hall : (fun _ : OrderStatus => true) =
      fun st => (owed st || st == .paid) || st == .cancelled := by
    funext st
    cases st <;> rfl
  rw [hall, totalOf_or tableId (p := fun st => owed st || st == .paid) (q := (· == .cancelled)),
    totalOf_or tableId (p := owed) (q := (· == .paid))]
  · intro st
    cases st <;> decide
  · intro st
    cases st <;> decide

theorem countP_statuses (tableId : Int) (orders : List Order) :
    orders.countP (Order.isOf tableId notCancelled) +
        orders.countP (Order.isOf tableId (· == .cancelled)) =
      orders.countP (·.tableId == tableId) := by
  induction orders with
  | nil => rfl
  | cons o os ih =>
    rw [List.countP_cons, List.countP_cons, List.countP_cons, ← ih]
    unfold Order.isOf
    cases o.tableId == tableId <;> cases o.status <;> simp [notCancelled] <;> omega

theorem balanced_of_logs {start w : World} {lines : List Bytes} {placed : List PlacedRecord}
    (hplaced : PlacedLog start w lines placed) (hledger : Ledger start.salesLog w) :
    ∃ sales, Balanced start w placed sales := by
  obtain ⟨hordersLog, hlines, hsame⟩ := hplaced
  obtain ⟨sold, hsalesLog, hperm⟩ := hledger
  have hmap {β : Type} (f : Int × Int × Int → β) :
      placed.map (fun r => f (r.orderId, r.tableId, r.total)) =
        w.ctx.orders.items.map fun o => f (o.orderId, o.tableId, o.totalPrice) := by
    have := congrArg (List.map f) hsame
    rwa [List.map_map, List.map_map] at this
  refine ⟨sold.map fun s => saleRecord s.1 s.2, ⟨lines, hordersLog, hlines⟩, ?_, ?_, ?_⟩
  · rw [hsalesLog, List.map_map]
    rfl
  · intro t
    have hordered : tableTotal t (placed.map fun r => (r.tableId, r.total)) =
        totalOf (Order.isOf t fun _ => true) w.ctx.orders.items := by
      rw [← tableTotal_eq, hmap (fun r => (r.2.1, r.2.2))]
    have hsold : tableTotal t
        ((sold.map fun s => saleRecord s.1 s.2).map fun r => (r.tableId, r.total)) =
        totalOf (Order.isOf t (· == .paid)) w.ctx.orders.items := by
      have hpairs : ((sold.map fun s => saleRecord s.1 s.2).map fun r => (r.tableId, r.total)) =
          (sold.map (·.1)).map fun o => (o.tableId, o.totalPrice) := by
        rw [List.map_map, List.map_map]
        rfl
      rw [hpairs, tableTotal_eq, totalOf_perm hperm, paidOrders, totalOf_filter]
      congr 1
      funext o
      simp [Order.isOf]
    rw [uiPosTableSummary_eq, hordered, hsold, totalOf_statuses]
    apply congrArg IntSem.wrap.norm
    omega
  · intro t
    have hbound : w.ctx.orders.items.length ≤ 256 := w.ctx.orders.bound
    have hcount := countP_statuses t w.ctx.orders.items
    have hle := List.countP_le_length (p := Order.isOf t notCancelled) (l := w.ctx.orders.items)
    have hplaced : placed.countP (·.tableId == t) =
        w.ctx.orders.items.countP (·.tableId == t) := by
      have hids := congrArg (List.countP (· == t)) (hmap fun r => r.2.1)
      rwa [List.countP_map, List.countP_map] at hids
    rw [uiPosTableSummary_eq, hplaced, ← hcount,
      IntSem.norm_of_fits _ _ ⟨by omega, by omega⟩]
    push_cast
    rfl

/-- Whatever the threads did, the logs explain what the POS shows for each table. -/
theorem summary_balances {w : World} (hstart : Started w) {as : List Action}
    (hfits : ∀ a ∈ as, a.Fits) (hlater : ∀ a ∈ as, FitsLong a.1.later)
    (hlogs : ∀ a ∈ as, a.LogsAll) :
    ∃ placed sales, Balanced w (runOps .wrap w as) placed sales := by
  have hinit : WorldFits w ∧ ∃ lines placed, PlacedLog w w lines placed := by
    refine ⟨started_fits hstart, [], [], (List.append_nil _).symm, rfl, ?_⟩
    rw [started_orders hstart]
    rfl
  have hstep : ∀ (a : Action) (v : World), a.Fits ∧ FitsLong a.1.later ∧ a.LogsAll →
      (WorldFits v ∧ ∃ lines placed, PlacedLog w v lines placed) →
      WorldFits (step .wrap a v) ∧ ∃ lines placed, PlacedLog w (step .wrap a v) lines placed := by
    rintro a v ⟨hf, hl, horders, hsales⟩ ⟨hv, hplaced⟩
    have hnext := fits_effect hf hv (a.2.effect .wrap a.1 v)
    exact ⟨hnext, PlacedLog.step hnext hl hplaced (a.2.logged horders hsales v)⟩
  obtain ⟨-, lines, placed, hplaced⟩ : WorldFits (runOps .wrap w as) ∧
      ∃ lines placed, PlacedLog w (runOps .wrap w as) lines placed :=
    Runs.run_invariant hstep hinit fun a ha => ⟨hfits a ha, hlater a ha, hlogs a ha⟩
  have hledger := ledger_runOps hstart hfits fun a ha => (hlogs a ha).2
  obtain ⟨sales, hbalanced⟩ := balanced_of_logs hplaced hledger
  exact ⟨placed, sales, hbalanced⟩

/-- Table 2 orders twice, takes one order back and pays the other. -/
def twoRounds : List Action :=
  [(Env.fair 1, .orderCreate (lit "ORDER_CREATE|table=2|items=1:2") 2),
    (Env.fair 2, .orderCreate (lit "ORDER_CREATE|table=2|items=2:1") 2),
    (Env.fair 3, .cancelOrder 1 2), (Env.fair 4, .updateOrderStatus 2 .done),
    (Env.fair 5, .payOrder 2)]

theorem summary_balances_twoRounds :
    let w := (serverLoadPersistent (World.boot none none)).2
    ∃ placed sales, Balanced w (runOps .wrap w twoRounds) placed sales := by
  have hfair : ∀ a ∈ twoRounds, ∃ now : Int, FitsLong now ∧ a.1 = Env.fair now ∧ a.2.Fits := by
    intro a ha
    simp only [twoRounds, List.mem_cons, List.not_mem_nil, or_false] at ha
    rcases ha with rfl | rfl | rfl | rfl | rfl <;> exact ⟨_, by decide, rfl, trivial⟩
  rw [firstStart_eq]
  apply summary_balances started_firstStart
  · intro a ha
    obtain ⟨now, hnow, henv, hop⟩ := hfair a ha
    exact ⟨by rw [henv]; exact hnow, hop⟩
  · intro a ha
    obtain ⟨now, hnow, henv, -⟩ := hfair a ha
    rw [henv]
    exact hnow
  · intro a ha
    obtain ⟨now, -, henv, -⟩ := hfair a ha
    have hwhole : (AppendResult.writes MAX_PROTO_LINE).Whole := ⟨_, rfl, Nat.le_refl _⟩
    unfold Action.LogsAll
    rw [henv]
    exact ⟨hwhole, hwhole⟩

end TableOrder
