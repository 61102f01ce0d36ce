import TableOrder.Pos.Balance
import TableOrder.Pos.Keys

/-!
# Paying for a whole table (`y` on the payment tab)

The key lists the DONE orders of the table and then pays them one by one. Undisturbed it collects what
the payment tab shows as payable, and nothing stays payable (`collect_shown`). Client threads run
between any two payments: the kitchen may take an order back, and new orders may come. Still no order is
paid that was not DONE at this table when the key was pressed, and each one that was is paid if the
kitchen leaves it alone (`collect_interleaved`).
-/

namespace TableOrder

open CLib

/-! ## Undisturbed -/

/-- The orders the key pays. -/
def Order.payable (tableId : Int) (o : Order) : Bool :=
  o.status == .done && (decide (tableId ≤ 0) || o.tableId == tableId)

/-- An order with what the payment of these ids does to it. -/
def Order.paidIn (ids : List Int) (o : Order) : Order :=
  if o.orderId ∈ ids then o.withStatus .paid else o

def payAll (S : IntSem) (env : Env) (ids : List Int) (w : World) : World :=
  ids.foldl (fun w oid => (serverPayOrder S env w oid).2) w

/-- The payment of a DONE order. -/
theorem serverPayOrder_done (env : Env) {w : World} {o : Order}
    (hnd : (w.ctx.orders.items.map (·.orderId)).Nodup) (ho : o ∈ w.ctx.orders.items)
    (hdone : o.status = .done) :
    ∃ i, (serverPayOrder .wrap env w o.orderId).2.salesLog =
        (appendFile env.salesLog w.salesLog (saleLine o.orderId o env.now)).1 ∧
      Moved .wrap w (serverPayOrder .wrap env w o.orderId).2 i o .paid := by
  obtain ⟨i, hi⟩ := List.mem_iff_getElem?.mp ho
  have hfind := ordersFind_of_nodup hnd hi
  rcases h : serverPayOrder .wrap env w o.orderId with ⟨r, w'⟩
  rcases serverPayOrder_cases .wrap h with ⟨⟨e, rfl⟩, -⟩ | ⟨j, o', hfind', -, -, hlog, hm⟩
  · rw [serverPayOrder, hfind] at h
    simp only [hdone, ne_eq, not_true_eq_false, if_false] at h
    cases h
  · rw [hfind] at hfind'
    obtain ⟨rfl, rfl⟩ := Prod.mk.inj (Option.some.inj hfind')
    exact ⟨i, hlog, hm⟩

theorem orders_paid {w w' : World} {i : Nat} {o : Order}
    (hnd : (w.ctx.orders.items.map (·.orderId)).Nodup) (hm : Moved .wrap w w' i o .paid) :
    w'.ctx.orders.items = w.ctx.orders.items.map (Order.paidIn [o.orderId]) := by
  rw [hm.orders]
  apply List.ext_getElem?
  intro j
  rw [List.getElem?_map, List.getElem?_set]
  split
  · next hij =>
    subst hij
    obtain ⟨hlt, -⟩ := List.getElem?_eq_some_iff.mp hm.found
    rw [if_pos hlt, hm.found]
    simp [Order.paidIn]
  · next hij =>
    cases hj : w.ctx.orders.items[j]? with
    | none => rfl
    | some u =>
      have hne : u.orderId ≠ o.orderId := by
        intro hsame
        have h₁ := ordersFindIndex_of_nodup hnd hm.found
        have h₂ := ordersFindIndex_of_nodup hnd hj
        rw [hsame, h₁] at h₂
        exact hij (Option.some.inj h₂)
      simp [Order.paidIn, hne]

theorem paidIn_orderId (ids : List Int) (o : Order) : (o.paidIn ids).orderId = o.orderId := by
  unfold Order.paidIn
  split <;> rfl

theorem paidIn_cons (id : Int) (ids : List Int) (o : Order) :
    (o.paidIn [id]).paidIn ids = o.paidIn (id :: ids) := by
  unfold Order.paidIn
  by_cases h : o.orderId = id <;> by_cases h' : o.orderId ∈ ids <;> simp [h, h']

theorem payAll_cons (env : Env) (id : Int) (ids : List Int) (w : World) :
    payAll .wrap env (id :: ids) w = payAll .wrap env ids (serverPayOrder .wrap env w id).2 := rfl

/-- Paying for DONE orders marks them and appends their records. -/
theorem payAll_done {env : Env} (hnow : FitsLong env.now) (hlog : env.salesLog.Whole) {w : World}
    (hnd : (w.ctx.orders.items.map (·.orderId)).Nodup) (hfits : ∀ o ∈ w.ctx.orders.items, o.Fits)
    {os : List Order} (hos : (os.map (·.orderId)).Nodup)
    (hdone : ∀ o ∈ os, o ∈ w.ctx.orders.items ∧ o.status = .done) :
    (payAll .wrap env (os.map (·.orderId)) w).ctx.orders.items =
        w.ctx.orders.items.map (Order.paidIn (os.map (·.orderId))) ∧
      (payAll .wrap env (os.map (·.orderId)) w).salesLog =
        w.salesLog ++ os.map fun o => (saleRecord o env.now).text := by
  induction os generalizing w with
  | nil =>
    refine ⟨?_, (List.append_nil _).symm⟩
    exact (List.map_id _).symm
  | cons o os ih =>
    obtain ⟨ho, hst⟩ := hdone o List.mem_cons_self
    obtain ⟨i, hsales, hm⟩ := serverPayOrder_done env hnd ho hst
    have horders := orders_paid hnd hm
    rw [List.map_cons, List.nodup_cons] at hos
    rw [List.map_cons, payAll_cons]
    have hids : ((serverPayOrder .wrap env w o.orderId).2.ctx.orders.items.map (·.orderId)) =
        w.ctx.orders.items.map (·.orderId) := by
      rw [horders, List.map_map]
      apply List.map_congr_left
      intro u _
      exact paidIn_orderId _ u
    have hfits' : ∀ u ∈ (serverPayOrder .wrap env w o.orderId).2.ctx.orders.items, u.Fits := by
      intro u hu
      rw [horders] at hu
      obtain ⟨v, hv, rfl⟩ := List.mem_map.mp hu
      unfold Order.paidIn
      split
      · exact withStatus_fits (hfits v hv) .paid
      · exact hfits v hv
    -- the orders still to be paid are as they were
    have hdone' : ∀ u ∈ os, u ∈ (serverPayOrder .wrap env w o.orderId).2.ctx.orders.items ∧
        u.status = .done := by
      intro u hu
      obtain ⟨hmem, hdone⟩ := hdone u (List.mem_cons_of_mem o hu)
      have hne : u.orderId ≠ o.orderId := by
        intro hsame
        exact hos.1 (List.mem_map.mpr ⟨u, hu, hsame⟩)
      refine ⟨?_, hdone⟩
      rw [horders]
      refine List.mem_map.mpr ⟨u, hmem, ?_⟩
      simp [Order.paidIn, hne]
    obtain ⟨hitems, hlines⟩ := ih (by rw [hids]; exact hnd) hfits' hos.2 hdone'
    constructor
    · rw [hitems, horders, List.map_map]
      apply List.map_congr_left
      intro u _
      exact paidIn_cons _ _ u
    · rw [hlines, hsales, appendFile_whole hlog _ (length_saleLine_le _ _ _),
        saleLine_eq (hfits o ho) hnow, List.append_assoc]
      rfl

/-! ## What is shown and what is collected -/

theorem totalOf_map {f : Order → Order} (hf : ∀ o, (f o).totalPrice = o.totalPrice)
    (p : Order → Bool) (orders : List Order) :
    totalOf p (orders.map f) = totalOf (fun o => p (f o)) orders := by
  unfold totalOf
  rw [List.filter_map, List.map_map]
  apply congrArg List.sum
  apply List.map_congr_left
  intro o _
  exact hf o

theorem totalOf_congr {p q : Order → Bool} {orders : List Order} (h : ∀ o ∈ orders, p o = q o) :
    totalOf p orders = totalOf q orders := by
  unfold totalOf
  rw [List.filter_congr h]

/-- The ids the key collects are those of the payable orders: the store is not longer than the
buffer. -/
theorem uiPosCollectTableDoneIds_eq (orders : Arr Order MAX_ORDERS) (tableId : Int) :
    uiPosCollectTableDoneIds orders.items tableId MAX_ORDERS =
      (orders.items.filter (Order.payable tableId)).map (·.orderId) := by
  unfold uiPosCollectTableDoneIds
  apply List.take_of_length_le
  rw [List.length_map]
  exact (List.length_filter_le _ _).trans orders.bound

/-- The status that the payment of the payable orders gives to an order. -/
def collected (tableId : Int) (o : Order) : OrderStatus :=
  if o.tableId = tableId ∧ o.status = .done then .paid else o.status

theorem paidIn_payable {orders : List Order} (hnd : (orders.map (·.orderId)).Nodup) {tableId : Int}
    (htable : 0 < tableId) {o : Order} (ho : o ∈ orders) :
    o.paidIn ((orders.filter (Order.payable tableId)).map (·.orderId)) =
      o.withStatus (collected tableId o) := by
  have hmem : o.orderId ∈ (orders.filter (Order.payable tableId)).map (·.orderId) ↔
      o.tableId = tableId ∧ o.status = .done := by
    have hpay : o.payable tableId = true ↔ o.tableId = tableId ∧ o.status = .done := by
      unfold Order.payable
      have hnot : ¬ tableId ≤ 0 := by omega
      simp [hnot, and_comm]
    rw [← hpay]
    constructor
    · intro h
      obtain ⟨u, hu, hid⟩ := List.mem_map.mp h
      obtain ⟨hu, hup⟩ := List.mem_filter.mp hu
      obtain rfl := List.inj_on_of_nodup_map hnd hu ho hid
      exact hup
    · intro h
      exact List.mem_map.mpr ⟨o, List.mem_filter.mpr ⟨ho, h⟩, rfl⟩
  unfold Order.paidIn collected
  by_cases h : o.tableId = tableId ∧ o.status = .done
  · rw [if_pos (hmem.mpr h), if_pos h]
  · rw [if_neg (fun hin => h (hmem.mp hin)), if_neg h]
    rfl

theorem isOf_collected (tableId : Int) {p q : OrderStatus → Bool}
    (h : ∀ st, p (if st = .done then .paid else st) = q st) (o : Order) :
    (o.withStatus (collected tableId o)).isOf tableId p = o.isOf tableId q := by
  unfold Order.isOf collected
  by_cases htable : o.tableId = tableId
  · simp [htable, h]
  · have hne : (o.tableId == tableId) = false := by simpa using htable
    rw [withStatus_tableId, hne, Bool.false_and, Bool.false_and]

theorem totalOf_collected {tableId : Int} {p q : OrderStatus → Bool}
    (h : ∀ st, p (if st = .done then .paid else st) = q st) (orders : List Order) :
    totalOf (Order.isOf tableId p) (orders.map fun o => o.withStatus (collected tableId o)) =
      totalOf (Order.isOf tableId q) orders := by
  rw [totalOf_map (f := fun o => o.withStatus (collected tableId o)) fun _ => rfl]
  exact totalOf_congr fun o _ => isOf_collected tableId h o

/-- The summaries after the payment. -/
theorem summary_collected (tableId : Int) (orders : List Order) :
    let before := uiPosTableSummary .wrap orders tableId
    let after := uiPosTableSummary .wrap
      (orders.map fun o => o.withStatus (collected tableId o)) tableId
    after.orderCount = before.orderCount ∧ after.doneTotal = 0 ∧
      after.unpaidTotal = IntSem.wrap.norm (before.unpaidTotal - before.doneTotal) := by
  simp only [uiPosTableSummary_eq]
  have hcount : (orders.map fun o => o.withStatus (collected tableId o)).countP
      (Order.isOf tableId notCancelled) = orders.countP (Order.isOf tableId notCancelled) := by
    rw [List.countP_map]
    apply List.countP_congr
    intro o _
    have h := isOf_collected tableId (p := notCancelled) (q := notCancelled) (by
      intro st
      cases st <;> rfl) o
    rw [Function.comp_apply, h]
  have hdue : totalOf (Order.isOf tableId due)
      (orders.map fun o => o.withStatus (collected tableId o)) = 0 := by
    rw [totalOf_collected (q := fun _ => false) (by
      intro st
      cases st <;> rfl)]
    have hnone : orders.filter (Order.isOf tableId fun _ => false) = [] := by
      apply List.filter_eq_nil_iff.mpr
      intro o _
      simp [Order.isOf]
    rw [totalOf, hnone]
    rfl
  -- what is owed is what is due now, and what remains to be owed
  have howed : totalOf (Order.isOf tableId owed) orders =
      totalOf (Order.isOf tableId owed)
        (orders.map fun o => o.withStatus (collected tableId o)) +
      totalOf (Order.isOf tableId due) orders := by
    have hsplit : owed = fun st => (owed st && !due st) || due st := by
      funext st
      cases st <;> rfl
    have hor := totalOf_or tableId (p := fun st => owed st && !due st) (q := due) (by
      intro st
      cases st <;> decide) orders
    rw [← hsplit] at hor
    rw [hor, totalOf_collected (q := fun st => owed st && !due st)]
    intro st
    cases st <;> rfl
  have hnorm (x y : Int) : IntSem.wrap.norm (IntSem.wrap.norm x - IntSem.wrap.norm y) =
      IntSem.wrap.norm (x - y) := by
    show ((x.bmod 4294967296) - (y.bmod 4294967296)).bmod 4294967296 = (x - y).bmod 4294967296
    rw [Int.sub_bmod_bmod, Int.bmod_sub_bmod]
  refine ⟨by rw [hcount], by rw [hdue]; rfl, ?_⟩
  rw [hnorm, howed, Int.add_sub_cancel]

/-- The summary of another table. -/
theorem summary_collected_other {tableId t : Int} (hne : t ≠ tableId) (orders : List Order) :
    uiPosTableSummary .wrap (orders.map fun o => o.withStatus (collected tableId o)) t =
      uiPosTableSummary .wrap orders t := by
  have hsame (p : OrderStatus → Bool) (o : Order) :
      (o.withStatus (collected tableId o)).isOf t p = o.isOf t p := by
    unfold Order.isOf collected
    by_cases htable : o.tableId = t
    · have hother : o.tableId ≠ tableId := by
        rw [htable]
        exact hne
      simp [hother]
    · have hfalse : (o.tableId == t) = false := by simpa using htable
      rw [withStatus_tableId, hfalse, Bool.false_and, Bool.false_and]
  have htotal (p : OrderStatus → Bool) :
      totalOf (Order.isOf t p) (orders.map fun o => o.withStatus (collected tableId o)) =
        totalOf (Order.isOf t p) orders := by
    rw [totalOf_map (f := fun o => o.withStatus (collected tableId o)) fun _ => rfl]
    exact totalOf_congr fun o _ => hsame p o
  have hcount : (orders.map fun o => o.withStatus (collected tableId o)).countP
      (Order.isOf t notCancelled) = orders.countP (Order.isOf t notCancelled) := by
    rw [List.countP_map]
    apply List.countP_congr
    intro o _
    rw [Function.comp_apply, hsame]
  rw [uiPosTableSummary_eq, uiPosTableSummary_eq, hcount, htotal, htotal]

/-- The DONE orders of a table, in the order of the store. -/
def doneOrders (tableId : Int) (orders : List Order) : List Order :=
  orders.filter fun o => o.status == .done && o.tableId == tableId

theorem filter_payable {tableId : Int} (htable : 0 < tableId) (orders : List Order) :
    orders.filter (Order.payable tableId) = doneOrders tableId orders := by
  apply List.filter_congr
  intro o _
  have hnot : ¬ tableId ≤ 0 := by omega
  simp [Order.payable, hnot]

theorem doneOrders_total (tableId : Int) (orders : List Order) :
    ((doneOrders tableId orders).map (·.totalPrice)).sum =
      totalOf (Order.isOf tableId due) orders := by
  unfold totalOf
  congr 2
  apply List.filter_congr
  intro o _
  simp [Order.isOf, due, Bool.and_comm]

theorem handleKey_y {env : Env} {typed : Typed} {pos : Pos} (htab : pos.tab = .payment)
    (htable : 0 < pos.payTable) (w : World) :
    (handleKey .wrap env typed (.char 'y') pos w).2 =
      payAll .wrap env (uiPosCollectTableDoneIds w.ctx.orders.items pos.payTable MAX_ORDERS) w := by
  simp [handleKey, selectTab, tabOfKey, onTab, htab, paymentKeys, htable, payAll]

/-- What `y` collects for a table at a time, and what the payment tab shows before and after. -/
structure CollectsShown (tableId now : Int) (w w' : World) : Prop where
  /-- The DONE orders of the table are PAID, and no other order changed. -/
  orders : w'.ctx.orders.items = w.ctx.orders.items.map fun o => o.withStatus (collected tableId o)
  /-- One SALE line for each of these orders. -/
  sales : w'.salesLog = w.salesLog ++
    (doneOrders tableId w.ctx.orders.items).map fun o => (saleRecord o now).text
  total : IntSem.wrap.norm
      ((doneOrders tableId w.ctx.orders.items).map fun o => (saleRecord o now).total).sum =
    (uiPosTableSummary .wrap w.ctx.orders.items tableId).doneTotal
  orderCount : (uiPosTableSummary .wrap w'.ctx.orders.items tableId).orderCount =
    (uiPosTableSummary .wrap w.ctx.orders.items tableId).orderCount
  doneTotal : (uiPosTableSummary .wrap w'.ctx.orders.items tableId).doneTotal = 0
  unpaidTotal : (uiPosTableSummary .wrap w'.ctx.orders.items tableId).unpaidTotal =
    IntSem.wrap.norm ((uiPosTableSummary .wrap w.ctx.orders.items tableId).unpaidTotal -
      (uiPosTableSummary .wrap w.ctx.orders.items tableId).doneTotal)
  others : ∀ t, t ≠ tableId → uiPosTableSummary .wrap w'.ctx.orders.items t =
    uiPosTableSummary .wrap w.ctx.orders.items t

/-- Undisturbed, `y` sells what the payment tab shows as payable, if `sales.log` takes the lines: the sums
of the SALE lines and of the screen are the same `int`, nothing stays payable, and no other table is
touched. -/
theorem collect_shown {w : World} (hstart : Started w) {as : List Action}
    (hfits : ∀ a ∈ as, a.Fits) {env : Env} (hnow : FitsLong env.now) (hlog : env.salesLog.Whole)
    (typed : Typed) {pos : Pos} (htab : pos.tab = .payment) (htable : 0 < pos.payTable) :
    CollectsShown pos.payTable env.now (runOps .wrap w as)
      (handleKey .wrap env typed (.char 'y') pos (runOps .wrap w as)).2 := by
  generalize hv : runOps .wrap w as = v
  have hnd : (v.ctx.orders.items.map (·.orderId)).Nodup := by
    rw [← hv]
    exact (numbered_runOps (Numbered.of_started hstart) as).nodup
  have hw : WorldFits v := by
    rw [← hv]
    exact fits_runOps (started_fits hstart) hfits
  let os := v.ctx.orders.items.filter (Order.payable pos.payTable)
  have hos : (os.map (·.orderId)).Nodup := hnd.sublist (List.filter_sublist.map _)
  have hdone : ∀ o ∈ os, o ∈ v.ctx.orders.items ∧ o.status = .done := by
    intro o ho
    obtain ⟨hmem, hpay⟩ := List.mem_filter.mp ho
    refine ⟨hmem, ?_⟩
    unfold Order.payable at hpay
    simp only [Bool.and_eq_true, beq_iff_eq] at hpay
    exact hpay.1
  obtain ⟨hitems, hsales⟩ := payAll_done hnow hlog hnd hw.orders hos hdone
  rw [handleKey_y htab htable, uiPosCollectTableDoneIds_eq]
  have horders : (payAll .wrap env (os.map (·.orderId)) v).ctx.orders.items =
      v.ctx.orders.items.map fun o => o.withStatus (collected pos.payTable o) := by
    rw [hitems]
    exact List.map_congr_left fun o ho => paidIn_payable hnd htable ho
  obtain ⟨hcount, hdue, hunpaid⟩ := summary_collected pos.payTable v.ctx.orders.items
  rw [← horders] at hcount hdue hunpaid
  refine ⟨horders, ?_, ?_, hcount, hdue, hunpaid, ?_⟩
  · rw [hsales, ← filter_payable htable]
  · rw [uiPosTableSummary_eq]
    exact congrArg IntSem.wrap.norm (doneOrders_total pos.payTable v.ctx.orders.items)
  · intro t ht
    rw [horders]
    exact summary_collected_other ht _

/-- Two orders of table 2, both DONE. -/
def bothDone : List Action :=
  [(Env.fair 1, .orderCreate (lit "ORDER_CREATE|table=2|items=1:2") 2),
    (Env.fair 2, .orderCreate (lit "ORDER_CREATE|table=2|items=2:1") 2),
    (Env.fair 3, .updateOrderStatus 1 .done), (Env.fair 4, .updateOrderStatus 2 .done)]

theorem bothDone_fits : ∀ a ∈ bothDone, a.Fits := by
  intro a ha
  simp only [bothDone, List.mem_cons, List.not_mem_nil, or_false] at ha
  rcases ha with rfl | rfl | rfl | rfl <;> exact ⟨by decide, trivial⟩

theorem collect_shown_bothDone :
    let w := (serverLoadPersistent (World.boot none none)).2
    let pos := { Pos.start layoutInitDefault with tab := .payment, payTable := 2 }
    CollectsShown 2 5 (runOps .wrap w bothDone)
      (handleKey .wrap (Env.fair 5) Typed.nothing (.char 'y') pos (runOps .wrap w bothDone)).2 := by
  rw [firstStart_eq]
  intro w pos
  have hnow : FitsLong (Env.fair 5).now := by decide
  have htable : 0 < pos.payTable := by decide
  exact collect_shown started_firstStart bothDone_fits hnow ⟨_, rfl, Nat.le_refl _⟩
    Typed.nothing rfl htable

/-! ## Among the client threads -/

/-- What may happen while the key is handled: an operation of another thread, and nobody but the POS
pays, or the next payment of the loop. -/
def TillAction.DuringKey : TillAction → Prop
  | .server a => ∀ orderId, a.2 ≠ .payOrder orderId
  | .payNext _ => True
  | _ => False

/-- The till in the loop of the key: some of the collected ids are still in the queue. -/
def Paying.rest : Paying → List Int
  | .queue ids => ids
  | _ => []

theorem during_step {a : TillAction} (ha : a.DuringKey) (t : Till) :
    (∃ b : Action, (∀ orderId, b.2 ≠ .payOrder orderId) ∧ (tillStep .wrap a t) =
        ⟨step .wrap b t.world, t.paying⟩) ∨
      (∃ env id ids, t.paying = .queue (id :: ids) ∧
        tillStep .wrap a t = ⟨step .wrap (env, .payOrder id) t.world, .queue ids⟩) ∨
      (t.paying.rest = [] ∧ (tillStep .wrap a t).paying.rest = [] ∧
        (tillStep .wrap a t).world = t.world) ∨
      tillStep .wrap a t = t := by
  obtain ⟨w, p⟩ := t
  cases a with
  | server b => exact .inl ⟨b, ha, rfl⟩
  | payNext env =>
    cases p with
    | queue ids =>
      cases ids with
      | nil => exact .inr (.inr (.inl ⟨rfl, rfl, rfl⟩))
      | cons id ids => exact .inr (.inl ⟨env, id, ids, rfl, rfl⟩)
    | idle => exact .inr (.inr (.inr rfl))
    | listed idxs sel => exact .inr (.inr (.inr rfl))
    | chosen id st => exact .inr (.inr (.inr rfl))
  | pressEnter _ _ => cases ha
  | readRow => cases ha
  | payChosen _ => cases ha
  | pressY _ => cases ha

theorem statusAt_later {w : World} (as : List Action) {i : Nat} {st : OrderStatus}
    (h : statusAt w i = some st) (hterm : st.terminal = true) :
    statusAt (runOps .wrap w as) i = some st := by
  obtain ⟨o, ho, rfl⟩ := statusAt_eq_some.mp h
  obtain ⟨st', ho', hkeep⟩ := later_order as ho
  exact statusAt_eq_some.mpr ⟨_, ho', hkeep hterm⟩

/-- Only a payment pays, and then the order under its id. -/
theorem paid_by_step {b : Action} {w : World} {i : Nat}
    (hbefore : statusAt w i ≠ some .paid) (hafter : statusAt (step .wrap b w) i = some .paid) :
    ∃ o, b.2 = .payOrder o.orderId ∧ w.ctx.orders.items[i]? = some o ∧ o.status = .done := by
  obtain ⟨o', ho', hst'⟩ := statusAt_eq_some.mp hafter
  have hmoved {j : Nat} {o : Order} {st : OrderStatus} (hm : Moved .wrap w (step .wrap b w) j o st) :
      i = j ∧ st = .paid := by
    rw [hm.orders, List.getElem?_set] at ho'
    split at ho'
    · next hji =>
      split at ho'
      · cases ho'
        exact ⟨hji.symm, hst'⟩
      · cases ho'
    · exact absurd (statusAt_eq_some.mpr ⟨o', ho', hst'⟩) hbefore
  have hsame (h : (step .wrap b w).ctx.orders = w.ctx.orders) : False := by
    rw [h] at ho'
    exact hbefore (statusAt_eq_some.mpr ⟨o', ho', hst'⟩)
  have heffect := b.2.effect .wrap b.1 w
  rw [show (b.2.run .wrap b.1 w).2 = step .wrap b w from rfl] at heffect
  generalize (b.2.run .wrap b.1 w).1 = failed at heffect
  cases heffect with
  | quiet failed lines horders => exact absurd (hsame horders) id
  | created o hbuilds hc =>
    rw [hc.orders] at ho'
    rcases Nat.lt_or_ge i w.ctx.orders.items.length with hlt | hge
    · rw [List.getElem?_append_left hlt] at ho'
      exact absurd (statusAt_eq_some.mpr ⟨o', ho', hst'⟩) hbefore
    · rw [List.getElem?_append_right hge] at ho'
      have heq : o' = o := List.mem_singleton.mp (List.mem_of_getElem? ho')
      rw [heq, hc.waiting] at hst'
      cases hst'
  | cooked j o st hvalid hsales hm =>
    obtain ⟨-, rfl⟩ := hmoved hm
    exact absurd (not_terminal_of_transition hvalid).2 (by decide)
  | cancelled j o hst hop hsales hm =>
    obtain ⟨-, h⟩ := hmoved hm
    cases h
  | paid j o hop hst hsales hm =>
    obtain ⟨rfl, -⟩ := hmoved hm
    exact ⟨o, hop, hm.found, hst⟩
  | entered fd kind tableId heq =>
    refine absurd (hsame ?_) id
    rw [heq]
    exact serverRegisterClient_orders _ _ _ _
  | left fd heq =>
    refine absurd (hsame ?_) id
    rw [heq]
    exact serverUnregisterFd_orders _ _

/-- The till after `y` was pressed for a table, and what happened since. -/
def pressedY (w : World) (tableId : Int) (as : List TillAction) : Till :=
  runTill .wrap ⟨w, .idle⟩ (.pressY tableId :: as)

theorem pressedY_eq {tableId : Int} (htable : 0 < tableId) (w : World) (as : List TillAction) :
    pressedY w tableId as = Runs.run (tillStep .wrap)
      ⟨w, .queue ((w.ctx.orders.items.filter (Order.payable tableId)).map (·.orderId))⟩ as := by
  rw [← uiPosCollectTableDoneIds_eq]
  show Runs.run (tillStep .wrap) (if 0 < tableId then _ else _) as = _
  rw [if_pos htable]

theorem payable_iff {tableId : Int} (htable : 0 < tableId) (o : Order) :
    o.payable tableId = true ↔ o.tableId = tableId ∧ o.status = .done := by
  have hnot : ¬ tableId ≤ 0 := by omega
  simp [Order.payable, hnot, and_comm]

/-- The same order at two indices. -/
theorem same_index {orders : List Order} (hnd : (orders.map (·.orderId)).Nodup) {i j : Nat}
    {o o' : Order} (hi : orders[i]? = some o) (hj : orders[j]? = some o')
    (hid : o.orderId = o'.orderId) : i = j := by
  have h₁ := ordersFindIndex_of_nodup hnd hi
  have h₂ := ordersFindIndex_of_nodup hnd hj
  rw [hid, h₂] at h₁
  exact (Option.some.inj h₁).symm

/-- An order that was paid before the key, or that the key may pay. -/
def MayBePaid (v : World) (tableId : Int) (i : Nat) : Prop :=
  ∃ o, v.ctx.orders.items[i]? = some o ∧
    (o.status = .paid ∨ (o.tableId = tableId ∧ o.status = .done))

/-- No order is paid that was not DONE at this table when the key was pressed. -/
theorem paid_only {n : Int} {v : World} (hnum : Numbered n v) {tableId : Int} (htable : 0 < tableId)
    {bs : List TillAction} (hbs : ∀ b ∈ bs, b.DuringKey) {i : Nat}
    (hpaid : statusAt (pressedY v tableId bs).world i = some .paid) : MayBePaid v tableId i := by
  let ids := (v.ctx.orders.items.filter (Order.payable tableId)).map (·.orderId)
  let I (t : Till) : Prop := (∃ cs, t.world = runOps .wrap v cs) ∧ (∀ id ∈ t.paying.rest, id ∈ ids) ∧
    ∀ i, statusAt t.world i = some .paid → MayBePaid v tableId i
  have hinit : I ⟨v, .queue ids⟩ := by
    refine ⟨⟨[], rfl⟩, fun id hid => hid, ?_⟩
    intro i hi
    obtain ⟨o, ho, hst⟩ := statusAt_eq_some.mp hi
    exact ⟨o, ho, .inl hst⟩
  have hstep : ∀ (a : TillAction) (t : Till), a.DuringKey → I t → I (tillStep .wrap a t) := by
    rintro a t ha ⟨⟨cs, hworld⟩, hrest, hmay⟩
    have hnum' : Numbered n t.world := by
      rw [hworld]
      exact numbered_runOps hnum cs
    have hworld' (b : Action) : ∃ cs, step .wrap b t.world = runOps .wrap v cs :=
      ⟨cs ++ [b], by rw [runOps_append, ← hworld]; rfl⟩
    rcases during_step ha t with ⟨b, hb, heq⟩ | ⟨env, id, rest, hqueue, heq⟩ | ⟨-, hnil, hsame⟩ | heq
    · rw [heq]
      refine ⟨hworld' b, hrest, ?_⟩
      intro j hj
      by_cases hbefore : statusAt t.world j = some .paid
      · exact hmay j hbefore
      · obtain ⟨o, hop, -, -⟩ := paid_by_step hbefore hj
        exact absurd hop (hb o.orderId)
    · have hids : ∀ x ∈ id :: rest, x ∈ ids := by
        intro x hx
        apply hrest
        rw [hqueue]
        exact hx
      rw [heq]
      refine ⟨hworld' _, fun x hx => hids x (List.mem_cons_of_mem id hx), ?_⟩
      intro j hj
      by_cases hbefore : statusAt t.world j = some .paid
      · exact hmay j hbefore
      · obtain ⟨o, hop, ho, -⟩ := paid_by_step hbefore hj
        obtain rfl := Op.payOrder.inj hop
        -- the id was collected, so that the order was there and payable
        obtain ⟨o₀, ho₀, hid⟩ := List.mem_map.mp (hids o.orderId List.mem_cons_self)
        obtain ⟨hmem, hpay⟩ := List.mem_filter.mp ho₀
        obtain ⟨k, hk⟩ := List.mem_iff_getElem?.mp hmem
        obtain ⟨st, hlater, -⟩ := later_order cs hk
        rw [← hworld] at hlater
        obtain rfl := same_index hnum'.nodup hlater ho hid
        exact ⟨o₀, hk, .inr ((payable_iff htable o₀).mp hpay)⟩
    · refine ⟨⟨cs, by rw [hsame, hworld]⟩, ?_, ?_⟩
      · rw [hnil]
        simp
      · rw [hsame]
        exact hmay
    · rw [heq]
      exact ⟨⟨cs, hworld⟩, hrest, hmay⟩
  rw [pressedY_eq htable] at hpaid
  exact (Runs.run_invariant hstep hinit hbs).2.2 i hpaid

/-- The order is DONE or PAID at every point of the run. -/
def LeftAlone (t : Till) (as : List TillAction) (i : Nat) : Prop :=
  ∀ pre, pre <+: as → statusAt (Runs.run (tillStep .wrap) t pre).world i = some .done ∨
    statusAt (Runs.run (tillStep .wrap) t pre).world i = some .paid

theorem LeftAlone.tail {t : Till} {a : TillAction} {as : List TillAction} {i : Nat}
    (h : LeftAlone t (a :: as) i) : LeftAlone (tillStep .wrap a t) as i := by
  intro pre hpre
  exact h (a :: pre) (List.cons_prefix_cons.mpr ⟨rfl, hpre⟩)

/-- An order whose id is still in the queue, or that is paid already, is paid when the queue is empty,
if it is left alone. -/
theorem paid_when_done {n : Int} {t : Till} (hnum : Numbered n t.world) {bs : List TillAction}
    (hbs : ∀ b ∈ bs, b.DuringKey) {i : Nat} {o : Order} (ho : t.world.ctx.orders.items[i]? = some o)
    (hqueue : statusAt t.world i = some .paid ∨ o.orderId ∈ t.paying.rest)
    (halone : LeftAlone t bs i)
    (hend : (Runs.run (tillStep .wrap) t bs).paying.rest = []) :
    statusAt (Runs.run (tillStep .wrap) t bs).world i = some .paid := by
  induction bs generalizing t o with
  | nil =>
    rw [Runs.run_nil] at hend ⊢
    rcases hqueue with hpaid | hmem
    · exact hpaid
    · rw [hend] at hmem
      cases hmem
  | cons b bs ih =>
    have hrest : ∀ b ∈ bs, b.DuringKey := fun c hc => hbs c (List.mem_cons_of_mem b hc)
    have htail := halone.tail
    rw [Runs.run_cons] at hend ⊢
    have hnum' (a : Action) : Numbered n (step .wrap a t.world) :=
      hnum.effect (a.2.effect .wrap a.1 t.world)
    have hkeep (a : Action) (h : statusAt t.world i = some .paid) :
        statusAt (step .wrap a t.world) i = some .paid := statusAt_later [a] h rfl
    rcases during_step (hbs b List.mem_cons_self) t with
      ⟨a, -, heq⟩ | ⟨env, id, ids, hq, heq⟩ | ⟨hnil, -, hsame⟩ | heq
    · rw [heq] at htail hend ⊢
      obtain ⟨st, ho', -⟩ := later_order [a] ho
      refine ih (hnum' a) hrest (o := o.withStatus st) ho' ?_ htail hend
      rcases hqueue with hpaid | hmem
      · exact .inl (hkeep a hpaid)
      · exact .inr hmem
    · rw [heq] at htail hend ⊢
      obtain ⟨st, ho', -⟩ := later_order [(env, .payOrder id)] ho
      refine ih (hnum' _) hrest (o := o.withStatus st) ho' ?_ htail hend
      rcases hqueue with hpaid | hmem
      · exact .inl (hkeep _ hpaid)
      · rw [hq] at hmem
        rcases List.mem_cons.mp hmem with rfl | hmem
        · -- its turn: it is DONE, or paid already
          rcases halone [] List.nil_prefix with hdone | hpaid
          · left
            obtain ⟨o', ho₁, hst⟩ := statusAt_eq_some.mp hdone
            rw [Runs.run_nil, ho] at ho₁
            obtain rfl := Option.some.inj ho₁
            obtain ⟨j, -, hm⟩ := serverPayOrder_done env hnum.nodup
              (List.mem_of_getElem? ho) hst
            obtain rfl := same_index hnum.nodup ho hm.found rfl
            refine statusAt_eq_some.mpr ⟨o.withStatus .paid, ?_, rfl⟩
            have hitems : (step .wrap (env, .payOrder o.orderId) t.world).ctx.orders.items =
                t.world.ctx.orders.items.set i (o.withStatus .paid) := hm.orders
            rw [hitems]
            exact List.getElem?_set_self (List.getElem?_eq_some_iff.mp ho).1
          · exact .inl (hkeep _ hpaid)
        · exact .inr hmem
    · rcases hqueue with hpaid | hmem
      · refine ih (by rw [hsame]; exact hnum) hrest (o := o) (by rw [hsame]; exact ho) ?_ htail hend
        rw [hsame]
        exact .inl hpaid
      · rw [hnil] at hmem
        cases hmem
    · rw [heq] at htail hend ⊢
      exact ih hnum hrest ho hqueue htail hend

/-- The orders `y` pays among the client threads: only orders of the table that were DONE when the key
was pressed, and when it is through, each of them that nobody took back meanwhile. -/
structure PaysTable (v : World) (tableId : Int) (bs : List TillAction) : Prop where
  only : ∀ i, statusAt (pressedY v tableId bs).world i = some .paid → MayBePaid v tableId i
  all : (pressedY v tableId bs).paying.rest = [] → ∀ (i : Nat) (o : Order),
    v.ctx.orders.items[i]? = some o → o.tableId = tableId → o.status = .done →
    (∀ pre, pre <+: bs → statusAt (pressedY v tableId pre).world i = some .done ∨
      statusAt (pressedY v tableId pre).world i = some .paid) →
    statusAt (pressedY v tableId bs).world i = some .paid

theorem collect_interleaved {w : World} (hstart : Started w) (as : List Action) {tableId : Int}
    (htable : 0 < tableId) {bs : List TillAction} (hbs : ∀ b ∈ bs, b.DuringKey) :
    PaysTable (runOps .wrap w as) tableId bs := by
  have hnum := numbered_runOps (Numbered.of_started hstart) as
  constructor
  · intro i hi
    exact paid_only hnum htable hbs hi
  · intro hend i o ho ht hst halone
    rw [pressedY_eq htable] at hend ⊢
    refine paid_when_done (t := ⟨runOps .wrap w as, .queue _⟩) hnum hbs ho (.inr ?_) ?_ hend
    · refine List.mem_map.mpr ⟨o, List.mem_filter.mpr ⟨List.mem_of_getElem? ho, ?_⟩, rfl⟩
      exact (payable_iff htable o).mpr ⟨ht, hst⟩
    · intro pre hpre
      have h := halone pre hpre
      rw [pressedY_eq htable] at h
      exact h

/-- Two orders are collected, and the kitchen takes the second one back before its turn. -/
def takenBackMeanwhile : List TillAction :=
  [.payNext (Env.fair 5), .server (Env.fair 6, .updateOrderStatus 2 .cooking),
    .payNext (Env.fair 7), .payNext (Env.fair 8)]

theorem collect_interleaved_takenBack :
    let w := (serverLoadPersistent (World.boot none none)).2
    PaysTable (runOps .wrap w bothDone) 2 takenBackMeanwhile := by
  rw [firstStart_eq]
  apply collect_interleaved started_firstStart bothDone (by decide)
  intro b hb
  simp only [takenBackMeanwhile, List.mem_cons, List.not_mem_nil, or_false] at hb
  rcases hb with rfl | rfl | rfl | rfl
  · trivial
  · exact fun _ => Op.noConfusion
  · trivial
  · trivial

end TableOrder
