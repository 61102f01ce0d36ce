import TableOrder.Client.Heard
import TableOrder.Client.Programs

/-!
# Keys pressed on an old screen

A key of the kitchen or of a table asks for a change of an order under its id. The screen may be behind
when the key is pressed, and other threads may move the order before the request is handled. Whatever
they do, the server takes the order that was shown (`Connection.shown_now`), and looks at the status it
has by then: the change is made if it is allowed from there, and otherwise nothing happens
(`kitchenKey_lands`, `cancelKey_lands`). On a screen that is up to date every key is allowed.
-/

namespace TableOrder

open CLib

/-! ## What was shown and what there is -/

namespace Connection

variable {c : Connection} {w : World}

theorem numbered_now (hstart : Started w) (c : Connection) :
    Numbered w.ctx.cfg.nextOrderId (c.now w) := by
  have hopened := numbered_runOps (Numbered.of_started hstart) c.before
  have hgreeted := numbered_runOps hopened c.handshake
  have hregistered := hgreeted.effect
    ((Op.enter c.fd c.kind c.tableId).effect .wrap c.env (c.greeted w))
  exact numbered_runOps hregistered c.after

/-- An open order on the screen is an order of the server now, at most in another status. Once all
lines are read, it is in this status. -/
theorem shown_now (hstart : Started w) (hc : c.Valid w) {k : Nat}
    (hfirst : ((c.upTo []).lines w).length ≤ k) (hlast : k ≤ (c.lines w).length) {shown : Order}
    (hmem : shown ∈ (((c.lines w).take k).foldl mirrorLine noOrders).items)
    (hactive : activeFor c.kind c.tableId shown = true) :
    ∃ (i : Nat) (o : Order), (c.now w).ctx.orders.items[i]? = some o ∧ sanitizeOrder o = shown.withStatus o.status ∧
      (k = (c.lines w).length → o.status = shown.status) := by
  have hself : c.upTo c.after = c := rfl
  have hshown (v : World) (hshows : ShowsActive c.kind c.tableId
      (((c.lines w).take k).foldl mirrorLine noOrders) v) :
      ∃ (i : Nat) (o : Order), v.ctx.orders.items[i]? = some o ∧ sanitizeOrder o = shown := by
    have hin := List.mem_filter.mpr ⟨hmem, hactive⟩
    rw [hshows.active] at hin
    obtain ⟨o, ho, hsame⟩ := List.mem_map.mp hin
    obtain ⟨i, hi⟩ := List.mem_iff_getElem?.mp (List.mem_filter.mp ho).1
    exact ⟨i, o, hi, hsame⟩
  by_cases hall : k = (c.lines w).length
  · have hmirror := mirrorOf_lines hstart hc
    rw [← List.take_length (l := c.lines w), ← hall] at hmirror
    obtain ⟨i, o, ho, rfl⟩ := hshown (c.now w) (showsActive_of_mirrorOf hmirror)
    exact ⟨i, o, ho, rfl, fun _ => rfl⟩
  · obtain ⟨i, o, ho, rfl⟩ := hshown _ (shows_moment hstart hc hfirst hlast).2
    obtain ⟨rest, hrest⟩ := c.moment_within w k
    obtain ⟨st, hnow, -⟩ := later_order rest ho
    refine ⟨i, o.withStatus st, ?_, rfl, fun h => absurd h hall⟩
    have hlater : c.now w = runOps .wrap ((c.upTo (c.moment w k)).now w) rest := by
      show runOps .wrap (c.registered w) c.after = _
      rw [← hrest, runOps_append]
      rfl
    rw [hlater]
    exact hnow

end Connection

/-- A mirror of any lines. -/
theorem idsFit_lines (lines : List Bytes) : (lines.foldl mirrorLine noOrders).IdsFit := by
  have hfold (orders : Mirror) (h : orders.IdsFit) : (lines.foldl mirrorLine orders).IdsFit := by
    induction lines generalizing orders with
    | nil => exact h
    | cons line lines ih => exact ih _ (h.line line)
  apply hfold
  intro o ho
  cases ho

/-! ## The kitchen -/

/-- The keys offer only moves that the server allows. -/
theorem kitchenRequest_allowed {key : Key} {status st : OrderStatus}
    (hlive : status.terminal = false) (h : kitchenRequest key status = some st) :
    validKitchenTransition status st = true := by
  have hcook (hst : (if status = .cooking then none else some OrderStatus.cooking) = some st) :
      validKitchenTransition status st = true := by
    cases status <;> cases hst <;> first | rfl | cases hlive
  have hdone (hst : (if status = .done then none else some OrderStatus.done) = some st) :
      validKitchenTransition status st = true := by
    cases status <;> cases hst <;> first | rfl | cases hlive
  unfold kitchenRequest at h
  split at h
  · cases h
    rfl
  · cases h
    rfl
  · cases h
    rfl
  · cases h
    rfl
  · exact hcook h
  · exact hcook h
  · exact hdone h
  · exact hdone h
  · cases h

/-- The order that a key of the kitchen acts on is open, and the key asks for its next status. -/
theorem kitchenKey_shown {board : Mirror} (hnd : (board.items.map (·.orderId)).Nodup) {sel : Nat}
    {key : Key} {u : KitchenUpdate} (h : (kitchenKey board sel key).2 = some u) :
    ∃ shown ∈ board.items, shown.orderId = u.orderId ∧ shown.status.terminal = false ∧
      kitchenRequest key shown.status = some u.status := by
  unfold kitchenKey at h
  simp only at h
  split at h
  · cases h
  · next oid hoid =>
    have hactive := List.mem_of_mem_take (List.mem_of_getElem? hoid)
    obtain ⟨shown, hshown, rfl⟩ := List.mem_map.mp hactive
    obtain ⟨hmem, hlive⟩ := List.mem_filter.mp hshown
    obtain ⟨i, hi⟩ := List.mem_iff_getElem?.mp hmem
    rw [ordersFind_of_nodup hnd hi] at h
    obtain ⟨st, hst, rfl⟩ := Option.map_eq_some_iff.mp h
    exact ⟨shown, hmem, rfl, by simpa using hlive, hst⟩

/-- The server makes an allowed change and nothing else. -/
theorem updateRequested_eq (env : Env) {w : World} (hnd : (w.ctx.orders.items.map (·.orderId)).Nodup)
    {i : Nat} {o : Order} (ho : w.ctx.orders.items[i]? = some o) (st : OrderStatus) :
    if 0 < o.orderId ∧ validKitchenTransition o.status st = true then
      Moved .wrap w (updateRequested .wrap env w ⟨o.orderId, st⟩) i o st
    else updateRequested .wrap env w ⟨o.orderId, st⟩ = w := by
  have hfind := ordersFind_of_nodup hnd ho
  unfold updateRequested
  simp only
  by_cases hpos : o.orderId ≤ 0
  · rw [if_neg (by omega), if_pos hpos]
  rw [if_neg hpos]
  rcases hrun : serverUpdateOrderStatus .wrap env w o.orderId st with ⟨r, w'⟩
  rcases serverUpdateOrderStatus_cases .wrap hrun with
    ⟨⟨e, rfl⟩, rfl⟩ | ⟨j, o', hfind', hvalid, -, -, hm⟩
  · rw [if_neg]
    rintro ⟨-, hvalid⟩
    obtain ⟨v, hok⟩ := serverUpdateOrderStatus_isOk .wrap env hfind hvalid
    rw [hrun] at hok
    cases hok
  · rw [hfind] at hfind'
    cases hfind'
    rw [if_pos ⟨by omega, hvalid⟩]
    exact hm

/-- A key of the kitchen, pressed when it had read `k` lines, asks for a change of an open order that it
showed. The request is handled now: the order moves if the server allows it from where the order is
by then, and otherwise nothing happens. If the kitchen had read everything it is allowed. -/
theorem kitchenKey_lands {w : World} (hstart : Started w) {c : Connection} (hc : c.Valid w)
    (hkind : c.kind = .kitchen) {k : Nat} (hfirst : ((c.upTo []).lines w).length ≤ k)
    (hlast : k ≤ (c.lines w).length) {sel : Nat} {key : Key} {u : KitchenUpdate}
    (hkey : (kitchenKey (((c.lines w).take k).foldl kitchenLine Kitchen.init).board sel key).2 =
      some u) (env : Env) :
    let handled := (clientTurn .wrap env (c.now w) c.fd c.kind c.tableId (Request.update u).line).2
    ∃ (i : Nat) (o shown : Order),
      shown ∈ (((c.lines w).take k).foldl kitchenLine Kitchen.init).board.items ∧
      shown.status.terminal = false ∧ kitchenRequest key shown.status = some u.status ∧
      (c.now w).ctx.orders.items[i]? = some o ∧ o.orderId = u.orderId ∧
      sanitizeOrder o = shown.withStatus o.status ∧
      (k = (c.lines w).length → validKitchenTransition o.status u.status = true) ∧
      if 0 < u.orderId ∧ validKitchenTransition o.status u.status = true then
        Moved .wrap (c.now w) handled i o u.status
      else handled = c.now w := by
  intro handled
  rw [foldl_kitchenLine_board] at hkey ⊢
  have hnd : ((((c.lines w).take k).foldl mirrorLine noOrders).items.map (·.orderId)).Nodup := by
    have hboard := kitchenBoard_nodup ((c.lines w).take k)
    rw [foldl_kitchenLine_board] at hboard
    exact hboard
  obtain ⟨shown, hmem, hid, hlive, hrequest⟩ := kitchenKey_shown hnd hkey
  have hactive : activeFor c.kind c.tableId shown = true := by
    rw [hkind]
    simpa [activeFor] using hlive
  obtain ⟨i, o, ho, hsame, hall⟩ := Connection.shown_now hstart hc hfirst hlast hmem hactive
  have hoid : o.orderId = u.orderId := (congrArg Order.orderId hsame).trans hid
  have hfits : FitsInt u.orderId := hid ▸ idsFit_lines _ shown hmem
  have hhandled : handled = updateRequested .wrap env (c.now w) ⟨o.orderId, u.status⟩ := by
    show (clientTurn .wrap env (c.now w) c.fd c.kind c.tableId (Request.update u).line).2 = _
    rw [hkind, turn_update .wrap env (c.now w) c.fd c.tableId hfits, hoid]
  refine ⟨i, o, shown, hmem, hlive, hrequest, ho, hoid, hsame, ?_, ?_⟩
  · intro hk
    rw [hall hk]
    exact kitchenRequest_allowed hlive hrequest
  · rw [hhandled, ← hoid]
    exact updateRequested_eq env (Connection.numbered_now hstart c).nodup ho u.status

/-- The kitchen has read the snapshot and shows the first order as WAITING; it cooks by now. -/
theorem kitchenKey_lands_late :
    let w := (serverLoadPersistent (World.boot none none)).2
    let handled := (clientTurn .wrap (Env.fair 9) (lateKitchen.now w) lateKitchen.fd lateKitchen.kind
      lateKitchen.tableId (Request.update ⟨1, .cooking⟩).line).2
    ∃ (i : Nat) (o shown : Order),
      shown ∈ (((lateKitchen.lines w).take 2).foldl kitchenLine Kitchen.init).board.items ∧
      shown.status.terminal = false ∧ kitchenRequest .right shown.status = some .cooking ∧
      (lateKitchen.now w).ctx.orders.items[i]? = some o ∧ o.orderId = 1 ∧
      sanitizeOrder o = shown.withStatus o.status ∧
      (2 = (lateKitchen.lines w).length → validKitchenTransition o.status .cooking = true) ∧
      if 0 < (1 : Int) ∧ validKitchenTransition o.status .cooking = true then
        Moved .wrap (lateKitchen.now w) handled i o .cooking
      else handled = lateKitchen.now w := by
  rw [firstStart_eq]
  intro w
  have hstart : Started w := started_firstStart
  have hvalid : lateKitchen.Valid w := valid_lateKitchen
  have hfirst : ((lateKitchen.upTo []).lines w).length ≤ 2 := by decide +kernel
  have hlast : 2 ≤ (lateKitchen.lines w).length := by decide +kernel
  have hkey : (kitchenKey (((lateKitchen.lines w).take 2).foldl kitchenLine Kitchen.init).board 0
      .right).2 = some ⟨1, .cooking⟩ := by decide +kernel
  clear_value w
  exact kitchenKey_lands hstart hvalid rfl hfirst hlast hkey (Env.fair 9)

/-! ## The table -/

/-- A request to cancel an order of the table. -/
theorem cancelRequested_eq {w : World} (hnd : (w.ctx.orders.items.map (·.orderId)).Nodup) {i : Nat}
    {o : Order} (ho : w.ctx.orders.items[i]? = some o) :
    if 0 < o.orderId ∧ o.status = .waiting then
      (cancelRequested .wrap w o.tableId o.orderId).1 = .ok () ∧
        Moved .wrap w (cancelRequested .wrap w o.tableId o.orderId).2 i o .cancelled
    else
      (∃ e, (cancelRequested .wrap w o.tableId o.orderId).1 = .error e) ∧
        (cancelRequested .wrap w o.tableId o.orderId).2 = w := by
  have hfind := ordersFind_of_nodup hnd ho
  unfold cancelRequested
  by_cases hpos : o.orderId ≤ 0
  · rw [if_neg (by omega), if_pos hpos]
    exact ⟨⟨_, rfl⟩, rfl⟩
  rw [if_neg hpos]
  rcases hrun : serverCancelOrder .wrap w o.orderId o.tableId with ⟨r, w'⟩
  rcases serverCancelOrder_cases .wrap hrun with
    ⟨⟨e, rfl⟩, rfl⟩ | ⟨j, o', hfind', -, hst, rfl, -, hm⟩
  · rw [if_neg]
    · exact ⟨⟨e, rfl⟩, rfl⟩
    · rintro ⟨-, hst⟩
      rw [serverCancelOrder, hfind] at hrun
      simp only [ne_eq, not_true_eq_false, if_false, hst] at hrun
      cases hrun
  · rw [hfind] at hfind'
    cases hfind'
    rw [if_pos ⟨by omega, hst⟩]
    exact ⟨rfl, hm⟩

/-- A key of a table client that had read `k` lines, whatever other keys came before, asks to cancel an
order that it showed as waiting. The request is handled now: the order is cancelled if it is still
waiting by then, and otherwise nothing happens and the client is told so. If it had read everything
the order is. -/
theorem cancelKey_lands {w : World} (hstart : Started w) {c : Connection} (hc : c.Valid w)
    (hkind : c.kind = .table) {k : Nat} (hfirst : ((c.upTo []).lines w).length ≤ k)
    (hlast : k ≤ (c.lines w).length) {menuFile : Option Bytes} {inputs : List TableInput}
    (hinputs : inputs.filterMap TableInput.received = (c.lines w).take k) {stray : CartItem} {key : Key}
    {orderId : Int}
    (hkey : TableSent.orderCancel orderId ∈
      (tableKey .wrap stray key (runTable .wrap (TableClient.start c.tableId menuFile) inputs)).2)
    (env : Env) :
    let handled := clientTurn .wrap env (c.now w) c.fd c.kind c.tableId
      (Request.table (.orderCancel orderId)).line
    ∃ (i : Nat) (o shown : Order),
      shown ∈ (runTable .wrap (TableClient.start c.tableId menuFile) inputs).mirror.items ∧
      shown.status = .waiting ∧ (c.now w).ctx.orders.items[i]? = some o ∧ o.orderId = orderId ∧
      o.tableId = c.tableId ∧ sanitizeOrder o = shown.withStatus o.status ∧
      (k = (c.lines w).length → o.status = .waiting) ∧
      if 0 < orderId ∧ o.status = .waiting then
        handled.1 = [.reply c.fd .cancelled] ∧ Moved .wrap (c.now w) handled.2 i o .cancelled
      else (∃ e, handled.1 = [.reply c.fd (.error e)]) ∧ handled.2 = c.now w := by
  intro handled
  have hclient := ((TableClient.ready_start c.tableId menuFile).run inputs).tableId
  rcases sends_tableKey .wrap hkey with _ | _ | _ | ⟨shown, hlisted, hwaiting⟩
  obtain ⟨hmem, hlist⟩ := List.mem_filter.mp hlisted
  have htable : shown.tableId = c.tableId := by
    simp only [Bool.and_eq_true, beq_iff_eq] at hlist
    exact hlist.1.trans hclient
  rw [runTable_mirror, hinputs] at hmem ⊢
  have hactive : activeFor c.kind c.tableId shown = true := by
    rw [hkind]
    simp [activeFor, hwaiting, htable, OrderStatus.terminal]
  obtain ⟨i, o, ho, hsame, hall⟩ := Connection.shown_now hstart hc hfirst hlast hmem hactive
  have hoid : o.orderId = shown.orderId := by
    have hid := congrArg Order.orderId hsame
    exact hid
  have hotable : o.tableId = c.tableId := by
    have hid := congrArg Order.tableId hsame
    exact hid.trans htable
  have hfits : FitsInt shown.orderId := idsFit_lines _ shown hmem
  have hhandled : handled =
      ([.reply c.fd (orderCancelReply (cancelRequested .wrap (c.now w) o.tableId o.orderId).1)],
        (cancelRequested .wrap (c.now w) o.tableId o.orderId).2) := by
    show clientTurn .wrap env (c.now w) c.fd c.kind c.tableId
      (Request.table (.orderCancel shown.orderId)).line = _
    rw [hkind, turn_orderCancel .wrap env (c.now w) c.fd c.tableId hfits, hoid, hotable]
  refine ⟨i, o, shown, hmem, hwaiting, ho, hoid, hotable, hsame, fun hk => (hall hk).trans hwaiting, ?_⟩
  have hcancel := cancelRequested_eq (Connection.numbered_now hstart c).nodup ho
  rw [hhandled, ← hoid]
  split at hcancel
  · next hwait =>
    rw [if_pos hwait]
    rw [hcancel.1]
    exact ⟨rfl, hcancel.2⟩
  · next hgone =>
    obtain ⟨⟨e, he⟩, hsameWorld⟩ := hcancel
    rw [if_neg hgone, he]
    exact ⟨⟨e, rfl⟩, hsameWorld⟩

/-- A table that connects after its order and is behind; the order cooks by now. -/
def lateTable : Connection where
  fd := 6
  kind := .table
  tableId := 2
  before := [(Env.fair 1, .orderCreate (lit "ORDER_CREATE|table=2|items=1:2") 2)]
  handshake := [(Env.fair 2, .reply 6 .hello)]
  env := Env.fair 2
  after := [(Env.fair 3, .updateOrderStatus 1 .cooking)]

theorem valid_lateTable : lateTable.Valid firstStart := by
  apply Connection.valid_of_checks
  · intro a ha
    simp only [lateTable, List.cons_append, List.nil_append, List.mem_cons, List.not_mem_nil,
      or_false] at ha
    rcases ha with rfl | rfl | rfl <;> exact ⟨by decide, trivial⟩
  · decide +kernel
  · intro a ha
    simp only [lateTable, List.cons_append, List.nil_append, List.mem_cons, List.not_mem_nil,
      or_false] at ha
    rcases ha with rfl | rfl <;> exact ⟨by simp, by simp⟩
  · decide +kernel
  · decide +kernel

/-- It has read the snapshot, and goes to the status screen. -/
def toStatusScreen (w : World) : List TableInput :=
  ((lateTable.lines w).take 2).map TableInput.line ++ (.key emptySlot .left ::
    List.replicate 7 (.key emptySlot .down) ++ [.key emptySlot (.char ' ')])

theorem cancelKey_lands_late :
    let w := (serverLoadPersistent (World.boot none none)).2
    let handled := clientTurn .wrap (Env.fair 9) (lateTable.now w) lateTable.fd lateTable.kind
      lateTable.tableId (Request.table (.orderCancel 1)).line
    ∃ (i : Nat) (o shown : Order),
      shown ∈ (runTable .wrap (TableClient.start 2 none) (toStatusScreen w)).mirror.items ∧
      shown.status = .waiting ∧ (lateTable.now w).ctx.orders.items[i]? = some o ∧ o.orderId = 1 ∧
      o.tableId = 2 ∧ sanitizeOrder o = shown.withStatus o.status ∧
      (2 = (lateTable.lines w).length → o.status = .waiting) ∧
      if 0 < (1 : Int) ∧ o.status = .waiting then
        handled.1 = [.reply lateTable.fd .cancelled] ∧
          Moved .wrap (lateTable.now w) handled.2 i o .cancelled
      else (∃ e, handled.1 = [.reply lateTable.fd (.error e)]) ∧ handled.2 = lateTable.now w := by
  rw [firstStart_eq]
  intro w
  have hstart : Started w := started_firstStart
  have hvalid : lateTable.Valid w := valid_lateTable
  have hfirst : ((lateTable.upTo []).lines w).length ≤ 2 := by decide +kernel
  have hlast : 2 ≤ (lateTable.lines w).length := by decide +kernel
  have hread : (toStatusScreen w).filterMap TableInput.received = (lateTable.lines w).take 2 := by
    decide +kernel
  have hkey : TableSent.orderCancel 1 ∈ (tableKey .wrap emptySlot (.char 'c')
      (runTable .wrap (TableClient.start lateTable.tableId none) (toStatusScreen w))).2 := by
    rw [TableClient.start_none]
    decide +kernel
  clear_value w
  exact cancelKey_lands hstart hvalid rfl hfirst hlast hread hkey (Env.fair 9)

end TableOrder
