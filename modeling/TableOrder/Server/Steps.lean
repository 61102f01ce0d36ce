import TableOrder.Lib.Runs
import TableOrder.Server.Client

/-!
# The server as a transition system

`Op` lists what the threads of the server do under the lock, each with any arguments, and the
writes of replies between. A run is any list of operations, so it covers every interleaving of the
client threads with the POS thread. `Op.effect` is the inversion lemma of the whole system: an
operation leaves the store alone, appends an order, moves one order, or lets a client in or out.
-/

namespace TableOrder

open CLib

inductive Op where
  /-- `handle_order_create_client` up to the unlock. -/
  | orderCreate (line : Bytes) (tableId : Int)
  | createOrder (tableId : Int) (cart : Cart)
  | orderUpdate (line : Bytes)
  | updateOrderStatus (orderId : Int) (status : OrderStatus)
  /-- `handle_order_cancel_client` up to its reply. -/
  | orderCancel (line : Bytes) (tableId : Int)
  | cancelOrder (orderId tableId : Int)
  | payOrder (orderId : Int)
  | reply (fd : Int) (r : Reply)
  /-- The four parts of `handle_call_staff`; `server_touch_staff` comes after the unlock. -/
  | staffCall (tbl : Int)
  | staffTouch
  | staffBroadcast (tbl : Int)
  | staffLog (tbl : Int)
  /-- The POS clears a staff call. -/
  | staffClear (tbl : Int)
  /-- Any operation of the POS on the catalog, and its broadcast. -/
  | changeMenu (menu : MenuCatalog)
  | menuSync
  | syncMaxTables (n : Int)
  | saveConfig
  | enter (fd : Int) (kind : ClientKind) (tableId : Int)
  | leave (fd : Int)

/-- The operation reported an error. -/
def failed {ε α : Type} : Except ε α → Bool
  | .error _ => true
  | .ok _ => false

/-- The text of the broadcast after a menu change. -/
def menuSyncText : Bytes := lit "MENU_SYNC\n"

def clearStaffCall (w : World) (tbl : Int) : World :=
  { w with ctx := { w.ctx with staffCallAt :=
      if 0 < tbl ∧ tbl ≤ MAX_TABLES then Function.update w.ctx.staffCallAt tbl 0
      else w.ctx.staffCallAt } }

variable (S : IntSem)

def Op.run (env : Env) (w : World) : Op → Bool × World
  | .orderCreate line tableId =>
    let (r, w') := orderCreateStep S env w line tableId
    (failed r, w')
  | .createOrder tableId cart =>
    let (r, w') := serverCreateOrder S env w tableId cart
    (failed r, w')
  | .orderUpdate line => (false, handleOrderUpdateClient S env w line)
  | .updateOrderStatus orderId status =>
    let (r, w') := serverUpdateOrderStatus S env w orderId status
    (failed r, w')
  | .orderCancel line tableId =>
    let (r, w') := orderCancelStep S w line tableId
    (failed r, w')
  | .cancelOrder orderId tableId =>
    let (r, w') := serverCancelOrder S w orderId tableId
    (failed r, w')
  | .payOrder orderId =>
    let (r, w') := serverPayOrder S env w orderId
    (failed r, w')
  | .reply fd r => (false, TableOrder.reply w fd r)
  | .staffCall tbl => (false, recordStaffCall env w tbl)
  | .staffTouch => (false, serverTouchStaff S w)
  | .staffBroadcast tbl => (false, broadcastRaw w (protoBuildStaffBroadcast tbl ++ lit "\n"))
  | .staffLog tbl => (false, appendOrdersMeta env w (staffLogLine tbl env.later))
  | .staffClear tbl => (false, serverTouchStaff S (clearStaffCall w tbl))
  | .changeMenu menu => (false, { w with ctx := { w.ctx with menu := menu } })
  | .menuSync => (false, broadcastRaw w menuSyncText)
  | .syncMaxTables n =>
    (false, { w with ctx := { w.ctx with cfg := { w.ctx.cfg with maxTables := n } } })
  | .saveConfig => (false, serverSaveConfig env w)
  | .enter fd kind tableId => (false, enterClient w fd kind tableId)
  | .leave fd => (false, { w with ctx := serverUnregisterFd w.ctx fd })

/-- The handlers are these steps with the replies after them. -/
theorem handleOrderCreateClient_eq (env : Env) (w : World) (fd : Int) (line : Bytes)
    (tableId : Int) :
    (handleOrderCreateClient S env w fd line tableId).2 =
      ((Op.reply fd (orderCreateReply (orderCreateStep S env w line tableId).1)).run S env
        ((Op.orderCreate line tableId).run S env w).2).2 := rfl

theorem handleOrderCancelClient_eq (env : Env) (w : World) (fd : Int) (line : Bytes)
    (tableId : Int) :
    handleOrderCancelClient S w fd line tableId =
      ((Op.reply fd (orderCancelReply (orderCancelStep S w line tableId).1)).run S env
        ((Op.orderCancel line tableId).run S env w).2).2 := rfl

/-- One turn of the loop of a client thread, up to the first unlock: what the thread has still to do
for the line, one operation after the other. -/
def clientTurn (env : Env) (w : World) (fd : Int) (kind : ClientKind) (tableId : Int)
    (line : Bytes) : List Op × World :=
  if line = lit "MENU_REQUEST" then
    ([.reply fd (.menu w.ctx.menu)], w)
  else if startsWith (lit "ORDER_CREATE|") line then
    if kind ≠ .table then ([.reply fd .forbidden], w)
    else
      let (res, w) := orderCreateStep S env w line tableId
      ([.reply fd (orderCreateReply res)], w)
  else if startsWith (lit "ORDER_CANCEL|") line then
    if kind ≠ .table then ([.reply fd .forbidden], w)
    else
      let (res, w) := orderCancelStep S w line tableId
      ([.reply fd (orderCancelReply res)], w)
  else if startsWith (lit "ORDER_UPDATE|") line then
    if kind ≠ .kitchen then ([.reply fd .forbidden], w)
    else ([], handleOrderUpdateClient S env w line)
  else if startsWith (lit "CALL_STAFF|") line then
    if kind ≠ .table then ([.reply fd .forbidden], w)
    else
      match protoParseCallStaff line with
      | .error _ => ([.reply fd .staffCalled], w)
      | .ok tbl =>
        ([.staffCall tbl, .staffTouch, .staffBroadcast tbl, .staffLog tbl, .reply fd .staffCalled], w)
  else if line = lit "PING" then
    ([.reply fd .pong], w)
  else
    ([.reply fd .unknown], w)

/-- A turn without interruption is the turn of the thread. -/
theorem clientLine_eq_clientTurn (env : Env) (w : World) (fd : Int) (kind : ClientKind)
    (tableId : Int) (line : Bytes) :
    clientLine S env w fd kind tableId line =
      (clientTurn S env w fd kind tableId line).1.foldl (fun w op => (op.run S env w).2)
        (clientTurn S env w fd kind tableId line).2 := by
  unfold clientLine clientTurn
  split
  · rfl
  · split
    · split <;> rfl
    · split
      · split <;> rfl
      · split
        · split <;> rfl
        · split
          · split
            · rfl
            · unfold handleCallStaff
              cases protoParseCallStaff line <;> rfl
          · split <;> rfl

/-- What one turn can be: what is left to do, and the world at the first unlock. -/
inductive Turn (env : Env) (w : World) (fd : Int) (kind : ClientKind) (tableId : Int) (line : Bytes) :
    List Op × World → Prop
  | menu : line = lit "MENU_REQUEST" → Turn env w fd kind tableId line ([.reply fd (.menu w.ctx.menu)], w)
  | replied (r : Reply) : (∀ cat, r ≠ .menu cat) → Turn env w fd kind tableId line ([.reply fd r], w)
  | ordered : startsWith (lit "ORDER_CREATE|") line = true → kind = .table →
      Turn env w fd kind tableId line
        ([.reply fd (orderCreateReply (orderCreateStep S env w line tableId).1)],
          (orderCreateStep S env w line tableId).2)
  | cancelled : kind = .table → Turn env w fd kind tableId line
      ([.reply fd (orderCancelReply (orderCancelStep S w line tableId).1)],
        (orderCancelStep S w line tableId).2)
  | updated : kind = .kitchen → Turn env w fd kind tableId line ([], handleOrderUpdateClient S env w line)
  | called (tbl : Int) : startsWith (lit "CALL_STAFF|") line = true → kind = .table →
      protoParseCallStaff line = .ok tbl → Turn env w fd kind tableId line
        ([.staffCall tbl, .staffTouch, .staffBroadcast tbl, .staffLog tbl, .reply fd .staffCalled], w)

theorem clientTurn_cases (env : Env) (w : World) (fd : Int) (kind : ClientKind) (tableId : Int)
    (line : Bytes) :
    Turn S env w fd kind tableId line (clientTurn S env w fd kind tableId line) := by
  unfold clientTurn
  split
  · next hmenu => exact .menu hmenu
  · split
    · next hcreate =>
      split
      · exact .replied .forbidden (by simp)
      · next hkind => exact .ordered hcreate (not_not.mp hkind)
    · split
      · split
        · exact .replied .forbidden (by simp)
        · next hkind => exact .cancelled (not_not.mp hkind)
      · split
        · split
          · exact .replied .forbidden (by simp)
          · next hkind => exact .updated (not_not.mp hkind)
        · split
          · next hcall =>
            split
            · exact .replied .forbidden (by simp)
            · next hkind =>
              split
              · exact .replied .staffCalled (by simp)
              · next tbl hparse => exact .called tbl hcall (not_not.mp hkind) hparse
          · split
            · exact .replied .pong (by simp)
            · exact .replied .unknown (by simp)

/-! ## What an operation does -/

def isOrderEvent (text : Bytes) : Bool := startsWith (lit "ORDER_EVENT|") text

/-- The operations that create an order or move one. -/
def Op.onOrders : Op → Bool
  | .orderCreate _ _ => true
  | .createOrder _ _ => true
  | .orderUpdate _ => true
  | .updateOrderStatus _ _ => true
  | .orderCancel _ _ => true
  | .cancelOrder _ _ => true
  | .payOrder _ => true
  | _ => false

/-- An operation on orders does nothing, creates one order or moves one. -/
theorem Op.run_onOrders {op : Op} (hop : op.onOrders = true) (env : Env) (w : World) :
    (op.run S env w).2 = w ∨ (∃ o, Created S w (op.run S env w).2 o) ∨
      ∃ i o st, Moved S w (op.run S env w).2 i o st := by
  cases op with
  | orderCreate line tableId =>
    rcases h : orderCreateStep S env w line tableId with ⟨r, w'⟩
    simp only [Op.run, h]
    rcases orderCreateStep_cases S h with ⟨-, hsame⟩ | ⟨_, _, _, o, -, -, -, -, -, hc⟩
    · exact .inl hsame
    · exact .inr (.inl ⟨o, hc⟩)
  | createOrder tableId cart =>
    rcases h : serverCreateOrder S env w tableId cart with ⟨r, w'⟩
    simp only [Op.run, h]
    rcases serverCreateOrder_cases S h with ⟨-, hsame⟩ | ⟨o, -, -, hc⟩
    · exact .inl hsame
    · exact .inr (.inl ⟨o, hc⟩)
  | orderUpdate line =>
    simp only [Op.run, handleOrderUpdateClient]
    split
    · exact .inl rfl
    · next oid st _ =>
      rcases h : serverUpdateOrderStatus S env w oid st with ⟨r, w'⟩
      rcases serverUpdateOrderStatus_cases S h with ⟨-, hsame⟩ | ⟨i, o, -, -, -, -, hm⟩
      · exact .inl hsame
      · exact .inr (.inr ⟨i, o, st, hm⟩)
  | updateOrderStatus orderId status =>
    rcases h : serverUpdateOrderStatus S env w orderId status with ⟨r, w'⟩
    simp only [Op.run, h]
    rcases serverUpdateOrderStatus_cases S h with ⟨-, hsame⟩ | ⟨i, o, -, -, -, -, hm⟩
    · exact .inl hsame
    · exact .inr (.inr ⟨i, o, status, hm⟩)
  | orderCancel line tableId =>
    rcases h : orderCancelStep S w line tableId with ⟨r, w'⟩
    simp only [Op.run, h]
    rcases orderCancelStep_cases S h with ⟨-, hsame⟩ | ⟨i, o, -, -, -, -, -, hm⟩
    · exact .inl hsame
    · exact .inr (.inr ⟨i, o, .cancelled, hm⟩)
  | cancelOrder orderId tableId =>
    rcases h : serverCancelOrder S w orderId tableId with ⟨r, w'⟩
    simp only [Op.run, h]
    rcases serverCancelOrder_cases S h with ⟨-, hsame⟩ | ⟨i, o, -, -, -, -, -, hm⟩
    · exact .inl hsame
    · exact .inr (.inr ⟨i, o, .cancelled, hm⟩)
  | payOrder orderId =>
    rcases h : serverPayOrder S env w orderId with ⟨r, w'⟩
    simp only [Op.run, h]
    rcases serverPayOrder_cases S h with ⟨-, hsame⟩ | ⟨i, o, -, -, -, -, hm⟩
    · exact .inl hsame
    · exact .inr (.inr ⟨i, o, .paid, hm⟩)
  | _ => cases hop

/-- The operation asks to cancel an order of this table. -/
def Op.CancelsFor (op : Op) (tableId : Int) : Prop :=
  (∃ orderId, op = .cancelOrder orderId tableId) ∨ ∃ line, op = .orderCancel line tableId

/-- The operation builds this order: from the lines of a request, or from a cart. -/
def Op.Builds (op : Op) (env : Env) (w : World) (o : Order) : Prop :=
  (∃ line tableId parsed lines cart, op = .orderCreate line tableId ∧
    orderCreateRequest line tableId = .ok parsed ∧
    finalizeCartLines w.ctx.menu parsed = .ok lines ∧
    lines.foldlM (cartAdd S) cartInit = .ok cart ∧
    orderBuildFromCart S w.ctx.cfg.nextOrderId tableId env.now cart = .ok o) ∨
  ∃ tableId cart, op = .createOrder tableId cart ∧
    orderBuildFromCart S w.ctx.cfg.nextOrderId tableId env.now cart = .ok o

inductive Effect (env : Env) (op : Op) (w w' : World) : Bool → Prop
  | quiet (failed : Bool) (lines : List (Int × Bytes)) :
      w'.ctx.orders = w.ctx.orders → w'.ctx.clients = w.ctx.clients →
      w'.ctx.cfg.nextOrderId = w.ctx.cfg.nextOrderId → w'.salesLog = w.salesLog →
      (w'.ctx.menu = w.ctx.menu ∨ op = .changeMenu w'.ctx.menu) →
      w'.sent = w.sent ++ lines → (∀ p ∈ lines, isOrderEvent p.2 = false) →
      Effect env op w w' failed
  | created (o : Order) : op.Builds S env w o → Created S w w' o → Effect env op w w' false
  | cooked (i : Nat) (o : Order) (st : OrderStatus) :
      validKitchenTransition o.status st = true → w'.salesLog = w.salesLog →
      Moved S w w' i o st → Effect env op w w' false
  | cancelled (i : Nat) (o : Order) :
      o.status = .waiting → op.CancelsFor o.tableId → w'.salesLog = w.salesLog →
      Moved S w w' i o .cancelled → Effect env op w w' false
  | paid (i : Nat) (o : Order) :
      op = .payOrder o.orderId → o.status = .done →
      w'.salesLog = (appendFile env.salesLog w.salesLog (saleLine o.orderId o env.now)).1 →
      Moved S w w' i o .paid → Effect env op w w' false
  | entered (fd : Int) (kind : ClientKind) (tableId : Int) :
      w' = enterClient w fd kind tableId → op = .enter fd kind tableId → Effect env op w w' false
  | left (fd : Int) :
      w' = { w with ctx := serverUnregisterFd w.ctx fd } → op = .leave fd → Effect env op w w' false

/-- An operation that changed nothing. -/
theorem Effect.same (env : Env) (op : Op) (w : World) (failed : Bool) :
    Effect S env op w w failed :=
  .quiet failed [] rfl rfl rfl rfl (Or.inl rfl) (by simp) (by simp)

/-- A menu reply starts as an error or as a response. -/
theorem startsWith_menuReply {key : Bytes} (herror : startsWith key (lit "ERROR|menu encode\n") = false)
    (hresponse : ∀ rest, startsWith key (clip MAX_PROTO_LINE (lit "MENU_RESPONSE|" ++ rest)) = false)
    (cat : MenuCatalog) : startsWith key (Reply.menu cat).text = false := by
  simp only [Reply.text]
  split
  · exact herror
  · next resp hresp =>
    obtain ⟨rest, rfl⟩ := append_of_foldlM_appendMenuSegment hresp
    rw [List.append_assoc]
    exact hresponse _

theorem isOrderEvent_reply (r : Reply) : isOrderEvent r.text = false := by
  cases r with
  | menu cat => exact startsWith_menuReply rfl (fun _ => rfl) cat
  | _ => rfl

theorem isOrderEvent_broadcast {w : World} {text : Bytes} (h : isOrderEvent text = false) :
    ∀ p ∈ w.ctx.receivers.map fun fd => (fd, text), isOrderEvent p.2 = false := by
  intro p hp
  obtain ⟨fd, -, rfl⟩ := List.mem_map.mp hp
  exact h

theorem Op.effect (env : Env) (w : World) (op : Op) :
    Effect S env op w (op.run S env w).2 (op.run S env w).1 := by
  cases op with
  | orderCreate line tableId =>
    rcases h : orderCreateStep S env w line tableId with ⟨r, w'⟩
    simp only [Op.run, h]
    rcases orderCreateStep_cases S h with ⟨-, rfl⟩ |
      ⟨parsed, lines, cart, o, hreq, hfin, hcart, ho, rfl, hcreated⟩
    · exact Effect.same S env _ _ _
    · exact .created o
        (Or.inl ⟨line, tableId, parsed, lines, cart, rfl, hreq, hfin, hcart, ho⟩) hcreated
  | createOrder tableId cart =>
    rcases h : serverCreateOrder S env w tableId cart with ⟨r, w'⟩
    simp only [Op.run, h]
    rcases serverCreateOrder_cases S h with ⟨-, rfl⟩ | ⟨o, ho, rfl, hcreated⟩
    · exact Effect.same S env _ _ _
    · exact .created o (Or.inr ⟨tableId, cart, rfl, ho⟩) hcreated
  | orderUpdate line =>
    simp only [Op.run, handleOrderUpdateClient]
    split
    · exact Effect.same S env _ _ _
    · next oid st _ =>
      rcases h : serverUpdateOrderStatus S env w oid st with ⟨r, w'⟩
      rcases serverUpdateOrderStatus_cases S h with ⟨-, rfl⟩ | ⟨i, o, -, hvalid, -, hlog, hmoved⟩
      · exact Effect.same S env _ _ _
      · exact .cooked i o st hvalid hlog hmoved
  | updateOrderStatus orderId status =>
    rcases h : serverUpdateOrderStatus S env w orderId status with ⟨r, w'⟩
    simp only [Op.run, h]
    rcases serverUpdateOrderStatus_cases S h with ⟨-, rfl⟩ | ⟨i, o, -, hvalid, rfl, hlog, hmoved⟩
    · exact Effect.same S env _ _ _
    · exact .cooked i o status hvalid hlog hmoved
  | orderCancel line tableId =>
    rcases h : orderCancelStep S w line tableId with ⟨r, w'⟩
    simp only [Op.run, h]
    rcases orderCancelStep_cases S h with ⟨-, rfl⟩ | ⟨i, o, -, htable, hst, rfl, hlog, hmoved⟩
    · exact Effect.same S env _ _ _
    · exact .cancelled i o hst (Or.inr ⟨line, by rw [htable]⟩) hlog hmoved
  | cancelOrder orderId tableId =>
    rcases h : serverCancelOrder S w orderId tableId with ⟨r, w'⟩
    simp only [Op.run, h]
    rcases serverCancelOrder_cases S h with ⟨-, rfl⟩ | ⟨i, o, -, htable, hst, rfl, hlog, hmoved⟩
    · exact Effect.same S env _ _ _
    · exact .cancelled i o hst (Or.inl ⟨orderId, by rw [htable]⟩) hlog hmoved
  | payOrder orderId =>
    rcases h : serverPayOrder S env w orderId with ⟨r, w'⟩
    simp only [Op.run, h]
    rcases serverPayOrder_cases S h with ⟨-, rfl⟩ | ⟨i, o, hfind, hst, rfl, hlog, hmoved⟩
    · exact Effect.same S env _ _ _
    · obtain ⟨-, rfl⟩ := ordersFind_eq_some hfind
      exact .paid i o rfl hst hlog hmoved
  | reply fd r =>
    refine .quiet false [(fd, r.text)] rfl rfl rfl rfl (Or.inl rfl) rfl ?_
    intro p hp
    rw [List.mem_singleton] at hp
    rw [hp]
    exact isOrderEvent_reply r
  | staffCall tbl =>
    refine .quiet false [] rfl rfl rfl rfl (Or.inl rfl) ?_ (by simp)
    simp [Op.run, recordStaffCall]
  | staffTouch =>
    refine .quiet false [] rfl rfl rfl rfl (Or.inl rfl) ?_ (by simp)
    simp [Op.run, serverTouchStaff]
  | staffBroadcast tbl =>
    exact .quiet false _ rfl rfl rfl rfl (Or.inl rfl) rfl (isOrderEvent_broadcast rfl)
  | staffLog tbl =>
    refine .quiet false [] ?_ ?_ ?_ ?_ (Or.inl ?_) ?_ (by simp) <;> simp [Op.run]
  | staffClear tbl =>
    refine .quiet false [] rfl rfl rfl rfl (Or.inl rfl) ?_ (by simp)
    simp [Op.run, serverTouchStaff, clearStaffCall]
  | changeMenu menu =>
    exact .quiet false [] rfl rfl rfl rfl (Or.inr rfl) (by simp [Op.run]) (by simp)
  | menuSync =>
    exact .quiet false _ rfl rfl rfl rfl (Or.inl rfl) rfl (isOrderEvent_broadcast rfl)
  | syncMaxTables n =>
    exact .quiet false [] rfl rfl rfl rfl (Or.inl rfl) (by simp [Op.run]) (by simp)
  | saveConfig =>
    refine .quiet false [] ?_ ?_ ?_ ?_ (Or.inl ?_) ?_ (by simp) <;> simp [Op.run]
  | enter fd kind tableId => exact .entered fd kind tableId rfl rfl
  | leave fd => exact .left fd rfl rfl

/-! ## Runs -/

/-- One operation in its environment. -/
abbrev Action := Env × Op

def step (a : Action) (w : World) : World := (a.2.run S a.1 w).2

def runOps (w : World) (as : List Action) : World := Runs.run (step S) w as

@[simp] theorem runOps_nil (w : World) : runOps S w [] = w := rfl

@[simp] theorem runOps_cons (w : World) (a : Action) (as : List Action) :
    runOps S w (a :: as) = runOps S (step S a w) as := rfl

theorem runOps_append (w : World) (as bs : List Action) :
    runOps S w (as ++ bs) = runOps S (runOps S w as) bs := Runs.run_append _ _ _ _

/-- The server right after it loaded its files. -/
def Started (w : World) : Prop := ∃ boot, serverLoadPersistent boot = (.ok (), w)

theorem started_firstStart : Started firstStart := ⟨_, serverLoadPersistent_none⟩

theorem started_orders {w : World} (h : Started w) : w.ctx.orders.items = [] := by
  obtain ⟨boot, hload⟩ := h
  unfold serverLoadPersistent at hload
  simp only at hload
  split at hload
  · cases hload
  · cases hload
    rfl

theorem started_nextOrderId {w : World} (h : Started w) :
    1 ≤ w.ctx.cfg.nextOrderId ∧ FitsInt w.ctx.cfg.nextOrderId := by
  obtain ⟨boot, hload⟩ := h
  have hrange := storageLoadConfig_range boot.configFile
  unfold serverLoadPersistent at hload
  simp only at hload
  split at hload
  · cases hload
  · cases hload
    exact hrange.2.2

/-! ## How the store moves -/

/-- What an operation may do to an order. -/
def Op.Moves (op : Op) (o o' : Order) : Prop :=
  ∃ st, o' = o.withStatus st ∧ (validKitchenTransition o.status st = true ∨
    (o.status = .waiting ∧ st = .cancelled ∧ op.CancelsFor o.tableId) ∨
    (o.status = .done ∧ st = .paid))

@[simp] theorem enterClient_ctx (w : World) (fd : Int) (kind : ClientKind) (tableId : Int) :
    (enterClient w fd kind tableId).ctx = serverRegisterClient w.ctx fd kind tableId := rfl

@[simp] theorem serverRegisterClient_orders (ctx : ServerContext) (fd : Int) (kind : ClientKind)
    (tableId : Int) : (serverRegisterClient ctx fd kind tableId).orders = ctx.orders := by
  unfold serverRegisterClient
  split <;> rfl

@[simp] theorem serverRegisterClient_cfg (ctx : ServerContext) (fd : Int) (kind : ClientKind)
    (tableId : Int) : (serverRegisterClient ctx fd kind tableId).cfg = ctx.cfg := by
  unfold serverRegisterClient
  split <;> rfl

@[simp] theorem serverRegisterClient_menu (ctx : ServerContext) (fd : Int) (kind : ClientKind)
    (tableId : Int) : (serverRegisterClient ctx fd kind tableId).menu = ctx.menu := by
  unfold serverRegisterClient
  split <;> rfl

@[simp] theorem serverUnregisterFd_menu (ctx : ServerContext) (fd : Int) :
    (serverUnregisterFd ctx fd).menu = ctx.menu := by
  unfold serverUnregisterFd
  split <;> rfl

@[simp] theorem serverUnregisterFd_orders (ctx : ServerContext) (fd : Int) :
    (serverUnregisterFd ctx fd).orders = ctx.orders := by
  unfold serverUnregisterFd
  split <;> rfl

@[simp] theorem serverUnregisterFd_cfg (ctx : ServerContext) (fd : Int) :
    (serverUnregisterFd ctx fd).cfg = ctx.cfg := by
  unfold serverUnregisterFd
  split <;> rfl

/-- Only a menu operation changes the catalog. -/
theorem Effect.menu {env : Env} {op : Op} {w w' : World} {failed : Bool}
    (h : Effect S env op w w' failed) :
    w'.ctx.menu = w.ctx.menu ∨ op = .changeMenu w'.ctx.menu := by
  cases h with
  | quiet failed lines horders hclients hnext hsales hmenu => exact hmenu
  | created o hbuilds hc => exact .inl (by rw [hc.ctx])
  | cooked i o st hvalid hsales hm => exact .inl (by rw [hm.ctx])
  | cancelled i o hst hop hsales hm => exact .inl (by rw [hm.ctx])
  | paid i o hop hst hsales hm => exact .inl (by rw [hm.ctx])
  | entered fd kind tableId heq => exact .inl (by rw [heq, enterClient_ctx, serverRegisterClient_menu])
  | left fd heq => exact .inl (by rw [heq, serverUnregisterFd_menu])

/-- The array grows at its end or one order moves. -/
theorem Effect.grow {env : Env} {op : Op} {w w' : World} {failed : Bool}
    (h : Effect S env op w w' failed) :
    Runs.Grow (fun o : Order => o.status = .waiting) op.Moves w.ctx.orders.items
      w'.ctx.orders.items := by
  cases h with
  | quiet failed lines horders =>
    rw [horders]
    exact .same _
  | created o hbuilds hc =>
    rw [hc.orders]
    exact .push _ o hc.waiting
  | cooked i o st hvalid hsales hm =>
    rw [hm.orders]
    exact .set _ i o _ hm.found ⟨st, rfl, Or.inl hvalid⟩
  | cancelled i o hst hop hsales hm =>
    rw [hm.orders]
    exact .set _ i o _ hm.found ⟨_, rfl, Or.inr (Or.inl ⟨hst, rfl, hop⟩)⟩
  | paid i o hop hst hsales hm =>
    rw [hm.orders]
    exact .set _ i o _ hm.found ⟨_, rfl, Or.inr (Or.inr ⟨hst, rfl⟩)⟩
  | entered fd kind tableId heq =>
    rw [heq, enterClient_ctx, serverRegisterClient_orders]
    exact .same _
  | left fd heq =>
    rw [heq]
    show Runs.Grow _ _ _ (serverUnregisterFd w.ctx fd).orders.items
    rw [serverUnregisterFd_orders]
    exact .same _

/-! ## Order ids -/

/-- The ids count up from `n`, as the 32-bit counter does. -/
structure Numbered (n : Int) (w : World) : Prop where
  ids : ∀ (i : Nat) (o : Order), w.ctx.orders.items[i]? = some o →
    o.orderId = IntSem.wrap.norm (n + i)
  next : w.ctx.cfg.nextOrderId = IntSem.wrap.norm (n + w.ctx.orders.items.length)

theorem Numbered.of_started {w : World} (h : Started w) : Numbered w.ctx.cfg.nextOrderId w where
  ids := by
    intro i o ho
    rw [started_orders h] at ho
    cases ho
  next := by
    rw [started_orders h, List.length_nil, Int.natCast_zero, Int.add_zero,
      IntSem.wrap.norm_of_fits _ (started_nextOrderId h).2]

/-- The array is far shorter than the counter's period. -/
theorem Numbered.nodup {n : Int} {w : World} (h : Numbered n w) :
    (w.ctx.orders.items.map (·.orderId)).Nodup := by
  refine List.pairwise_iff_getElem.mpr ?_
  intro i j hi hj hij hsame
  rw [List.length_map] at hi hj
  rw [List.getElem_map, List.getElem_map, h.ids i _ (List.getElem?_eq_getElem hi),
    h.ids j _ (List.getElem?_eq_getElem hj)] at hsame
  have hbound : w.ctx.orders.items.length ≤ 256 := w.ctx.orders.bound
  have := IntSem.wrap_norm_add_inj (by omega) (by omega) hsame
  omega

theorem Numbered.set {n : Int} {w w' : World} (h : Numbered n w) {i : Nat} {o : Order}
    {st : OrderStatus} (hm : Moved .wrap w w' i o st) : Numbered n w' := by
  constructor
  · intro j o' ho'
    rw [hm.orders, List.getElem?_set] at ho'
    split at ho'
    · next hij =>
      split at ho'
      · cases ho'
        subst hij
        exact h.ids i o hm.found
      · cases ho'
    · exact h.ids j o' ho'
  · rw [hm.orders, List.length_set, hm.ctx]
    exact h.next

theorem Numbered.effect {n : Int} {env : Env} {op : Op} {w w' : World} {failed : Bool}
    (h : Numbered n w) (he : Effect .wrap env op w w' failed) : Numbered n w' := by
  cases he with
  | quiet failed lines horders hclients hnext =>
    exact ⟨by rw [horders]; exact h.ids, by rw [hnext, horders]; exact h.next⟩
  | created o hbuilds hc =>
    constructor
    · intro i o' ho'
      rw [hc.orders] at ho'
      rcases Nat.lt_or_ge i w.ctx.orders.items.length with hlt | hge
      · rw [List.getElem?_append_left hlt] at ho'
        exact h.ids i o' ho'
      · rw [List.getElem?_append_right hge] at ho'
        obtain ⟨hz, rfl⟩ := List.getElem?_eq_some_iff.mp ho'
        rw [List.length_singleton] at hz
        have hi : i = w.ctx.orders.items.length := by omega
        subst hi
        simpa using hc.id.trans h.next
    · rw [hc.orders, hc.ctx, List.length_append, List.length_singleton]
      show IntSem.wrap.norm (w.ctx.cfg.nextOrderId + 1) = _
      rw [h.next, IntSem.wrap_norm_add_norm]
      push_cast
      rw [Int.add_assoc]
  | cooked i o st hvalid hsales hm => exact h.set hm
  | cancelled i o hst hop hsales hm => exact h.set hm
  | paid i o hop hst hsales hm => exact h.set hm
  | entered fd kind tableId heq =>
    subst heq
    exact ⟨by simpa using h.ids, by simpa using h.next⟩
  | left fd heq =>
    subst heq
    exact ⟨by simpa using h.ids, by simpa using h.next⟩

theorem numbered_runOps {n : Int} {w : World} (h : Numbered n w) (as : List Action) :
    Numbered n (runOps .wrap w as) := by
  refine Runs.run_invariant (P := fun _ => True) ?_ h (fun _ _ => trivial)
  intro a v _ hv
  exact hv.effect (a.2.effect .wrap a.1 v)

end TableOrder
