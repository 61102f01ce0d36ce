import TableOrder.Menu
import TableOrder.Order
import TableOrder.Protocol.Event
import TableOrder.Storage

/-!
# The server (`server.c`): its state and the operations on orders

A `World` is the server context with what the process writes to: the logs, its files and the
sockets. Every operation here runs under `ctx->lock`, so it is one function from world to world;
its `Except` is the return code with the error text. What the environment decides (the clock, the
outcome of each file operation) comes in an `Env`.

Three operations move an order to another status. Each has one inversion lemma
(`serverUpdateOrderStatus_cases` and its siblings) that says everything the operation can do; the
modules above use these and unfold no operation again.
-/

namespace TableOrder

open CLib

/-! ## The state -/

structure ClientSlot where
  fd : Int
  inUse : Bool
  kind : ClientKind
  tableId : Int
  deriving DecidableEq

/-- `clients[MAX_CLIENTS]`: every slot exists from the start. -/
structure ClientTable where
  slots : List ClientSlot
  size : slots.length = MAX_CLIENTS
  deriving DecidableEq

def ClientTable.modify (clients : ClientTable) (i : Nat) (f : ClientSlot → ClientSlot) :
    ClientTable :=
  ⟨clients.slots.modify i f, by rw [List.length_modify]; exact clients.size⟩

/-- `memset`. -/
def ClientTable.zero : ClientTable where
  slots := List.replicate MAX_CLIENTS ⟨0, false, .none, 0⟩
  size := List.length_replicate

structure ServerContext where
  menu : MenuCatalog
  orders : Arr Order MAX_ORDERS
  cfg : StoreConfig
  shuttingDown : Bool
  ordersRevision : Int
  staffRevision : Int
  clients : ClientTable
  lastStaffMessage : Bytes
  lastStaffTime : Int
  staffCallAt : Int → Int

structure World where
  ctx : ServerContext
  ordersLog : List Bytes
  salesLog : List Bytes
  serverLog : List Bytes
  configFile : Option Bytes
  menuFile : Option Bytes
  layoutFile : Option Bytes
  /-- The texts handed to `write_all`, with their sockets, in order. -/
  sent : List (Int × Bytes)

/-- The clock at the two places an operation reads it, and how its file operations end. -/
structure Env where
  now : Int
  later : Int
  ordersLog : AppendResult
  salesLog : AppendResult
  serverLog : AppendResult
  configSaved : Bool
  menuSaved : Bool
  layoutSaved : Bool

/-- Every file operation succeeds. -/
def Env.fair (now : Int) : Env where
  now := now
  later := now
  ordersLog := .writes MAX_PROTO_LINE
  salesLog := .writes MAX_PROTO_LINE
  serverLog := .writes MAX_PROTO_LINE
  configSaved := true
  menuSaved := true
  layoutSaved := true

/-! ## Logs, files and sockets -/

def storageAppendServerLog (env : Env) (w : World) (line : Bytes) : World :=
  { w with serverLog := (appendFile env.serverLog w.serverLog line).1 }

def appendOrdersMeta (env : Env) (w : World) (text : Bytes) : World :=
  match appendFile env.ordersLog w.ordersLog text with
  | (log, true) => { w with ordersLog := log }
  | (log, false) =>
    storageAppendServerLog env { w with ordersLog := log } (lit "orders.log write failed\n")

def appendSalesMeta (env : Env) (w : World) (text : Bytes) : World :=
  match appendFile env.salesLog w.salesLog text with
  | (log, true) => { w with salesLog := log }
  | (log, false) =>
    storageAppendServerLog env { w with salesLog := log } (lit "sales.log write failed\n")

/-- A save that fails, or whose rewritten text leaves its buffer, leaves the file alone. -/
def serverSaveConfig (env : Env) (w : World) : World :=
  match env.configSaved, storageSaveConfig w.configFile w.ctx.cfg with
  | true, some text => { w with configFile := some text }
  | _, _ => w

/-- `write_all` to one socket. -/
def writeAll (w : World) (fd : Int) (text : Bytes) : World :=
  { w with sent := w.sent ++ [(fd, text)] }

/-- The sockets a broadcast goes to, in slot order. -/
def ServerContext.receivers (ctx : ServerContext) : List Int :=
  (ctx.clients.slots.filter (·.inUse)).map (·.fd)

def broadcastRaw (w : World) (msg : Bytes) : World :=
  { w with sent := w.sent ++ w.ctx.receivers.map fun fd => (fd, msg) }

variable (S : IntSem)

def serverTouchOrders (w : World) : World :=
  { w with ctx := { w.ctx with ordersRevision := S.norm (w.ctx.ordersRevision + 1) } }

def serverTouchStaff (w : World) : World :=
  { w with ctx := { w.ctx with staffRevision := S.norm (w.ctx.staffRevision + 1) } }

/-- The event of an order with its newline. -/
def orderEvent (o : Order) : Bytes := protoBuildOrderBroadcast o ++ lit "\n"

/-- How every operation that changed an order ends: its event to all clients, then the revision
counter. -/
def publishOrder (w : World) (o : Order) : World :=
  serverTouchOrders S (broadcastRaw w (orderEvent o))

/-! ## Clients -/

/-- The first free slot is taken; without one the client gets none. -/
def serverRegisterClient (ctx : ServerContext) (fd : Int) (kind : ClientKind) (tableId : Int) :
    ServerContext :=
  match ctx.clients.slots.findIdx? (!·.inUse) with
  | none => ctx
  | some i => { ctx with clients := ctx.clients.modify i fun _ => ⟨fd, true, kind, tableId⟩ }

def serverUnregisterFd (ctx : ServerContext) (fd : Int) : ServerContext :=
  match ctx.clients.slots.findIdx? (fun c => c.inUse && c.fd == fd) with
  | none => ctx
  | some i => { ctx with clients := ctx.clients.modify i fun _ => ⟨-1, false, .none, 0⟩ }

/-- The orders a new client is told about. -/
def inSnapshot (kind : ClientKind) (tableId : Int) (o : Order) : Bool :=
  !o.status.terminal && !(kind == .table && o.tableId != tableId)

def sendSnapshotLocked (w : World) (fd : Int) (kind : ClientKind) (tableId : Int) : World :=
  { w with sent := w.sent ++
      (w.ctx.orders.items.filter (inSnapshot kind tableId)).map fun o => (fd, orderEvent o) }

/-! ## Start -/

/-- What `memset` and `server_init` leave in the context. -/
def serverInit : ServerContext where
  menu := menuInitCatalog
  orders := Arr.empty Order MAX_ORDERS
  cfg := ⟨8, 1⟩
  shuttingDown := false
  ordersRevision := 0
  staffRevision := 0
  clients := ClientTable.zero
  lastStaffMessage := []
  lastStaffTime := 0
  staffCallAt := fun _ => 0

/-- A process that has just started, over these files. -/
def World.boot (configFile menuFile : Option Bytes) : World where
  ctx := serverInit
  ordersLog := []
  salesLog := []
  serverLog := []
  configFile := configFile
  menuFile := menuFile
  layoutFile := none
  sent := []

/-- The config is read first, then the menu; a menu without its header fails the start. -/
def serverLoadPersistent (w : World) : Except Bytes Unit × World :=
  let cfgFile := w.configFile.getD defaultConfigFile
  let (menu, menuFile, err) := menuLoadFile w.menuFile
  let ctx := { w.ctx with cfg := storageLoadConfig w.configFile, menu := menu }
  let w := { w with configFile := some cfgFile, menuFile := some menuFile }
  match err with
  | some e => (.error e, { w with ctx := ctx })
  | none => (.ok (), { w with ctx := { ctx with orders := Arr.empty Order MAX_ORDERS } })

/-- The server after a start that found no file. -/
def firstStart : World :=
  { World.boot (some defaultConfigFile) (some defaultMenuFile) with
    ctx := { serverInit with menu := defaultMenu } }

theorem serverLoadPersistent_none :
    serverLoadPersistent (World.boot none none) = (.ok (), firstStart) := by
  simp only [serverLoadPersistent, World.boot, menuLoadFile_none, storageLoadConfig_none]
  rfl

theorem firstStart_eq : (serverLoadPersistent (World.boot none none)).2 = firstStart :=
  congrArg Prod.snd serverLoadPersistent_none

/-! ## Creating an order -/

def pushOrderLocked (w : World) (o : Order) : Option World :=
  (w.ctx.orders.push? o).map fun orders => { w with ctx := { w.ctx with orders := orders } }

/-- The line of `orders.log` for a new order. -/
def createdLogLine (o : Order) (now : Int) : Bytes :=
  clip MAX_PROTO_LINE (lit "ORDER_CREATED id=" ++ fmtInt o.orderId ++ lit " table=" ++
    fmtInt o.tableId ++ lit " total=" ++ fmtInt o.totalPrice ++ lit " ts=" ++ fmtInt now ++
    lit "\n")

/-- `ctx->cfg.next_order_id++`. -/
def issueOrderId (w : World) : World :=
  { w with ctx := { w.ctx with
      cfg := { w.ctx.cfg with nextOrderId := S.norm (w.ctx.cfg.nextOrderId + 1) } } }

/-- What follows a successful push in both creation paths: the next id, the log, the config file
and the event. -/
def orderPushed (env : Env) (w : World) (o : Order) : World :=
  let w := issueOrderId S w
  let w := appendOrdersMeta env w (createdLogLine o env.later)
  let w := serverSaveConfig env w
  publishOrder S w o

def serverCreateOrder (env : Env) (w : World) (tableId : Int) (cart : Cart) :
    Except Bytes Int × World :=
  if tableId ≤ 0 ∨ w.ctx.cfg.maxTables < tableId then
    (.error (lit "bad table range"), w)
  else
    match orderBuildFromCart S w.ctx.cfg.nextOrderId tableId env.now cart with
    | .error e => (.error e, w)
    | .ok ord =>
      match pushOrderLocked w ord with
      | none => (.error (lit "order capacity"), w)
      | some w => (.ok ord.orderId, orderPushed S env w ord)

/-! ## Moving an order -/

def validKitchenTransition (cur nw : OrderStatus) : Bool :=
  match cur, nw with
  | .waiting, .cooking => true
  | .cooking, .done => true
  | .waiting, .done => true
  | .done, .cooking => true
  | .cooking, .waiting => true
  | _, _ => false

/-- The kitchen neither moves a finished order nor finishes one. -/
theorem not_terminal_of_transition {cur nw : OrderStatus}
    (h : validKitchenTransition cur nw = true) : cur.terminal = false ∧ nw.terminal = false := by
  cases cur <;> cases nw <;> first | exact ⟨rfl, rfl⟩ | cases h

def Order.withStatus (o : Order) (st : OrderStatus) : Order := { o with status := st }

section WithStatus

variable (o : Order) (st : OrderStatus)

@[simp] theorem withStatus_orderId : (o.withStatus st).orderId = o.orderId := rfl

@[simp] theorem withStatus_tableId : (o.withStatus st).tableId = o.tableId := rfl

@[simp] theorem withStatus_status : (o.withStatus st).status = st := rfl

@[simp] theorem withStatus_items : (o.withStatus st).items = o.items := rfl

@[simp] theorem withStatus_totalPrice : (o.withStatus st).totalPrice = o.totalPrice := rfl

@[simp] theorem withStatus_createdAt : (o.withStatus st).createdAt = o.createdAt := rfl

@[simp] theorem withStatus_self : o.withStatus o.status = o := rfl

@[simp] theorem withStatus_withStatus (st' : OrderStatus) :
    (o.withStatus st).withStatus st' = o.withStatus st' := rfl

end WithStatus

/-- `o->status = st` through the pointer the lookup returned. -/
def setStatus (w : World) (i : Nat) (st : OrderStatus) : World :=
  { w with ctx := { w.ctx with orders := w.ctx.orders.modify i (·.withStatus st) } }

/-- The line of `orders.log` for a status change. -/
def statusLogLine (orderId : Int) (st : OrderStatus) (now : Int) : Bytes :=
  clip 256 (lit "ORDER_STATUS id=" ++ fmtInt orderId ++ lit " status=" ++ statusToString st ++
    lit " ts=" ++ fmtInt now ++ lit "\n")

def serverUpdateOrderStatus (env : Env) (w : World) (orderId : Int) (newStatus : OrderStatus) :
    Except Bytes Unit × World :=
  match ordersFind w.ctx.orders.items orderId with
  | none => (.error (lit "order not found"), w)
  | some (i, o) =>
    if o.status = .paid then
      (.error (lit "already paid"), w)
    else if !validKitchenTransition o.status newStatus then
      (.error (lit "invalid transition"), w)
    else
      let w := setStatus w i newStatus
      let w := appendOrdersMeta env w (statusLogLine orderId newStatus env.now)
      (.ok (), publishOrder S w (o.withStatus newStatus))

/-- The only operation that logs nothing. -/
def serverCancelOrder (w : World) (orderId tableId : Int) : Except Bytes Unit × World :=
  match ordersFind w.ctx.orders.items orderId with
  | none => (.error (lit "order not found"), w)
  | some (i, o) =>
    if o.tableId ≠ tableId then
      (.error (lit "table mismatch"), w)
    else if o.status ≠ .waiting then
      (.error (lit "cannot cancel after cooking started"), w)
    else
      (.ok (), publishOrder S (setStatus w i .cancelled) (o.withStatus .cancelled))

/-- The header of a SALE line. -/
def saleHeader (orderId : Int) (o : Order) (now : Int) : Bytes :=
  lit "SALE id=" ++ fmtInt orderId ++ lit " table=" ++ fmtInt o.tableId ++ lit " total=" ++
    fmtInt o.totalPrice ++ lit " ts=" ++ fmtInt now ++ lit " detail="

/-- The `id:qty` text of one line, after a comma unless it is the first. -/
def saleItem (i : Nat) (it : OrderLineItem) : Bytes :=
  (if i = 0 then [] else lit ",") ++ fmtInt it.menuId ++ lit ":" ++ fmtInt it.qty

/-- The loop over the lines, from index `i`; it ends early when the buffer has no 40 bytes
left. -/
def saleDetail (slog : Bytes) (i : Nat) : List OrderLineItem → Bytes
  | [] => slog
  | it :: its =>
    if slog.length + 40 < MAX_PROTO_LINE then saleDetail (slog ++ saleItem i it) (i + 1) its
    else slog

/-- The line of `sales.log`. -/
def saleLine (orderId : Int) (o : Order) (now : Int) : Bytes :=
  let slog := clip MAX_PROTO_LINE (saleDetail (saleHeader orderId o now) 0 o.items.items)
  clip MAX_PROTO_LINE (slog ++ lit "\n")

def serverPayOrder (env : Env) (w : World) (orderId : Int) : Except Bytes Unit × World :=
  match ordersFind w.ctx.orders.items orderId with
  | none => (.error (lit "order not found"), w)
  | some (i, o) =>
    if o.status ≠ .done then
      (.error (lit "not DONE"), w)
    else
      let w := setStatus w i .paid
      let w := appendSalesMeta env w (saleLine orderId o env.now)
      (.ok (), publishOrder S w (o.withStatus .paid))

/-! ## What the operations leave alone -/

section Frame

variable {S} (env : Env) (w : World) (text : Bytes)

@[simp] theorem appendOrdersMeta_ctx : (appendOrdersMeta env w text).ctx = w.ctx := by
  unfold appendOrdersMeta
  split <;> rfl

@[simp] theorem appendOrdersMeta_sent : (appendOrdersMeta env w text).sent = w.sent := by
  unfold appendOrdersMeta
  split <;> rfl

@[simp] theorem appendOrdersMeta_salesLog :
    (appendOrdersMeta env w text).salesLog = w.salesLog := by
  unfold appendOrdersMeta
  split <;> rfl

@[simp] theorem appendSalesMeta_ctx : (appendSalesMeta env w text).ctx = w.ctx := by
  unfold appendSalesMeta
  split <;> rfl

@[simp] theorem appendSalesMeta_sent : (appendSalesMeta env w text).sent = w.sent := by
  unfold appendSalesMeta
  split <;> rfl

@[simp] theorem serverSaveConfig_ctx : (serverSaveConfig env w).ctx = w.ctx := by
  unfold serverSaveConfig
  split <;> rfl

@[simp] theorem serverSaveConfig_sent : (serverSaveConfig env w).sent = w.sent := by
  unfold serverSaveConfig
  split <;> rfl

@[simp] theorem serverSaveConfig_salesLog : (serverSaveConfig env w).salesLog = w.salesLog := by
  unfold serverSaveConfig
  split <;> rfl

end Frame

/-! ## What the operations do to the store -/

/-- From `w` to `w'` one order was appended, under the next id, and its event sent. -/
structure Created (w w' : World) (o : Order) : Prop where
  room : w.ctx.orders.items.length < MAX_ORDERS
  orders : w'.ctx.orders.items = w.ctx.orders.items ++ [o]
  id : o.orderId = w.ctx.cfg.nextOrderId
  waiting : o.status = .waiting
  ctx : w'.ctx = { w.ctx with
    orders := w'.ctx.orders
    cfg := { w.ctx.cfg with nextOrderId := S.norm (w.ctx.cfg.nextOrderId + 1) }
    ordersRevision := S.norm (w.ctx.ordersRevision + 1) }
  salesLog : w'.salesLog = w.salesLog
  sent : w'.sent = w.sent ++ w.ctx.receivers.map fun fd => (fd, orderEvent o)

/-- From `w` to `w'` the order `o` at index `i` got the status `st`, and its event was sent. -/
structure Moved (w w' : World) (i : Nat) (o : Order) (st : OrderStatus) : Prop where
  found : w.ctx.orders.items[i]? = some o
  orders : w'.ctx.orders.items = w.ctx.orders.items.set i (o.withStatus st)
  ctx : w'.ctx = { w.ctx with
    orders := w'.ctx.orders
    ordersRevision := S.norm (w.ctx.ordersRevision + 1) }
  sent : w'.sent = w.sent ++ w.ctx.receivers.map fun fd => (fd, orderEvent (o.withStatus st))

theorem orderPushed_created {w : World} {o : Order} {orders : Arr Order MAX_ORDERS} (env : Env)
    (hpush : w.ctx.orders.push? o = some orders) (hid : o.orderId = w.ctx.cfg.nextOrderId)
    (hst : o.status = .waiting) :
    Created S w (orderPushed S env { w with ctx := { w.ctx with orders := orders } } o) o := by
  obtain ⟨hroom, horders⟩ := Arr.push?_eq_some.mp hpush
  constructor
  · exact hroom
  · simpa [orderPushed, publishOrder, serverTouchOrders, broadcastRaw, issueOrderId] using horders
  · exact hid
  · exact hst
  · simp [orderPushed, publishOrder, serverTouchOrders, broadcastRaw, issueOrderId]
  · simp [orderPushed, publishOrder, serverTouchOrders, broadcastRaw, issueOrderId]
  · simp [orderPushed, publishOrder, serverTouchOrders, broadcastRaw, issueOrderId,
      ServerContext.receivers]

theorem serverCreateOrder_cases {env : Env} {w w' : World} {tableId : Int} {cart : Cart}
    {r : Except Bytes Int} (h : serverCreateOrder S env w tableId cart = (r, w')) :
    ((∃ e, r = .error e) ∧ w' = w) ∨
    ∃ o, orderBuildFromCart S w.ctx.cfg.nextOrderId tableId env.now cart = .ok o ∧
      r = .ok o.orderId ∧ Created S w w' o := by
  unfold serverCreateOrder at h
  split at h
  · cases h
    exact Or.inl ⟨⟨_, rfl⟩, rfl⟩
  · split at h
    · cases h
      exact Or.inl ⟨⟨_, rfl⟩, rfl⟩
    · next o ho =>
      rw [pushOrderLocked] at h
      cases hpush : w.ctx.orders.push? o with
      | none =>
        rw [hpush] at h
        cases h
        exact Or.inl ⟨⟨_, rfl⟩, rfl⟩
      | some orders =>
        rw [hpush] at h
        cases h
        refine Or.inr ⟨o, ho, rfl, ?_⟩
        rw [orderBuildFromCart_eq] at ho
        split at ho
        · cases ho
        · cases ho
          exact orderPushed_created S env hpush rfl rfl

/-- The store after a status was set and the order published, whatever was logged between. -/
theorem publishOrder_moved {w v : World} {i : Nat} {o : Order} {st : OrderStatus}
    (hfound : w.ctx.orders.items[i]? = some o) (hctx : v.ctx = (setStatus w i st).ctx)
    (hsent : v.sent = w.sent) : Moved S w (publishOrder S v (o.withStatus st)) i o st := by
  constructor
  · exact hfound
  · show v.ctx.orders.items = _
    rw [hctx]
    exact modify_eq_set hfound
  · simp [publishOrder, serverTouchOrders, broadcastRaw, hctx, setStatus]
  · show v.sent ++ v.ctx.receivers.map _ = _
    rw [hctx, hsent]
    rfl

theorem serverUpdateOrderStatus_cases {env : Env} {w w' : World} {orderId : Int}
    {st : OrderStatus} {r : Except Bytes Unit}
    (h : serverUpdateOrderStatus S env w orderId st = (r, w')) :
    ((∃ e, r = .error e) ∧ w' = w) ∨
    ∃ i o, ordersFind w.ctx.orders.items orderId = some (i, o) ∧
      validKitchenTransition o.status st = true ∧ r = .ok () ∧ w'.salesLog = w.salesLog ∧
      Moved S w w' i o st := by
  unfold serverUpdateOrderStatus at h
  split at h
  · cases h
    exact Or.inl ⟨⟨_, rfl⟩, rfl⟩
  · next i o hfind =>
    split at h
    · cases h
      exact Or.inl ⟨⟨_, rfl⟩, rfl⟩
    · split at h
      · cases h
        exact Or.inl ⟨⟨_, rfl⟩, rfl⟩
      · next hvalid =>
        cases h
        refine Or.inr ⟨i, o, hfind, by simpa using hvalid, rfl, ?_, ?_⟩
        · exact appendOrdersMeta_salesLog _ _ _
        · apply publishOrder_moved S (ordersFind_eq_some hfind).1
          · exact appendOrdersMeta_ctx _ _ _
          · exact appendOrdersMeta_sent _ _ _

theorem serverCancelOrder_cases {w w' : World} {orderId tableId : Int} {r : Except Bytes Unit}
    (h : serverCancelOrder S w orderId tableId = (r, w')) :
    ((∃ e, r = .error e) ∧ w' = w) ∨
    ∃ i o, ordersFind w.ctx.orders.items orderId = some (i, o) ∧ o.tableId = tableId ∧
      o.status = .waiting ∧ r = .ok () ∧ w'.salesLog = w.salesLog ∧
      Moved S w w' i o .cancelled := by
  unfold serverCancelOrder at h
  split at h
  · cases h
    exact Or.inl ⟨⟨_, rfl⟩, rfl⟩
  · next i o hfind =>
    split at h
    · cases h
      exact Or.inl ⟨⟨_, rfl⟩, rfl⟩
    · next htable =>
      split at h
      · cases h
        exact Or.inl ⟨⟨_, rfl⟩, rfl⟩
      · next hst =>
        cases h
        exact Or.inr ⟨i, o, hfind, not_not.mp htable, not_not.mp hst, rfl, rfl,
          publishOrder_moved S (ordersFind_eq_some hfind).1 rfl rfl⟩

theorem serverPayOrder_cases {env : Env} {w w' : World} {orderId : Int} {r : Except Bytes Unit}
    (h : serverPayOrder S env w orderId = (r, w')) :
    ((∃ e, r = .error e) ∧ w' = w) ∨
    ∃ i o, ordersFind w.ctx.orders.items orderId = some (i, o) ∧ o.status = .done ∧ r = .ok () ∧
      w'.salesLog = (appendFile env.salesLog w.salesLog (saleLine orderId o env.now)).1 ∧
      Moved S w w' i o .paid := by
  unfold serverPayOrder at h
  split at h
  · cases h
    exact Or.inl ⟨⟨_, rfl⟩, rfl⟩
  · next i o hfind =>
    split at h
    · cases h
      exact Or.inl ⟨⟨_, rfl⟩, rfl⟩
    · next hst =>
      cases h
      refine Or.inr ⟨i, o, hfind, not_not.mp hst, rfl, ?_, ?_⟩
      · show (appendSalesMeta env (setStatus w i .paid) _).salesLog = _
        unfold appendSalesMeta
        split <;> next heq => exact (congrArg Prod.fst heq).symm
      · apply publishOrder_moved S (ordersFind_eq_some hfind).1
        · exact appendSalesMeta_ctx _ _ _
        · exact appendSalesMeta_sent _ _ _

end TableOrder
