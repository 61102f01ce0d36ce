import TableOrder.Protocol.Menu
import TableOrder.Protocol.Request
import TableOrder.Server.Basic

/-!
# The client threads (`server.c`): requests and their replies

One thread per client reads lines and calls a handler for each. A handler locks the context, does
its work and unlocks it; the reply is written after that. The locked part of
`handle_order_create_client` is a function of its own (`orderCreateLocked`), so that it can be
one step where threads interleave; the handler is that step and its reply.
-/

namespace TableOrder

open CLib

/-! ## Replies -/

/-- One constructor for each call of `write_all` that answers a client. -/
inductive Reply where
  | hello
  | badHello
  | handshakeRequired
  /-- The answer to `MENU_REQUEST`, from the catalog as it was under the lock. -/
  | menu (cat : MenuCatalog)
  | orderCreated (orderId total : Int) (status : OrderStatus)
  | cancelled
  | staffCalled
  | pong
  | error (err : Bytes)
  | tableMismatch
  | capacity
  | forbidden
  | unknown
  deriving DecidableEq

/-- The bytes handed to `write_all`, with the lengths of the source. -/
def Reply.text : Reply → Bytes
  | .hello => lit "OK|hello\n"
  | .badHello => (lit "ERROR|bad hello table\n").take 22
  | .handshakeRequired => (lit "ERROR|handshake required\n").take 23
  | .menu cat =>
    match protoBuildMenuResponse cat with
    | none => (lit "ERROR|menu encode\n").take 18
    | some resp => clip MAX_PROTO_LINE (resp ++ lit "\n")
  | .orderCreated orderId total status =>
    clip 128 (lit "ORDER_CREATED|order_id=" ++ fmtInt orderId ++ lit "|total=" ++ fmtInt total ++
      lit "|status=" ++ statusToString status ++ lit "\n")
  | .cancelled => lit "OK|cancel\n"
  | .staffCalled => (lit "OK|staff\n").take 9
  | .pong => (lit "PONG\n").take 5
  | .error err => clip 256 (lit "ERROR|" ++ err ++ lit "\n")
  | .tableMismatch => (lit "ERROR|table mismatch\n").take 21
  | .capacity => (lit "ERROR|capacity\n").take 15
  | .forbidden => (lit "ERROR|forbidden\n").take 16
  | .unknown => (lit "ERROR|unknown\n").take 14

/-- A reply that refuses a request for an order. -/
def Reply.isError : Reply → Bool
  | .error _ => true
  | .tableMismatch => true
  | .capacity => true
  | _ => false

def reply (w : World) (fd : Int) (r : Reply) : World := writeAll w fd r.text

def handleMenuRequest (w : World) (fd : Int) : World := reply w fd (.menu w.ctx.menu)

/-! ## New orders -/

variable (S : IntSem)

/-- One turn of the loop of `finalize_cart_lines`: the line gets the name and the price the
catalog has now. -/
def finalizeLine (menu : MenuCatalog) (line : CartItem) : Except Bytes CartItem :=
  match menuFindById menu line.menuId with
  | none => .error (clip 160 (lit "unknown menu id " ++ fmtInt line.menuId))
  | some mi =>
    if mi.soldOut ≠ 0 then
      .error (clip 160 (lit "sold out: " ++ mi.name.bytes))
    else
      .ok { line with name := CStr.copy MAX_NAME mi.name.bytes, price := mi.price }

def finalizeCartLines (menu : MenuCatalog) (lines : List CartItem) :
    Except Bytes (List CartItem) :=
  lines.mapM (finalizeLine menu)

/-- `handle_order_create_client` from the lock to the unlock. -/
def orderCreateLocked (env : Env) (w : World) (tbl : Int) (lines : List CartItem) :
    Except Reply Order × World :=
  match finalizeCartLines w.ctx.menu lines with
  | .error e => (.error (.error e), w)
  | .ok lines =>
    match lines.foldlM (cartAdd S) cartInit with
    | .error e => (.error (.error e), w)
    | .ok cart =>
      match orderBuildFromCart S w.ctx.cfg.nextOrderId tbl env.now cart with
      | .error e => (.error (.error e), w)
      | .ok ord =>
        match pushOrderLocked w ord with
        | none => (.error .capacity, w)
        | some w => (.ok ord, orderPushed S env w ord)

def createdReply (ord : Order) : Reply := .orderCreated ord.orderId ord.totalPrice ord.status

/-- What is checked before the lock is taken. -/
def orderCreateRequest (line : Bytes) (tableId : Int) : Except Reply (List CartItem) :=
  match protoParseOrderCreate line MAX_ORDER_ITEMS with
  | .error e => .error (.error e)
  | .ok (tbl, lines) => if tbl ≠ tableId then .error .tableMismatch else .ok lines

/-- The request up to the unlock: the reply that is still to be written, and the order. -/
def orderCreateStep (env : Env) (w : World) (line : Bytes) (tableId : Int) :
    Except Reply Order × World :=
  match orderCreateRequest line tableId with
  | .error r => (.error r, w)
  | .ok lines => orderCreateLocked S env w tableId lines

/-- The reply to a request that ended so. -/
def orderCreateReply : Except Reply Order → Reply
  | .error r => r
  | .ok ord => createdReply ord

def handleOrderCreateClient (env : Env) (w : World) (fd : Int) (line : Bytes) (tableId : Int) :
    Except Reply Order × World :=
  let (res, w) := orderCreateStep S env w line tableId
  (res, reply w fd (orderCreateReply res))

/-! ## The other requests -/

/-- A bad line is dropped, and so is the result: kitchens get no reply. -/
def handleOrderUpdateClient (env : Env) (w : World) (line : Bytes) : World :=
  match protoParseOrderUpdate line with
  | .error _ => w
  | .ok (oid, st) => (serverUpdateOrderStatus S env w oid st).2

/-- The cancel request up to its reply. -/
def orderCancelStep (w : World) (line : Bytes) (tableId : Int) : Except Bytes Unit × World :=
  match protoParseOrderCancel line with
  | .error e => (.error e, w)
  | .ok oid => serverCancelOrder S w oid tableId

def orderCancelReply : Except Bytes Unit → Reply
  | .error e => .error e
  | .ok () => .cancelled

def handleOrderCancelClient (w : World) (fd : Int) (line : Bytes) (tableId : Int) : World :=
  let (res, w) := orderCancelStep S w line tableId
  reply w fd (orderCancelReply res)

/-- The first critical section of a staff call. -/
def recordStaffCall (env : Env) (w : World) (tbl : Int) : World :=
  { w with ctx := { w.ctx with
      lastStaffMessage := clip 160 (lit "직원 호출: 테이블 " ++ fmtInt tbl)
      lastStaffTime := env.now
      staffCallAt := if 0 < tbl ∧ tbl ≤ MAX_TABLES then
          Function.update w.ctx.staffCallAt tbl env.now
        else w.ctx.staffCallAt } }

def staffLogLine (tbl now : Int) : Bytes :=
  clip 128 (lit "STAFF_CALL table=" ++ fmtInt tbl ++ lit " ts=" ++ fmtInt now ++ lit "\n")

def handleCallStaff (env : Env) (w : World) (line : Bytes) : World :=
  match protoParseCallStaff line with
  | .error _ => w
  | .ok tbl =>
    let w := serverTouchStaff S (recordStaffCall env w tbl)
    let w := broadcastRaw w (protoBuildStaffBroadcast tbl ++ lit "\n")
    appendOrdersMeta env w (staffLogLine tbl env.later)

/-! ## The loop of a client thread -/

/-- The first line of a client. -/
def handshake (line : Bytes) : Except Reply (ClientKind × Int) :=
  if startsWith (lit "HELLO TABLE") line then
    match protoParseHelloTable line with
    | .error _ => .error .badHello
    | .ok tableId => .ok (.table, tableId)
  else if line = lit "HELLO KITCHEN" then .ok (.kitchen, 0)
  else .error .handshakeRequired

/-- Registration and snapshot are one critical section. -/
def enterClient (w : World) (fd : Int) (kind : ClientKind) (tableId : Int) : World :=
  sendSnapshotLocked { w with ctx := serverRegisterClient w.ctx fd kind tableId } fd kind tableId

/-- One line of a registered client. -/
def clientLine (env : Env) (w : World) (fd : Int) (kind : ClientKind) (tableId : Int)
    (line : Bytes) : World :=
  if line = lit "MENU_REQUEST" then
    handleMenuRequest w fd
  else if startsWith (lit "ORDER_CREATE|") line then
    if kind ≠ .table then reply w fd .forbidden
    else (handleOrderCreateClient S env w fd line tableId).2
  else if startsWith (lit "ORDER_CANCEL|") line then
    if kind ≠ .table then reply w fd .forbidden
    else handleOrderCancelClient S w fd line tableId
  else if startsWith (lit "ORDER_UPDATE|") line then
    if kind ≠ .kitchen then reply w fd .forbidden
    else handleOrderUpdateClient S env w line
  else if startsWith (lit "CALL_STAFF|") line then
    if kind ≠ .table then reply w fd .forbidden
    else reply (handleCallStaff S env w line) fd .staffCalled
  else if line = lit "PING" then
    reply w fd .pong
  else
    reply w fd .unknown

/-! ## What a request for an order does -/

@[simp] theorem reply_ctx (w : World) (fd : Int) (r : Reply) : (reply w fd r).ctx = w.ctx := rfl

@[simp] theorem reply_salesLog (w : World) (fd : Int) (r : Reply) :
    (reply w fd r).salesLog = w.salesLog := rfl

@[simp] theorem reply_sent (w : World) (fd : Int) (r : Reply) :
    (reply w fd r).sent = w.sent ++ [(fd, r.text)] := rfl

/-- The catalog entry of a finalized line: found, on sale, and copied into the line. -/
theorem finalizeLine_eq_ok {menu : MenuCatalog} {line line' : CartItem} :
    finalizeLine menu line = .ok line' ↔
      ∃ mi, menuFindById menu line.menuId = some mi ∧ mi.soldOut = 0 ∧
        line' = { line with name := mi.name, price := mi.price } := by
  unfold finalizeLine
  constructor
  · intro h
    split at h
    · cases h
    · next mi hmi =>
      split at h
      · cases h
      · next hso =>
        cases h
        exact ⟨mi, hmi, not_not.mp hso, by rw [CStr.copy_self]⟩
  · rintro ⟨mi, hmi, hso, rfl⟩
    rw [hmi]
    simp [hso, CStr.copy_self]

/-- A request is accepted when every stage is: the lines finalized, merged and built into an order
that was pushed. Otherwise nothing happened, and the reply refuses. -/
theorem orderCreateStep_cases {env : Env} {w w' : World} {line : Bytes} {tableId : Int}
    {res : Except Reply Order} (h : orderCreateStep S env w line tableId = (res, w')) :
    ((∃ r, res = .error r ∧ r.isError = true) ∧ w' = w) ∨
    ∃ parsed lines cart o, orderCreateRequest line tableId = .ok parsed ∧
      finalizeCartLines w.ctx.menu parsed = .ok lines ∧
      lines.foldlM (cartAdd S) cartInit = .ok cart ∧
      orderBuildFromCart S w.ctx.cfg.nextOrderId tableId env.now cart = .ok o ∧
      res = .ok o ∧ Created S w w' o := by
  unfold orderCreateStep at h
  split at h
  · next r hreq =>
    cases h
    refine Or.inl ⟨⟨r, rfl, ?_⟩, rfl⟩
    -- both refusals before the lock
    unfold orderCreateRequest at hreq
    split at hreq
    · cases hreq
      rfl
    · split at hreq
      · cases hreq
        rfl
      · cases hreq
  · next parsed hreq =>
    unfold orderCreateLocked at h
    split at h
    · cases h
      exact Or.inl ⟨⟨_, rfl, rfl⟩, rfl⟩
    · next lines hlines =>
      split at h
      · cases h
        exact Or.inl ⟨⟨_, rfl, rfl⟩, rfl⟩
      · next cart hcart =>
        split at h
        · cases h
          exact Or.inl ⟨⟨_, rfl, rfl⟩, rfl⟩
        · next o ho =>
          rw [pushOrderLocked] at h
          cases hpush : w.ctx.orders.push? o with
          | none =>
            rw [hpush] at h
            cases h
            exact Or.inl ⟨⟨_, rfl, rfl⟩, rfl⟩
          | some orders =>
            rw [hpush] at h
            cases h
            refine Or.inr ⟨parsed, lines, cart, o, hreq, hlines, hcart, ho, rfl, ?_⟩
            rw [orderBuildFromCart_eq] at ho
            split at ho
            · cases ho
            · cases ho
              exact orderPushed_created S env hpush rfl rfl

theorem orderCancelStep_cases {w w' : World} {line : Bytes} {tableId : Int}
    {r : Except Bytes Unit} (h : orderCancelStep S w line tableId = (r, w')) :
    ((∃ e, r = .error e) ∧ w' = w) ∨
    ∃ i o, w.ctx.orders.items[i]? = some o ∧ o.tableId = tableId ∧ o.status = .waiting ∧
      r = .ok () ∧ w'.salesLog = w.salesLog ∧ Moved S w w' i o .cancelled := by
  unfold orderCancelStep at h
  split at h
  · cases h
    exact Or.inl ⟨⟨_, rfl⟩, rfl⟩
  · rcases serverCancelOrder_cases S h with herr | ⟨i, o, hfind, htable, hst, hr, hlog, hmoved⟩
    · exact Or.inl herr
    · exact Or.inr ⟨i, o, (ordersFind_eq_some hfind).1, htable, hst, hr, hlog, hmoved⟩

end TableOrder
