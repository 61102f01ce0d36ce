import Mathlib.Data.List.Infix
import TableOrder.Client.Mirror
import TableOrder.Client.Submit

/-!
# A customer at a table

One table client and the server together: the client's loop, the messages on their way to the
server, the client's thread with what it has still to do for the last line, and the texts on their way
back. Between any two steps of these the other threads of the server may do anything, so that every
menu operation of the POS can fall between adding an item, reading a menu response, confirming the
cart and taking the order. Lines arrive whole and in order.

The order that the thread creates has the ids and quantities of a cart the customer confirmed, and
the names and prices of the catalog at that moment (`order_of_shown`). These are the ones the
customer saw only if the catalog still agrees with the cart.
-/

namespace TableOrder

open CLib

/-! ## The system -/

inductive ClientThread where
  /-- Before the first line. -/
  | fresh
  | serving (kind : ClientKind) (tableId : Int)
  | gone
  deriving DecidableEq

structure Visit where
  world : World
  client : TableClient
  /-- What the client sent and its thread has not read yet. -/
  uplink : List TableSent
  /-- The number of texts on its socket that the client has read. -/
  seen : Nat
  thread : ClientThread
  /-- What the thread has still to do for the last line. -/
  todo : List Op

inductive VisitAction where
  /-- The POS thread or the thread of another client. -/
  | server (a : Action)
  /-- The thread goes on with its line, or reads the next one. -/
  | thread (env : Env)
  /-- The client reads a line. -/
  | read
  | key (stray : CartItem) (key : Key)

/-- The thread reads this line. -/
def threadReads (fd : Int) (env : Env) (line : Bytes) (v : Visit) : Visit :=
  match v.thread with
  | .fresh =>
    match handshake line with
    | .error r => { v with thread := .gone, todo := [.reply fd r] }
    | .ok (kind, tableId) =>
      { v with thread := .serving kind tableId, todo := [.reply fd .hello, .enter fd kind tableId] }
  | .serving kind tableId =>
    let (todo, w) := clientTurn .wrap env v.world fd kind tableId line
    { v with world := w, todo := todo }
  | .gone => v

def visitStep (fd : Int) : VisitAction → Visit → Visit
  | .server a, v => { v with world := step .wrap a v.world }
  | .thread env, v =>
    match v.todo, v.uplink with
    | op :: todo, _ => { v with world := step .wrap (env, op) v.world, todo := todo }
    | [], msg :: uplink => threadReads fd env msg.line { v with uplink := uplink }
    | [], [] => v
  | .read, v =>
    match (textsTo fd v.world.sent)[v.seen]? with
    | none => v
    | some text =>
      let (c, sent) := tableLine v.client (netLine text)
      { v with client := c, uplink := v.uplink ++ sent, seen := v.seen + 1 }
  | .key stray key, v =>
    let (c, sent) := tableKey .wrap stray key v.client
    { v with client := c, uplink := v.uplink ++ sent }

/-- A client connects to a server in any state and sends its first line. -/
def Visit.start (fd tableId : Int) (menuFile : Option Bytes) (w : World) : Visit where
  world := w
  client := TableClient.start tableId menuFile
  uplink := [.hello tableId]
  seen := (textsTo fd w.sent).length
  thread := .fresh
  todo := []

def runVisit (fd : Int) (v : Visit) (as : List VisitAction) : Visit := Runs.run (visitStep fd) v as

/-! ## Who creates orders -/

def Op.KeepsOrders (op : Op) : Prop := ∀ env w, (op.run .wrap env w).2.ctx.orders = w.ctx.orders

theorem keepsOrders_reply (fd : Int) (r : Reply) : (Op.reply fd r).KeepsOrders := fun _ _ => rfl

/-- What a thread does after the first unlock changes no order. -/
theorem clientTurn_todo (env : Env) (w : World) (fd : Int) (kind : ClientKind) (tableId : Int)
    (line : Bytes) :
    ∀ op ∈ (clientTurn .wrap env w fd kind tableId line).1, op.KeepsOrders := by
  have hreply (r : Reply) : ∀ op ∈ [Op.reply fd r], op.KeepsOrders := by
    intro op hop
    rw [List.mem_singleton] at hop
    rw [hop]
    exact keepsOrders_reply fd r
  have hturn := clientTurn_cases .wrap env w fd kind tableId line
  generalize clientTurn .wrap env w fd kind tableId line = turn at hturn ⊢
  cases hturn with
  | menu _ => exact hreply _
  | replied r _ => exact hreply r
  | ordered _ _ => exact hreply _
  | cancelled _ => exact hreply _
  | updated _ =>
    intro op hop
    cases hop
  | called tbl _ _ _ =>
    intro op hop
    simp only [List.mem_cons, List.not_mem_nil, or_false] at hop
    rcases hop with rfl | rfl | rfl | rfl | rfl
    · exact fun _ _ => rfl
    · exact fun _ _ => rfl
    · exact fun _ _ => rfl
    · exact fun _ _ => by simp [Op.run]
    · exact keepsOrders_reply fd _

theorem append_ne_of_length {α : Type} {l l' : List α} (h : l'.length = l.length) (a : α) :
    l' ≠ l ++ [a] := by
  intro heq
  rw [heq, List.length_append, List.length_singleton] at h
  omega

/-- Only a request for an order creates one. -/
theorem clientTurn_creates {env : Env} {w : World} {fd : Int} {kind : ClientKind} {tableId : Int}
    {line : Bytes} {o : Order}
    (h : (clientTurn .wrap env w fd kind tableId line).2.ctx.orders.items =
      w.ctx.orders.items ++ [o]) :
    startsWith (lit "ORDER_CREATE|") line = true ∧
      ∃ w', orderCreateStep .wrap env w line tableId = (.ok o, w') := by
  have hsame : w.ctx.orders.items ≠ w.ctx.orders.items ++ [o] := append_ne_of_length rfl o
  have hmoved {w' : World} {i : Nat} {o' : Order} {st : OrderStatus}
      (hm : Moved .wrap w w' i o' st) : w'.ctx.orders.items ≠ w.ctx.orders.items ++ [o] := by
    apply append_ne_of_length
    rw [hm.orders, List.length_set]
  have hturn := clientTurn_cases .wrap env w fd kind tableId line
  generalize clientTurn .wrap env w fd kind tableId line = turn at hturn h
  cases hturn with
  | menu _ => exact absurd h hsame
  | replied r _ => exact absurd h hsame
  | ordered hstart _ =>
    have happended : (handleOrderCreateClient .wrap env w fd line tableId).2.ctx.orders.items =
        w.ctx.orders.items ++ [o] := h
    exact ⟨hstart, orderCreateStep_of_appended .wrap happended⟩
  | cancelled _ =>
    rcases hstep : orderCancelStep .wrap w line tableId with ⟨r, w'⟩
    rw [hstep] at h
    rcases orderCancelStep_cases .wrap hstep with ⟨-, rfl⟩ | ⟨i, o', -, -, -, -, -, hm⟩
    · exact absurd h hsame
    · exact absurd h (hmoved hm)
  | updated _ =>
    unfold handleOrderUpdateClient at h
    split at h
    · exact absurd h hsame
    · next oid st _ =>
      rcases hstep : serverUpdateOrderStatus .wrap env w oid st with ⟨r, w'⟩
      rw [hstep] at h
      rcases serverUpdateOrderStatus_cases .wrap hstep with ⟨-, rfl⟩ | ⟨i, o', -, -, -, -, hm⟩
      · exact absurd h hsame
      · exact absurd h (hmoved hm)
  | called tbl _ _ _ => exact absurd h hsame

/-! ## What the customer saw -/

variable (fd : Int) (start : Visit)

/-- At some point the client's catalog had this name and price under the id of the line, on sale. -/
def Offered (as : List VisitAction) (it : CartItem) : Prop :=
  Runs.Once (visitStep fd) start as fun v => ∃ m ∈ v.client.cat.items,
    m.soldOut = 0 ∧ it.menuId = m.id ∧ it.name = m.name ∧ it.price = m.price

/-- After these actions the popup shows this cart. -/
structure Shown (as : List VisitAction) (cart : Cart) : Prop where
  popup : (runVisit fd start as).client.confirmPopup = true
  inCart : (runVisit fd start as).client.cart = cart
  ok : CartOk cart
  nonempty : cart.items ≠ []
  offered : ∀ it ∈ cart.items, Offered fd start as it

/-- The popup showed this cart when a key was pressed, and the key sent it. -/
def Confirmed (as : List VisitAction) (tableId : Int) (cart : Cart) : Prop :=
  ∃ before stray key, before ++ [.key stray key] <+: as ∧ Shown fd start before cart ∧
    TableSent.orderCreate tableId cart ∈
      (tableKey .wrap stray key (runVisit fd start before).client).2

variable {fd start}

theorem Offered.concat {as : List VisitAction} {it : CartItem} (h : Offered fd start as it)
    (a : VisitAction) : Offered fd start (as ++ [a]) it := h.later (List.prefix_append as [a])

theorem Confirmed.concat {as : List VisitAction} {tableId : Int} {cart : Cart}
    (h : Confirmed fd start as tableId cart) (a : VisitAction) :
    Confirmed fd start (as ++ [a]) tableId cart := by
  obtain ⟨before, stray, key, hprefix, hshown, hsent⟩ := h
  exact ⟨before, stray, key, hprefix.trans (List.prefix_append as [a]), hshown, hsent⟩

variable (fd start) in
/-- Every line of the cart was offered, and every order on its way was confirmed. -/
structure VisitInv (tableId : Int) (as : List VisitAction) (v : Visit) : Prop where
  client : ClientOk v.client
  table : v.client.tableId = tableId
  offered : ∀ it ∈ v.client.cart.items, Offered fd start as it
  sent : ∀ t cart, TableSent.orderCreate t cart ∈ v.uplink →
    t = tableId ∧ Confirmed fd start as t cart
  todo : ∀ op ∈ v.todo, op.KeepsOrders

/-- A step without the client. -/
theorem VisitInv.elsewhere {tableId : Int} {as : List VisitAction} {v v' : Visit}
    (h : VisitInv fd start tableId as v) (a : VisitAction) (hclient : v'.client = v.client)
    (huplink : ∀ msg ∈ v'.uplink, msg ∈ v.uplink) (htodo : ∀ op ∈ v'.todo, op.KeepsOrders) :
    VisitInv fd start tableId (as ++ [a]) v' := by
  refine ⟨?_, ?_, ?_, ?_, htodo⟩
  · rw [hclient]
    exact h.client
  · rw [hclient]
    exact h.table
  · rw [hclient]
    intro it hit
    exact (h.offered it hit).concat a
  · intro t cart hmsg
    obtain ⟨ht, hconfirmed⟩ := h.sent t cart (huplink _ hmsg)
    exact ⟨ht, hconfirmed.concat a⟩

theorem threadReads_client (fd : Int) (env : Env) (line : Bytes) (v : Visit) :
    (threadReads fd env line v).client = v.client ∧
      (threadReads fd env line v).uplink = v.uplink := by
  unfold threadReads
  split
  · split <;> exact ⟨rfl, rfl⟩
  · exact ⟨rfl, rfl⟩
  · exact ⟨rfl, rfl⟩

theorem threadReads_todo (env : Env) (line : Bytes) {v : Visit}
    (h : ∀ op ∈ v.todo, op.KeepsOrders) :
    ∀ op ∈ (threadReads fd env line v).todo, op.KeepsOrders := by
  unfold threadReads
  split
  · split
    · intro op hop
      rw [List.mem_singleton] at hop
      rw [hop]
      exact keepsOrders_reply fd _
    · next kind tableId _ =>
      intro op hop
      simp only [List.mem_cons, List.not_mem_nil, or_false] at hop
      rcases hop with rfl | rfl
      · exact keepsOrders_reply fd _
      · exact fun _ _ => by simp [Op.run]
  · exact clientTurn_todo _ _ _ _ _ _
  · exact h

theorem VisitInv.key {tableId : Int} {as : List VisitAction}
    (h : VisitInv fd start tableId as (runVisit fd start as)) (stray : CartItem) (key : Key) :
    VisitInv fd start tableId (as ++ [.key stray key])
      (visitStep fd (.key stray key) (runVisit fd start as)) := by
  have heffect := tableKey_effect .wrap stray key (runVisit fd start as).client
  refine ⟨h.client.key heffect, heffect.rest.tableId.trans h.table, ?_, ?_, h.todo⟩
  · refine heffect.cart_forall .wrap (P := Offered fd start (as ++ [.key stray key])) ?_ ?_ ?_
    · exact fun _ _ hit => hit
    · intro m hm hsold
      refine Runs.Once.later (Runs.Once.now ⟨m, hm, hsold, rfl, ?_, rfl⟩)
        (List.prefix_append as [VisitAction.key stray key])
      exact CStr.copy_self m.name
    · intro it hit
      exact (h.offered it hit).concat _
  · intro t cart hmsg
    rcases List.mem_append.mp hmsg with hmsg | hmsg
    · obtain ⟨ht, hconfirmed⟩ := h.sent t cart hmsg
      exact ⟨ht, hconfirmed.concat _⟩
    · -- the order is the cart under the popup, and the popup is the one of this moment
      obtain ⟨ht, hcart, hpopup, hne, -⟩ := heffect.order .wrap hmsg
      refine ⟨ht.trans h.table, as, stray, key, List.prefix_rfl, ?_, hmsg⟩
      rw [hcart]
      exact ⟨hpopup, rfl, h.client.cart, hne, h.offered⟩

theorem VisitInv.read {tableId : Int} {as : List VisitAction} {v : Visit}
    (h : VisitInv fd start tableId as v) :
    VisitInv fd start tableId (as ++ [.read]) (visitStep fd .read v) := by
  simp only [visitStep]
  split
  · exact h.elsewhere _ rfl (fun _ hmsg => hmsg) h.todo
  · next text _ =>
    refine ⟨h.client.line _, (tableLine_tableId _ _).trans h.table, ?_, ?_, h.todo⟩
    · intro it hit
      simp only [tableLine_cart] at hit
      exact (h.offered it hit).concat _
    · intro t cart hmsg
      rcases List.mem_append.mp hmsg with hmsg | hmsg
      · obtain ⟨ht, hconfirmed⟩ := h.sent t cart hmsg
        exact ⟨ht, hconfirmed.concat _⟩
      · exact absurd (tableLine_sent _ _ _ hmsg) (by simp [TableSent.isOrder])

theorem VisitInv.thread {tableId : Int} {as : List VisitAction} {v : Visit}
    (h : VisitInv fd start tableId as v) (env : Env) :
    VisitInv fd start tableId (as ++ [.thread env]) (visitStep fd (.thread env) v) := by
  simp only [visitStep]
  split
  · next op todo htodo =>
    refine h.elsewhere _ rfl (fun _ hmsg => hmsg) ?_
    intro op' hop'
    exact h.todo op' (by rw [htodo]; exact List.mem_cons_of_mem _ hop')
  · next msg uplink htodo huplink =>
    obtain ⟨hclient, hrest⟩ := threadReads_client fd env msg.line { v with uplink := uplink }
    refine h.elsewhere _ hclient ?_ (threadReads_todo env msg.line h.todo)
    intro msg' hmsg'
    rw [hrest] at hmsg'
    rw [huplink]
    exact List.mem_cons_of_mem _ hmsg'
  · exact h.elsewhere _ rfl (fun _ hmsg => hmsg) h.todo

theorem visitInv_run (fd tableId : Int) (menuFile : Option Bytes) (w : World)
    (as : List VisitAction) :
    VisitInv fd (Visit.start fd tableId menuFile w) tableId as
      (runVisit fd (Visit.start fd tableId menuFile w) as) := by
  refine Runs.run_history ?_ ?_ as
  · refine ⟨clientOk_start tableId menuFile, rfl, ?_, ?_, ?_⟩
    · intro it hit
      cases hit
    · intro t cart hmsg
      have hne : TableSent.orderCreate t cart ≠ .hello tableId := by simp
      exact absurd (List.mem_singleton.mp hmsg) hne
    · intro op hop
      cases hop
  · intro as a h
    cases a with
    | server a => exact h.elsewhere _ rfl (fun _ hmsg => hmsg) h.todo
    | thread env => exact h.thread env
    | read => exact h.read
    | key stray key => exact h.key stray key

/-! ## The order and the cart -/

/-- The order for a cart under this catalog: the ids and quantities of the cart, each with the name
and price of the catalog. These are the lines the customer saw if and only if the cart still agrees
with the catalog, and then the total is the one the customer saw. -/
structure OrderFor (menu : MenuCatalog) (cart : Cart) (o : Order) : Prop where
  content : orderContent o = cartContent cart
  entry : ∀ it ∈ o.items.items, ∃ m, menuFindById menu it.menuId = some m ∧ m.soldOut = 0 ∧
    it.name = m.name ∧ it.unitPrice = m.price
  as_shown : o.items.items = cart.items.map lineOf ↔ ∀ it ∈ cart.items,
    ∃ m, menuFindById menu it.menuId = some m ∧ it.name = m.name ∧ it.price = m.price
  total : o.items.items = cart.items.map lineOf → o.totalPrice = cartTotal .wrap cart

theorem orderFor_of_orderOf {menu : MenuCatalog} {cart : Cart} {o : Order} (hcart : CartOk cart)
    (hof : OrderOf .wrap menu ((cartContent cart).map pairItem) o) : OrderFor menu cart o := by
  have hcontent := orderContent_eq hcart hof
  refine ⟨hcontent, hof.entry, ⟨?_, ?_⟩, ?_⟩
  · intro hlines it hit
    have hmem : lineOf it ∈ o.items.items := by
      rw [hlines]
      exact List.mem_map_of_mem hit
    obtain ⟨m, hm, -, hname, hprice⟩ := hof.entry _ hmem
    rw [lineOf_eq] at hm hname hprice
    exact ⟨m, hm, hname, hprice⟩
  · intro hagree
    refine eq_map_of_map_eq hcontent ?_
    intro line hline it hit hsame
    obtain ⟨hid, hqty⟩ := Prod.ext_iff.mp hsame
    obtain ⟨m, hm, -, hname, hprice⟩ := hof.entry line hline
    obtain ⟨m', hm', hname', hprice'⟩ := hagree it hit
    -- one lookup for both
    have hentry : m' = m := by
      have hid : line.menuId = it.menuId := hid
      rw [hid, hm'] at hm
      exact Option.some.inj hm
    rw [hentry] at hname' hprice'
    rw [lineOf_eq, hname', hprice', ← hname, ← hprice]
    cases line
    simp only at hid hqty ⊢
    rw [hid, hqty]
  · intro hlines
    rw [hof.total, hlines, cartTotal_eq_accum, List.map_map]
    rfl

/-- The next step of the client's thread creates this order. -/
def Visit.Creates (v : Visit) (fd : Int) (env : Env) (o : Order) : Prop :=
  (visitStep fd (.thread env) v).world.ctx.orders.items = v.world.ctx.orders.items ++ [o]

/-- No other message of the client looks like an order. -/
theorem orderCreate_of_line {msg : TableSent}
    (h : startsWith (lit "ORDER_CREATE|") msg.line = true) :
    ∃ tableId cart, msg = .orderCreate tableId cart := by
  have htext : startsWith (lit "ORDER_CREATE|") msg.text = true := startsWith_netLine h
  cases msg with
  | orderCreate tableId cart => exact ⟨tableId, cart, rfl⟩
  | _ => cases htext

theorem Visit.Creates.request {v : Visit} {fd : Int} {env : Env} {o : Order}
    (h : v.Creates fd env o) (htodo : ∀ op ∈ v.todo, op.KeepsOrders) :
    ∃ t cart tableId w', v.uplink.head? = some (.orderCreate t cart) ∧
      orderCreateStep .wrap env v.world (TableSent.orderCreate t cart).line tableId =
        (.ok o, w') := by
  have hsame {w : World} (hw : w.ctx.orders = v.world.ctx.orders) :
      w.ctx.orders.items ≠ v.world.ctx.orders.items ++ [o] :=
    append_ne_of_length (by rw [hw]) o
  unfold Visit.Creates at h
  simp only [visitStep] at h
  split at h
  · next op todo heq =>
    have hkeeps := htodo op (by rw [heq]; simp)
    exact absurd h (hsame (hkeeps env v.world))
  · next msg uplink _ huplink =>
    unfold threadReads at h
    split at h
    · split at h <;> exact absurd h (hsame rfl)
    · next kind tableId _ =>
      obtain ⟨hstart, w', hstep⟩ := clientTurn_creates h
      obtain ⟨t, cart, rfl⟩ := orderCreate_of_line hstart
      exact ⟨t, cart, tableId, w', by rw [huplink]; rfl, hstep⟩
    · exact absurd h (hsame rfl)
  · exact absurd h (hsame rfl)

/-- In every run: an order that is created is the one for the cart of the message read then. The
customer confirmed that cart in the popup, and the names and prices are those of the catalog the
server has at that moment. -/
theorem order_of_shown {fd tableId : Int} (htable : FitsInt tableId) (menuFile : Option Bytes)
    (w : World) {as : List VisitAction} {env : Env} {o : Order}
    (h : (runVisit fd (Visit.start fd tableId menuFile w) as).Creates fd env o) :
    let start := Visit.start fd tableId menuFile w
    let v := runVisit fd start as
    ∃ cart, v.uplink.head? = some (.orderCreate tableId cart) ∧
      Confirmed fd start as tableId cart ∧ o.tableId = tableId ∧
      OrderFor v.world.ctx.menu cart o := by
  intro start v
  have hinv : VisitInv fd start tableId as v := visitInv_run fd tableId menuFile w as
  obtain ⟨t, cart, tid, w', hhead, hstep⟩ := h.request hinv.todo
  obtain ⟨rfl, hconfirmed⟩ := hinv.sent t cart (List.mem_of_mem_head? hhead)
  obtain ⟨_, _, _, -, hshown, -⟩ := id hconfirmed
  obtain ⟨parsed, hadm, hof, htid, -, -⟩ := orderOf_of_accepted .wrap hstep
  obtain ⟨-, rfl, -, rfl⟩ :=
    (orderCreateRequest_cart htable hshown.ok hshown.nonempty _ parsed).mp hadm.request
  exact ⟨cart, hhead, hconfirmed, htid, orderFor_of_orderOf hshown.ok hof⟩

/-- The customer of table 1 presses these keys on the menu and confirms the order, and the POS stores
this catalog before the thread reads it. -/
def orderVisit (picks : List Key) (menu : MenuCatalog) : List VisitAction :=
  let env := Env.fair 0
  let confirm : List Key :=
    .left :: List.replicate 6 .down ++ [.char ' ', .char 'z', .char 'y']
  [.thread env, .thread env, .thread env, .read] ++ (picks ++ confirm).map (.key emptySlot) ++
    [.thread env, .thread env, .server (env, .changeMenu menu)]

def firstDish (price : Int) : OrderLineItem :=
  ⟨1, CStr.copy MAX_NAME (lit "Kimchi Fried Rice"), price, 1⟩

/-- The first order of table 1. -/
def firstOrder (lines : List OrderLineItem) (hlines : lines.length ≤ 32) (total : Int) : Order where
  orderId := 1
  tableId := 1
  status := .waiting
  items := ⟨lines, hlines⟩
  totalPrice := total
  createdAt := 0

/-- One dish and two cups of coffee. -/
def twoDishOrder : Order :=
  firstOrder [firstDish 9000, ⟨4, CStr.copy MAX_NAME (lit "Ice Americano"), 4500, 2⟩] (by decide)
    18000

theorem order_of_shown_twoDishes :
    let start := Visit.start 3 1 none (serverLoadPersistent (World.boot none none)).2
    let as := orderVisit [.char ' ', .down, .char ' ', .char ' '] (menuLoadFile none).1
    let v := runVisit 3 start as
    ∃ cart, v.uplink.head? = some (.orderCreate 1 cart) ∧ Confirmed 3 start as 1 cart ∧
      twoDishOrder.tableId = 1 ∧ OrderFor v.world.ctx.menu cart twoDishOrder := by
  rw [firstStart_eq, menuLoadFile_none]
  intro start as v
  have hcreates : v.Creates 3 (Env.fair 0) twoDishOrder := by
    show _ = _
    decide +kernel
  exact order_of_shown (by decide) none firstStart hcreates

/-- The price goes up between the popup and the order: the customer confirmed 9000 and the order
says 9500. -/
theorem order_not_as_shown :
    ¬ ∀ (fd tableId : Int) (menuFile : Option Bytes) (w : World) (as : List VisitAction) (env : Env)
      (o : Order), FitsInt tableId →
      (runVisit fd (Visit.start fd tableId menuFile w) as).Creates fd env o →
      Runs.Once (visitStep fd) (Visit.start fd tableId menuFile w) as fun v =>
        v.client.confirmPopup = true ∧ o.items.items = v.client.cart.items.map lineOf ∧
          o.totalPrice = cartTotal .wrap v.client.cart := by
  intro h
  let w := firstStart
  let dish : MenuItem := ⟨1, CStr.copy MAX_NAME (lit "Kimchi Fried Rice"),
    CStr.copy MAX_CATEGORY (lit "식사"), 9500, 0, 1⟩
  let menu := (menuUpdateItem defaultMenu 1 dish).toOption.getD menuInitCatalog
  let visit := orderVisit [.char ' '] menu
  let order := firstOrder [firstDish 9500] (by decide) 9500
  have hcreates : (runVisit 3 (Visit.start 3 1 none w) visit).Creates 3 (Env.fair 0) order := by
    show _ = _
    decide +kernel
  obtain ⟨before, hprefix, -, -, htotal⟩ :=
    h 3 1 none w visit (Env.fair 0) order (by decide) hcreates
  have hnever : (visit.inits.all fun before =>
      cartTotal .wrap (runVisit 3 (Visit.start 3 1 none w) before).client.cart != 9500) = true := by
    decide +kernel
  have hother := List.all_eq_true.mp hnever before ((List.mem_inits _ _).mpr hprefix)
  rw [bne_iff_ne] at hother
  exact hother htotal.symm

end TableOrder
