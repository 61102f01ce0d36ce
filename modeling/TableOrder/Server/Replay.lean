import TableOrder.Lib.Replay
import TableOrder.Server.History
import TableOrder.Server.Sales

/-!
# What the logs tell

Each operation on orders writes a line of `orders.log` or `sales.log`, and the lines a run appended,
read from the start, give every order with its status: as long as nothing was cancelled, for
`server_cancel_order` writes no line (`reconstructs_iff`).
-/

namespace TableOrder

open CLib
open Replay (replay Tells)

/-! ## Lines as records -/

def logStatus (kind : Bytes) (rest : List Bytes) : Option OrderStatus :=
  if kind = lit "ORDER_CREATED" then some .waiting
  else if kind = lit "ORDER_STATUS" then
    (rest.head?.bind (field (lit "status="))).map statusFromString
  else if kind = lit "SALE" then some .paid
  else none

/-- The order and the status that a line sets. There is no line for a cancelled order, and a staff call
sets nothing. -/
def logRecord (line : Bytes) : Option (Int × OrderStatus) :=
  match tokens (ch ' ') line with
  | kind :: idtok :: rest =>
    (logStatus kind rest).bind fun st => (field (lit "id=") idtok).map fun id => (atoi id, st)
  | _ => none

theorem clip_prefix {size : Nat} {p : Bytes} (h : p.length < size) (s : Bytes) :
    ∃ t, clip size (p ++ s) = p ++ t := by
  refine ⟨s.take (size - 1 - p.length), ?_⟩
  rw [clip, List.take_append, List.take_of_length_le (by omega)]

/-- Only the first words count. -/
theorem logRecord_words {kind : Bytes} (hkind : kind ≠ []) (hsep : ch ' ' ∉ kind) {id : Int}
    (hid : FitsInt id) (s : Bytes) :
    logRecord (kind ++ ch ' ' :: (lit "id=" ++ fmtInt id ++ ch ' ' :: s)) =
      (logStatus kind (tokens (ch ' ') s)).map fun st => (id, st) := by
  have hne : lit "id=" ++ fmtInt id ≠ [] := by simp [fmtInt_ne_nil]
  have hspace : ch ' ' ∉ lit "id=" ++ fmtInt id := by
    rw [List.mem_append, not_or]
    exact ⟨by decide, not_mem_fmtInt (by decide) (by decide) id⟩
  rw [logRecord, tokens_word_sep hkind hsep, tokens_word_sep hne hspace]
  simp only [field_append, Option.map_some, atoi_fmtInt hid]
  cases logStatus kind (tokens (ch ' ') s) <;> rfl

theorem logRecord_created {o : Order} (hid : FitsInt o.orderId) (ts : Int) :
    logRecord (createdLogLine o ts) = some (o.orderId, .waiting) := by
  have hlen := length_fmtInt_le hid
  have hhead : lit "ORDER_CREATED id=" = lit "ORDER_CREATED" ++ ch ' ' :: lit "id=" := rfl
  have htable : lit " table=" = ch ' ' :: lit "table=" := rfl
  have hshort : (lit "ORDER_CREATED id=" ++ fmtInt o.orderId ++ [ch ' ']).length < MAX_PROTO_LINE := by
    have hlit : (lit "ORDER_CREATED id=").length = 17 := rfl
    rw [List.length_append, List.length_append, hlit, List.length_singleton]
    show _ < 16384
    omega
  obtain ⟨t, ht⟩ := clip_prefix hshort (lit "table=" ++ fmtInt o.tableId ++ lit " total=" ++
    fmtInt o.totalPrice ++ lit " ts=" ++ fmtInt ts ++ lit "\n")
  have hline : createdLogLine o ts = lit "ORDER_CREATED" ++ ch ' ' ::
      (lit "id=" ++ fmtInt o.orderId ++ ch ' ' :: t) := by
    simp only [hhead, List.append_assoc, List.cons_append, List.nil_append] at ht
    simp only [createdLogLine, hhead, htable, List.append_assoc, List.cons_append]
    exact ht
  rw [hline, logRecord_words (by decide) (by decide) hid]
  rfl

theorem logRecord_status {id : Int} (hid : FitsInt id) (st : OrderStatus) (ts : Int) :
    logRecord (statusLogLine id st ts) = some (id, st) := by
  have hlen := length_fmtInt_le hid
  have hname : (statusToString st).length ≤ 9 := by cases st <;> decide
  have hhead : lit "ORDER_STATUS id=" = lit "ORDER_STATUS" ++ ch ' ' :: lit "id=" := rfl
  have hstatus : lit " status=" = ch ' ' :: lit "status=" := rfl
  have hts : lit " ts=" = ch ' ' :: lit "ts=" := rfl
  have hshort : (lit "ORDER_STATUS id=" ++ fmtInt id ++ lit " status=" ++ statusToString st ++
      [ch ' ']).length < 256 := by
    have h1 : (lit "ORDER_STATUS id=").length = 16 := rfl
    have h2 : (lit " status=").length = 8 := rfl
    simp only [List.length_append, h1, h2, List.length_singleton]
    omega
  obtain ⟨t, ht⟩ := clip_prefix hshort (lit "ts=" ++ fmtInt ts ++ lit "\n")
  have hline : statusLogLine id st ts = lit "ORDER_STATUS" ++ ch ' ' ::
      (lit "id=" ++ fmtInt id ++ ch ' ' :: (lit "status=" ++ statusToString st ++ ch ' ' :: t)) := by
    simp only [hhead, hstatus, List.append_assoc, List.cons_append, List.nil_append] at ht
    simp only [statusLogLine, hhead, hstatus, hts, List.append_assoc, List.cons_append]
    exact ht
  have hspace : ch ' ' ∉ lit "status=" ++ statusToString st := by cases st <;> decide
  rw [hline, logRecord_words (by decide) (by decide) hid,
    tokens_word_sep (by cases st <;> decide) hspace]
  have hread : logStatus (lit "ORDER_STATUS") ((lit "status=" ++ statusToString st) ::
      tokens (ch ' ') t) = some st := by
    rw [logStatus, if_neg (by decide), if_pos rfl]
    simp
  rw [hread]
  rfl

/-- The loop over the lines only adds to the text. -/
theorem saleDetail_prefix (slog : Bytes) (i : Nat) (its : List OrderLineItem) :
    ∃ t, saleDetail slog i its = slog ++ t := by
  induction its generalizing slog i with
  | nil => exact ⟨[], (List.append_nil slog).symm⟩
  | cons it its ih =>
    unfold saleDetail
    split
    · obtain ⟨t, ht⟩ := ih (slog ++ saleItem i it) (i + 1)
      exact ⟨saleItem i it ++ t, by rw [ht, List.append_assoc]⟩
    · exact ⟨[], (List.append_nil slog).symm⟩

theorem logRecord_sale {o : Order} (hid : FitsInt o.orderId) (ts : Int) :
    logRecord (saleLine o.orderId o ts) = some (o.orderId, .paid) := by
  have hlen := length_fmtInt_le hid
  have hhead : lit "SALE id=" = lit "SALE" ++ ch ' ' :: lit "id=" := rfl
  have htable : lit " table=" = ch ' ' :: lit "table=" := rfl
  have hshort : (lit "SALE" ++ ch ' ' :: (lit "id=" ++ fmtInt o.orderId ++ [ch ' '])).length <
      MAX_PROTO_LINE := by
    have h1 : (lit "SALE").length = 4 := rfl
    have h2 : (lit "id=").length = 3 := rfl
    simp only [List.length_append, List.length_cons, h1, h2, List.length_nil]
    show _ < 16384
    omega
  obtain ⟨detail, hdetail⟩ := saleDetail_prefix (saleHeader o.orderId o ts) 0 o.items.items
  obtain ⟨s, hs⟩ : ∃ s, saleDetail (saleHeader o.orderId o ts) 0 o.items.items =
      lit "SALE" ++ ch ' ' :: (lit "id=" ++ fmtInt o.orderId ++ [ch ' ']) ++ s := by
    rw [hdetail]
    refine ⟨lit "table=" ++ fmtInt o.tableId ++ lit " total=" ++ fmtInt o.totalPrice ++ lit " ts=" ++
      fmtInt ts ++ lit " detail=" ++ detail, ?_⟩
    simp only [saleHeader, hhead, htable, List.append_assoc, List.cons_append, List.nil_append]
  -- both copies keep the first words
  obtain ⟨t, ht⟩ := clip_prefix hshort s
  obtain ⟨t', ht'⟩ := clip_prefix hshort (t ++ lit "\n")
  have hline : saleLine o.orderId o ts = lit "SALE" ++ ch ' ' ::
      (lit "id=" ++ fmtInt o.orderId ++ ch ' ' :: t') := by
    simp only [saleLine, hs, ht]
    rw [List.append_assoc _ t, ht']
    simp only [List.append_assoc, List.cons_append, List.nil_append]
  rw [hline, logRecord_words (by decide) (by decide) hid]
  rfl

theorem logRecord_staff (tbl ts : Int) : logRecord (staffLogLine tbl ts) = none := by
  have hhead : lit "STAFF_CALL table=" = lit "STAFF_CALL" ++ [ch ' '] ++ lit "table=" := rfl
  have hshort : (lit "STAFF_CALL" ++ [ch ' ']).length < 128 := by decide
  obtain ⟨t, ht⟩ := clip_prefix hshort (lit "table=" ++ fmtInt tbl ++ lit " ts=" ++ fmtInt ts ++ lit "\n")
  have hline : staffLogLine tbl ts = lit "STAFF_CALL" ++ ch ' ' :: t := by
    simp only [List.append_assoc, List.cons_append, List.nil_append] at ht
    simp only [staffLogLine, hhead, List.append_assoc, List.cons_append, List.nil_append]
    exact ht
  rw [hline, logRecord, tokens_word_sep (by decide) (by decide)]
  cases tokens (ch ' ') t with
  | nil => rfl
  | cons idtok rest => rfl

/-! ## What an operation appends -/

section OrdersLog

variable (S : IntSem)

theorem appendOrdersMeta_ordersLog (env : Env) (w : World) (text : Bytes) :
    (appendOrdersMeta env w text).ordersLog = (appendFile env.ordersLog w.ordersLog text).1 := by
  unfold appendOrdersMeta
  split <;> next heq => exact (congrArg Prod.fst heq).symm

@[simp] theorem appendSalesMeta_ordersLog (env : Env) (w : World) (text : Bytes) :
    (appendSalesMeta env w text).ordersLog = w.ordersLog := by
  unfold appendSalesMeta
  split <;> rfl

@[simp] theorem serverSaveConfig_ordersLog (env : Env) (w : World) :
    (serverSaveConfig env w).ordersLog = w.ordersLog := by
  unfold serverSaveConfig
  split <;> rfl

theorem orderPushed_ordersLog (env : Env) (w : World) (o : Order) :
    (orderPushed S env w o).ordersLog =
      (appendFile env.ordersLog w.ordersLog (createdLogLine o env.later)).1 := by
  show (serverSaveConfig env (appendOrdersMeta env (issueOrderId S w) _)).ordersLog = _
  rw [serverSaveConfig_ordersLog, appendOrdersMeta_ordersLog]
  rfl

theorem pushOrderLocked_ordersLog {w w' : World} {o : Order} (h : pushOrderLocked w o = some w') :
    w'.ordersLog = w.ordersLog := by
  obtain ⟨orders, -, rfl⟩ := Option.map_eq_some_iff.mp h
  rfl

theorem orderCreateStep_ordersLog {env : Env} {w w' : World} {line : Bytes} {tableId : Int}
    {o : Order} (h : orderCreateStep S env w line tableId = (.ok o, w')) :
    w'.ordersLog = (appendFile env.ordersLog w.ordersLog (createdLogLine o env.later)).1 := by
  unfold orderCreateStep at h
  split at h
  · cases h
  · unfold orderCreateLocked at h
    split at h
    · cases h
    · split at h
      · cases h
      · split at h
        · cases h
        · split at h
          · cases h
          · next hpush =>
            cases h
            rw [orderPushed_ordersLog, pushOrderLocked_ordersLog hpush]

theorem serverCreateOrder_ordersLog {env : Env} {w w' : World} {tableId : Int} {cart : Cart} {id : Int}
    (h : serverCreateOrder S env w tableId cart = (.ok id, w')) :
    ∃ o, orderBuildFromCart S w.ctx.cfg.nextOrderId tableId env.now cart = .ok o ∧
      w'.ordersLog = (appendFile env.ordersLog w.ordersLog (createdLogLine o env.later)).1 := by
  unfold serverCreateOrder at h
  split at h
  · cases h
  · split at h
    · cases h
    · next o ho =>
      split at h
      · cases h
      · next hpush =>
        cases h
        refine ⟨o, ho, ?_⟩
        rw [orderPushed_ordersLog, pushOrderLocked_ordersLog hpush]

theorem serverUpdateOrderStatus_ordersLog {env : Env} {w w' : World} {orderId : Int}
    {st : OrderStatus} (h : serverUpdateOrderStatus S env w orderId st = (.ok (), w')) :
    w'.ordersLog = (appendFile env.ordersLog w.ordersLog (statusLogLine orderId st env.now)).1 := by
  unfold serverUpdateOrderStatus at h
  split at h
  · cases h
  · split at h
    · cases h
    · split at h
      · cases h
      · cases h
        exact appendOrdersMeta_ordersLog env _ _

theorem serverCancelOrder_ordersLog (w : World) (orderId tableId : Int) :
    (serverCancelOrder S w orderId tableId).2.ordersLog = w.ordersLog := by
  unfold serverCancelOrder
  split
  · rfl
  · split
    · rfl
    · split <;> rfl

theorem serverPayOrder_ordersLog (env : Env) (w : World) (orderId : Int) :
    (serverPayOrder S env w orderId).2.ordersLog = w.ordersLog := by
  unfold serverPayOrder
  split
  · rfl
  · split
    · rfl
    · exact appendSalesMeta_ordersLog env _ _

end OrdersLog

/-- The log appends of this operation succeed, in both files. -/
def Action.LogsAll (a : Action) : Prop := a.1.ordersLog.Whole ∧ a.1.salesLog.Whole

/-- The order and the table of a request to cancel. -/
def Op.cancelRequest : Op → Option (Int × Int)
  | .cancelOrder orderId tableId => some (orderId, tableId)
  | .orderCancel line tableId => (protoParseOrderCancel line).toOption.map fun id => (id, tableId)
  | _ => none

/-- What an operation does to the orders and to the logs. -/
inductive Logged (env : Env) (op : Op) (w w' : World) : Prop
  | quiet (lines : List Bytes) : w'.ctx.orders = w.ctx.orders →
      w'.ordersLog = w.ordersLog ++ lines → (∀ line ∈ lines, logRecord line = none) →
      w'.salesLog = w.salesLog → Logged env op w w'
  | created (o : Order) : Created .wrap w w' o →
      w'.ordersLog = w.ordersLog ++ [createdLogLine o env.later] → Logged env op w w'
  | cooked (i : Nat) (o : Order) (st : OrderStatus) : Moved .wrap w w' i o st →
      validKitchenTransition o.status st = true →
      w'.ordersLog = w.ordersLog ++ [statusLogLine o.orderId st env.now] →
      w'.salesLog = w.salesLog → Logged env op w w'
  | cancelled (i : Nat) (o : Order) : op.cancelRequest = some (o.orderId, o.tableId) →
      ordersFind w.ctx.orders.items o.orderId = some (i, o) → o.status = .waiting →
      Moved .wrap w w' i o .cancelled → w'.ordersLog = w.ordersLog → w'.salesLog = w.salesLog →
      Logged env op w w'
  | paid (i : Nat) (o : Order) : Moved .wrap w w' i o .paid → o.status = .done →
      w'.ordersLog = w.ordersLog →
      w'.salesLog = w.salesLog ++ [saleLine o.orderId o env.now] → Logged env op w w'

theorem Logged.same (env : Env) (op : Op) (w : World) : Logged env op w w :=
  .quiet [] rfl (List.append_nil _).symm (by simp) rfl

/-- An order moved by a cancel request, or nothing. -/
theorem serverCancelOrder_logged (env : Env) {op : Op} (w : World) {orderId tableId : Int}
    (hop : op.cancelRequest = some (orderId, tableId)) :
    Logged env op w (serverCancelOrder .wrap w orderId tableId).2 := by
  have hlog := serverCancelOrder_ordersLog .wrap w orderId tableId
  rcases h : serverCancelOrder .wrap w orderId tableId with ⟨r, w'⟩
  rw [h] at hlog
  rcases serverCancelOrder_cases .wrap h with ⟨-, rfl⟩ |
    ⟨i, o, hfind, rfl, hwait, -, hsales, hmoved⟩
  · exact .same env op _
  · obtain ⟨-, rfl⟩ := ordersFind_eq_some hfind
    exact .cancelled i o hop hfind hwait hmoved hlog hsales

theorem serverUpdateOrderStatus_logged {env : Env} (hlogs : env.ordersLog.Whole) (op : Op) (w : World)
    (orderId : Int) (st : OrderStatus) :
    Logged env op w (serverUpdateOrderStatus .wrap env w orderId st).2 := by
  rcases h : serverUpdateOrderStatus .wrap env w orderId st with ⟨r, w'⟩
  rcases serverUpdateOrderStatus_cases .wrap h with ⟨-, rfl⟩ |
    ⟨i, o, hfind, hvalid, rfl, hsales, hmoved⟩
  · exact .same env op _
  · obtain ⟨-, rfl⟩ := ordersFind_eq_some hfind
    have hlog := serverUpdateOrderStatus_ordersLog .wrap h
    have hline : (statusLogLine o.orderId st env.now).length ≤ MAX_PROTO_LINE :=
      Nat.le_trans (length_clip_lt (by decide) _).le (by decide)
    rw [appendFile_whole hlogs _ hline] at hlog
    exact .cooked i o st hmoved hvalid hlog hsales

theorem Op.logged {env : Env} (horders : env.ordersLog.Whole) (hsales : env.salesLog.Whole) (op : Op)
    (w : World) : Logged env op w (op.run .wrap env w).2 := by
  have hcreated (o : Order) : (createdLogLine o env.later).length ≤ MAX_PROTO_LINE :=
    Nat.le_of_lt (length_clip_lt (by decide) _)
  cases op with
  | orderCreate line tableId =>
    rcases h : orderCreateStep .wrap env w line tableId with ⟨r, w'⟩
    simp only [Op.run, h]
    rcases orderCreateStep_cases .wrap h with ⟨-, rfl⟩ | ⟨_, _, _, o, -, -, -, -, rfl, hc⟩
    · exact .same env _ _
    · have hlog := orderCreateStep_ordersLog .wrap h
      rw [appendFile_whole horders _ (hcreated o)] at hlog
      exact .created o hc hlog
  | createOrder tableId cart =>
    rcases h : serverCreateOrder .wrap env w tableId cart with ⟨r, w'⟩
    simp only [Op.run, h]
    rcases serverCreateOrder_cases .wrap h with ⟨-, rfl⟩ | ⟨o, hbuilt, rfl, hc⟩
    · exact .same env _ _
    · obtain ⟨o', hbuilt', hlog⟩ := serverCreateOrder_ordersLog .wrap h
      rw [hbuilt] at hbuilt'
      obtain rfl := Except.ok.inj hbuilt'
      rw [appendFile_whole horders _ (hcreated o)] at hlog
      exact .created o hc hlog
  | orderUpdate line =>
    simp only [Op.run, handleOrderUpdateClient]
    split
    · exact .same env _ _
    · exact serverUpdateOrderStatus_logged horders _ w _ _
  | updateOrderStatus orderId status => exact serverUpdateOrderStatus_logged horders _ w orderId status
  | orderCancel line tableId =>
    show Logged env _ w (orderCancelStep .wrap w line tableId).2
    unfold orderCancelStep
    split
    · exact .same env _ _
    · next hparse =>
      apply serverCancelOrder_logged
      rw [Op.cancelRequest, hparse]
      rfl
  | cancelOrder orderId tableId => exact serverCancelOrder_logged env w rfl
  | payOrder orderId =>
    have hlog := serverPayOrder_ordersLog .wrap env w orderId
    rcases h : serverPayOrder .wrap env w orderId with ⟨r, w'⟩
    simp only [Op.run, h]
    rw [h] at hlog
    rcases serverPayOrder_cases .wrap h with ⟨-, rfl⟩ | ⟨i, o, hfind, hdone, rfl, hsale, hmoved⟩
    · exact .same env _ _
    · obtain ⟨-, rfl⟩ := ordersFind_eq_some hfind
      rw [appendFile_whole hsales _ (length_saleLine_le _ _ _)] at hsale
      exact .paid i o hmoved hdone hlog hsale
  | staffLog tbl =>
    refine .quiet [staffLogLine tbl env.later] (by simp [Op.run]) ?_ ?_ (by simp [Op.run])
    · have hline : (staffLogLine tbl env.later).length ≤ MAX_PROTO_LINE :=
        Nat.le_trans (length_clip_lt (by decide) _).le (by decide)
      show (appendOrdersMeta env w _).ordersLog = _
      rw [appendOrdersMeta_ordersLog, appendFile_whole horders _ hline]
    · intro line hline
      rw [List.mem_singleton.mp hline]
      exact logRecord_staff tbl env.later
  | saveConfig =>
    refine .quiet [] (by simp [Op.run]) ?_ (by simp) (by simp [Op.run])
    show (serverSaveConfig env w).ordersLog = _
    rw [serverSaveConfig_ordersLog, List.append_nil]
  | enter fd kind tableId =>
    exact .quiet [] (by simp [Op.run]) (List.append_nil _).symm (by simp) rfl
  | leave fd => exact .quiet [] (by simp [Op.run]) (List.append_nil _).symm (by simp) rfl
  | reply | staffCall | staffTouch | staffBroadcast | staffClear | changeMenu | menuSync | syncMaxTables =>
    exact .quiet [] rfl (List.append_nil _).symm (by simp) rfl

/-! ## Replaying a run -/

/-- The lines of `orders.log`, then those of `sales.log`. -/
def logRecords (orderLines saleLines : List Bytes) : List (Int × OrderStatus) :=
  orderLines.filterMap logRecord ++ saleLines.filterMap logRecord

/-- Replaying what was appended since `start` gives the orders and their statuses. -/
def Reconstructs (start w : World) : Prop :=
  ∃ orderLines saleLines, w.ordersLog = start.ordersLog ++ orderLines ∧
    w.salesLog = start.salesLog ++ saleLines ∧
    ∀ id st, replay (logRecords orderLines saleLines) id = some st ↔
      ∃ o ∈ w.ctx.orders.items, o.orderId = id ∧ o.status = st

/-- A cancelled order is a waiting one in the logs. -/
def Order.toldStatus (o : Order) : OrderStatus := if o.status = .cancelled then .waiting else o.status

/-- What the logs tell in any run: every order, and only paid ones in `sales.log`. -/
structure Told (start w : World) (orderLines saleLines : List Bytes) : Prop where
  ordersLog : w.ordersLog = start.ordersLog ++ orderLines
  salesLog : w.salesLog = start.salesLog ++ saleLines
  tells : Tells (·.orderId) Order.toldStatus (logRecords orderLines saleLines) w.ctx.orders.items
  sold : ∀ id ∈ (saleLines.filterMap logRecord).map Prod.fst,
    ∃ o ∈ w.ctx.orders.items, o.orderId = id ∧ o.status = .paid

theorem Numbered.fits {n : Int} {w : World} (h : Numbered n w) {o : Order}
    (ho : o ∈ w.ctx.orders.items) : FitsInt o.orderId := by
  obtain ⟨i, hi⟩ := List.mem_iff_getElem?.mp ho
  rw [h.ids i o hi]
  exact IntSem.wrap_norm_fits _

/-- A sold order is still there, and still paid, when another one moves. -/
theorem sold_set {orders : List Order} {i : Nat} {o o' : Order} {ids : List Int}
    (hsold : ∀ id ∈ ids, ∃ v ∈ orders, v.orderId = id ∧ v.status = .paid) (ho : orders[i]? = some o)
    (hlive : o.status ≠ .paid) :
    ∀ id ∈ ids, ∃ v ∈ orders.set i o', v.orderId = id ∧ v.status = .paid := by
  intro id hid
  obtain ⟨v, hv, hvid, hpaid⟩ := hsold id hid
  obtain ⟨j, hj⟩ := List.mem_iff_getElem?.mp hv
  have hne : i ≠ j := by
    rintro rfl
    rw [ho] at hj
    obtain rfl := Option.some.inj hj
    exact hlive hpaid
  refine ⟨v, List.mem_of_getElem? (i := j) ?_, hvid, hpaid⟩
  rw [List.getElem?_set_ne hne, hj]

/-- An order that is not paid is not in `sales.log`. -/
theorem Told.not_sold {start w : World} {orderLines saleLines : List Bytes}
    (h : Told start w orderLines saleLines) (hnd : (w.ctx.orders.items.map (·.orderId)).Nodup)
    {o : Order} (ho : o ∈ w.ctx.orders.items) (hlive : o.status ≠ .paid) :
    o.orderId ∉ (saleLines.filterMap logRecord).map Prod.fst := by
  intro hmem
  obtain ⟨v, hv, hid, hpaid⟩ := h.sold _ hmem
  have hsame := List.inj_on_of_nodup_map hnd hv ho hid
  rw [hsame] at hpaid
  exact hlive hpaid

theorem logRecords_order {orderLines saleLines : List Bytes} {line : Bytes} {r : Int × OrderStatus}
    (h : logRecord line = some r) : logRecords (orderLines ++ [line]) saleLines =
      orderLines.filterMap logRecord ++ [r] ++ saleLines.filterMap logRecord := by
  rw [logRecords, List.filterMap_append]
  simp [h]

theorem logRecords_sale {orderLines saleLines : List Bytes} {line : Bytes} {r : Int × OrderStatus}
    (h : logRecord line = some r) : logRecords orderLines (saleLines ++ [line]) =
      logRecords orderLines saleLines ++ [r] ++ [] := by
  rw [logRecords, logRecords, List.filterMap_append]
  simp [h]

/-- Every operation keeps it, whatever it is. -/
theorem Told.step {n : Int} {start w w' : World} {env : Env} {op : Op} (hw : Numbered n w)
    (hw' : Numbered n w') (h : ∃ orderLines saleLines, Told start w orderLines saleLines)
    (hlogged : Logged env op w w') : ∃ orderLines saleLines, Told start w' orderLines saleLines := by
  obtain ⟨orderLines, saleLines, h⟩ := h
  have hnd := hw.nodup
  cases hlogged with
  | quiet lines horders hlog hnone hsales =>
    refine ⟨orderLines ++ lines, saleLines, by rw [hlog, h.ordersLog, List.append_assoc],
      hsales.trans h.salesLog, ?_, by rw [horders]; exact h.sold⟩
    have hquiet : lines.filterMap logRecord = [] := List.filterMap_eq_nil_iff.mpr hnone
    rw [logRecords, List.filterMap_append, hquiet, List.append_nil, horders]
    exact h.tells
  | created o hc hlog =>
    have hnew : o.orderId ∉ w.ctx.orders.items.map (·.orderId) := by
      have hnd' := hw'.nodup
      rw [hc.orders, List.map_append, List.nodup_append] at hnd'
      intro hmem
      exact hnd'.2.2 _ hmem _ (List.mem_singleton_self _) rfl
    have hfits := hw'.fits (o := o) (by rw [hc.orders]; simp)
    refine ⟨orderLines ++ [createdLogLine o env.later], saleLines,
      by rw [hlog, h.ordersLog, List.append_assoc], hc.salesLog.trans h.salesLog, ?_, ?_⟩
    · have hst : o.toldStatus = .waiting := by rw [Order.toldStatus, hc.waiting]; rfl
      rw [logRecords_order (logRecord_created hfits _), hc.orders, ← hst]
      refine h.tells.push hnd hnew ?_
      intro hsold
      obtain ⟨v, hv, hid, -⟩ := h.sold _ hsold
      exact hnew (hid ▸ List.mem_map_of_mem hv)
    · intro id hid
      obtain ⟨v, hv, hrest⟩ := h.sold id hid
      exact ⟨v, by rw [hc.orders]; exact List.mem_append_left _ hv, hrest⟩
  | cooked i o st hm hvalid hlog hsales =>
    have ho := List.mem_of_getElem? hm.found
    obtain ⟨hcur, hnew⟩ := not_terminal_of_transition hvalid
    have hlive : o.status ≠ .paid := fun hst => by rw [hst] at hcur; cases hcur
    refine ⟨orderLines ++ [statusLogLine o.orderId st env.now], saleLines,
      by rw [hlog, h.ordersLog, List.append_assoc], hsales.trans h.salesLog, ?_, ?_⟩
    · have hst : (o.withStatus st).toldStatus = st := by
        refine if_neg fun hcancel => ?_
        rw [withStatus_status] at hcancel
        rw [hcancel] at hnew
        cases hnew
      have hset := h.tells.set (b := o.withStatus st) hnd hm.found rfl (h.not_sold hnd ho hlive)
      rw [hst] at hset
      rw [logRecords_order (logRecord_status (hw.fits ho) st _), hm.orders]
      exact hset
    · rw [hm.orders]
      exact sold_set h.sold hm.found hlive
  | cancelled i o hop hfind hwait hm hlog hsales =>
    refine ⟨orderLines, saleLines, hlog.trans h.ordersLog, hsales.trans h.salesLog, ?_, ?_⟩
    · rw [hm.orders]
      refine h.tells.set_same hnd hm.found rfl ?_
      -- it was told to be waiting, and it still is
      rw [Order.toldStatus, Order.toldStatus, hwait]
      rfl
    · rw [hm.orders]
      exact sold_set h.sold hm.found (by rw [hwait]; decide)
  | paid i o hm hdone hlog hsales =>
    have ho := List.mem_of_getElem? hm.found
    have hsale := logRecord_sale (hw.fits ho) env.now
    refine ⟨orderLines, saleLines ++ [saleLine o.orderId o env.now], hlog.trans h.ordersLog,
      by rw [hsales, h.salesLog, List.append_assoc], ?_, ?_⟩
    · have hlast : Tells (·.orderId) Order.toldStatus (logRecords orderLines saleLines ++ [])
          w.ctx.orders.items := by
        rw [List.append_nil]
        exact h.tells
      have hset := hlast.set (b := o.withStatus .paid) hnd hm.found rfl List.not_mem_nil
      rw [logRecords_sale hsale, hm.orders]
      exact hset
    · rw [List.filterMap_append, List.map_append]
      intro id hid
      rcases List.mem_append.mp hid with hid | hid
      · rw [hm.orders]
        exact sold_set h.sold hm.found (by rw [hdone]; decide) id hid
      · have hid : id = o.orderId := by simpa [hsale] using hid
        refine ⟨o.withStatus .paid, ?_, hid.symm, rfl⟩
        rw [hm.orders]
        exact List.mem_set (List.getElem?_eq_some_iff.mp hm.found).1 _

theorem told_runOps {w : World} (hstart : Started w) {as : List Action}
    (hlogs : ∀ a ∈ as, a.LogsAll) :
    ∃ orderLines saleLines, Told w (runOps .wrap w as) orderLines saleLines := by
  let I (v : World) := Numbered w.ctx.cfg.nextOrderId v ∧
    ∃ orderLines saleLines, Told w v orderLines saleLines
  have hinit : I w := by
    refine ⟨Numbered.of_started hstart, [], [], (List.append_nil _).symm, (List.append_nil _).symm,
      ?_, by simp⟩
    rw [started_orders hstart]
    exact Tells.nil
  have hstep : ∀ (a : Action) (v : World), a.LogsAll → I v → I (step .wrap a v) := by
    rintro a v ⟨horders, hsales⟩ ⟨hnum, htold⟩
    have hnum' := hnum.effect (a.2.effect .wrap a.1 v)
    exact ⟨hnum', Told.step hnum hnum' htold (a.2.logged horders hsales v)⟩
  exact (Runs.run_invariant hstep hinit hlogs).2

/-! ## Cancelled orders -/

/-- A request to cancel that is granted: the order is found, waits, and is of this table. -/
def Cancels (a : Action) (w : World) : Prop :=
  ∃ i o, a.2.cancelRequest = some (o.orderId, o.tableId) ∧
    ordersFind w.ctx.orders.items o.orderId = some (i, o) ∧ o.status = .waiting

def NoneCancelled (w : World) : Prop := ∀ o ∈ w.ctx.orders.items, o.status ≠ .cancelled

theorem Cancels.moves {a : Action} {w : World} (h : Cancels a w) :
    ∃ (i : Nat) (o : Order), (step .wrap a w).ctx.orders.items[i]? = some o ∧
      o.status = .cancelled := by
  obtain ⟨i, o, hop, hfind, hwait⟩ := h
  have hrun : (step .wrap a w).ctx.orders =
      (serverCancelOrder .wrap w o.orderId o.tableId).2.ctx.orders := by
    unfold step
    cases hcase : a.2 with
    | cancelOrder orderId tableId =>
      rw [hcase] at hop
      cases hop
      rfl
    | orderCancel line tableId =>
      rw [hcase, Op.cancelRequest] at hop
      cases hparse : protoParseOrderCancel line with
      | error e =>
        rw [hparse] at hop
        cases hop
      | ok id =>
        rw [hparse] at hop
        cases hop
        show (orderCancelStep .wrap w line _).2.ctx.orders = _
        rw [orderCancelStep, hparse]
    | _ =>
      rw [hcase] at hop
      cases hop
  have hset : (step .wrap a w).ctx.orders.items =
      w.ctx.orders.items.set i (o.withStatus .cancelled) := by
    rw [hrun, serverCancelOrder, hfind]
    simp only [ne_eq, not_true_eq_false, if_false, hwait]
    exact modify_eq_set (ordersFind_eq_some hfind).1
  refine ⟨i, o.withStatus .cancelled, ?_, rfl⟩
  rw [hset]
  exact List.getElem?_set_self (List.getElem?_eq_some_iff.mp (ordersFind_eq_some hfind).1).1

/-- Nothing else cancels an order. -/
theorem Logged.noneCancelled {a : Action} {w w' : World} (h : Logged a.1 a.2 w w')
    (hcancel : ¬ Cancels a w) (hw : NoneCancelled w) : NoneCancelled w' := by
  have hset {i : Nat} {o : Order} {st : OrderStatus} (hm : Moved .wrap w w' i o st)
      (hst : st ≠ .cancelled) : NoneCancelled w' := by
    intro v hv
    rw [hm.orders] at hv
    rcases List.mem_or_eq_of_mem_set hv with hv | rfl
    · exact hw v hv
    · exact hst
  cases h with
  | quiet lines horders =>
    intro v hv
    rw [horders] at hv
    exact hw v hv
  | created o hc =>
    intro v hv
    rw [hc.orders, List.mem_append, List.mem_singleton] at hv
    rcases hv with hv | rfl
    · exact hw v hv
    · rw [hc.waiting]
      decide
  | cooked i o st hm hvalid =>
    apply hset hm
    rintro rfl
    exact absurd (not_terminal_of_transition hvalid).2 (by decide)
  | cancelled i o hop hfind hwait => exact absurd ⟨i, o, hop, hfind, hwait⟩ hcancel
  | paid i o hm => exact hset hm (by decide)

theorem noneCancelled_iff {w : World} (hstart : Started w) {as : List Action}
    (hlogs : ∀ a ∈ as, a.LogsAll) : NoneCancelled (runOps .wrap w as) ↔
      Runs.AllSteps (step .wrap) (fun a v => ¬ Cancels a v) w as := by
  constructor
  · intro hnone
    rw [Runs.allSteps_iff]
    rintro pre a post rfl hcancel
    -- a cancelled order is still there at the end
    obtain ⟨i, o, ho, hst⟩ := hcancel.moves
    obtain ⟨st, hlast, hkeep⟩ := later_order post ho
    rw [runOps_append, runOps_cons] at hnone
    apply hnone _ (List.mem_of_getElem? hlast)
    rw [withStatus_status, hkeep (by rw [hst]; rfl), hst]
  · intro hall
    have hfirst : NoneCancelled w := by
      intro o ho
      rw [started_orders hstart] at ho
      cases ho
    refine Runs.AllSteps.invariant (Q := Action.LogsAll) (I := NoneCancelled) ?_ hfirst hlogs hall
    intro a v ha hcancel hv
    exact (a.2.logged ha.1 ha.2 v).noneCancelled hcancel hv

/-- The logs of a run give its orders and their statuses if and only if no order was cancelled. -/
theorem reconstructs_iff {w : World} (hstart : Started w) {as : List Action}
    (hlogs : ∀ a ∈ as, a.LogsAll) : Reconstructs w (runOps .wrap w as) ↔
      Runs.AllSteps (step .wrap) (fun a v => ¬ Cancels a v) w as := by
  rw [← noneCancelled_iff hstart hlogs]
  have hnd := (numbered_runOps (Numbered.of_started hstart) as).nodup
  obtain ⟨orderLines, saleLines, h⟩ := told_runOps hstart hlogs
  have hagree : (∀ o ∈ (runOps .wrap w as).ctx.orders.items, o.status = o.toldStatus) ↔
      NoneCancelled (runOps .wrap w as) := by
    have hstatus (o : Order) : o.status = o.toldStatus ↔ o.status ≠ .cancelled := by
      unfold Order.toldStatus
      cases o.status <;> decide
    exact forall₂_congr fun o _ => hstatus o
  rw [← hagree, ← h.tells.val_eq hnd, Replay.tells_iff hnd]
  constructor
  · rintro ⟨orderLines', saleLines', horders, hsales, hreplay⟩
    rw [h.ordersLog, List.append_cancel_left_eq] at horders
    rw [h.salesLog, List.append_cancel_left_eq] at hsales
    subst horders hsales
    exact hreplay
  · intro hreplay
    exact ⟨orderLines, saleLines, h.ordersLog, h.salesLog, hreplay⟩

/-- A table orders and takes the order back. -/
def takenBack : List Action :=
  [(Env.fair 1, .orderCreate (lit "ORDER_CREATE|table=2|items=1:2") 2), (Env.fair 2, .cancelOrder 1 2)]

theorem takenBack_logs : ∀ a ∈ takenBack, a.LogsAll := by
  have hfair (now : Int) (op : Op) : Action.LogsAll (Env.fair now, op) :=
    ⟨⟨MAX_PROTO_LINE, rfl, le_rfl⟩, ⟨MAX_PROTO_LINE, rfl, le_rfl⟩⟩
  intro a ha
  rw [takenBack, List.mem_pair] at ha
  rcases ha with rfl | rfl
  · exact hfair _ _
  · exact hfair _ _

theorem reconstructs_iff_takenBack :
    let w := (serverLoadPersistent (World.boot none none)).2
    Reconstructs w (runOps .wrap w takenBack) ↔
      Runs.AllSteps (step .wrap) (fun a v => ¬ Cancels a v) w takenBack := by
  rw [firstStart_eq]
  exact reconstructs_iff started_firstStart takenBack_logs

theorem takenBack_lines :
    let w := firstStart
    (runOps .wrap w takenBack).ctx.orders.items.map (fun o => (o.orderId, o.status)) =
        [(1, .cancelled)] ∧
      (runOps .wrap w takenBack).ordersLog =
        [lit "ORDER_CREATED id=1 table=2 total=18000 ts=1\n"] ∧
      w.ordersLog = [] ∧ w.salesLog = [] ∧ (runOps .wrap w takenBack).salesLog = [] := by
  decide +kernel

theorem reconstructs_fails :
    ¬ ∀ w, Started w → ∀ as : List Action, (∀ a ∈ as, a.LogsAll) →
      Reconstructs w (runOps .wrap w as) := by
  intro h
  obtain ⟨hstatus, hlog, hlog₀, hsales₀, hsales⟩ := takenBack_lines
  obtain ⟨orderLines, saleLines, horders, hsold, hreplay⟩ :=
    h firstStart started_firstStart takenBack takenBack_logs
  rw [hlog, hlog₀, List.nil_append] at horders
  rw [hsales, hsales₀, List.nil_append] at hsold
  subst horders hsold
  have hmem : (1, OrderStatus.cancelled) ∈ (runOps .wrap firstStart takenBack).ctx.orders.items.map
      (fun o => (o.orderId, o.status)) := by
    rw [hstatus]
    exact List.mem_singleton_self _
  obtain ⟨o, ho, heq⟩ := List.mem_map.mp hmem
  have hcancelled := (hreplay 1 .cancelled).mpr
    ⟨o, ho, congrArg Prod.fst heq, congrArg Prod.snd heq⟩
  revert hcancelled
  decide +kernel

end TableOrder
