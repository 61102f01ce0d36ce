import TableOrder.Server.Sales

/-!
# Payments at the POS (`ui.c`)

The payment keys of `ui_run_pos` run beside the client threads and take the lock only piecewise.
Enter lists the orders of the table, reads the one at the cursor and pays it, in three critical
sections; `y` lists the DONE orders once and then pays them one by one. A `Till` is the server with
the POS thread somewhere inside such a key, and a run of the till is any interleaving.
-/

namespace TableOrder

open CLib

/-! ## The lists -/

/-- The order is shown for this table: not cancelled, and of the table if one is set. -/
def listedFor (tableId : Int) (o : Order) : Bool :=
  o.status != .cancelled && (decide (tableId ≤ 0) || o.tableId == tableId)

/-- The positions in the array of the orders shown for a table. -/
def uiPosCollectTableOrderIndices (orders : List Order) (tableId : Int) (maxIdxs : Nat) :
    List Nat :=
  ((List.range orders.length).filter fun i => orders[i]?.any (listedFor tableId)).take maxIdxs

def uiPosCollectTableDoneIds (orders : List Order) (tableId : Int) (maxIds : Nat) : List Int :=
  ((orders.filter fun o => o.status == .done && (decide (tableId ≤ 0) || o.tableId == tableId)).map
    (·.orderId)).take maxIds

/-- The id and the status of the order at row `sel` of the list; `none` is a cursor below it. -/
def payRow (orders : List Order) (idxs : List Nat) (sel : Nat) : Option (Int × OrderStatus) :=
  match idxs[sel]? with
  | none => none
  | some i => orders[i]?.map fun o => (o.orderId, o.status)

/-! ## The till -/

/-- Where the POS thread is inside a payment key. -/
inductive Paying where
  | idle
  | listed (idxs : List Nat) (sel : Nat)
  | chosen (orderId : Int) (status : OrderStatus)
  | queue (ids : List Int)

structure Till where
  world : World
  paying : Paying

inductive TillAction where
  /-- An operation of another thread, or of the POS outside the payment keys. -/
  | server (a : Action)
  | pressEnter (payTable : Int) (sel : Nat)
  | readRow
  | payChosen (env : Env)
  | pressY (payTable : Int)
  | payNext (env : Env)

variable (S : IntSem)

/-- A step the thread is not ready for does nothing. -/
def tillStep : TillAction → Till → Till
  | .server a, t => { t with world := step S a t.world }
  | .pressEnter payTable sel, ⟨w, .idle⟩ =>
    ⟨w, .listed (uiPosCollectTableOrderIndices w.ctx.orders.items payTable MAX_ORDERS) sel⟩
  | .readRow, ⟨w, .listed idxs sel⟩ =>
    match payRow w.ctx.orders.items idxs sel with
    | none => ⟨w, .idle⟩
    | some (orderId, status) => ⟨w, .chosen orderId status⟩
  | .payChosen env, ⟨w, .chosen orderId status⟩ =>
    if status = .done then ⟨(serverPayOrder S env w orderId).2, .idle⟩ else ⟨w, .idle⟩
  | .pressY payTable, ⟨w, .idle⟩ =>
    if 0 < payTable then
      ⟨w, .queue (uiPosCollectTableDoneIds w.ctx.orders.items payTable MAX_ORDERS)⟩
    else ⟨w, .idle⟩
  | .payNext env, ⟨w, .queue (orderId :: ids)⟩ =>
    ⟨(serverPayOrder S env w orderId).2, .queue ids⟩
  | .payNext _, ⟨w, .queue []⟩ => ⟨w, .idle⟩
  | _, t => t

def runTill (t : Till) (as : List TillAction) : Till := Runs.run (tillStep S) t as

/-- The arguments and the clock are C values. -/
def TillAction.Fits : TillAction → Prop
  | .server a => a.Fits
  | .payChosen env => FitsLong env.now
  | .payNext env => FitsLong env.now
  | _ => True

def TillAction.Logs : TillAction → Prop
  | .server a => a.Logs
  | .payChosen env => env.salesLog.Whole
  | .payNext env => env.salesLog.Whole
  | _ => True

/-- On the world a step of the till is an operation of the server or nothing. -/
theorem tillStep_world (a : TillAction) (t : Till) :
    (tillStep S a t).world = t.world ∨
      ∃ b : Action, (tillStep S a t).world = step S b t.world ∧ (a.Fits → b.Fits) ∧
        (a.Logs → b.Logs) := by
  obtain ⟨w, p⟩ := t
  cases a with
  | server b => exact Or.inr ⟨b, rfl, id, id⟩
  | pressEnter payTable sel => cases p <;> exact Or.inl rfl
  | readRow =>
    left
    cases p with
    | listed idxs sel =>
      simp only [tillStep]
      split <;> rfl
    | _ => rfl
  | payChosen env =>
    cases p with
    | chosen orderId status =>
      simp only [tillStep]
      split
      · exact Or.inr ⟨(env, .payOrder orderId), rfl, fun h => ⟨h, trivial⟩, id⟩
      · exact Or.inl rfl
    | _ => exact Or.inl rfl
  | pressY payTable =>
    left
    cases p with
    | idle =>
      simp only [tillStep]
      split <;> rfl
    | _ => rfl
  | payNext env =>
    cases p with
    | queue ids =>
      cases ids with
      | nil => exact Or.inl rfl
      | cons orderId ids =>
        exact Or.inr ⟨(env, .payOrder orderId), rfl, fun h => ⟨h, trivial⟩, id⟩
    | _ => exact Or.inl rfl

/-- A run of the till is, on the world, a run of the server. -/
theorem runTill_world (t : Till) {as : List TillAction} (hfits : ∀ a ∈ as, a.Fits)
    (hlogs : ∀ a ∈ as, a.Logs) :
    ∃ bs : List Action, (runTill S t as).world = runOps S t.world bs ∧ (∀ b ∈ bs, b.Fits) ∧
      ∀ b ∈ bs, b.Logs := by
  induction as generalizing t with
  | nil => exact ⟨[], rfl, by simp, by simp⟩
  | cons a as ih =>
    obtain ⟨bs, hrun, hbf, hbl⟩ := ih (tillStep S a t) (fun b hb => hfits b (by simp [hb]))
      (fun b hb => hlogs b (by simp [hb]))
    rcases tillStep_world S a t with hsame | ⟨b, hb, hf, hl⟩
    · rw [hsame] at hrun
      exact ⟨bs, hrun, hbf, hbl⟩
    · refine ⟨b :: bs, ?_, ?_, ?_⟩
      · rw [runOps_cons, ← hb]
        exact hrun
      · intro c hc
        rcases List.mem_cons.mp hc with rfl | hc
        · exact hf (hfits a (by simp))
        · exact hbf c hc
      · intro c hc
        rcases List.mem_cons.mp hc with rfl | hc
        · exact hl (hlogs a (by simp))
        · exact hbl c hc

/-! ## Sales and payments agree -/

/-- After any interleaving of the payment keys with the rest of the server, the lines this run
appended to the sales log are those of the PAID orders. -/
theorem sales_match {w : World} (hstart : Started w) {as : List TillAction}
    (hfits : ∀ a ∈ as, a.Fits) (hlogs : ∀ a ∈ as, a.Logs) :
    ∃ lines, (runTill .wrap ⟨w, .idle⟩ as).world.salesLog = w.salesLog ++ lines ∧
      SalesMatch lines (runTill .wrap ⟨w, .idle⟩ as).world.ctx.orders.items := by
  obtain ⟨bs, hrun, hbf, hbl⟩ := runTill_world .wrap ⟨w, .idle⟩ hfits hlogs
  rw [hrun]
  exact (ledger_runOps hstart hbf hbl).salesMatch
    (numbered_runOps (Numbered.of_started hstart) bs).nodup

/-- One order placed and cooked; `y` collects its id, the kitchen takes it back before the first
payment of that key, and a later `y` pays it. -/
theorem sales_match_stale :
    let w := (serverLoadPersistent (World.boot none none)).2
    let as : List TillAction :=
      [.server (Env.fair 1, .orderCreate (lit "ORDER_CREATE|table=2|items=1:2,3:1") 2),
        .server (Env.fair 2, .updateOrderStatus 1 .done), .pressY 2,
        .server (Env.fair 3, .updateOrderStatus 1 .cooking), .payNext (Env.fair 4),
        .payNext (Env.fair 4), .server (Env.fair 5, .updateOrderStatus 1 .done), .pressY 2,
        .payNext (Env.fair 6)]
    ∃ lines, (runTill .wrap ⟨w, .idle⟩ as).world.salesLog = w.salesLog ++ lines ∧
      SalesMatch lines (runTill .wrap ⟨w, .idle⟩ as).world.ctx.orders.items := by
  have hfair (now : Int) : (Env.fair now).salesLog.Whole := ⟨MAX_PROTO_LINE, rfl, Nat.le_refl _⟩
  rw [firstStart_eq]
  apply sales_match started_firstStart
  · simp only [List.forall_mem_cons]
    refine ⟨⟨?_, ?_⟩, ⟨?_, ?_⟩, ?_, ⟨?_, ?_⟩, ?_, ?_, ⟨?_, ?_⟩, ?_, ?_, by simp⟩ <;> trivial
  · simp only [List.forall_mem_cons]
    exact ⟨hfair 1, hfair 2, trivial, hfair 3, hfair 4, hfair 4, hfair 5, trivial, hfair 6, by simp⟩

end TableOrder
