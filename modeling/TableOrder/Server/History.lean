import TableOrder.Server.Steps

/-!
# The history of the order store

What holds of the order array along every run of the server, whatever its threads ask for. One
operation is described by `StoreStep`; `History` collects the laws of a whole run, and `history`
proves them from any started server.
-/

namespace TableOrder

open CLib
open Relation (ReflTransGen)

def orderList (w : World) : List Order := w.ctx.orders.items

/-! ## One operation -/

/-- An order before and after one operation. -/
structure OrderStep (op : Op) (o o' : Order) : Prop where
  orderId : o'.orderId = o.orderId
  tableId : o'.tableId = o.tableId
  items : o'.items = o.items
  totalPrice : o'.totalPrice = o.totalPrice
  createdAt : o'.createdAt = o.createdAt
  cancelled : o'.status = .cancelled → o.status ≠ .cancelled →
    o.status = .waiting ∧ op.CancelsFor o.tableId
  paid : o'.status = .paid → o.status ≠ .paid → o.status = .done
  terminal : o.status = .paid ∨ o.status = .cancelled → o' = o

/-- The array before and after one operation. -/
structure StoreStep (op : Op) (failed : Bool) (before after : List Order) : Prop where
  kept : ∀ (i : Nat) (o : Order), before[i]? = some o →
    ∃ o', after[i]? = some o' ∧ OrderStep op o o'
  fresh : ∀ (i : Nat) (o : Order), before[i]? = none → after[i]? = some o → o.status = .waiting
  failed : failed = true → after = before

theorem OrderStep.refl (op : Op) (o : Order) : OrderStep op o o where
  orderId := rfl
  tableId := rfl
  items := rfl
  totalPrice := rfl
  createdAt := rfl
  cancelled := fun h hne => absurd h hne
  paid := fun h hne => absurd h hne
  terminal := fun _ => rfl

/-- A finished order does not move. -/
theorem Op.Moves.not_terminal {op : Op} {o o' : Order} (h : op.Moves o o') :
    o.status.terminal = false := by
  obtain ⟨st, -, hvalid | ⟨hw, -, -⟩ | ⟨hd, -⟩⟩ := h
  · exact (not_terminal_of_transition hvalid).1
  · rw [hw]
    rfl
  · rw [hd]
    rfl

theorem Op.Moves.orderStep {op : Op} {o o' : Order} (h : op.Moves o o') : OrderStep op o o' := by
  have hlive := h.not_terminal
  obtain ⟨st, rfl, hmove⟩ := h
  constructor
  · rfl
  · rfl
  · rfl
  · rfl
  · rfl
  · intro hst _
    rw [withStatus_status] at hst
    subst hst
    rcases hmove with hvalid | ⟨hw, -, hop⟩ | ⟨-, hst⟩
    · exact absurd (not_terminal_of_transition hvalid).2 (by decide)
    · exact ⟨hw, hop⟩
    · cases hst
  · intro hst _
    rw [withStatus_status] at hst
    subst hst
    rcases hmove with hvalid | ⟨-, hst, -⟩ | ⟨hd, -⟩
    · exact absurd (not_terminal_of_transition hvalid).2 (by decide)
    · cases hst
    · exact hd
  · intro hterm
    rcases hterm with hp | hc
    · rw [hp] at hlive
      cases hlive
    · rw [hc] at hlive
      cases hlive

theorem Effect.failed_orders {S : IntSem} {env : Env} {op : Op} {w w' : World}
    (h : Effect S env op w w' true) : w'.ctx.orders = w.ctx.orders := by
  cases h with
  | quiet _ _ horders => exact horders

theorem storeStep (S : IntSem) (env : Env) (op : Op) (w : World) :
    StoreStep op (op.run S env w).1 (orderList w) (orderList (op.run S env w).2) := by
  have heffect := op.effect S env w
  have hgrow := heffect.grow
  constructor
  · intro i o ho
    obtain ⟨o', ho', hrel⟩ := hgrow.lookup ho
    refine ⟨o', ho', ?_⟩
    rcases hrel with rfl | hmoves
    · exact OrderStep.refl op o'
    · exact hmoves.orderStep
  · intro i o hnone ho
    rcases hgrow.origin ho with ⟨a, ha, -⟩ | ⟨-, hnew⟩
    · rw [orderList] at hnone
      rw [hnone] at ha
      cases ha
    · exact hnew
  · intro hfailed
    rw [hfailed] at heffect
    exact congrArg Arr.items heffect.failed_orders

/-! ## Whole runs -/

/-- Some operation moves the order so. -/
def SomeMove (o o' : Order) : Prop := ∃ op : Op, op.Moves o o'

theorem grows_runOps (S : IntSem) (w : World) (as : List Action) :
    Runs.Grows (fun o : Order => o.status = .waiting) SomeMove (orderList w)
      (orderList (runOps S w as)) := by
  refine Runs.run_chain (f := orderList) ?_ w as
  intro a v
  have hgrow := (a.2.effect S a.1 v).grow
  exact hgrow.mono fun _ _ hmove => ⟨a.2, hmove⟩

/-- Along any moves only the status changes, and a finished order not at all. -/
theorem moves_withStatus {o o' : Order} (h : ReflTransGen SomeMove o o') :
    o' = o.withStatus o'.status ∧ (o.status.terminal = true → o' = o) := by
  induction h with
  | refl => exact ⟨rfl, fun _ => rfl⟩
  | tail _ hmove ih =>
    obtain ⟨op, hmove⟩ := hmove
    obtain ⟨heq, hterm⟩ := ih
    have hlive := hmove.not_terminal
    obtain ⟨st, rfl, -⟩ := hmove
    refine ⟨?_, ?_⟩
    · rw [withStatus_status]
      conv_lhs => rw [heq, withStatus_withStatus]
    · intro ht
      rw [hterm ht, ht] at hlive
      cases hlive

/-- Later an order is where it was, in another status at most. -/
theorem later_order {w : World} (as : List Action) {i : Nat} {o : Order}
    (ho : w.ctx.orders.items[i]? = some o) :
    ∃ st, (runOps .wrap w as).ctx.orders.items[i]? = some (o.withStatus st) ∧
      (o.status.terminal = true → st = o.status) := by
  obtain ⟨o', ho', hmoves⟩ := (grows_runOps .wrap w as).lookup ho
  obtain ⟨heq, hterm⟩ := moves_withStatus hmoves
  refine ⟨o'.status, ?_, ?_⟩
  · rw [← heq]
    exact ho'
  · intro h
    rw [hterm h]

/-- The laws of a run from `w`. -/
structure History (w : World) (as : List Action) : Prop where
  nodup : ((orderList (runOps .wrap w as)).map (·.orderId)).Nodup
  step : ∀ pre env op post, as = pre ++ (env, op) :: post →
    StoreStep op (op.run .wrap env (runOps .wrap w pre)).1 (orderList (runOps .wrap w pre))
      (orderList (runOps .wrap w (pre ++ [(env, op)])))
  later : ∀ pre post, as = pre ++ post → ∀ (i : Nat) (o : Order),
    (orderList (runOps .wrap w pre))[i]? = some o →
    ∃ o', (orderList (runOps .wrap w as))[i]? = some o' ∧ o' = o.withStatus o'.status ∧
      (o.status = .paid ∨ o.status = .cancelled → o'.status = o.status)
  born : ∀ (i : Nat) (o : Order), (orderList (runOps .wrap w as))[i]? = some o →
    ∃ o₀ : Order, o₀.status = .waiting ∧ o = o₀.withStatus o.status

theorem history {w : World} (hstart : Started w) (as : List Action) : History w as := by
  constructor
  · exact (numbered_runOps (Numbered.of_started hstart) as).nodup
  · intro pre env op post _
    rw [runOps_append]
    exact storeStep .wrap env op (runOps .wrap w pre)
  · rintro pre post rfl i o ho
    rw [runOps_append]
    obtain ⟨o', ho', hmoves⟩ := (grows_runOps .wrap (runOps .wrap w pre) post).lookup ho
    obtain ⟨heq, hterm⟩ := moves_withStatus hmoves
    refine ⟨o', ho', heq, ?_⟩
    intro hfinal
    rw [hterm]
    rcases hfinal with h | h <;> rw [h] <;> rfl
  · intro i o ho
    rcases (grows_runOps .wrap w as).origin ho with ⟨o₀, ho₀, -⟩ | ⟨-, o₀, hnew, hmoves⟩
    · rw [orderList, started_orders hstart] at ho₀
      cases ho₀
    · exact ⟨o₀, hnew, (moves_withStatus hmoves).1⟩

/-- A server without files, where one order is placed, moved by the kitchen and paid. -/
theorem history_boot :
    let w := (serverLoadPersistent (World.boot none none)).2
    History w [(Env.fair 1, .orderCreate (lit "ORDER_CREATE|table=2|items=1:2,3:1") 2),
      (Env.fair 2, .updateOrderStatus 1 .done), (Env.fair 3, .payOrder 1),
      (Env.fair 4, .cancelOrder 1 2)] := by
  rw [firstStart_eq]
  exact history started_firstStart _

/-! ## Cancelled orders -/

def statusAt (w : World) (i : Nat) : Option OrderStatus := (w.ctx.orders.items[i]?).map (·.status)

/-- The kitchen works on the order or has finished it. -/
def OrderStatus.inKitchen : OrderStatus → Bool
  | .cooking => true
  | .done => true
  | _ => false

/-- One of the actions takes the order at `i` from `st` to `st'`. -/
def TakesStep (w : World) (as : List Action) (i : Nat) (st st' : OrderStatus) : Prop :=
  ∃ pre a post, as = pre ++ a :: post ∧ statusAt (runOps .wrap w pre) i = some st ∧
    statusAt (step .wrap a (runOps .wrap w pre)) i = some st'

theorem statusAt_eq_some {w : World} {i : Nat} {st : OrderStatus} :
    statusAt w i = some st ↔ ∃ o, w.ctx.orders.items[i]? = some o ∧ o.status = st := by
  unfold statusAt
  rw [Option.map_eq_some_iff]

/-- An order that is cancelled by one action was waiting. -/
theorem waiting_before_cancel {a : Action} {w : World} {i : Nat}
    (hbefore : statusAt w i ≠ some .cancelled)
    (hafter : statusAt (step .wrap a w) i = some .cancelled) : statusAt w i = some .waiting := by
  obtain ⟨o', ho', hst⟩ := statusAt_eq_some.mp hafter
  rcases (a.2.effect .wrap a.1 w).grow.origin ho' with ⟨o, ho, hmove⟩ | ⟨-, hnew⟩
  · have hlive : o.status ≠ .cancelled := by
      intro h
      exact hbefore (statusAt_eq_some.mpr ⟨o, ho, h⟩)
    rcases hmove with rfl | hmove
    · exact absurd hst hlive
    · exact statusAt_eq_some.mpr ⟨o, ho, (hmove.orderStep.cancelled hst hlive).1⟩
  · rw [hnew] at hst
    cases hst

theorem back_from_stove {cur nw : OrderStatus} (h : validKitchenTransition cur nw = true)
    (hin : cur.inKitchen = true) (hout : nw.inKitchen = false) : cur = .cooking ∧ nw = .waiting := by
  cases cur with
  | cooking =>
    cases nw with
    | waiting => exact ⟨rfl, rfl⟩
    | cooking => cases hout
    | done => cases hout
    | paid => cases h
    | cancelled => cases h
  | done =>
    cases nw with
    | cooking => cases hout
    | done => cases hout
    | waiting => cases h
    | paid => cases h
    | cancelled => cases h
  | waiting => cases hin
  | paid => cases hin
  | cancelled => cases hin

/-- An order leaves the kitchen by being paid, or it goes back from the stove. -/
theorem leaves_kitchen {a : Action} {w : World} {i : Nat} {o o' : Order}
    (ho : w.ctx.orders.items[i]? = some o) (hin : o.status.inKitchen = true)
    (ho' : (step .wrap a w).ctx.orders.items[i]? = some o')
    (hout : o'.status.inKitchen = false) :
    o'.status = .paid ∨ (o.status = .cooking ∧ o'.status = .waiting) := by
  obtain ⟨b, hb, hmove⟩ := (a.2.effect .wrap a.1 w).grow.lookup ho
  have hsame : b = o' := by
    have hb : (step .wrap a w).ctx.orders.items[i]? = some b := hb
    rw [ho'] at hb
    exact (Option.some.inj hb).symm
  subst hsame
  rcases hmove with rfl | ⟨st, rfl, hvalid | ⟨hwait, -⟩ | ⟨-, hpaid⟩⟩
  · rw [hin] at hout
    cases hout
  · exact .inr (back_from_stove hvalid hin hout)
  · rw [hwait] at hin
    cases hin
  · exact .inl hpaid

/-- An order that ends up cancelled was waiting until then. If it was in the kitchen before, it went
back from COOKING to WAITING in between. -/
theorem cancelled_from_waiting {w : World} (hstart : Started w) {as : List Action} {i : Nat}
    (h : statusAt (runOps .wrap w as) i = some .cancelled) :
    TakesStep w as i .waiting .cancelled ∧
      ∀ pre post st, as = pre ++ post → statusAt (runOps .wrap w pre) i = some st →
        st.inKitchen = true → TakesStep (runOps .wrap w pre) post i .cooking .waiting := by
  constructor
  · have hnone : statusAt w i ≠ some .cancelled := by
      unfold statusAt
      rw [started_orders hstart]
      simp
    obtain ⟨pre, a, post, has, hbefore, hafter⟩ := Runs.exists_switch (P := fun v => statusAt v i = some .cancelled) hnone h
    exact ⟨pre, a, post, has, waiting_before_cancel hbefore hafter, hafter⟩
  · rintro pre post st rfl hst hin
    rw [runOps_append] at h
    let v := runOps .wrap w pre
    -- the order is found at every later point, so that it leaves the kitchen at some step
    let out (v' : World) : Prop := ∃ o, v'.ctx.orders.items[i]? = some o ∧
      o.status.inKitchen = false
    have hfirst : ¬ out v := by
      rintro ⟨o, ho, hout⟩
      obtain ⟨o₁, ho₁, rfl⟩ := statusAt_eq_some.mp hst
      rw [ho] at ho₁
      obtain rfl := Option.some.inj ho₁
      rw [hin] at hout
      cases hout
    have hlast : out (runOps .wrap v post) := by
      obtain ⟨o, ho, hcancel⟩ := statusAt_eq_some.mp h
      exact ⟨o, ho, by rw [hcancel]; rfl⟩
    obtain ⟨mid, a, rest, rfl, hbefore, o', ho', hout⟩ := Runs.exists_switch (P := out) hfirst hlast
    obtain ⟨o₁, ho₁, rfl⟩ := statusAt_eq_some.mp hst
    obtain ⟨st', ho, -⟩ := later_order mid ho₁
    have hstill : (o₁.withStatus st').status.inKitchen = true := by
      by_contra hnot
      exact hbefore ⟨_, ho, by simpa using hnot⟩
    rcases leaves_kitchen ho hstill ho' hout with hpaid | ⟨hcook, hwait⟩
    · -- a paid order stays paid
      obtain ⟨st₂, ho₂, hkeep⟩ := later_order rest ho'
      have hfinal : statusAt (runOps .wrap v (mid ++ a :: rest)) i = some .paid := by
        rw [runOps_append]
        refine statusAt_eq_some.mpr ⟨_, ho₂, ?_⟩
        rw [withStatus_status, hkeep (by rw [hpaid]; rfl), hpaid]
      rw [hfinal] at h
      cases h
    · exact ⟨mid, a, rest, rfl, statusAt_eq_some.mpr ⟨_, ho, hcook⟩,
        statusAt_eq_some.mpr ⟨o', ho', hwait⟩⟩

/-- An order that the kitchen starts, puts back, and that its table then cancels. -/
def putBack : List Action :=
  [(Env.fair 1, .orderCreate (lit "ORDER_CREATE|table=2|items=1:2") 2),
    (Env.fair 2, .orderUpdate (lit "ORDER_UPDATE|order_id=1|status=COOKING")),
    (Env.fair 3, .orderUpdate (lit "ORDER_UPDATE|order_id=1|status=WAITING")),
    (Env.fair 4, .orderCancel (lit "ORDER_CANCEL|order_id=1") 2)]

theorem putBack_statuses :
    let w := firstStart
    statusAt (runOps .wrap w (putBack.take 2)) 0 = some .cooking ∧
      statusAt (runOps .wrap w putBack) 0 = some .cancelled := by
  decide +kernel

theorem cancelled_from_waiting_putBack :
    let w := (serverLoadPersistent (World.boot none none)).2
    TakesStep w putBack 0 .waiting .cancelled ∧
      ∀ pre post st, putBack = pre ++ post → statusAt (runOps .wrap w pre) 0 = some st →
        st.inKitchen = true → TakesStep (runOps .wrap w pre) post 0 .cooking .waiting := by
  rw [firstStart_eq]
  exact cancelled_from_waiting started_firstStart putBack_statuses.2

theorem cancelled_after_cooking :
    ¬ ∀ w, Started w → ∀ (as : List Action) (i : Nat),
      statusAt (runOps .wrap w as) i = some .cancelled →
      ∀ pre post st, as = pre ++ post → statusAt (runOps .wrap w pre) i = some st →
        st.inKitchen = false := by
  intro h
  obtain ⟨hcooking, hcancelled⟩ := putBack_statuses
  have hnot := h _ started_firstStart putBack 0 hcancelled (putBack.take 2) (putBack.drop 2)
    .cooking rfl hcooking
  cases hnot

end TableOrder
