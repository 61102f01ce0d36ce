import TableOrder.Server.History
import TableOrder.Server.Intake

/-!
# The tables of orders

The POS creates orders for the tables 1 to `max_tables`. The thread of a client compares the table of
a request with that of its handshake and with nothing else, and the handshake takes any positive
number. So an order was in range when it was created exactly as long as no client took a table beyond
`max_tables` (`createdInRange_iff`).
-/

namespace TableOrder

open CLib

/-- The order at index `i` was created by some step of the run, for a table in range then. -/
def BornInRange (w : World) (as : List Action) (i : Nat) (o : Order) : Prop :=
  ∃ pre a post, as = pre ++ a :: post ∧ (runOps .wrap w pre).ctx.orders.items.length = i ∧
    i < (step .wrap a (runOps .wrap w pre)).ctx.orders.items.length ∧
    1 ≤ o.tableId ∧ o.tableId ≤ (runOps .wrap w pre).ctx.cfg.maxTables

def CreatedInRange (w : World) (as : List Action) : Prop :=
  ∀ (i : Nat) (o : Order), (runOps .wrap w as).ctx.orders.items[i]? = some o → BornInRange w as i o

/-- A client's thread refuses an order for each table that `server_create_order` refuses, and nothing
happens. -/
def NetworkRefuses (a : Action) (w : World) : Prop :=
  ∀ line tableId, a.2 = .orderCreate line tableId →
    (tableId ≤ 0 ∨ w.ctx.cfg.maxTables < tableId) →
    ∃ r, orderCreateStep .wrap a.1 w line tableId = (.error r, w)

/-- A request that a client's thread accepts is for a table that the POS could take an order for. -/
def TableAllowed (a : Action) (w : World) : Prop :=
  ∀ line tableId, a.2 = .orderCreate line tableId → (∃ parsed, Admitted w line tableId parsed) →
    tableId ≤ w.ctx.cfg.maxTables

/-! ## The two ways to create an order -/

/-- `server_create_order` checks the table. -/
theorem serverCreateOrder_range {env : Env} {w w' : World} {tableId : Int} {cart : Cart} {id : Int}
    (h : serverCreateOrder .wrap env w tableId cart = (.ok id, w')) :
    1 ≤ tableId ∧ tableId ≤ w.ctx.cfg.maxTables := by
  unfold serverCreateOrder at h
  split at h
  · cases h
  · next hrange => omega

/-- A step after which the store is longer created an order. -/
theorem created_of_longer {a : Action} {w : World}
    (h : w.ctx.orders.items.length < (step .wrap a w).ctx.orders.items.length) :
    ∃ o, a.2.Builds .wrap a.1 w o ∧ Created .wrap w (step .wrap a w) o := by
  have heffect := a.2.effect .wrap a.1 w
  have hmoved : ∀ {i : Nat} {o : Order} {st : OrderStatus},
      ¬ Moved .wrap w (step .wrap a w) i o st := by
    intro i o st hm
    rw [hm.orders, List.length_set] at h
    exact absurd h (Nat.lt_irrefl _)
  generalize hv : (a.2.run .wrap a.1 w).1 = failed at heffect
  change Effect .wrap a.1 a.2 w (step .wrap a w) failed at heffect
  cases heffect with
  | quiet failed lines horders =>
    rw [horders] at h
    exact absurd h (Nat.lt_irrefl _)
  | created o hbuilds hcreated => exact ⟨o, hbuilds, hcreated⟩
  | cooked i o st hvalid hsales hm => exact absurd hm hmoved
  | cancelled i o hst hop hsales hm => exact absurd hm hmoved
  | paid i o hop hst hsales hm => exact absurd hm hmoved
  | entered fd kind tableId heq =>
    rw [heq, enterClient_ctx, serverRegisterClient_orders] at h
    exact absurd h (Nat.lt_irrefl _)
  | left fd heq =>
    rw [heq] at h
    change _ < (serverUnregisterFd w.ctx fd).orders.items.length at h
    rw [serverUnregisterFd_orders] at h
    exact absurd h (Nat.lt_irrefl _)

/-- The POS creates an order for a table in range, a client for the table of its handshake. -/
theorem created_table {a : Action} {w : World}
    (h : w.ctx.orders.items.length < (step .wrap a w).ctx.orders.items.length) :
    ∃ o, (step .wrap a w).ctx.orders.items = w.ctx.orders.items ++ [o] ∧ 1 ≤ o.tableId ∧
      (o.tableId ≤ w.ctx.cfg.maxTables ∨
        ∃ line parsed, a.2 = .orderCreate line o.tableId ∧ Admitted w line o.tableId parsed) := by
  obtain ⟨o, hbuilds, hcreated⟩ := created_of_longer h
  refine ⟨o, hcreated.orders, ?_⟩
  rcases hbuilds with ⟨line, tableId, parsed, lines, cart, hop, hreq, hfin, hcart, ho⟩ |
    ⟨tableId, cart, hop, ho⟩
  · obtain ⟨-, htable, -⟩ := orderOf_of_stages .wrap hfin hcart ho
    have hadmitted : ∃ p, Admitted w line tableId p := by
      rw [← orderCreateStep_accepts .wrap a.1]
      rcases hstep : orderCreateStep .wrap a.1 w line tableId with ⟨r, w'⟩
      rcases orderCreateStep_cases .wrap hstep with ⟨-, rfl⟩ |
        ⟨_, _, _, o', -, -, -, -, rfl, -⟩
      · rw [step, hop, Op.run, hstep] at h
        exact absurd h (Nat.lt_irrefl _)
      · exact ⟨o', w', rfl⟩
    subst htable
    obtain ⟨p, hp⟩ := hadmitted
    have hpos := (protoParseOrderCreate_ok (orderCreateRequest_eq_ok.mp hp.request)).1
    exact ⟨hpos, .inr ⟨line, p, hop, hp⟩⟩
  · have htable : o.tableId = tableId := by
      rw [orderBuildFromCart_eq] at ho
      split at ho
      · cases ho
      · cases ho
        rfl
    rcases hstep : serverCreateOrder .wrap a.1 w tableId cart with ⟨r, w'⟩
    rcases serverCreateOrder_cases .wrap hstep with ⟨-, rfl⟩ | ⟨o', -, rfl, -⟩
    · rw [step, hop, Op.run, hstep] at h
      exact absurd h (Nat.lt_irrefl _)
    · have hrange := serverCreateOrder_range hstep
      rw [htable]
      exact ⟨hrange.1, .inl hrange.2⟩

/-! ## Whole runs -/

/-- The store never gets shorter. -/
theorem length_le_step (a : Action) (w : World) :
    w.ctx.orders.items.length ≤ (step .wrap a w).ctx.orders.items.length := by
  have hgrow : Runs.Grows _ _ w.ctx.orders.items (step .wrap a w).ctx.orders.items :=
    .single (a.2.effect .wrap a.1 w).grow
  exact hgrow.length_le

/-- An accepted request is the next order, for its table. -/
theorem admitted_creates {a : Action} {w : World} {line : Bytes} {tableId : Int}
    {parsed : List CartItem} (hop : a.2 = .orderCreate line tableId)
    (hadm : Admitted w line tableId parsed) :
    ∃ o, (step .wrap a w).ctx.orders.items = w.ctx.orders.items ++ [o] ∧ o.tableId = tableId := by
  obtain ⟨o, w', hstep⟩ := (orderCreateStep_accepts .wrap a.1 w line tableId).mpr ⟨parsed, hadm⟩
  obtain ⟨-, -, -, htable, -, hcreated⟩ := orderOf_of_accepted .wrap hstep
  refine ⟨o, ?_, htable⟩
  rw [step, hop, Op.run, hstep]
  exact hcreated.orders

/-- What is not accepted is refused. -/
theorem TableAllowed.refuses {a : Action} {w : World} (h : TableAllowed a w) : NetworkRefuses a w := by
  intro line tableId hop hrange
  rcases hstep : orderCreateStep .wrap a.1 w line tableId with ⟨res, v⟩
  rcases orderCreateStep_cases .wrap hstep with ⟨⟨r, rfl, -⟩, rfl⟩ |
    ⟨_, _, _, o, -, -, -, -, rfl, -⟩
  · exact ⟨r, rfl⟩
  · exfalso
    obtain ⟨parsed, hadm⟩ := (orderCreateStep_accepts .wrap a.1 w line tableId).mp ⟨o, v, hstep⟩
    have hpos := (protoParseOrderCreate_ok (orderCreateRequest_eq_ok.mp hadm.request)).1
    have hmax := h line tableId hop ⟨parsed, hadm⟩
    omega

/-- A new order is found at its index in the end, in some status. -/
theorem later_new_order {w : World} {pre : List Action} {a : Action} {o : Order}
    (post : List Action) (h : (step .wrap a (runOps .wrap w pre)).ctx.orders.items =
      (runOps .wrap w pre).ctx.orders.items ++ [o]) :
    ∃ st, (runOps .wrap w (pre ++ a :: post)).ctx.orders.items[
      (runOps .wrap w pre).ctx.orders.items.length]? = some (o.withStatus st) := by
  have ho : (step .wrap a (runOps .wrap w pre)).ctx.orders.items[
      (runOps .wrap w pre).ctx.orders.items.length]? = some o := by
    rw [h]
    exact List.getElem?_concat_length
  obtain ⟨st, hlast, -⟩ := later_order post ho
  refine ⟨st, ?_⟩
  rw [runOps_append, runOps_cons]
  exact hlast

/-- Both creation paths agree, and every order was created in range, if and only if no client ordered
for a table beyond `max_tables`. -/
theorem createdInRange_iff {w : World} (hstart : Started w) (as : List Action) :
    CreatedInRange w as ∧ Runs.AllSteps (step .wrap) NetworkRefuses w as ↔
      Runs.AllSteps (step .wrap) TableAllowed w as := by
  constructor
  · rintro ⟨hrange, -⟩
    rw [Runs.allSteps_iff]
    rintro pre a post rfl line tableId hop ⟨parsed, hadm⟩
    -- the order is still there at the end, and its step is the only one it can come from
    have hadm : Admitted (runOps .wrap w pre) line tableId parsed := hadm
    obtain ⟨o, horders, rfl⟩ := admitted_creates hop hadm
    obtain ⟨st, hlast⟩ := later_new_order post horders
    obtain ⟨pre', a', post', has, hlen, hgrown, -, hmax⟩ := hrange _ _ hlast
    have hsame := Runs.switch_unique (step .wrap) (s := w)
      (P := fun v => (runOps .wrap w pre).ctx.orders.items.length < v.ctx.orders.items.length)
      (fun b v hv => lt_of_lt_of_le hv (length_le_step b v)) has (Nat.lt_irrefl _)
      (lt_of_lt_of_eq (Nat.lt_succ_self _) (by
        show _ = (step .wrap a (runOps .wrap w pre)).ctx.orders.items.length
        rw [horders, List.length_append, List.length_singleton]))
      (by rw [← hlen]; exact Nat.lt_irrefl _) hgrown
    rw [hsame.1]
    exact hmax
  · intro hall
    refine ⟨?_, Runs.allSteps_iff.mpr fun pre a post has =>
      (Runs.allSteps_iff.mp hall pre a post has).refuses⟩
    intro i o ho
    have hfirst : ¬ i < w.ctx.orders.items.length := by
      rw [started_orders hstart]
      exact Nat.not_lt_zero i
    have hlast := (List.getElem?_eq_some_iff.mp ho).1
    obtain ⟨pre, a, post, rfl, hbefore, hafter⟩ :=
      Runs.exists_switch (P := fun v : World => i < v.ctx.orders.items.length) hfirst hlast
    have hbefore : (runOps .wrap w pre).ctx.orders.items.length ≤ i := Nat.le_of_not_lt hbefore
    obtain ⟨o₁, horders, hpos, htable⟩ := created_table (lt_of_le_of_lt hbefore hafter)
    have hi : (runOps .wrap w pre).ctx.orders.items.length = i := by
      change i < (step .wrap a (runOps .wrap w pre)).ctx.orders.items.length at hafter
      rw [horders, List.length_append, List.length_singleton] at hafter
      omega
    obtain ⟨st, hlater⟩ := later_new_order post horders
    rw [hi, ho] at hlater
    obtain rfl := Option.some.inj hlater
    refine ⟨pre, a, post, rfl, hi, hafter, hpos, ?_⟩
    rcases htable with hmax | ⟨line, parsed, hop, hadm⟩
    · exact hmax
    · exact Runs.allSteps_iff.mp hall pre a post rfl line o₁.tableId hop ⟨parsed, hadm⟩

/-- The client of table 99 orders, on a server with 8 tables. -/
def tableNinetyNine : List Action :=
  [(Env.fair 1, .orderCreate (lit "ORDER_CREATE|table=99|items=1:1") 99)]

theorem createdInRange_iff_ninetyNine :
    let w := (serverLoadPersistent (World.boot none none)).2
    CreatedInRange w tableNinetyNine ∧ Runs.AllSteps (step .wrap) NetworkRefuses w tableNinetyNine ↔
      Runs.AllSteps (step .wrap) TableAllowed w tableNinetyNine := by
  rw [firstStart_eq]
  exact createdInRange_iff started_firstStart tableNinetyNine

/-- The same order from the POS is refused. -/
theorem ninetyNine_stored :
    handshake (lit "HELLO TABLE 99") = .ok (.table, 99) ∧
      let w := firstStart
      w.ctx.cfg.maxTables = 8 ∧
        (serverCreateOrder .wrap (Env.fair 1) w 99 ⟨[⟨1, CStr.empty _, 100, 1⟩], by decide⟩).1 =
          .error (lit "bad table range") ∧
        (runOps .wrap w tableNinetyNine).ctx.orders.items.map (·.tableId) = [99] := by
  decide +kernel

theorem created_outOfRange :
    ¬ ∀ w, Started w → ∀ as : List Action,
      CreatedInRange w as ∧ Runs.AllSteps (step .wrap) NetworkRefuses w as := by
  intro h
  obtain ⟨-, hmax, -, htables⟩ := ninetyNine_stored
  obtain ⟨o, horders, htable⟩ := List.map_eq_singleton_iff.mp htables
  have hrange := (h firstStart started_firstStart tableNinetyNine).1
  obtain ⟨pre, a, post, has, -, -, -, hle⟩ := hrange 0 o (by rw [horders]; rfl)
  -- a run of one step has nothing before it
  have hpre : pre = [] := by
    cases pre with
    | nil => rfl
    | cons b pre => simp [tableNinetyNine] at has
  rw [hpre, htable, runOps_nil, hmax] at hle
  omega

end TableOrder
