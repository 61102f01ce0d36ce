import TableOrder.Lib.Rows
import TableOrder.Pos.Payment
import TableOrder.Server.History

/-!
# The highlighted order and the order that Enter pays

The payment tab draws the orders of the table with one row highlighted. Enter acts on the row of
the list as it is then, under the same cursor. A `Press` is the time from the drawn frame to the
payment, with whatever the other threads do in between; `paysHighlighted_iff` says when the order
that is paid is the one that was highlighted.
-/

namespace TableOrder

open CLib

/-! ## The drawn rows -/

/-- The two tests of the draw loop. -/
def drawnFor (payTable : Int) (o : Order) : Bool :=
  !(o.status == .cancelled) && !(decide (0 < payTable) && o.tableId != payTable)

/-- The rows `ui_draw_pos_payment` prints, each with its highlight. -/
def uiDrawPosPaymentRows (orders : List Order) (payTable : Int) (sel : Nat) (maxRows : Int) :
    List (Order × Bool) :=
  ((orders.filter (drawnFor payTable)).take maxRows.toNat).zipIdx.map fun r => (r.1, r.2 == sel)

/-- The order of the highlighted row, if one is. -/
def highlighted (rows : List (Order × Bool)) : Option Order := (rows.find? (·.2)).map (·.1)

/-- Drawing and acting filter alike. -/
theorem drawnFor_eq (payTable : Int) : drawnFor payTable = listedFor payTable := by
  funext o
  have htable : (!(decide (0 < payTable) && o.tableId != payTable)) =
      (decide (payTable ≤ 0) || o.tableId == payTable) := by
    by_cases h : 0 < payTable
    · have : ¬ payTable ≤ 0 := by omega
      simp [h, this, bne]
    · have : payTable ≤ 0 := by omega
      simp [h, this]
  rw [drawnFor, listedFor, htable]
  rfl

theorem find?_highlight (l : List Order) (sel k : Nat) :
    (((l.zipIdx k).map fun r => (r.1, r.2 == sel)).find? (·.2)).map (·.1) =
      if k ≤ sel then l[sel - k]? else none := by
  induction l generalizing k with
  | nil => simp
  | cons o l ih =>
    rw [List.zipIdx_cons, List.map_cons]
    by_cases hk : k = sel
    · subst hk
      simp
    · rw [List.find?_cons_of_neg (by simpa using hk), ih]
      by_cases hle : k ≤ sel
      · have hsub : sel - k = (sel - (k + 1)) + 1 := by omega
        rw [if_pos (by omega), if_pos hle, hsub, List.getElem?_cons_succ]
      · rw [if_neg (by omega), if_neg hle]

theorem highlighted_rows (orders : List Order) (payTable : Int) (sel : Nat) (maxRows : Int) :
    highlighted (uiDrawPosPaymentRows orders payTable sel maxRows) =
      if (sel : Int) < maxRows then (orders.filter (listedFor payTable))[sel]? else none := by
  rw [highlighted, uiDrawPosPaymentRows, find?_highlight, if_pos (Nat.zero_le sel), Nat.sub_zero,
    List.getElem?_take, drawnFor_eq]
  by_cases h : (sel : Int) < maxRows
  · rw [if_pos h, if_pos (by omega)]
  · rw [if_neg h, if_neg (by omega)]

/-! ## One press of Enter -/

/-- The cursor when the frame was drawn, and what the other threads do until the key is handled,
until the row is read, and until the order is paid. -/
structure Press where
  payTable : Int
  sel : Nat
  /-- How many rows of orders are on the terminal: `max_rows`, or fewer where the footer, which is drawn
  last, takes some. -/
  maxRows : Int
  beforeList : List Action
  beforeRead : List Action
  beforePay : List Action
  env : Env

namespace Press

variable (p : Press) (w : World)

/-- The server when the key is handled. -/
def atList : World := runOps .wrap w p.beforeList

/-- The server when the row is read. -/
def atRead : World := runOps .wrap (p.atList w) p.beforeRead

/-- The server when the order is to be paid. -/
def atPay : World := runOps .wrap (p.atRead w) p.beforePay

/-- The till from the drawn frame until the payment. -/
def till : Till :=
  runTill .wrap ⟨w, .idle⟩ (p.beforeList.map .server ++ .pressEnter p.payTable p.sel ::
    (p.beforeRead.map .server ++ .readRow :: p.beforePay.map .server))

/-- The payment makes the order `o` at index `i` PAID. -/
def Pays (i : Nat) (o : Order) : Prop :=
  (p.till w).world.ctx.orders.items[i]? = some o ∧ o.status ≠ .paid ∧
    (tillStep .wrap (.payChosen p.env) (p.till w)).world.ctx.orders.items[i]? =
      some (o.withStatus .paid)

/-- What is on the screen. -/
def frame : List (Order × Bool) :=
  uiDrawPosPaymentRows w.ctx.orders.items p.payTable p.sel p.maxRows

/-- Every order that this Enter pays was the highlighted one. -/
def PaysHighlighted : Prop :=
  ∀ i o, p.Pays w i o → ∃ h, highlighted (p.frame w) = some h ∧ h.orderId = o.orderId

/-- The positions of the rows, in a world. -/
def rowsOf (v : World) : List Nat := Rows.positions (listedFor p.payTable) v.ctx.orders.items

/-- The order at the row of the cursor when the key is handled is DONE, when it is read and when it
is to be paid. -/
def RowDone : Prop :=
  ∃ (i : Nat) (o o' : Order), (p.rowsOf (p.atList w))[p.sel]? = some i ∧
    (p.atRead w).ctx.orders.items[i]? = some o ∧ o.status = .done ∧
    (p.atPay w).ctx.orders.items[i]? = some o' ∧ o'.status = .done

/-- A row was highlighted, and no order drawn above it, nor the one on it, is cancelled when the key
is handled. -/
structure Undisturbed : Prop where
  inPane : (p.sel : Int) < p.maxRows
  onRow : p.sel < (p.rowsOf w).length
  kept : ∀ k ≤ p.sel, ∀ i, (p.rowsOf w)[k]? = some i →
    ∀ o, (p.atList w).ctx.orders.items[i]? = some o → o.status ≠ .cancelled

end Press

theorem runTill_server (S : IntSem) (w : World) (q : Paying) (as : List Action) :
    runTill S ⟨w, q⟩ (as.map .server) = ⟨runOps S w as, q⟩ := by
  induction as generalizing w with
  | nil => rfl
  | cons a as ih => exact ih (step S a w)

/-- The list has room for every order. -/
theorem collect_eq_positions (v : World) (payTable : Int) :
    uiPosCollectTableOrderIndices v.ctx.orders.items payTable MAX_ORDERS =
      Rows.positions (listedFor payTable) v.ctx.orders.items := by
  apply List.take_of_length_le
  exact Nat.le_trans (Rows.length_positions_le _ _) v.ctx.orders.bound

theorem Press.till_eq (p : Press) (w : World) :
    p.till w = ⟨p.atPay w, match payRow (p.atRead w).ctx.orders.items
      (p.rowsOf (p.atList w)) p.sel with
      | none => .idle
      | some (orderId, status) => .chosen orderId status⟩ := by
  have happ (t : Till) (as bs : List TillAction) :
      runTill .wrap t (as ++ bs) = runTill .wrap (runTill .wrap t as) bs := Runs.run_append _ _ _ _
  have hcons (t : Till) (a : TillAction) (as : List TillAction) :
      runTill .wrap t (a :: as) = runTill .wrap (tillStep .wrap a t) as := rfl
  rw [Press.till, happ, runTill_server, hcons, happ]
  show runTill .wrap (runTill .wrap ⟨p.atList w, .listed (uiPosCollectTableOrderIndices
    (p.atList w).ctx.orders.items p.payTable MAX_ORDERS) p.sel⟩ _) _ = _
  rw [runTill_server, hcons, collect_eq_positions]
  show runTill .wrap (tillStep .wrap .readRow ⟨p.atRead w, .listed (p.rowsOf (p.atList w)) p.sel⟩)
    _ = _
  simp only [tillStep]
  cases payRow (p.atRead w).ctx.orders.items (p.rowsOf (p.atList w)) p.sel with
  | none => exact runTill_server _ _ _ _
  | some r => exact runTill_server _ _ _ _

/-! ## Orders keep their places and ids -/

theorem index_inj {n : Int} {v : World} (hv : Numbered n v) {i j : Nat} {o o' : Order}
    (ho : v.ctx.orders.items[i]? = some o) (ho' : v.ctx.orders.items[j]? = some o')
    (hid : o.orderId = o'.orderId) : i = j := by
  have h1 := ordersFindIndex_of_nodup hv.nodup ho
  have h2 := ordersFindIndex_of_nodup hv.nodup ho'
  rw [hid, h2] at h1
  exact (Option.some.inj h1).symm

/-- Enter pays exactly the order at its row, and only when that is DONE both times. -/
theorem Press.pays_iff {n : Int} {w : World} (hw : Numbered n w) (p : Press) (i : Nat) (o : Order) :
    p.Pays w i o ↔ (p.rowsOf (p.atList w))[p.sel]? = some i ∧
      (∃ o₂, (p.atRead w).ctx.orders.items[i]? = some o₂ ∧ o₂.status = .done) ∧
      (p.atPay w).ctx.orders.items[i]? = some o ∧ o.status = .done := by
  have hpay : Numbered n (p.atPay w) :=
    numbered_runOps (numbered_runOps (numbered_runOps hw _) _) _
  rw [Press.Pays, p.till_eq w]
  constructor
  · rintro ⟨ho, hst, hafter⟩
    -- the row was read and its order was DONE
    cases hsel : (p.rowsOf (p.atList w))[p.sel]? with
    | none =>
      simp only [payRow, hsel, tillStep] at hafter
      rw [ho] at hafter
      exact absurd (congrArg Order.status (Option.some.inj hafter)) hst
    | some k =>
      cases hk : (p.atRead w).ctx.orders.items[k]? with
      | none =>
        simp only [payRow, hsel, hk, Option.map_none, tillStep] at hafter
        rw [ho] at hafter
        exact absurd (congrArg Order.status (Option.some.inj hafter)) hst
      | some o₂ =>
        simp only [payRow, hsel, hk, Option.map_some, tillStep] at hafter
        by_cases hdone : o₂.status = .done
        · rw [if_pos hdone] at hafter
          rcases hres : serverPayOrder .wrap p.env (p.atPay w) o₂.orderId with ⟨r, v⟩
          rw [hres] at hafter
          rcases serverPayOrder_cases .wrap hres with ⟨-, rfl⟩ | ⟨j, o', hfind, hst', -, -, hm⟩
          · simp only at hafter
            rw [ho] at hafter
            exact absurd (congrArg Order.status (Option.some.inj hafter)) hst
          · obtain ⟨hj, hid⟩ := ordersFind_eq_some hfind
            simp only at ho hafter
            rw [hm.orders, List.getElem?_set] at hafter
            obtain ⟨st, hkpay, -⟩ := later_order p.beforePay hk
            -- the lookup by id finds the order that was read
            have hkj : k = j := index_inj hpay hkpay hj hid.symm
            by_cases hij : j = i
            · subst hij
              rw [hj] at ho
              cases ho
              rw [hkj]
              exact ⟨rfl, ⟨o₂, hkj ▸ hk, hdone⟩, hj, hst'⟩
            · rw [if_neg hij, ho] at hafter
              exact absurd (congrArg Order.status (Option.some.inj hafter)) hst
        · rw [if_neg hdone] at hafter
          simp only at ho hafter
          rw [ho] at hafter
          exact absurd (congrArg Order.status (Option.some.inj hafter)) hst
  · rintro ⟨hsel, ⟨o₂, hread, hdone⟩, ho, hst⟩
    refine ⟨ho, by rw [hst]; decide, ?_⟩
    simp only [payRow, hsel, hread, Option.map_some, tillStep, if_pos hdone]
    obtain ⟨st, hpay', -⟩ := later_order p.beforePay hread
    have hid : o₂.orderId = o.orderId := by
      have hsame : o₂.withStatus st = o := Option.some.inj (hpay'.symm.trans ho)
      rw [← hsame]
      rfl
    rw [hid, serverPayOrder, ordersFind_of_nodup hpay.nodup ho]
    simp only [hst, ne_eq, not_true_eq_false, if_false]
    show (appendSalesMeta p.env (setStatus (p.atPay w) i .paid) _).ctx.orders.items[i]? = _
    rw [appendSalesMeta_ctx]
    show ((p.atPay w).ctx.orders.items.modify i _)[i]? = _
    rw [modify_eq_set ho, List.getElem?_set_self (List.getElem?_eq_some_iff.mp ho).1]

/-! ## When the highlight is right -/

/-- The highlighted order is the one at the position of its row. -/
theorem Press.highlighted_frame (p : Press) (w : World) :
    highlighted (p.frame w) = if (p.sel : Int) < p.maxRows then
      (p.rowsOf w)[p.sel]?.bind fun i => w.ctx.orders.items[i]? else none := by
  rw [Press.frame, highlighted_rows, Rows.getElem?_filter]
  rfl

/-- An order that is listed later was listed before. -/
theorem listed_before {w : World} (as : List Action) (payTable : Int) (i : Nat)
    (hi : i < w.ctx.orders.items.length)
    (h : (runOps .wrap w as).ctx.orders.items[i]?.any (listedFor payTable) = true) :
    w.ctx.orders.items[i]?.any (listedFor payTable) = true := by
  have ho := List.getElem?_eq_getElem hi
  obtain ⟨st, hlater, hterm⟩ := later_order as ho
  rw [hlater] at h
  rw [ho]
  -- a cancelled order stays cancelled, and no order changes its table
  simp only [Option.any_some, listedFor, Bool.and_eq_true, bne_iff_ne, ne_eq, withStatus_status,
    withStatus_tableId] at h ⊢
  refine ⟨?_, h.2⟩
  intro hc
  apply h.1
  rw [hterm (by rw [hc]; rfl), hc]

/-- With its order DONE, Enter pays the highlighted order if and only if the rows up to it are
undisturbed. -/
theorem Press.same_row_iff {n : Int} {w : World} (hw : Numbered n w) (p : Press) {i : Nat}
    {o : Order} (hrow : (p.rowsOf (p.atList w))[p.sel]? = some i)
    (ho : (p.atPay w).ctx.orders.items[i]? = some o) :
    (∃ h, highlighted (p.frame w) = some h ∧ h.orderId = o.orderId) ↔ p.Undisturbed w := by
  have hpay : Numbered n (p.atPay w) :=
    numbered_runOps (numbered_runOps (numbered_runOps hw _) _) _
  have hgrow : w.ctx.orders.items.length ≤ (p.atList w).ctx.orders.items.length :=
    (grows_runOps .wrap w p.beforeList).length_le
  have hsame := Rows.row_same_iff hgrow (listed_before p.beforeList p.payTable) hrow
  have hall : p.atPay w = runOps .wrap w (p.beforeList ++ (p.beforeRead ++ p.beforePay)) := by
    rw [runOps_append, runOps_append]
    rfl
  rw [p.highlighted_frame w]
  constructor
  · rintro ⟨h, hh, hid⟩
    split at hh
    · next hpane =>
      obtain ⟨j, hj, hhj⟩ := Option.bind_eq_some_iff.mp hh
      -- the same id at payment time means the same position
      obtain ⟨st, hlater, -⟩ := later_order (p.beforeList ++ (p.beforeRead ++ p.beforePay)) hhj
      rw [← hall] at hlater
      have hji : j = i := index_inj hpay hlater ho hid
      subst hji
      obtain ⟨hlt, hkept⟩ := hsame.mp hj
      refine ⟨hpane, hlt, ?_⟩
      intro k hk m hm o' ho' hc
      have := hkept k hk m hm
      rw [ho'] at this
      simp [listedFor, hc] at this
    · cases hh
  · rintro ⟨hpane, hlt, hkept⟩
    have hi : (p.rowsOf w)[p.sel]? = some i := by
      refine hsame.mpr ⟨hlt, ?_⟩
      intro k hk m hm
      obtain ⟨o₀, ho₀, hlisted⟩ := Rows.mem_positions.mp (List.mem_of_getElem? hm)
      obtain ⟨st, hlater, -⟩ := later_order p.beforeList ho₀
      have hnc := hkept k hk m hm _ hlater
      show (runOps .wrap w p.beforeList).ctx.orders.items[m]?.any _ = true
      rw [hlater]
      simp only [listedFor, Bool.and_eq_true, bne_iff_ne, ne_eq] at hlisted
      simp only [Option.any_some, listedFor, Bool.and_eq_true, bne_iff_ne, ne_eq,
        withStatus_status, withStatus_tableId]
      exact ⟨hnc, hlisted.2⟩
    obtain ⟨o₀, ho₀, -⟩ := Rows.mem_positions.mp (List.mem_of_getElem? hi)
    refine ⟨o₀, by rw [if_pos hpane, hi, Option.bind_some, ho₀], ?_⟩
    obtain ⟨st, hlater, -⟩ := later_order (p.beforeList ++ (p.beforeRead ++ p.beforePay)) ho₀
    rw [← hall, ho] at hlater
    rw [Option.some.inj hlater]
    rfl

/-- The rows must be undisturbed for the highlight to be right. -/
theorem Press.undisturbed_of_paysHighlighted {n : Int} {w : World} (hw : Numbered n w) {p : Press}
    (h : p.PaysHighlighted w) (hdone : p.RowDone w) : p.Undisturbed w := by
  obtain ⟨i, o, o', hrow, hread, hst, hpay, hst'⟩ := hdone
  have hpays := (p.pays_iff hw i o').mpr ⟨hrow, ⟨o, hread, hst⟩, hpay, hst'⟩
  exact (p.same_row_iff hw hrow hpay).mp (h i o' hpays)

/-- In every run, Enter pays no order but the highlighted one if and only if the order at its row
is not DONE or the rows up to it are undisturbed. -/
theorem paysHighlighted_iff {w : World} (hstart : Started w) (as : List Action) (p : Press) :
    p.PaysHighlighted (runOps .wrap w as) ↔
      (p.RowDone (runOps .wrap w as) → p.Undisturbed (runOps .wrap w as)) := by
  have hw := numbered_runOps (Numbered.of_started hstart) as
  constructor
  · intro h
    exact Press.undisturbed_of_paysHighlighted hw h
  · intro h i o hpays
    obtain ⟨hrow, ⟨o₂, hread, hdone⟩, hpay, hdone'⟩ := (p.pays_iff hw i o).mp hpays
    exact (p.same_row_iff hw hrow hpay).mpr (h ⟨i, o₂, o, hrow, hread, hdone, hpay, hdone'⟩)

/-- Three orders of table 1, of which the kitchen has finished the second and the third. -/
def threeOrders : List Action :=
  [(Env.fair 1, .orderCreate (lit "ORDER_CREATE|table=1|items=1:1") 1),
    (Env.fair 2, .orderCreate (lit "ORDER_CREATE|table=1|items=2:1") 1),
    (Env.fair 3, .orderCreate (lit "ORDER_CREATE|table=1|items=3:1") 1),
    (Env.fair 4, .updateOrderStatus 2 .done), (Env.fair 5, .updateOrderStatus 3 .done)]

theorem paysHighlighted_iff_threeOrders :
    let w := (serverLoadPersistent (World.boot none none)).2
    let p : Press := ⟨1, 1, 20, [(Env.fair 6, .updateOrderStatus 1 .cooking)], [], [], Env.fair 7⟩
    p.PaysHighlighted (runOps .wrap w threeOrders) ↔
      (p.RowDone (runOps .wrap w threeOrders) → p.Undisturbed (runOps .wrap w threeOrders)) := by
  rw [firstStart_eq]
  exact paysHighlighted_iff started_firstStart threeOrders _

/-- The second row is highlighted; table 1 cancels the first order, and Enter pays the third. -/
theorem paysHighlighted_fails : ¬ ∀ w, Started w → ∀ (as : List Action) (p : Press),
    p.PaysHighlighted (runOps .wrap w as) := by
  intro hall
  have hw := numbered_runOps (Numbered.of_started started_firstStart) threeOrders
  have h := hall _ started_firstStart threeOrders
  have hfirst : (Rows.positions (listedFor 1) (runOps .wrap
      firstStart threeOrders).ctx.orders.items)[0]? =
        some 0 := by
    decide +kernel
  have hrow : (Rows.positions (listedFor 1) (runOps .wrap (runOps .wrap
      firstStart threeOrders)
        [(Env.fair 6, .cancelOrder 1 1)]).ctx.orders.items)[1]? = some 2 := by
    decide +kernel
  have hstatus : ((runOps .wrap (runOps .wrap firstStart
      threeOrders) [(Env.fair 6, .cancelOrder 1 1)]).ctx.orders.items.map (·.status)) =
        [.cancelled, .done, .done] := by
    decide +kernel
  -- from here on the states are opaque
  generalize runOps .wrap firstStart threeOrders = v at *
  have hcursor := h ⟨1, 1, 20, [(Env.fair 6, .cancelOrder 1 1)], [], [], Env.fair 7⟩
  generalize hv : runOps .wrap v [(Env.fair 6, .cancelOrder 1 1)] = v' at *
  have hat (i : Nat) : v'.ctx.orders.items[i]?.map (·.status) =
      [OrderStatus.cancelled, .done, .done][i]? := by
    rw [← List.getElem?_map, hstatus]
  obtain ⟨o, ho, hst⟩ := Option.map_eq_some_iff.mp (hat 2)
  obtain ⟨o₁, ho₁, hst₁⟩ := Option.map_eq_some_iff.mp (hat 0)
  subst hv
  have hundisturbed := Press.undisturbed_of_paysHighlighted hw hcursor
    ⟨2, o, o, hrow, ho, hst, ho, hst⟩
  exact hundisturbed.kept 0 (Nat.zero_le 1) 0 hfirst o₁ ho₁ hst₁

end TableOrder
