import Mathlib.Algebra.Order.Group.Int
import TableOrder.Server.Client

/-!
# Taking an order (`handle_order_create_client`)

What the handler does as a whole. `orderCreateStep_accepts` says which requests are accepted, and
`orderOf_of_accepted` what order an accepted request becomes: the parsed lines merged by id, priced
from the catalog, with every amount as the chosen reading of overflow gives it. With exact
integers the handler is all or nothing (`orderCreate_allOrNothing`); with C integers the amounts
are right exactly when no sum or product overflows (`amountsExact_iff`).
-/

namespace TableOrder

open CLib

variable (S : IntSem)

/-! ## Finalized lines -/

/-- The item can be ordered: the lookup finds an entry that is not sold out. -/
def OnSale (menu : MenuCatalog) (menuId : Int) : Prop :=
  ∃ mi, menuFindById menu menuId = some mi ∧ mi.soldOut = 0

theorem forall₂_of_finalized {menu : MenuCatalog} {parsed lines : List CartItem}
    (h : finalizeCartLines menu parsed = .ok lines) :
    List.Forall₂ (fun a b => ∃ mi, menuFindById menu a.menuId = some mi ∧ mi.soldOut = 0 ∧
      b = { a with name := mi.name, price := mi.price }) parsed lines := by
  refine (mapM_eq_ok.mp h).imp ?_
  intro a b hab
  exact finalizeLine_eq_ok.mp hab

/-- Ids and quantities stay, name and price come from the catalog. -/
structure Finalized (menu : MenuCatalog) (parsed lines : List CartItem) : Prop where
  ids : lines.map (·.menuId) = parsed.map (·.menuId)
  qtys : ∀ menuId, qtysOf lines menuId = qtysOf parsed menuId
  entry : ∀ it ∈ lines, ∃ mi, menuFindById menu it.menuId = some mi ∧ mi.soldOut = 0 ∧
    it.name = mi.name ∧ it.price = mi.price

theorem finalized_of_ok {menu : MenuCatalog} {parsed lines : List CartItem}
    (h : finalizeCartLines menu parsed = .ok lines) : Finalized menu parsed lines := by
  have hall := forall₂_of_finalized h
  clear h
  induction hall with
  | nil => exact ⟨rfl, fun _ => rfl, by simp⟩
  | @cons a b as bs hab _ ih =>
    obtain ⟨mi, hmi, hso, rfl⟩ := hab
    constructor
    · rw [List.map_cons, List.map_cons, ih.ids]
    · intro menuId
      have htail := ih.qtys menuId
      unfold qtysOf at htail ⊢
      by_cases hid : a.menuId = menuId
      · simp [hid, htail]
      · simp [hid, htail]
    · intro it hit
      rcases List.mem_cons.mp hit with rfl | hit
      · exact ⟨mi, hmi, hso, rfl, rfl⟩
      · exact ih.entry it hit

theorem onSale_of_finalized {menu : MenuCatalog} {parsed lines : List CartItem}
    (h : finalizeCartLines menu parsed = .ok lines) : ∀ it ∈ parsed, OnSale menu it.menuId := by
  intro it hit
  have hmem : it.menuId ∈ lines.map (·.menuId) := by
    rw [(finalized_of_ok h).ids]
    exact List.mem_map_of_mem hit
  obtain ⟨line, hline, hid⟩ := List.mem_map.mp hmem
  obtain ⟨mi, hmi, hso, -⟩ := (finalized_of_ok h).entry line hline
  exact ⟨mi, hid ▸ hmi, hso⟩

theorem finalize_isOk {menu : MenuCatalog} {parsed : List CartItem}
    (h : ∀ it ∈ parsed, OnSale menu it.menuId) :
    ∃ lines, finalizeCartLines menu parsed = .ok lines := by
  induction parsed with
  | nil => exact ⟨[], rfl⟩
  | cons it parsed ih =>
    obtain ⟨mi, hmi, hso⟩ := h it (by simp)
    obtain ⟨lines, hlines⟩ := ih (fun v hv => h v (by simp [hv]))
    have hit := finalizeLine_eq_ok.mpr ⟨mi, hmi, hso, rfl⟩
    refine ⟨{ it with name := mi.name, price := mi.price } :: lines, ?_⟩
    exact mapM_eq_ok.mpr (List.Forall₂.cons hit (mapM_eq_ok.mp hlines))

/-! ## Accepted requests -/

/-- The request is accepted: it parses for this table, every id is on sale, it names at least one
item, and the store has room. -/
structure Admitted (w : World) (line : Bytes) (tableId : Int) (parsed : List CartItem) : Prop where
  request : orderCreateRequest line tableId = .ok parsed
  onSale : ∀ it ∈ parsed, OnSale w.ctx.menu it.menuId
  nonempty : parsed ≠ []
  room : w.ctx.orders.items.length < MAX_ORDERS

theorem orderCreateRequest_eq_ok {line : Bytes} {tableId : Int} {parsed : List CartItem} :
    orderCreateRequest line tableId = .ok parsed ↔
      protoParseOrderCreate line MAX_ORDER_ITEMS = .ok (tableId, parsed) := by
  unfold orderCreateRequest
  constructor
  · intro h
    split at h
    · cases h
    · next tbl lines hparse =>
      split at h
      · cases h
      · next htbl =>
        cases h
        rw [hparse, not_not.mp htbl]
  · intro h
    rw [h]
    simp

/-- A parsed request has at most as many lines as a cart, with positive quantities in range. -/
theorem parsed_of_request {line : Bytes} {tableId : Int} {parsed : List CartItem}
    (h : orderCreateRequest line tableId = .ok parsed) :
    parsed.length ≤ MAX_ORDER_ITEMS ∧ ∀ it ∈ parsed, it.Parsed :=
  (protoParseOrderCreate_ok (orderCreateRequest_eq_ok.mp h)).2.2

/-- The order of an accepted request: one line for each distinct id, with the summed quantities
and the catalog's name and price. -/
structure OrderOf (menu : MenuCatalog) (parsed : List CartItem) (o : Order) : Prop where
  ids : o.items.items.map (·.menuId) = distinctIds parsed
  qty : ∀ it ∈ o.items.items, it.qty = sumQty S (qtysOf parsed it.menuId)
  entry : ∀ it ∈ o.items.items, ∃ mi, menuFindById menu it.menuId = some mi ∧ mi.soldOut = 0 ∧
    it.name = mi.name ∧ it.unitPrice = mi.price
  total : o.totalPrice = S.accum 0 (o.items.items.map fun it => S.norm (it.unitPrice * it.qty))

theorem cartTotal_eq_accum (cart : Cart) :
    cartTotal S cart = S.accum 0 (cart.items.map fun it => S.norm (it.price * it.qty)) := by
  rw [cartTotal, IntSem.accum, List.foldl_map]
  rfl

/-- The lines of the stages, put together. -/
theorem orderOf_of_stages {menu : MenuCatalog} {parsed lines : List CartItem} {cart : Cart}
    {o : Order} {orderId tableId now : Int} (hfin : finalizeCartLines menu parsed = .ok lines)
    (hcart : lines.foldlM (cartAdd S) cartInit = .ok cart)
    (ho : orderBuildFromCart S orderId tableId now cart = .ok o) :
    OrderOf S menu parsed o ∧ o.tableId = tableId ∧ o.createdAt = now := by
  have hfinal := finalized_of_ok hfin
  have hfilled := filled_of_foldlM S hcart
  rw [orderBuildFromCart_eq] at ho
  split at ho
  · cases ho
  · cases ho
    refine ⟨⟨?_, ?_, ?_, ?_⟩, rfl, rfl⟩
    · have hdistinct : distinctIds lines = distinctIds parsed := by
        rw [distinctIds, hfinal.ids, distinctIds]
      rw [orderLines_items, List.map_map, ← hdistinct, ← hfilled.ids]
      apply List.map_congr_left
      intro it _
      simp
    · intro it hit
      obtain ⟨v, hv, rfl⟩ := List.mem_map.mp hit
      obtain ⟨first, -, heq⟩ := hfilled.line v hv
      rw [lineOf_eq, ← hfinal.qtys]
      exact congrArg (·.qty) heq
    · intro it hit
      obtain ⟨v, hv, rfl⟩ := List.mem_map.mp hit
      obtain ⟨first, hfind, heq⟩ := hfilled.line v hv
      obtain ⟨mi, hmi, hso, hname, hprice⟩ := hfinal.entry first (List.mem_of_find?_eq_some hfind)
      rw [heq, lineOf_eq]
      exact ⟨mi, hmi, hso, hname, hprice⟩
    · show cartTotal S cart = _
      rw [cartTotal_eq_accum, orderLines_items, List.map_map]
      rfl

/-- Every admitted request is accepted, and no other. -/
theorem orderCreateStep_accepts (env : Env) (w : World) (line : Bytes) (tableId : Int) :
    (∃ o w', orderCreateStep S env w line tableId = (.ok o, w')) ↔
      ∃ parsed, Admitted w line tableId parsed := by
  constructor
  · rintro ⟨o, w', h⟩
    rcases orderCreateStep_cases S h with ⟨⟨r, hr, -⟩, -⟩ |
      ⟨parsed, lines, cart, o', hreq, hfin, hcart, ho, -, hcreated⟩
    · cases hr
    · refine ⟨parsed, hreq, onSale_of_finalized hfin, ?_, hcreated.room⟩
      -- without a line the cart stays empty and no order is built
      rintro rfl
      have hlines : lines = [] := by
        simpa using (finalized_of_ok hfin).ids
      subst hlines
      cases hcart
      cases ho
  · rintro ⟨parsed, hadm⟩
    obtain ⟨hlen, hparsed⟩ := parsed_of_request hadm.request
    obtain ⟨lines, hfin⟩ := finalize_isOk hadm.onSale
    have hids := (finalized_of_ok hfin).ids
    have hlines : lines.length = parsed.length := by
      have := congrArg List.length hids
      simpa using this
    have hpos : ∀ it ∈ lines, 0 < it.qty := by
      intro it hit
      have hq : it.qty ∈ qtysOf lines it.menuId :=
        List.mem_map_of_mem (List.mem_filter.mpr ⟨hit, by simp⟩)
      rw [(finalized_of_ok hfin).qtys] at hq
      exact qtysOf_pos (fun v hv => (hparsed v hv).qty_pos) _ _ hq
    obtain ⟨cart, hcart⟩ := foldlM_cartAdd_isOk S hpos (by omega)
    have hne : cart.items ≠ [] := by
      intro hnil
      have hfilled := (filled_of_foldlM S hcart).ids
      rw [hnil, List.map_nil] at hfilled
      cases parsed with
      | nil => exact hadm.nonempty rfl
      | cons it parsed =>
        have hmem : it.menuId ∈ distinctIds lines := by
          rw [distinctIds, List.mem_eraseDups, hids]
          simp
        rw [← hfilled] at hmem
        cases hmem
    unfold orderCreateStep orderCreateLocked pushOrderLocked
    simp only [hadm.request, hfin, hcart, orderBuildFromCart_eq, if_neg hne,
      Arr.push?_of_lt hadm.room, Option.map_some]
    exact ⟨_, _, rfl⟩

/-- The accepted order. -/
theorem orderOf_of_accepted {env : Env} {w w' : World} {line : Bytes} {tableId : Int} {o : Order}
    (h : orderCreateStep S env w line tableId = (.ok o, w')) :
    ∃ parsed, Admitted w line tableId parsed ∧ OrderOf S w.ctx.menu parsed o ∧
      o.tableId = tableId ∧ o.createdAt = env.now ∧ Created S w w' o := by
  rcases orderCreateStep_cases S h with ⟨⟨r, hr, -⟩, -⟩ |
    ⟨parsed, lines, cart, o', hreq, hfin, hcart, ho, hres, hcreated⟩
  · cases hr
  · cases hres
    obtain ⟨p, hadm⟩ := (orderCreateStep_accepts S env w line tableId).mp ⟨o, w', h⟩
    have hp : p = parsed := by
      have := hadm.request
      rw [hreq] at this
      exact (Except.ok.inj this).symm
    subst hp
    obtain ⟨hof, htbl, hnow⟩ := orderOf_of_stages S hfin hcart ho
    exact ⟨p, hadm, hof, htbl, hnow, hcreated⟩

/-! ## All or nothing -/

/-- The request became the order `o`, and this is all that happened. -/
structure Taken (w w' : World) (fd tableId : Int) (parsed : List CartItem) (o : Order) : Prop where
  orders : w'.ctx.orders.items = w.ctx.orders.items ++ [o]
  orderId : o.orderId = w.ctx.cfg.nextOrderId
  tableId : o.tableId = tableId
  waiting : o.status = .waiting
  ids : o.items.items.map (·.menuId) = (parsed.map (·.menuId)).eraseDups
  qty : ∀ it ∈ o.items.items,
    it.qty = ((parsed.filter (·.menuId == it.menuId)).map (·.qty)).sum
  entry : ∀ it ∈ o.items.items, ∃ mi, menuFindById w.ctx.menu it.menuId = some mi ∧
    mi.soldOut = 0 ∧ it.name = mi.name ∧ it.unitPrice = mi.price
  total : o.totalPrice = (o.items.items.map fun it => it.unitPrice * it.qty).sum
  ctx : w'.ctx = { w.ctx with
    orders := w'.ctx.orders
    cfg := { w.ctx.cfg with nextOrderId := w.ctx.cfg.nextOrderId + 1 }
    ordersRevision := w.ctx.ordersRevision + 1 }
  salesLog : w'.salesLog = w.salesLog
  sent : w'.sent = w.sent ++ (w.ctx.receivers.map fun f => (f, orderEvent o)) ++
    [(fd, (createdReply o).text)]

theorem sumQty_exact (qs : List Int) : sumQty .exact qs = qs.sum := by
  cases qs with
  | nil => rfl
  | cons q qs => rw [sumQty, IntSem.accum_exact, List.sum_cons]

theorem startsWith_text_of_isError {r : Reply} (h : r.isError = true) :
    startsWith (lit "ERROR|") r.text = true := by
  cases r <;> first | rfl | cases h

theorem orderCreate_allOrNothing (env : Env) (w : World) (fd : Int) (line : Bytes)
    (tableId : Int) :
    (∃ r : Reply, startsWith (lit "ERROR|") r.text = true ∧
      (handleOrderCreateClient .exact env w fd line tableId).2 = reply w fd r) ∨
    ∃ parsed o, protoParseOrderCreate line MAX_ORDER_ITEMS = .ok (tableId, parsed) ∧
      Taken w (handleOrderCreateClient .exact env w fd line tableId).2 fd tableId parsed o := by
  rcases hstep : orderCreateStep .exact env w line tableId with ⟨res, v⟩
  have hhandle : (handleOrderCreateClient .exact env w fd line tableId).2 =
      reply v fd (orderCreateReply res) := by
    rw [handleOrderCreateClient, hstep]
  rw [hhandle]
  cases res with
  | error r =>
    left
    rcases orderCreateStep_cases .exact hstep with ⟨⟨r', hr, herr⟩, rfl⟩ | h
    · cases hr
      exact ⟨r, startsWith_text_of_isError herr, rfl⟩
    · obtain ⟨_, _, _, _, -, -, -, -, hr, -⟩ := h
      cases hr
  | ok o =>
    right
    obtain ⟨parsed, hadm, hof, htbl, -, hcreated⟩ := orderOf_of_accepted .exact hstep
    refine ⟨parsed, o, orderCreateRequest_eq_ok.mp hadm.request, ?_⟩
    constructor
    · exact hcreated.orders
    · exact hcreated.id
    · exact htbl
    · exact hcreated.waiting
    · exact hof.ids
    · intro it hit
      rw [hof.qty it hit, sumQty_exact]
      rfl
    · exact hof.entry
    · rw [hof.total, IntSem.accum_exact, Int.zero_add]
      rfl
    · exact hcreated.ctx
    · exact hcreated.salesLog
    · rw [reply_sent, hcreated.sent]
      rfl

/-! ## Amounts in C integers -/

/-- Whatever signed overflow gives, the order stored for this request has exact amounts: each
quantity is the positive sum of the parsed quantities for its id, and the total is the sum of
price times quantity. -/
def AmountsExact (env : Env) (w : World) (fd : Int) (line : Bytes) (tableId : Int) : Prop :=
  ∀ (S : IntSem) (parsed : List CartItem) (o : Order),
    protoParseOrderCreate line MAX_ORDER_ITEMS = .ok (tableId, parsed) →
    (handleOrderCreateClient S env w fd line tableId).2.ctx.orders.items =
      w.ctx.orders.items ++ [o] →
    (∀ it ∈ o.items.items, 0 < it.qty ∧ it.qty = (qtysOf parsed it.menuId).sum) ∧
      o.totalPrice = (o.items.items.map fun it => it.unitPrice * it.qty).sum

def priceOf (menu : MenuCatalog) (menuId : Int) : Int :=
  ((menuFindById menu menuId).map (·.price)).getD 0

/-- What each distinct id of a request costs, in order of first occurrence. -/
def charges (menu : MenuCatalog) (parsed : List CartItem) : List Int :=
  (distinctIds parsed).map fun menuId => priceOf menu menuId * (qtysOf parsed menuId).sum

/-- Every quantity sum, every product and every running total is an `int`. -/
structure NoOverflow (menu : MenuCatalog) (parsed : List CartItem) : Prop where
  qty : ∀ menuId ∈ distinctIds parsed, FitsInt (qtysOf parsed menuId).sum
  product : ∀ x ∈ charges menu parsed, FitsInt x
  total : IntSem.SumsFit 0 (charges menu parsed)

theorem fits_of_mem_qtysOf {parsed : List CartItem} (h : ∀ it ∈ parsed, it.Parsed) {menuId q : Int}
    (hq : q ∈ qtysOf parsed menuId) : 0 < q ∧ FitsInt q := by
  obtain ⟨it, hit, rfl⟩ := List.mem_map.mp hq
  have hp := h it (List.mem_filter.mp hit).1
  exact ⟨hp.qty_pos, hp.qty_fits⟩

/-- A merged quantity is exact when the exact sum is an `int`. -/
theorem sumQty_of_fits {parsed : List CartItem} (h : ∀ it ∈ parsed, it.Parsed) {menuId : Int}
    (hfits : FitsInt (qtysOf parsed menuId).sum) :
    sumQty S (qtysOf parsed menuId) = (qtysOf parsed menuId).sum := by
  have hmem : ∀ q ∈ qtysOf parsed menuId, 0 < q ∧ FitsInt q := fun _ hq => fits_of_mem_qtysOf h hq
  revert hfits hmem
  generalize qtysOf parsed menuId = qs
  intro hfits hmem
  cases qs with
  | nil => rfl
  | cons q qs =>
    rw [List.sum_cons] at hfits ⊢
    have hq := (hmem q (by simp)).1
    have hpos : ∀ x ∈ qs, 0 ≤ x := by
      intro x hx
      have := (hmem x (by simp [hx])).1
      omega
    exact S.accum_of_sumsFit (IntSem.sumsFit_of_sum_fits (by omega) hpos hfits)

/-- Under `offByOne` it is exact only then. -/
theorem fits_of_sumQty_offByOne {parsed : List CartItem} (h : ∀ it ∈ parsed, it.Parsed)
    {menuId : Int}
    (heq : sumQty .offByOne (qtysOf parsed menuId) = (qtysOf parsed menuId).sum) :
    FitsInt (qtysOf parsed menuId).sum := by
  have hmem : ∀ q ∈ qtysOf parsed menuId, 0 < q ∧ FitsInt q := fun _ hq => fits_of_mem_qtysOf h hq
  revert heq hmem
  generalize qtysOf parsed menuId = qs
  intro heq hmem
  cases qs with
  | nil => decide
  | cons q qs =>
    rw [List.sum_cons] at heq ⊢
    have hrefl : List.Forall₂ (· ≤ ·) qs qs := List.forall₂_same.mpr fun x _ => Int.le_refl x
    obtain ⟨-, hsums⟩ := IntSem.forall₂_eq_of_accum_offByOne hrefl heq
    exact hsums.sum_fits (hmem q (by simp)).2

/-- With exact quantities the products of an order are the charges of the request. -/
theorem products_eq_charges {menu : MenuCatalog} {parsed : List CartItem} {o : Order}
    (hof : OrderOf S menu parsed o)
    (hqty : ∀ it ∈ o.items.items, it.qty = (qtysOf parsed it.menuId).sum) :
    (o.items.items.map fun it => it.unitPrice * it.qty) = charges menu parsed := by
  rw [charges, ← hof.ids, List.map_map]
  apply List.map_congr_left
  intro it hit
  obtain ⟨mi, hmi, -, -, hprice⟩ := hof.entry it hit
  rw [hqty it hit, hprice]
  simp [priceOf, hmi]

theorem amounts_of_noOverflow {menu : MenuCatalog} {parsed : List CartItem} {o : Order}
    (hparsed : ∀ it ∈ parsed, it.Parsed) (hof : OrderOf S menu parsed o)
    (h : NoOverflow menu parsed) :
    (∀ it ∈ o.items.items, it.qty = (qtysOf parsed it.menuId).sum) ∧
      o.totalPrice = (o.items.items.map fun it => it.unitPrice * it.qty).sum := by
  have hqty : ∀ it ∈ o.items.items, it.qty = (qtysOf parsed it.menuId).sum := by
    intro it hit
    rw [hof.qty it hit]
    apply sumQty_of_fits S hparsed
    apply h.qty
    rw [← hof.ids]
    exact List.mem_map_of_mem hit
  have hprod := products_eq_charges S hof hqty
  refine ⟨hqty, ?_⟩
  have hnorm : (o.items.items.map fun it => S.norm (it.unitPrice * it.qty)) =
      o.items.items.map fun it => it.unitPrice * it.qty := by
    apply List.map_congr_left
    intro it hit
    apply S.norm_of_fits
    apply h.product
    rw [← hprod]
    exact List.mem_map_of_mem hit
  rw [hof.total, hnorm, hprod, S.accum_of_sumsFit h.total, Int.zero_add]

theorem noOverflow_of_amounts {menu : MenuCatalog} {parsed : List CartItem} {o : Order}
    (hparsed : ∀ it ∈ parsed, it.Parsed) (hof : OrderOf .offByOne menu parsed o)
    (hqty : ∀ it ∈ o.items.items, it.qty = (qtysOf parsed it.menuId).sum)
    (htotal : o.totalPrice = (o.items.items.map fun it => it.unitPrice * it.qty).sum) :
    NoOverflow menu parsed := by
  have hprod := products_eq_charges .offByOne hof hqty
  have hle : List.Forall₂ (· ≤ ·) (o.items.items.map fun it => it.unitPrice * it.qty)
      (o.items.items.map fun it => IntSem.offByOne.norm (it.unitPrice * it.qty)) := by
    rw [List.forall₂_map_left_iff, List.forall₂_map_right_iff, List.forall₂_same]
    intro it _
    exact IntSem.le_offByOne_norm _
  have haccum := htotal
  rw [hof.total, ← Int.zero_add (List.sum _)] at haccum
  obtain ⟨hsame, hsums⟩ := IntSem.forall₂_eq_of_accum_offByOne hle haccum
  constructor
  · intro menuId hid
    rw [← hof.ids] at hid
    obtain ⟨it, hit, rfl⟩ := List.mem_map.mp hid
    apply fits_of_sumQty_offByOne hparsed
    rw [← hof.qty it hit, hqty it hit]
  · intro x hx
    rw [← hprod] at hx
    obtain ⟨it, hit, rfl⟩ := List.mem_map.mp hx
    by_contra hno
    have hlt := IntSem.lt_offByOne_norm hno
    have := List.map_inj_left.mp hsame it hit
    omega
  · rw [← hprod]
    exact hsums

/-- The store shows whether the handler accepted, and which order. -/
theorem orderCreateStep_of_appended {env : Env} {w : World} {fd : Int} {line : Bytes}
    {tableId : Int} {o : Order}
    (h : (handleOrderCreateClient S env w fd line tableId).2.ctx.orders.items =
      w.ctx.orders.items ++ [o]) :
    ∃ w', orderCreateStep S env w line tableId = (.ok o, w') := by
  rcases hstep : orderCreateStep S env w line tableId with ⟨res, v⟩
  have hv : v.ctx.orders.items = w.ctx.orders.items ++ [o] := by
    rw [handleOrderCreateClient, hstep] at h
    exact h
  rcases orderCreateStep_cases S hstep with ⟨-, rfl⟩ | ⟨_, _, _, o', -, -, -, -, rfl, hcreated⟩
  · simp at hv
  · rw [hcreated.orders] at hv
    have : o' = o := by simpa using hv
    exact ⟨v, by rw [this]⟩

theorem amountsExact_iff (env : Env) (w : World) (fd : Int) (line : Bytes) (tableId : Int) :
    AmountsExact env w fd line tableId ↔
      ∀ parsed, Admitted w line tableId parsed → NoOverflow w.ctx.menu parsed := by
  constructor
  · intro h parsed hadm
    have hparse := orderCreateRequest_eq_ok.mp hadm.request
    obtain ⟨o, w', hstep⟩ :=
      (orderCreateStep_accepts .offByOne env w line tableId).mpr ⟨parsed, hadm⟩
    obtain ⟨p, hp, hof, -, -, hcreated⟩ := orderOf_of_accepted .offByOne hstep
    have hpp : p = parsed := by
      have := orderCreateRequest_eq_ok.mp hp.request
      rw [hparse] at this
      cases this
      rfl
    subst hpp
    obtain ⟨hqty, htotal⟩ := h .offByOne p o hparse (by
      rw [handleOrderCreateClient, hstep]
      exact hcreated.orders)
    exact noOverflow_of_amounts (parsed_of_request hadm.request).2 hof
      (fun it hit => (hqty it hit).2) htotal
  · intro h S parsed o hparse happended
    obtain ⟨w', hstep⟩ := orderCreateStep_of_appended S happended
    obtain ⟨p, hp, hof, -, -, -⟩ := orderOf_of_accepted S hstep
    have hpp : p = parsed := by
      have := orderCreateRequest_eq_ok.mp hp.request
      rw [hparse] at this
      cases this
      rfl
    subst hpp
    have hparsed := (parsed_of_request hp.request).2
    obtain ⟨hqty, htotal⟩ := amounts_of_noOverflow S hparsed hof (h p hp)
    refine ⟨fun it hit => ⟨?_, hqty it hit⟩, htotal⟩
    -- a sum of positive quantities, at least one of them
    have hid : it.menuId ∈ p.map (·.menuId) := by
      have hmem : it.menuId ∈ distinctIds p := by
        rw [← hof.ids]
        exact List.mem_map_of_mem hit
      rwa [distinctIds, List.mem_eraseDups] at hmem
    rw [hqty it hit]
    exact List.sum_pos _ (fun q hq => (fits_of_mem_qtysOf hparsed hq).1) (qtysOf_ne_nil hid)

/-- One line of 2147483647 default dishes at 9000: the product wraps to -9000. -/
theorem amountsExact_fails : ¬ ∀ env w fd line tableId, AmountsExact env w fd line tableId := by
  intro h
  let w := firstStart
  let line := lit "ORDER_CREATE|table=1|items=1:2147483647"
  let o : Order := ⟨1, 1, .waiting,
    ⟨[⟨1, CStr.copy MAX_NAME (lit "Kimchi Fried Rice"), 9000, 2147483647⟩], by decide⟩, -9000, 0⟩
  have hparse : protoParseOrderCreate line MAX_ORDER_ITEMS =
      .ok (1, [⟨1, CStr.empty MAX_NAME, 0, 2147483647⟩]) := by
    rfl
  have hstored : (handleOrderCreateClient .wrap (Env.fair 0) w 3 line 1).2.ctx.orders.items =
      w.ctx.orders.items ++ [o] := by
    decide +kernel
  have htotal := (h (Env.fair 0) w 3 line 1 .wrap _ o hparse hstored).2
  exact absurd htotal (by decide)

end TableOrder
