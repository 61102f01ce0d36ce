import Mathlib.Data.List.Basic
import Mathlib.Data.List.Induction
import Mathlib.Data.List.Nodup
import TableOrder.Common

/-!
# Carts and orders (`order.c`)

`cartAdd` merges by menu id, `orderBuildFromCart` prices the lines one after the other. Both work
on `int`s, so they take the reading `S` of signed overflow; a lookup by id returns the first
match, as the loops of the source do.

The specification lemmas say what each function returns as a whole: `cartAdd_cases`,
`orderBuildFromCart_eq` and `ordersFindIndex_eq_some`. Nothing below unfolds the functions again.
-/

namespace TableOrder

open CLib

abbrev Cart := Arr CartItem MAX_ORDER_ITEMS

variable (S : IntSem)

/-! ## The cart -/

def cartInit : Cart := Arr.empty CartItem MAX_ORDER_ITEMS

/-- The position of the first line with this menu id. -/
def cartFind (cart : Cart) (menuId : Int) : Option Nat :=
  cart.items.findIdx? (·.menuId == menuId)

def cartAdd (cart : Cart) (line : CartItem) : Except Bytes Cart :=
  if line.qty ≤ 0 then
    .error (lit "bad qty")
  else
    match cartFind cart line.menuId with
    | some i => .ok (cart.modify i fun it => { it with qty := S.norm (it.qty + line.qty) })
    | none =>
      match cart.push? line with
      | some cart' => .ok cart'
      | none => .error (lit "cart full")

/-- The only failure is a line that is not there; the source leaves `err` as it was. -/
def cartRemoveLine (cart : Cart) (menuId : Int) : Option Cart :=
  (cartFind cart menuId).map cart.eraseIdx

def cartSetQty (cart : Cart) (menuId qty : Int) : Except Bytes Cart :=
  if qty ≤ 0 then
    match cartRemoveLine cart menuId with
    | some cart' => .ok cart'
    | none => .error []
  else
    match cartFind cart menuId with
    | some i => .ok (cart.modify i fun it => { it with qty := qty })
    | none => .error (lit "line not in cart")

/-- One turn of the loops that add up prices. -/
def addPrice (total price qty : Int) : Int := S.norm (total + S.norm (price * qty))

def cartTotal (cart : Cart) : Int :=
  cart.items.foldl (fun t it => addPrice S t it.price it.qty) 0

theorem cartFind_eq_some {cart : Cart} {menuId : Int} {i : Nat}
    (h : cartFind cart menuId = some i) :
    ∃ it, cart.items[i]? = some it ∧ it.menuId = menuId := by
  obtain ⟨hlt, hi, -⟩ := List.findIdx?_eq_some_iff_getElem.mp h
  exact ⟨cart.items[i], List.getElem?_eq_getElem hlt, by simpa using hi⟩

theorem cartFind_eq_none {cart : Cart} {menuId : Int} :
    cartFind cart menuId = none ↔ menuId ∉ cart.items.map (·.menuId) := by
  simp [cartFind, List.findIdx?_eq_none_iff]

/-- Everything `cartAdd` can do: merge into the line with the same id, append a line under a new
id, or fail. -/
theorem cartAdd_cases {cart cart' : Cart} {line : CartItem} (h : cartAdd S cart line = .ok cart') :
    0 < line.qty ∧
    ((∃ i it, cart.items[i]? = some it ∧ it.menuId = line.menuId ∧
        cart'.items = cart.items.set i { it with qty := S.norm (it.qty + line.qty) }) ∨
      (line.menuId ∉ cart.items.map (·.menuId) ∧ cart.items.length < MAX_ORDER_ITEMS ∧
        cart'.items = cart.items ++ [line])) := by
  unfold cartAdd at h
  split at h
  · cases h
  · next hq =>
    refine ⟨by omega, ?_⟩
    cases hfind : cartFind cart line.menuId with
    | some i =>
      rw [hfind] at h
      cases h
      obtain ⟨it, hit, hid⟩ := cartFind_eq_some hfind
      exact Or.inl ⟨i, it, hit, hid, modify_eq_set hit⟩
    | none =>
      rw [hfind] at h
      simp only at h
      cases hpush : cart.push? line with
      | none =>
        rw [hpush] at h
        cases h
      | some c =>
        rw [hpush] at h
        cases h
        obtain ⟨hlt, hc⟩ := Arr.push?_eq_some.mp hpush
        exact Or.inr ⟨cartFind_eq_none.mp hfind, hlt, hc⟩

/-- `cartAdd` fails only on a bad quantity or, under a new id, on a full cart. -/
theorem cartAdd_isOk {cart : Cart} {line : CartItem} (hq : 0 < line.qty)
    (hroom : cart.items.length < MAX_ORDER_ITEMS) : ∃ cart', cartAdd S cart line = .ok cart' := by
  unfold cartAdd
  rw [if_neg (by omega)]
  cases cartFind cart line.menuId with
  | some i => exact ⟨_, rfl⟩
  | none =>
    simp only [Arr.push?_of_lt hroom]
    exact ⟨_, rfl⟩

theorem cartAdd_eq_error {cart : Cart} {line : CartItem} {e : Bytes}
    (h : cartAdd S cart line = .error e) : line.qty ≤ 0 ∨
      (line.menuId ∉ cart.items.map (·.menuId) ∧ MAX_ORDER_ITEMS ≤ cart.items.length) := by
  by_cases hq : line.qty ≤ 0
  · exact Or.inl hq
  · right
    rw [cartAdd, if_neg hq] at h
    cases hfind : cartFind cart line.menuId with
    | some i =>
      rw [hfind] at h
      cases h
    | none =>
      refine ⟨cartFind_eq_none.mp hfind, Nat.le_of_not_lt fun hroom => ?_⟩
      have hpos : 0 < line.qty := by omega
      obtain ⟨cart', hok⟩ := cartAdd_isOk S hpos hroom
      rw [cartAdd, if_neg hq, h] at hok
      cases hok

theorem cartRemoveLine_eq_none {cart : Cart} {menuId : Int} :
    cartRemoveLine cart menuId = none ↔ menuId ∉ cart.items.map (·.menuId) := by
  rw [cartRemoveLine, Option.map_eq_none_iff, cartFind_eq_none]

theorem cartRemoveLine_eq_some {cart cart' : Cart} {menuId : Int}
    (h : cartRemoveLine cart menuId = some cart') :
    ∃ i it, cart.items[i]? = some it ∧ it.menuId = menuId ∧
      cart'.items = cart.items.eraseIdx i := by
  obtain ⟨i, hfind, rfl⟩ := Option.map_eq_some_iff.mp h
  obtain ⟨it, hit, hid⟩ := cartFind_eq_some hfind
  exact ⟨i, it, hit, hid, rfl⟩

/-- Everything `cartSetQty` can do: change the quantity of the line, or remove it. -/
theorem cartSetQty_cases {cart cart' : Cart} {menuId qty : Int}
    (h : cartSetQty cart menuId qty = .ok cart') :
    ∃ i it, cart.items[i]? = some it ∧ it.menuId = menuId ∧
      ((0 < qty ∧ cart'.items = cart.items.set i { it with qty := qty }) ∨
        (qty ≤ 0 ∧ cart'.items = cart.items.eraseIdx i)) := by
  unfold cartSetQty at h
  split at h
  · next hq =>
    cases hrem : cartRemoveLine cart menuId with
    | none =>
      rw [hrem] at h
      cases h
    | some c =>
      rw [hrem] at h
      cases h
      obtain ⟨i, it, hit, hid, hitems⟩ := cartRemoveLine_eq_some hrem
      exact ⟨i, it, hit, hid, Or.inr ⟨hq, hitems⟩⟩
  · next hq =>
    cases hfind : cartFind cart menuId with
    | none =>
      rw [hfind] at h
      cases h
    | some i =>
      rw [hfind] at h
      cases h
      obtain ⟨it, hit, hid⟩ := cartFind_eq_some hfind
      exact ⟨i, it, hit, hid, Or.inl ⟨by omega, modify_eq_set hit⟩⟩

theorem cartSetQty_eq_error {cart : Cart} {menuId qty : Int} {e : Bytes}
    (h : cartSetQty cart menuId qty = .error e) : menuId ∉ cart.items.map (·.menuId) := by
  unfold cartSetQty at h
  split at h
  · cases hrem : cartRemoveLine cart menuId with
    | none => exact cartRemoveLine_eq_none.mp hrem
    | some c =>
      rw [hrem] at h
      cases h
  · cases hfind : cartFind cart menuId with
    | none => exact cartFind_eq_none.mp hfind
    | some i =>
      rw [hfind] at h
      cases h

/-! ## Filling a cart

`cartAdd` over a list of lines: one line for each distinct id, in order of first occurrence, with
the name and the price of the first line under that id and the quantities added up. -/

/-- The quantities of the lines with this id. -/
def qtysOf (lines : List CartItem) (menuId : Int) : List Int :=
  (lines.filter (·.menuId == menuId)).map (·.qty)

def distinctIds (lines : List CartItem) : List Int := (lines.map (·.menuId)).eraseDups

/-- The quantities as the merges add them up, starting from the first. -/
def sumQty : List Int → Int
  | [] => 0
  | q :: qs => S.accum q qs

structure Filled (lines items : List CartItem) : Prop where
  ids : items.map (·.menuId) = distinctIds lines
  line : ∀ it ∈ items, ∃ first, lines.find? (·.menuId == it.menuId) = some first ∧
    it = { first with qty := sumQty S (qtysOf lines it.menuId) }

theorem sumQty_concat {qs : List Int} (hqs : qs ≠ []) (q : Int) :
    sumQty S (qs ++ [q]) = S.norm (sumQty S qs + q) := by
  cases qs with
  | nil => exact absurd rfl hqs
  | cons q0 qs => exact S.accum_concat q0 q qs

theorem qtysOf_concat_self {lines : List CartItem} {line : CartItem} {menuId : Int}
    (h : line.menuId = menuId) :
    qtysOf (lines ++ [line]) menuId = qtysOf lines menuId ++ [line.qty] := by
  simp [qtysOf, h]

theorem qtysOf_concat_of_ne {lines : List CartItem} {line : CartItem} {menuId : Int}
    (h : line.menuId ≠ menuId) : qtysOf (lines ++ [line]) menuId = qtysOf lines menuId := by
  simp [qtysOf, h]

theorem qtysOf_eq_nil {lines : List CartItem} {menuId : Int}
    (h : menuId ∉ lines.map (·.menuId)) : qtysOf lines menuId = [] := by
  rw [qtysOf, List.map_eq_nil_iff, List.filter_eq_nil_iff]
  intro it hit hid
  exact h (List.mem_map.mpr ⟨it, hit, by simpa using hid⟩)

theorem qtysOf_ne_nil {lines : List CartItem} {menuId : Int}
    (h : menuId ∈ lines.map (·.menuId)) : qtysOf lines menuId ≠ [] := by
  obtain ⟨it, hit, hid⟩ := List.mem_map.mp h
  intro hnil
  rw [qtysOf, List.map_eq_nil_iff, List.filter_eq_nil_iff] at hnil
  exact hnil it hit (by simpa using hid)

theorem qtysOf_pos {lines : List CartItem} (hpos : ∀ it ∈ lines, 0 < it.qty) (menuId : Int) :
    ∀ q ∈ qtysOf lines menuId, 0 < q := by
  intro q hq
  obtain ⟨it, hit, rfl⟩ := List.mem_map.mp hq
  exact hpos it (List.mem_filter.mp hit).1

theorem Filled.nodup {lines items : List CartItem} (h : Filled S lines items) :
    (items.map (·.menuId)).Nodup := by
  rw [h.ids]
  exact nodup_eraseDups _

theorem Filled.mem_ids {lines items : List CartItem} (h : Filled S lines items) {menuId : Int} :
    menuId ∈ items.map (·.menuId) ↔ menuId ∈ lines.map (·.menuId) := by
  rw [h.ids, distinctIds, List.mem_eraseDups]

/-- An entry under another id is the same after one more line. -/
theorem Filled.line_concat {lines items : List CartItem} (h : Filled S lines items)
    {it line : CartItem} (hit : it ∈ items) (hne : line.menuId ≠ it.menuId) :
    ∃ first, (lines ++ [line]).find? (·.menuId == it.menuId) = some first ∧
      it = { first with qty := sumQty S (qtysOf (lines ++ [line]) it.menuId) } := by
  obtain ⟨first, hfind, heq⟩ := h.line it hit
  refine ⟨first, by rw [List.find?_append, hfind]; rfl, ?_⟩
  rw [qtysOf_concat_of_ne hne]
  exact heq

/-- One more line keeps the cart filled. -/
theorem Filled.cartAdd {lines : List CartItem} {cart cart' : Cart} {line : CartItem}
    (h : Filled S lines cart.items) (hadd : cartAdd S cart line = .ok cart') :
    Filled S (lines ++ [line]) cart'.items := by
  obtain ⟨-, ⟨i, it, hi, hid, hitems⟩ | ⟨hnew, -, hitems⟩⟩ := cartAdd_cases S hadd
  · -- the line merges into entry `i`
    have hit : it ∈ cart.items := List.mem_of_getElem? hi
    have hmem : line.menuId ∈ lines.map (·.menuId) := by
      rw [← h.mem_ids, ← hid]
      exact List.mem_map_of_mem hit
    rw [hitems]
    constructor
    · have hids := map_set_of_eq (y := { it with qty := S.norm (it.qty + line.qty) })
        (g := (·.menuId)) hi rfl
      rw [hids, h.ids, distinctIds, distinctIds, List.map_append, List.map_singleton,
        eraseDups_concat_of_mem hmem]
    · intro v hv
      obtain ⟨j, hj⟩ := List.mem_iff_getElem?.mp hv
      rw [List.getElem?_set] at hj
      split at hj
      · next hij =>
        subst hij
        split at hj
        · cases hj
          obtain ⟨first, hfind, heq⟩ := h.line it hit
          refine ⟨first, by rw [List.find?_append, hfind]; rfl, ?_⟩
          have hne : qtysOf lines it.menuId ≠ [] := qtysOf_ne_nil (hid ▸ hmem)
          show { it with qty := _ } = _
          rw [qtysOf_concat_self hid.symm, sumQty_concat S hne]
          rw [show it.qty = sumQty S (qtysOf lines it.menuId) from congrArg (·.qty) heq]
          exact congrArg (fun x : CartItem => { x with
            qty := S.norm (sumQty S (qtysOf lines it.menuId) + line.qty) }) heq
        · cases hj
      · next hij =>
        refine h.line_concat S (List.mem_of_getElem? hj) ?_
        -- the ids of the entries are distinct, so this one has another id
        rw [← hid]
        intro hsame
        obtain ⟨hlti, hgeti⟩ := List.getElem?_eq_some_iff.mp hi
        obtain ⟨hltj, hgetj⟩ := List.getElem?_eq_some_iff.mp hj
        have hi' : i < (cart.items.map (·.menuId)).length := by simpa using hlti
        have hj' : j < (cart.items.map (·.menuId)).length := by simpa using hltj
        have hids : (cart.items.map (·.menuId))[i] = (cart.items.map (·.menuId))[j] := by
          rw [List.getElem_map, List.getElem_map, hgeti, hgetj, hsame]
        exact hij (h.nodup.getElem_inj_iff.mp hids)
  · -- the line is new
    have hnot : line.menuId ∉ lines.map (·.menuId) := fun hm => hnew (h.mem_ids.mpr hm)
    rw [hitems]
    constructor
    · rw [distinctIds, List.map_append, List.map_append, List.map_singleton,
        eraseDups_concat_of_not_mem hnot, ← distinctIds, ← h.ids]
    · intro v hv
      rcases List.mem_append.mp hv with hv | hv
      · refine h.line_concat S hv ?_
        intro hsame
        exact hnew (hsame ▸ List.mem_map_of_mem hv)
      · rw [List.mem_singleton] at hv
        subst hv
        refine ⟨v, ?_, ?_⟩
        · rw [List.find?_append, List.find?_eq_none.mpr]
          · simp
          · intro u hu hid
            exact hnot (List.mem_map.mpr ⟨u, hu, by simpa using hid⟩)
        · rw [qtysOf_concat_self rfl, qtysOf_eq_nil hnot]
          rfl

theorem filled_of_foldlM {lines : List CartItem} {cart : Cart}
    (h : lines.foldlM (cartAdd S) cartInit = .ok cart) : Filled S lines cart.items := by
  induction lines using List.reverseRecOn generalizing cart with
  | nil =>
    cases h
    exact ⟨rfl, fun it hit => absurd hit (by simp [cartInit])⟩
  | append_singleton lines line ih =>
    rw [List.foldlM_append] at h
    cases hcart : lines.foldlM (cartAdd S) cartInit with
    | error e =>
      rw [hcart] at h
      cases h
    | ok c =>
      rw [hcart] at h
      have hadd : cartAdd S c line = .ok cart := by
        change (cartAdd S c line >>= pure) = .ok cart at h
        rwa [bind_pure] at h
      exact (ih hcart).cartAdd S hadd

/-- Lines with positive quantities that a cart has room for are all added. -/
theorem foldlM_cartAdd_isOk {lines : List CartItem} (hpos : ∀ it ∈ lines, 0 < it.qty)
    (hroom : lines.length ≤ MAX_ORDER_ITEMS) :
    ∃ cart, lines.foldlM (cartAdd S) cartInit = .ok cart := by
  suffices h : ∀ (cart : Cart), cart.items.length + lines.length ≤ MAX_ORDER_ITEMS →
      ∃ cart', lines.foldlM (cartAdd S) cart = .ok cart' from h cartInit (by simpa [cartInit])
  clear hroom
  induction lines with
  | nil => exact fun cart _ => ⟨cart, rfl⟩
  | cons line lines ih =>
    intro cart hroom
    rw [List.length_cons] at hroom
    obtain ⟨c, hc⟩ := cartAdd_isOk S (hpos line (by simp)) (show cart.items.length < _ by omega)
    rw [List.foldlM_cons, hc]
    refine ih (fun it hit => hpos it (by simp [hit])) c ?_
    obtain ⟨-, ⟨i, it, -, -, hitems⟩ | ⟨-, -, hitems⟩⟩ := cartAdd_cases S hc
    · rw [hitems, List.length_set]
      omega
    · rw [hitems, List.length_append, List.length_singleton]
      omega

/-! ## Orders -/

/-- The order line of a cart line. -/
def lineOf (it : CartItem) : OrderLineItem where
  menuId := it.menuId
  name := CStr.copy MAX_NAME it.name.bytes
  unitPrice := it.price
  qty := it.qty

/-- One turn of the loop of `order_build_from_cart`; `none` is "too many lines". -/
def orderAddLine (ord : Order) (it : CartItem) : Option Order :=
  match ord.items.push? (lineOf it) with
  | none => none
  | some items =>
    some { ord with items := items, totalPrice := addPrice S ord.totalPrice it.price it.qty }

/-- The order before its first line: `memset` and the header fields. -/
def orderHeader (orderId tableId now : Int) : Order where
  orderId := orderId
  tableId := tableId
  status := .waiting
  items := Arr.empty OrderLineItem MAX_ORDER_ITEMS
  totalPrice := 0
  createdAt := now

def orderBuildFromCart (orderId tableId now : Int) (cart : Cart) : Except Bytes Order :=
  if cart.items.length = 0 then
    .error (lit "empty cart")
  else
    match cart.items.foldlM (orderAddLine S) (orderHeader orderId tableId now) with
    | none => .error (lit "too many lines")
    | some ord => .ok ord

@[simp] theorem lineOf_eq (it : CartItem) :
    lineOf it = ⟨it.menuId, it.name, it.price, it.qty⟩ := by
  simp [lineOf]

/-- The loop appends the lines and adds up their prices; it fails only without room. -/
theorem foldlM_orderAddLine (ord : Order) (its : List CartItem)
    (hroom : ord.items.items.length + its.length ≤ MAX_ORDER_ITEMS) :
    ∃ items : Arr OrderLineItem MAX_ORDER_ITEMS,
      items.items = ord.items.items ++ its.map lineOf ∧
      its.foldlM (orderAddLine S) ord = some { ord with
        items := items
        totalPrice := its.foldl (fun t it => addPrice S t it.price it.qty) ord.totalPrice } := by
  induction its generalizing ord with
  | nil => exact ⟨ord.items, by simp, rfl⟩
  | cons it its ih =>
    simp only [List.length_cons] at hroom
    have hlt : ord.items.items.length < MAX_ORDER_ITEMS := by omega
    have hstep : orderAddLine S ord it = some { ord with
        items := ord.items.push (lineOf it) hlt
        totalPrice := addPrice S ord.totalPrice it.price it.qty } := by
      simp only [orderAddLine, Arr.push?_of_lt hlt]
    obtain ⟨items, hitems, hfold⟩ := ih { ord with
        items := ord.items.push (lineOf it) hlt
        totalPrice := addPrice S ord.totalPrice it.price it.qty } (by
      simp only [Arr.push_items, List.length_append, List.length_singleton]
      omega)
    refine ⟨items, ?_, ?_⟩
    · rw [hitems]
      simp
    · rw [List.foldlM_cons, hstep]
      exact hfold

/-- The lines of a cart as an order has them. -/
def orderLines (cart : Cart) : Arr OrderLineItem MAX_ORDER_ITEMS :=
  ⟨cart.items.map lineOf, by simpa using cart.bound⟩

@[simp] theorem orderLines_items (cart : Cart) :
    (orderLines cart).items = cart.items.map lineOf := rfl

/-- A cart holds at most as many lines as an order, so only an empty cart is refused. -/
theorem orderBuildFromCart_eq (orderId tableId now : Int) (cart : Cart) :
    orderBuildFromCart S orderId tableId now cart =
      if cart.items = [] then .error (lit "empty cart")
      else .ok { orderHeader orderId tableId now with
        items := orderLines cart
        totalPrice := cartTotal S cart } := by
  unfold orderBuildFromCart
  simp only [List.length_eq_zero_iff]
  split
  · rfl
  · obtain ⟨items, hitems, hfold⟩ := foldlM_orderAddLine S (orderHeader orderId tableId now)
      cart.items (by simpa [orderHeader] using cart.bound)
    have : items = orderLines cart := Arr.ext_items (by simpa [orderHeader] using hitems)
    rw [hfold, this]
    rfl

/-! ## Finding orders -/

def ordersFindIndex (orders : List Order) (orderId : Int) : Option Nat :=
  orders.findIdx? (·.orderId == orderId)

/-- The first order with this id, with its index: the pointer `orders_find` returns. -/
def ordersFind (orders : List Order) (orderId : Int) : Option (Nat × Order) :=
  match ordersFindIndex orders orderId with
  | none => none
  | some i => orders[i]?.map fun o => (i, o)

theorem ordersFindIndex_eq_some {orders : List Order} {orderId : Int} {i : Nat}
    (h : ordersFindIndex orders orderId = some i) :
    ∃ o, orders[i]? = some o ∧ o.orderId = orderId := by
  obtain ⟨hlt, hid, -⟩ := List.findIdx?_eq_some_iff_getElem.mp h
  exact ⟨orders[i], List.getElem?_eq_getElem hlt, by simpa using hid⟩

theorem ordersFind_eq_some {orders : List Order} {orderId : Int} {i : Nat} {o : Order}
    (h : ordersFind orders orderId = some (i, o)) : orders[i]? = some o ∧ o.orderId = orderId := by
  unfold ordersFind at h
  split at h
  · cases h
  · next j hj =>
    obtain ⟨o', ho', hid⟩ := ordersFindIndex_eq_some hj
    rw [ho'] at h
    cases h
    exact ⟨ho', hid⟩

theorem ordersFindIndex_eq_none {orders : List Order} {orderId : Int} :
    ordersFindIndex orders orderId = none ↔ orderId ∉ orders.map (·.orderId) := by
  simp [ordersFindIndex, List.findIdx?_eq_none_iff]

/-- Among distinct ids a lookup finds the order itself. -/
theorem ordersFindIndex_of_nodup {orders : List Order} (hnd : (orders.map (·.orderId)).Nodup)
    {i : Nat} {o : Order} (h : orders[i]? = some o) :
    ordersFindIndex orders o.orderId = some i := by
  obtain ⟨hlt, ho⟩ := List.getElem?_eq_some_iff.mp h
  refine List.findIdx?_eq_some_iff_getElem.mpr ⟨hlt, by simp [ho], ?_⟩
  intro j hj
  have hne := List.pairwise_iff_getElem.mp hnd j i (by simp; omega) (by simpa using hlt) hj
  simpa [ho] using hne

theorem ordersFind_of_nodup {orders : List Order} (hnd : (orders.map (·.orderId)).Nodup)
    {i : Nat} {o : Order} (h : orders[i]? = some o) :
    ordersFind orders o.orderId = some (i, o) := by
  simp [ordersFind, ordersFindIndex_of_nodup hnd h, h]

end TableOrder
