import TableOrder.Client.Table
import TableOrder.Server.Intake

/-!
# Submitting the cart

From the cart of a table client to the order on the server. The server reads back every pair of the
request (`orderCreateRequest_cart`), so an accepted one becomes an order with the ids and quantities
of the cart (`orderContent_eq`), under the names and prices the catalog has then.

The client empties its cart as it sends the request, and nothing puts it back when the request is
refused: the customer keeps the choice only if the order is created (`choiceKept_iff`).
-/

namespace TableOrder

open CLib

/-! ## What a cart and an order hold -/

/-- The `(menu_id, qty)` lines of a cart. -/
def cartContent (cart : Cart) : List (Int × Int) := cart.items.map fun it => (it.menuId, it.qty)

/-- The `(menu_id, qty)` lines of an order. -/
def orderContent (o : Order) : List (Int × Int) := o.items.items.map fun it => (it.menuId, it.qty)

/-- The ids are distinct and positive, and the numbers are C `int`s. -/
structure CartOk (cart : Cart) : Prop where
  nodup : (cart.items.map (·.menuId)).Nodup
  line : ∀ it ∈ cart.items, 0 < it.menuId ∧ FitsInt it.menuId ∧ FitsInt it.qty

theorem CartOk.fits {cart : Cart} (h : CartOk cart) : ∀ p ∈ cartContent cart, PairFits p := by
  intro p hp
  obtain ⟨it, hit, rfl⟩ := List.mem_map.mp hp
  exact (h.line it hit).2

theorem length_cartContent_le (cart : Cart) : (cartContent cart).length ≤ MAX_ORDER_ITEMS := by
  rw [cartContent, List.length_map]
  exact cart.bound

/-- Whatever the client read and whatever keys were pressed. -/
structure ClientOk (c : TableClient) : Prop where
  cat : ∀ m ∈ c.cat.items, 0 < m.id ∧ FitsInt m.id
  cart : CartOk c.cart

theorem clientOk_start (tableId : Int) (menuFile : Option Bytes) :
    ClientOk (TableClient.start tableId menuFile) := by
  refine ⟨?_, List.nodup_nil, by simp [TableClient.start, cartInit]⟩
  have hloaded := menuLoadFile_forall (P := fun m => 0 < m.id ∧ FitsInt m.id)
    (fun _ _ _ hm hpos _ => ⟨hpos, (menuItemOfTokens_fits hm).1⟩) menuFile
  unfold TableClient.start
  simp only
  split
  · next menu _ hmenu =>
    rw [hmenu] at hloaded
    exact hloaded
  · simp [menuInitCatalog]

theorem ClientOk.line {c : TableClient} (h : ClientOk c) (line : Bytes) :
    ClientOk (tableLine c line).1 := by
  constructor
  · rcases tableLine_cat c line with hcat | hcat
    · rw [hcat]
      exact h.cat
    · rw [hcat]
      apply uiApplyMenuResponse_forall
      · intro toks m hm hpos
        exact ⟨hpos, (menuItemOfTokens_fits hm).1⟩
      · exact h.cat
  · rw [tableLine_cart]
    exact h.cart

theorem ClientOk.key {c c' : TableClient} {sent : List TableSent} (h : ClientOk c)
    (he : KeyEffect .wrap c c' sent) : ClientOk c' := by
  refine ⟨?_, he.cart_nodup .wrap h.cart.nodup, he.cart_forall .wrap ?_ ?_ h.cart.line⟩
  · rw [he.rest.cat]
    exact h.cat
  · intro it q hit
    exact ⟨hit.1, hit.2.1, IntSem.wrap_norm_fits q⟩
  · intro m hm _
    obtain ⟨hpos, hfits⟩ := h.cat m hm
    exact ⟨hpos, hfits, show FitsInt 1 by decide⟩

theorem ClientOk.input {c : TableClient} (h : ClientOk c) (input : TableInput) :
    ClientOk (tableInput .wrap input c).1 := by
  cases input with
  | line line => exact h.line line
  | key stray key => exact h.key (tableKey_effect .wrap stray key c)

theorem clientOk_runTable {c : TableClient} (h : ClientOk c) (inputs : List TableInput) :
    ClientOk (runTable .wrap c inputs) := by
  induction inputs generalizing c with
  | nil => exact h
  | cons input inputs ih => exact ih (h.input input)

/-! ## The request of a cart -/

/-- The line the thread of the client reads. The server's reader cuts and strips it as the client's
does. -/
def TableSent.line (msg : TableSent) : Bytes := netLine msg.text

/-- The chunk of one line fits its buffer. -/
theorem clip_chunk (sep : Bytes) (hsep : sep.length ≤ 1) {p : Int × Int} (hfits : PairFits p) :
    clip 64 (sep ++ fmtInt p.1 ++ lit ":" ++ fmtInt p.2) = sep ++ pairText p := by
  have hcolon : lit ":" = [ch ':'] := rfl
  have htext : sep ++ fmtInt p.1 ++ lit ":" ++ fmtInt p.2 = sep ++ pairText p := by
    simp [pairText, hcolon]
  have hpair := length_pairText_le hfits
  rw [htext]
  apply clip_eq_self
  rw [List.length_append]
  omega

/-- The turns of the loop after the first. -/
theorem foldl_chunks {its : List CartItem} {n : Nat} {acc : Bytes} (hn : n ≠ 0)
    (hfits : ∀ it ∈ its, FitsInt it.menuId ∧ FitsInt it.qty)
    (hroom : acc.length + 24 * its.length < MAX_PROTO_LINE) :
    (its.zipIdx n).foldl (fun items (it, i) =>
      let chunk := clip 64 ((if i = 0 then [] else lit ",") ++ fmtInt it.menuId ++ lit ":" ++
        fmtInt it.qty)
      items ++ chunk.take (MAX_PROTO_LINE - items.length - 1)) acc =
      acc ++ pairsTail (its.map fun it => (it.menuId, it.qty)) := by
  induction its generalizing n acc with
  | nil => simp [pairsTail]
  | cons it its ih =>
    have hit : PairFits (it.menuId, it.qty) := hfits it (by simp)
    have hpair := length_pairText_le hit
    have hchunk := clip_chunk (lit ",") (by decide) hit
    have hlen : (lit "," ++ pairText (it.menuId, it.qty)).length ≤ 24 := by
      have hcomma : (lit ",").length = 1 := rfl
      rw [List.length_append]
      omega
    rw [List.length_cons] at hroom
    have htake : (lit "," ++ pairText (it.menuId, it.qty)).take (MAX_PROTO_LINE - acc.length - 1) =
        lit "," ++ pairText (it.menuId, it.qty) := by
      apply List.take_of_length_le
      omega
    rw [List.zipIdx_cons, List.foldl_cons]
    simp only [if_neg hn, hchunk, htake]
    rw [ih (by omega) (fun v hv => hfits v (by simp [hv]))]
    · rw [List.map_cons, pairsTail, pairsTail, List.flatMap_cons, List.append_assoc]
      rfl
    · rw [List.length_append]
      omega

/-- No pair is cut. -/
theorem cartPairs_eq {cart : Cart} (hfits : ∀ it ∈ cart.items, FitsInt it.menuId ∧ FitsInt it.qty) :
    cartPairs cart = pairsText (cartContent cart) := by
  have hbound : cart.items.length ≤ 32 := cart.bound
  unfold cartPairs cartContent
  revert hfits hbound
  generalize cart.items = its
  intro hfits hbound
  cases its with
  | nil => rfl
  | cons it its =>
    have hit : PairFits (it.menuId, it.qty) := hfits it (by simp)
    have hpair := length_pairText_le hit
    have hchunk := clip_chunk [] (by decide) hit
    have htake : (pairText (it.menuId, it.qty)).take (MAX_PROTO_LINE - 0 - 1) =
        pairText (it.menuId, it.qty) := by
      apply List.take_of_length_le
      show _ ≤ 16383
      omega
    rw [List.length_cons] at hbound
    rw [List.nil_append] at hchunk
    rw [List.zipIdx_cons, List.foldl_cons]
    simp only [if_true, List.length_nil, List.nil_append] at hchunk ⊢
    rw [hchunk, htake, foldl_chunks (by omega) (fun v hv => hfits v (by simp [hv]))]
    · rfl
    · show _ < 16384
      omega

/-- The text of a cart is whole: no pair is cut and the newline is there. -/
theorem orderCreate_text {tableId : Int} (htable : FitsInt tableId) {cart : Cart}
    (hcart : CartOk cart) : (TableSent.orderCreate tableId cart).text =
      orderCreateText tableId (cartContent cart) ++ lit "\n" := by
  have hlen := length_cartContent_le cart
  have hpairs := length_pairsText_le hcart.fits hlen
  have hall := length_orderCreateText_le htable hcart.fits hlen
  have hnl : (lit "\n").length = 1 := rfl
  have htake : (pairsText (cartContent cart)).take (MAX_PROTO_LINE - 48) =
      pairsText (cartContent cart) := by
    apply List.take_of_length_le
    show _ ≤ 16336
    omega
  rw [TableSent.text, cartPairs_eq fun it hit => (hcart.line it hit).2, htake]
  apply clip_eq_self
  show (orderCreateText tableId (cartContent cart) ++ lit "\n").length < 16384
  rw [List.length_append]
  omega

/-- A request is letters, digits and separators, with no line end among them. -/
theorem orderCreateText_oneLine (tableId : Int) (ps : List (Int × Int)) :
    ∀ b ∈ orderCreateText tableId ps, isLineEnd b = false := by
  intro b hb
  cases hend : isLineEnd b with
  | false => rfl
  | true =>
    exfalso
    have hend' : b = ch '\r' ∨ b = ch '\n' := by simpa [isLineEnd] using hend
    rcases hend' with rfl | rfl
    · exact not_mem_orderCreateText (by decide) (by decide) (by decide) (by decide) (by decide) hb
    · exact not_mem_orderCreateText (by decide) (by decide) (by decide) (by decide) (by decide) hb

theorem orderCreate_line {tableId : Int} (htable : FitsInt tableId) {cart : Cart}
    (hcart : CartOk cart) :
    (TableSent.orderCreate tableId cart).line = orderCreateText tableId (cartContent cart) := by
  have hall := length_orderCreateText_le htable hcart.fits (length_cartContent_le cart)
  rw [TableSent.line, orderCreate_text htable hcart]
  apply netLine_line (orderCreateText_oneLine tableId (cartContent cart))
  show _ < 16384
  omega

/-- The request of a cart parses when all quantities are positive, into all lines of the cart. -/
theorem orderCreateRequest_cart {tableId : Int} (htable : FitsInt tableId) {cart : Cart}
    (hcart : CartOk cart) (hne : cart.items ≠ []) (t : Int) (parsed : List CartItem) :
    orderCreateRequest (TableSent.orderCreate tableId cart).line t = .ok parsed ↔
      0 < tableId ∧ t = tableId ∧ (∀ it ∈ cart.items, 0 < it.qty) ∧
        parsed = (cartContent cart).map pairItem := by
  have hcontent : cartContent cart ≠ [] := by
    simpa [cartContent] using hne
  rw [orderCreateRequest_eq_ok, orderCreate_line htable hcart,
    protoParseOrderCreate_text htable hcontent hcart.fits (length_cartContent_le cart)]
  constructor
  · rintro ⟨hpos, hpairs, rfl, rfl⟩
    refine ⟨hpos, rfl, ?_, rfl⟩
    intro it hit
    exact (hpairs _ (List.mem_map_of_mem hit)).2
  · rintro ⟨hpos, rfl, hqty, rfl⟩
    refine ⟨hpos, ?_, rfl, rfl⟩
    intro p hp
    obtain ⟨it, hit, rfl⟩ := List.mem_map.mp hp
    exact ⟨(hcart.line it hit).1, hqty it hit⟩

/-- When the request of a cart becomes an order. -/
theorem admitted_cart {tableId : Int} (htable : FitsInt tableId) {cart : Cart}
    (hcart : CartOk cart) (hne : cart.items ≠ []) (w : World) :
    (∃ parsed, Admitted w (TableSent.orderCreate tableId cart).line tableId parsed) ↔
      0 < tableId ∧ (∀ it ∈ cart.items, 0 < it.qty ∧ OnSale w.ctx.menu it.menuId) ∧
        w.ctx.orders.items.length < MAX_ORDERS := by
  constructor
  · rintro ⟨parsed, hadm⟩
    obtain ⟨hpos, -, hqty, rfl⟩ :=
      (orderCreateRequest_cart htable hcart hne tableId parsed).mp hadm.request
    refine ⟨hpos, ?_, hadm.room⟩
    intro it hit
    have hmem : pairItem (it.menuId, it.qty) ∈ (cartContent cart).map pairItem :=
      List.mem_map_of_mem (List.mem_map_of_mem hit)
    have hsale := hadm.onSale (pairItem (it.menuId, it.qty)) hmem
    exact ⟨hqty it hit, hsale⟩
  · rintro ⟨hpos, hlines, hroom⟩
    refine ⟨(cartContent cart).map pairItem, ?_, ?_, ?_, hroom⟩
    · exact (orderCreateRequest_cart htable hcart hne tableId _).mpr
        ⟨hpos, rfl, fun it hit => (hlines it hit).1, rfl⟩
    · intro v hv
      obtain ⟨p, hp, rfl⟩ := List.mem_map.mp hv
      obtain ⟨it, hit, rfl⟩ := List.mem_map.mp hp
      exact (hlines it hit).2
    · simpa [cartContent] using hne

/-! ## The order of a cart -/

/-- Among lines with distinct ids nothing is merged. -/
theorem qtysOf_of_nodup {lines : List CartItem} (hnd : (lines.map (·.menuId)).Nodup)
    {it : CartItem} (hit : it ∈ lines) : qtysOf lines it.menuId = [it.qty] := by
  induction lines with
  | nil => cases hit
  | cons line lines ih =>
    rw [List.map_cons, List.nodup_cons] at hnd
    obtain ⟨hfresh, hnd⟩ := hnd
    rcases List.mem_cons.mp hit with rfl | hit
    · rw [qtysOf, List.filter_cons_of_pos (by simp), List.map_cons]
      exact congrArg _ (qtysOf_eq_nil hfresh)
    · have hne : line.menuId ≠ it.menuId := by
        intro hsame
        rw [hsame] at hfresh
        exact hfresh (List.mem_map_of_mem hit)
      rw [qtysOf, List.filter_cons_of_neg (by simpa using hne)]
      exact ih hnd hit

/-- The order has the lines of the cart, in the same order. -/
theorem orderContent_eq {S : IntSem} {menu : MenuCatalog} {cart : Cart} {o : Order}
    (hcart : CartOk cart) (hof : OrderOf S menu ((cartContent cart).map pairItem) o) :
    orderContent o = cartContent cart := by
  have hids : ((cartContent cart).map pairItem).map (·.menuId) = cart.items.map (·.menuId) := by
    rw [cartContent, List.map_map, List.map_map]
    rfl
  have hnd : (((cartContent cart).map pairItem).map (·.menuId)).Nodup := by
    rw [hids]
    exact hcart.nodup
  have hdistinct : o.items.items.map (·.menuId) = cart.items.map (·.menuId) := by
    rw [hof.ids, distinctIds, eraseDups_of_nodup hnd, hids]
  -- both sides are the ids with the quantity of each id
  let qtyOf : Int → Int × Int := fun menuId =>
    (menuId, sumQty S (qtysOf ((cartContent cart).map pairItem) menuId))
  have horder : orderContent o = (o.items.items.map (·.menuId)).map qtyOf := by
    rw [orderContent, List.map_map]
    apply List.map_congr_left
    intro it hit
    exact Prod.ext rfl (hof.qty it hit)
  have hline : cartContent cart = (cart.items.map (·.menuId)).map qtyOf := by
    rw [cartContent, List.map_map]
    apply List.map_congr_left
    intro it hit
    have hmem : pairItem (it.menuId, it.qty) ∈ (cartContent cart).map pairItem :=
      List.mem_map_of_mem (List.mem_map_of_mem hit)
    have hqty := qtysOf_of_nodup hnd hmem
    refine Prod.ext rfl ?_
    show it.qty = sumQty S (qtysOf ((cartContent cart).map pairItem) it.menuId)
    rw [show it.menuId = (pairItem (it.menuId, it.qty)).menuId from rfl, hqty]
    rfl
  rw [horder, hline, hdistinct]

/-! ## What becomes of the customer's choice -/

/-- A customer submits a cart with this key, and later the server handles the request. -/
structure Submission where
  tableId : Int
  menuFile : Option Bytes
  /-- What the client read, and the keys before. -/
  inputs : List TableInput
  stray : CartItem
  key : Key
  env : Env
  /-- The server when it handles the request. -/
  world : World
  fd : Int
  /-- What the client reads since the key. -/
  lines : List Bytes

namespace Submission

variable (s : Submission)

def before : TableClient := runTable .wrap (TableClient.start s.tableId s.menuFile) s.inputs

def pressed : TableClient × List TableSent := tableKey .wrap s.stray s.key s.before

def handled : World :=
  (handleOrderCreateClient .wrap s.env s.world s.fd
    (TableSent.orderCreate s.tableId s.before.cart).line s.tableId).2

def after : TableClient := runTable .wrap s.pressed.1 (s.lines.map TableInput.line)

/-- The key submits the cart. -/
structure Valid : Prop where
  tableId : FitsInt s.tableId
  sent : TableSent.orderCreate s.tableId s.before.cart ∈ s.pressed.2

/-- The server holds a new order with the lines of the cart, or the client's cart still does. -/
def ChoiceKept : Prop :=
  (∃ o, s.handled.ctx.orders.items = s.world.ctx.orders.items ++ [o] ∧
    orderContent o = cartContent s.before.cart) ∨
  cartContent s.after.cart = cartContent s.before.cart

end Submission

theorem runTable_lines_cart (c : TableClient) (lines : List Bytes) :
    (runTable .wrap c (lines.map TableInput.line)).cart = c.cart := by
  induction lines generalizing c with
  | nil => rfl
  | cons line lines ih => exact (ih _).trans (tableLine_cart c line)

/-- Whatever the client reads later, the cart is gone with the key. -/
theorem Submission.Valid.lost {s : Submission} (hs : s.Valid) :
    s.before.cart.items ≠ [] ∧ cartContent s.after.cart = [] := by
  have heffect := tableKey_effect .wrap s.stray s.key s.before
  obtain ⟨-, -, -, hne, hempty⟩ := heffect.order .wrap hs.sent
  refine ⟨hne, ?_⟩
  rw [Submission.after, runTable_lines_cart, Submission.pressed, hempty]
  rfl

/-- The choice is kept if and only if the request is one the server accepts then: every item on
sale, every quantity positive, and room for the order. -/
theorem choiceKept_iff {s : Submission} (hs : s.Valid) :
    s.ChoiceKept ↔ 0 < s.tableId ∧
      (∀ it ∈ s.before.cart.items, 0 < it.qty ∧ OnSale s.world.ctx.menu it.menuId) ∧
      s.world.ctx.orders.items.length < MAX_ORDERS := by
  obtain ⟨hne, hlost⟩ := hs.lost
  have hcart : CartOk s.before.cart :=
    (clientOk_runTable (clientOk_start s.tableId s.menuFile) s.inputs).cart
  rw [← admitted_cart hs.tableId hcart hne, ← orderCreateStep_accepts .wrap s.env]
  constructor
  · rintro (⟨o, happended, -⟩ | hkept)
    · obtain ⟨w', hstep⟩ := orderCreateStep_of_appended .wrap happended
      exact ⟨o, w', hstep⟩
    · -- an empty cart holds no lines
      rw [hlost] at hkept
      exact absurd (List.map_eq_nil_iff.mp hkept.symm) hne
  · rintro ⟨o, w', hstep⟩
    obtain ⟨parsed, hadm, hof, -, -, hcreated⟩ := orderOf_of_accepted .wrap hstep
    obtain ⟨-, -, -, rfl⟩ :=
      (orderCreateRequest_cart hs.tableId hcart hne _ parsed).mp hadm.request
    refine Or.inl ⟨o, ?_, orderContent_eq hcart hof⟩
    rw [Submission.handled, handleOrderCreateClient, hstep]
    exact hcreated.orders

/-- A slot of the cart that was never written. -/
def emptySlot : CartItem := pairItem (0, 0)

/-- One Kimchi Fried Rice, submitted to a server with this catalog. -/
def oneDish (menu : MenuCatalog) (lines : List Bytes) : Submission where
  tableId := 1
  menuFile := none
  inputs := [.line (lit "OK|hello"), .key emptySlot (.char ' '), .key emptySlot .left] ++
    List.replicate 6 (.key emptySlot .down) ++
    [.key emptySlot (.char ' '), .key emptySlot (.char 'z')]
  stray := emptySlot
  key := .char 'y'
  env := Env.fair 0
  world :=
    let w := (serverLoadPersistent (World.boot none none)).2
    { w with ctx := { w.ctx with menu := menu } }
  fd := 3
  lines := lines

theorem choiceKept_iff_oneDish :
    let menu := (menuLoadFile none).1
    let s := oneDish menu [lit "ORDER_CREATED|order_id=1|total=9000|status=WAITING"]
    s.ChoiceKept ↔ 0 < s.tableId ∧
      (∀ it ∈ s.before.cart.items, 0 < it.qty ∧ OnSale s.world.ctx.menu it.menuId) ∧
      s.world.ctx.orders.items.length < MAX_ORDERS := by
  rw [menuLoadFile_none]
  apply choiceKept_iff
  constructor
  · decide
  · decide +kernel

/-- Sold out on its way: the server refuses the order, and the cart is empty. -/
theorem choiceKept_fails : ¬ ∀ s : Submission, s.Valid → s.ChoiceKept := by
  intro h
  let menu := (menuSetSoldout defaultMenu 1 1).toOption.getD menuInitCatalog
  let s := oneDish menu [lit "ERROR|sold out: Kimchi Fried Rice"]
  have hvalid : s.Valid := ⟨by decide, by decide +kernel⟩
  have hrefused : s.handled.ctx.orders.items = [] := by
    decide +kernel
  rcases h s hvalid with ⟨o, happended, -⟩ | hkept
  · rw [hrefused] at happended
    simp at happended
  · have hcart : cartContent s.before.cart = [(1, 1)] := by
      decide +kernel
    rw [hcart, hvalid.lost.2] at hkept
    cases hkept

end TableOrder
