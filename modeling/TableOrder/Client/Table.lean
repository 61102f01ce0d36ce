import TableOrder.Client.Kitchen
import TableOrder.Client.MenuView
import TableOrder.Protocol.Menu

/-!
# The table client (`ui_run_table`)

After the handshake the loop of the client first handles every line that has arrived (`tableLine`)
and then one key (`tableKey`). Both return the messages they send to the server.

The cart screen uses its cursor as an index without a test. What a slot past the count holds comes
as an argument (`stray`), so that nothing depends on it.
-/

namespace TableOrder

open CLib

inductive TableScreen where
  | menu
  | cart
  | status
  deriving DecidableEq

inductive TableFocus where
  | menu
  | sidebar
  deriving DecidableEq

/-- One constructor for each call of `ui_send_line`. -/
inductive TableSent where
  | hello (tableId : Int)
  | menuRequest
  | callStaff (tableId : Int)
  | orderCreate (tableId : Int) (cart : Cart)
  | orderCancel (orderId : Int)
  deriving DecidableEq

/-- The `id:qty` pairs of the cart; a pair that does not fit the buffer any more is cut. -/
def cartPairs (cart : Cart) : Bytes :=
  cart.items.zipIdx.foldl (fun items (it, i) =>
    let chunk := clip 64 ((if i = 0 then [] else lit ",") ++ fmtInt it.menuId ++ lit ":" ++
      fmtInt it.qty)
    items ++ chunk.take (MAX_PROTO_LINE - items.length - 1)) []

def TableSent.text : TableSent → Bytes
  | .hello tableId => clip 64 (lit "HELLO TABLE " ++ fmtInt tableId ++ lit "\n")
  | .menuRequest => lit "MENU_REQUEST\n"
  | .callStaff tableId => clip 80 (lit "CALL_STAFF|table=" ++ fmtInt tableId ++ lit "\n")
  | .orderCreate tableId cart =>
    clip MAX_PROTO_LINE (lit "ORDER_CREATE|table=" ++ fmtInt tableId ++ lit "|items=" ++
      (cartPairs cart).take (MAX_PROTO_LINE - 48) ++ lit "\n")
  | .orderCancel orderId => clip 128 (lit "ORDER_CANCEL|order_id=" ++ fmtInt orderId ++ lit "\n")

/-- The local variables of `ui_run_table`. No cursor is ever negative. -/
structure TableClient where
  tableId : Int
  handshakeOk : Bool
  cat : MenuCatalog
  mirror : Mirror
  cart : Cart
  scr : TableScreen
  focus : TableFocus
  sidebarSel : Nat
  currentCategory : Nat
  sel : Nat
  banner : Bytes
  confirmPopup : Bool

/-- The client before its first line; its catalog comes from its own copy of the menu file. -/
def TableClient.start (tableId : Int) (menuFile : Option Bytes) : TableClient where
  tableId := tableId
  handshakeOk := false
  cat := match menuLoadFile menuFile with
    | (menu, _, none) => menu
    | _ => menuInitCatalog
  mirror := noOrders
  cart := cartInit
  scr := .menu
  focus := .menu
  sidebarSel := SIDEBAR_ALL
  currentCategory := SIDEBAR_ALL
  sel := 0
  banner := []
  confirmPopup := false

theorem TableClient.start_none (tableId : Int) :
    TableClient.start tableId none = { TableClient.start tableId none with cat := defaultMenu } := by
  simp only [TableClient.start, menuLoadFile_none]

variable (S : IntSem)

/-! ## Lines from the server -/

def tableBanner (c : TableClient) (text : Bytes) : TableClient :=
  { c with banner := clip 160 text }

/-- The handshake loop. -/
def handshakeLine (c : TableClient) (line : Bytes) : TableClient × List TableSent :=
  if startsWith (lit "OK|") line then
    ({ c with handshakeOk := true }, [.menuRequest])
  else if startsWith (lit "MENU_RESPONSE|") line then
    ({ c with cat := uiApplyMenuResponse c.cat line }, [])
  else if startsWith (lit "ORDER_EVENT|") line then
    ({ c with mirror := mirrorLine c.mirror line }, [])
  else if startsWith (lit "STAFF_CALL|") line then
    (tableBanner c line, [])
  else (c, [])

/-- The network loop. Of `MENU_SYNC` only seven characters are compared. -/
def tableLine (c : TableClient) (line : Bytes) : TableClient × List TableSent :=
  if !c.handshakeOk then
    handshakeLine c line
  else if startsWith (lit "MENU_RESPONSE|") line then
    (tableBanner { c with cat := uiApplyMenuResponse c.cat line } (lit "메뉴 동기화 완료"), [])
  else if startsWith (lit "ORDER_EVENT|") line then
    ({ c with mirror := mirrorLine c.mirror line }, [])
  else if startsWith (lit "MENU_SY") line then
    (c, [.menuRequest])
  else if startsWith (lit "STAFF_CALL|") line then
    (tableBanner c line, [])
  else if startsWith (lit "ORDER_CREATED|") line then
    (tableBanner c (lit "서버:" ++ line), [])
  else if startsWith (lit "ERROR|") line then
    (tableBanner c line, [])
  else (c, [])

/-! ## The menu screen -/

/-- The position of the cursor in the grid, or 0. -/
def visibleSel (c : TableClient) : Nat :=
  (uiMenuVisiblePosOfIndex c.cat c.currentCategory c.sel).getD 0

/-- Move the cursor through the grid, to the first item on sale. -/
def moveSel (c : TableClient) (delta : Int) : TableClient :=
  match uiFindSelectableVisibleFrom c.cat c.currentCategory (visibleSel c + delta) delta with
  | some next => { c with sel := next }
  | none => c

def firstSelectable (c : TableClient) : Nat :=
  (uiMenuFirstSelectableInCategory c.cat c.currentCategory).getD 0

/-- SPACE on the sidebar. -/
def sidebarSpace (c : TableClient) : TableClient × List TableSent :=
  if c.sidebarSel ≤ SIDEBAR_DRINK then
    let c := { c with currentCategory := c.sidebarSel }
    let c := { c with sel := firstSelectable c, focus := .menu }
    (tableBanner c ((TABLE_CATEGORY_NAMES[c.currentCategory]?).getD [] ++ lit " 선택됨"), [])
  else if c.sidebarSel = SIDEBAR_CART then
    ({ c with scr := .cart, sel := 0 }, [])
  else if c.sidebarSel = SIDEBAR_ORDER then
    ({ c with scr := .status, sel := 0 }, [])
  else if c.sidebarSel = SIDEBAR_CALL then
    (tableBanner c (lit "직원 호출을 보냈습니다. 잠시만 기다려주세요."), [.callStaff c.tableId])
  else (c, [])

/-- The line SPACE adds: name and price are copied from the client's catalog. -/
def cartItemOf (m : MenuItem) : CartItem where
  menuId := m.id
  name := CStr.copy MAX_NAME m.name.bytes
  price := m.price
  qty := 1

/-- SPACE on the grid. The result of `cart_add` is not looked at. -/
def menuSpace (c : TableClient) : TableClient :=
  match c.cat.items[c.sel]? with
  | none => c
  | some m =>
    if m.soldOut = 0 then
      let cart := match cartAdd S c.cart (cartItemOf m) with
        | .ok cart => cart
        | .error _ => c.cart
      tableBanner { c with cart := cart } (m.name.bytes ++ lit " 담기 완료")
    else tableBanner c (lit "품절 메뉴입니다")

def menuScreenKey (key : Key) (c : TableClient) : TableClient × List TableSent :=
  match key, c.focus with
  | .left, .menu =>
    if visibleSel c % 3 = 0 then
      ({ c with focus := .sidebar, sidebarSel := c.currentCategory }, [])
    else (moveSel c (-1), [])
  | .right, .sidebar => ({ c with focus := .menu }, [])
  | .right, .menu => (moveSel c 1, [])
  | .up, .sidebar => ({ c with sidebarSel := c.sidebarSel - 1 }, [])
  | .up, .menu => (moveSel c (-3), [])
  | .down, .sidebar =>
    (if c.sidebarSel + 1 < SIDEBAR_COUNT then { c with sidebarSel := c.sidebarSel + 1 } else c, [])
  | .down, .menu => (moveSel c 3, [])
  | .char ' ', .sidebar => sidebarSpace c
  | .char ' ', .menu => (menuSpace S c, [])
  | _, _ => (c, [])

/-- Back to the category if the cursor left it. -/
def selInCategory (c : TableClient) : TableClient :=
  if c.cat.items[c.sel]?.any (uiMenuMatchCategory c.currentCategory) then c
  else { c with sel := firstSelectable c }

/-- Away from a sold-out item: to the next one on sale, or back to the previous. -/
def selOnSale (c : TableClient) : TableClient :=
  if !uiMenuIsSelectable c.cat c.sel && decide (c.sel < c.cat.items.length) then
    match uiMenuVisiblePosOfIndex c.cat c.currentCategory c.sel with
    | none => c
    | some v =>
      match uiFindSelectableVisibleFrom c.cat c.currentCategory (v + 1) 1 with
      | some next => { c with sel := next }
      | none =>
        match uiFindSelectableVisibleFrom c.cat c.currentCategory (v - 1) (-1) with
        | some next => { c with sel := next }
        | none => c
  else c

/-- The fix-up after every key of the menu screen, also after one that left the screen. -/
def fixSel (c : TableClient) : TableClient :=
  if c.cat.items.length = 0 ∨ uiMenuVisibleCount c.cat c.currentCategory = 0 then
    { c with sel := 0 }
  else selOnSale (selInCategory c)

/-! ## The cart screen -/

/-- An empty cart is not sent. Otherwise the cart is empty from here on. -/
def uiSubmitCartOrder (c : TableClient) : Option (TableClient × TableSent) :=
  if c.cart.items = [] then none
  else
    some (tableBanner { c with cart := cartInit } (lit "주문 전송 완료(응답대기)"),
      .orderCreate c.tableId c.cart)

def popupKey (key : Key) (c : TableClient) : TableClient × List TableSent :=
  if key = .char 'y' ∨ key = .char 'Y' then
    match uiSubmitCartOrder c with
    | some (c, msg) => ({ c with scr := .status, sel := 0, confirmPopup := false }, [msg])
    | none => (tableBanner { c with confirmPopup := false } (lit "장바구니가 비어 있습니다"), [])
  else if key = .char 'n' ∨ key = .char 'N' ∨ key = .char (Char.ofNat 27) then
    (tableBanner { c with confirmPopup := false } (lit "주문이 취소되었습니다"), [])
  else (c, [])

/-- `cart.items[sel]`. -/
def cartSlot (stray : CartItem) (c : TableClient) : CartItem := (c.cart.items[c.sel]?).getD stray

def setQty (c : TableClient) (menuId qty : Int) : TableClient :=
  match cartSetQty c.cart menuId qty with
  | .ok cart => { c with cart := cart }
  | .error _ => c

/-- Keep the cursor on the cart after a line may have gone. -/
def clampSel (c : TableClient) : TableClient :=
  { c with sel := min c.sel (c.cart.items.length - 1) }

def cartScreenKey (stray : CartItem) (key : Key) (c : TableClient) : TableClient :=
  let lines := c.cart.items.length
  match key with
  | .up => if 0 < lines then { c with sel := (c.sel + lines - 1) % lines } else c
  | .down => if 0 < lines then { c with sel := (c.sel + 1) % lines } else c
  | .char '+' | .char '=' =>
    if 0 < lines then
      let slot := cartSlot stray c
      setQty c slot.menuId (S.norm (slot.qty + 1))
    else c
  | .char '-' =>
    if 0 < lines then
      let slot := cartSlot stray c
      clampSel (setQty c slot.menuId (S.norm (slot.qty - 1)))
    else c
  | .char 'r' =>
    if 0 < lines then
      clampSel { c with
        cart := (cartRemoveLine c.cart (cartSlot stray c).menuId).getD c.cart }
    else c
  | .char 'm' => { c with scr := .menu, sel := 0, confirmPopup := false }
  | .enter | .char '\r' | .char 'z' =>
    if 0 < lines then { c with confirmPopup := true }
    else tableBanner c (lit "장바구니가 비어 있습니다")
  | _ => c

/-! ## The status screen -/

/-- The orders the status screen lists. -/
def tableOrders (orders : Mirror) (tableId : Int) : List Order :=
  orders.items.filter fun o => o.tableId == tableId && o.status != .cancelled

def uiTableCountOrders (orders : Mirror) (tableId : Int) : Nat := (tableOrders orders tableId).length

def uiTableGetNthOrder (orders : Mirror) (tableId : Int) (nth : Nat) : Option Order :=
  (tableOrders orders tableId)[nth]?

/-- Drawing the screen clamps the cursor. -/
def statusDrawn (c : TableClient) : TableClient :=
  { c with sel := min c.sel (uiTableCountOrders c.mirror c.tableId - 1) }

/-- `"주문 #%04d 취소 요청을 보냈습니다"`. -/
def cancelBanner (orderId : Int) : Bytes :=
  let digits := fmtInt orderId
  let zeros := List.replicate (4 - digits.length) (ch '0')
  let padded := if orderId < 0 then ch '-' :: (zeros ++ digits.drop 1) else zeros ++ digits
  lit "주문 #" ++ padded ++ lit " 취소 요청을 보냈습니다"

def statusScreenKey (key : Key) (c : TableClient) : TableClient × List TableSent :=
  let c := statusDrawn c
  let lines := uiTableCountOrders c.mirror c.tableId
  match key with
  | .up => (if 0 < lines then { c with sel := (c.sel + lines - 1) % lines } else c, [])
  | .down => (if 0 < lines then { c with sel := (c.sel + 1) % lines } else c, [])
  | .char 'c' | .char 'C' =>
    match uiTableGetNthOrder c.mirror c.tableId c.sel with
    | none => (tableBanner c (lit "취소할 주문이 없습니다"), [])
    | some target =>
      if target.status ≠ .waiting then
        (tableBanner c (lit "조리 시작 후에는 주문을 취소할 수 없습니다"), [])
      else (tableBanner c (cancelBanner target.orderId), [.orderCancel target.orderId])
  | .char 'm' => ({ c with scr := .menu, focus := .menu }, [])
  | _ => (c, [])

/-! ## One key -/

/-- `q` ends the loop, so that no state follows it; during the handshake no key is read. -/
def tableKey (stray : CartItem) (key : Key) (c : TableClient) : TableClient × List TableSent :=
  if !c.handshakeOk then (c, [])
  else
    match c.scr with
    | .menu =>
      let (c, sent) := menuScreenKey S key c
      (fixSel c, sent)
    | .cart => if c.confirmPopup then popupKey key c else (cartScreenKey S stray key c, [])
    | .status => statusScreenKey key c

/-! ## What a line and a key do

A line may replace the catalog or merge an order, and never touches the cart. A key moves the
cursors, or changes the cart in one of four ways (`KeyEffect`). -/

/-- Nothing but the cart and the screen changed. -/
structure SameRest (c c' : TableClient) : Prop where
  tableId : c'.tableId = c.tableId
  handshakeOk : c'.handshakeOk = c.handshakeOk
  cat : c'.cat = c.cat
  mirror : c'.mirror = c.mirror

/-- Nothing but the screen changed. -/
structure SameData (c c' : TableClient) : Prop extends SameRest c c' where
  cart : c'.cart = c.cart

/-- Any change of the screen. -/
theorem SameData.screen {c : TableClient} {scr : TableScreen} {focus : TableFocus}
    {sidebarSel currentCategory sel : Nat} {banner : Bytes} {confirmPopup : Bool} :
    SameData c { c with
      scr := scr
      focus := focus
      sidebarSel := sidebarSel
      currentCategory := currentCategory
      sel := sel
      banner := banner
      confirmPopup := confirmPopup } := ⟨⟨rfl, rfl, rfl, rfl⟩, rfl⟩

theorem SameData.trans {a b c : TableClient} (h : SameData a b) (h' : SameData b c) :
    SameData a c :=
  ⟨⟨h'.tableId.trans h.tableId, h'.handshakeOk.trans h.handshakeOk, h'.cat.trans h.cat,
    h'.mirror.trans h.mirror⟩, h'.cart.trans h.cart⟩

def TableSent.isOrder : TableSent → Bool
  | .orderCreate _ _ => true
  | _ => false

inductive KeyEffect (c c' : TableClient) (sent : List TableSent) : Prop
  | moved : SameData c c' → (∀ msg ∈ sent, msg.isOrder = false) → KeyEffect c c' sent
  | added (m : MenuItem) : c.cat.items[c.sel]? = some m → m.soldOut = 0 →
      cartAdd S c.cart (cartItemOf m) = .ok c'.cart → SameRest c c' → sent = [] →
      KeyEffect c c' sent
  | counted (menuId qty : Int) : cartSetQty c.cart menuId (S.norm qty) = .ok c'.cart →
      SameRest c c' → sent = [] → KeyEffect c c' sent
  | removed (menuId : Int) : cartRemoveLine c.cart menuId = some c'.cart → SameRest c c' →
      sent = [] → KeyEffect c c' sent
  | submitted : c.confirmPopup = true → c.cart.items ≠ [] → c'.cart = cartInit → SameRest c c' →
      sent = [.orderCreate c.tableId c.cart] → KeyEffect c c' sent

theorem sameData_moveSel (c : TableClient) (delta : Int) : SameData c (moveSel c delta) := by
  unfold moveSel
  split <;> exact .screen

theorem sameData_fixSel (c : TableClient) : SameData c (fixSel c) := by
  have hcategory : SameData c (selInCategory c) := by
    unfold selInCategory
    split <;> exact .screen
  have hsale (c : TableClient) : SameData c (selOnSale c) := by
    unfold selOnSale
    split
    · split
      · exact .screen
      · split
        · exact .screen
        · split <;> exact .screen
    · exact .screen
  unfold fixSel
  split
  · exact .screen
  · exact hcategory.trans (hsale _)

/-- A later change of the screen does not matter. -/
theorem KeyEffect.then {c c' c'' : TableClient} {sent : List TableSent}
    (h : KeyEffect S c c' sent) (hsame : SameData c' c'') : KeyEffect S c c'' sent := by
  have hrest (hr : SameRest c c') : SameRest c c'' :=
    ⟨hsame.tableId.trans hr.tableId, hsame.handshakeOk.trans hr.handshakeOk,
      hsame.cat.trans hr.cat, hsame.mirror.trans hr.mirror⟩
  cases h with
  | moved hdata hsent => exact .moved (hdata.trans hsame) hsent
  | added m hm hsold hadd hr hsent =>
    exact .added m hm hsold (by rw [hadd, hsame.cart]) (hrest hr) hsent
  | counted menuId qty hset hr hsent =>
    exact .counted menuId qty (by rw [hset, hsame.cart]) (hrest hr) hsent
  | removed menuId hrem hr hsent =>
    exact .removed menuId (by rw [hrem, hsame.cart]) (hrest hr) hsent
  | submitted hpopup hne hcart hr hsent =>
    exact .submitted hpopup hne (hsame.cart.trans hcart) (hrest hr) hsent

theorem KeyEffect.of_same {c c' : TableClient} (h : SameData c c') : KeyEffect S c c' [] :=
  .moved h (by simp)

theorem sidebarSpace_effect (c : TableClient) :
    KeyEffect S c (sidebarSpace c).1 (sidebarSpace c).2 := by
  unfold sidebarSpace
  split
  · exact .of_same S .screen
  · split
    · exact .of_same S .screen
    · split
      · exact .of_same S .screen
      · split
        · refine .moved .screen ?_
          intro msg hmsg
          rw [List.mem_singleton] at hmsg
          rw [hmsg]
          rfl
        · exact .of_same S .screen

theorem menuSpace_effect (c : TableClient) : KeyEffect S c (menuSpace S c) [] := by
  unfold menuSpace
  split
  · exact .of_same S .screen
  · next m hm =>
    split
    · next hsold =>
      cases hadd : cartAdd S c.cart (cartItemOf m) with
      | ok cart => exact .added m hm hsold hadd ⟨rfl, rfl, rfl, rfl⟩ rfl
      | error e => exact .of_same S .screen
    · exact .of_same S .screen

theorem menuScreenKey_effect (key : Key) (c : TableClient) :
    KeyEffect S c (menuScreenKey S key c).1 (menuScreenKey S key c).2 := by
  unfold menuScreenKey
  split
  · split
    · exact .of_same S .screen
    · exact .of_same S (sameData_moveSel c (-1))
  · exact .of_same S .screen
  · exact .of_same S (sameData_moveSel c 1)
  · exact .of_same S .screen
  · exact .of_same S (sameData_moveSel c (-3))
  · refine .of_same S ?_
    simp only
    split <;> exact .screen
  · exact .of_same S (sameData_moveSel c 3)
  · exact sidebarSpace_effect S c
  · exact menuSpace_effect S c
  · exact .of_same S .screen

theorem popupKey_effect {c : TableClient} (hpopup : c.confirmPopup = true) (key : Key) :
    KeyEffect S c (popupKey key c).1 (popupKey key c).2 := by
  unfold popupKey uiSubmitCartOrder
  split
  · by_cases hempty : c.cart.items = []
    · rw [if_pos hempty]
      exact .of_same S .screen
    · rw [if_neg hempty]
      exact .submitted hpopup hempty rfl ⟨rfl, rfl, rfl, rfl⟩ rfl
  · split <;> exact .of_same S .screen

theorem setQty_effect (c : TableClient) (menuId qty : Int) :
    KeyEffect S c (setQty c menuId (S.norm qty)) [] := by
  unfold setQty
  cases hset : cartSetQty c.cart menuId (S.norm qty) with
  | ok cart => exact .counted menuId qty hset ⟨rfl, rfl, rfl, rfl⟩ rfl
  | error e => exact .of_same S .screen

theorem cartScreenKey_effect (stray : CartItem) (key : Key) (c : TableClient) :
    KeyEffect S c (cartScreenKey S stray key c) [] := by
  have hclamp (c : TableClient) : SameData c (clampSel c) := .screen
  unfold cartScreenKey
  simp only
  split
  · split <;> exact .of_same S .screen
  · split <;> exact .of_same S .screen
  · split
    · exact setQty_effect S c _ _
    · exact .of_same S .screen
  · split
    · exact setQty_effect S c _ _
    · exact .of_same S .screen
  · split
    · exact (setQty_effect S c _ _).then S (hclamp _)
    · exact .of_same S .screen
  · split
    · cases hrem : cartRemoveLine c.cart (cartSlot stray c).menuId with
      | some cart => exact .removed _ hrem ⟨rfl, rfl, rfl, rfl⟩ rfl
      | none => exact .of_same S .screen
    · exact .of_same S .screen
  all_goals first
    | exact .of_same S .screen
    | (split <;> exact .of_same S .screen)

theorem statusScreenKey_effect (key : Key) (c : TableClient) :
    KeyEffect S c (statusScreenKey key c).1 (statusScreenKey key c).2 := by
  unfold statusScreenKey statusDrawn
  simp only
  split
  · split <;> exact .of_same S .screen
  · split <;> exact .of_same S .screen
  all_goals try exact .of_same S .screen
  -- the two cancel keys
  all_goals
    split
    · exact .of_same S .screen
    · split
      · exact .of_same S .screen
      · refine .moved .screen ?_
        intro msg hmsg
        rw [List.mem_singleton] at hmsg
        rw [hmsg]
        rfl

theorem tableKey_effect (stray : CartItem) (key : Key) (c : TableClient) :
    KeyEffect S c (tableKey S stray key c).1 (tableKey S stray key c).2 := by
  unfold tableKey
  split
  · exact .of_same S .screen
  · split
    · exact (menuScreenKey_effect S key c).then S (sameData_fixSel _)
    · split
      · next hpopup => exact popupKey_effect S hpopup key
      · exact cartScreenKey_effect S stray key c
    · exact statusScreenKey_effect S key c

theorem tableLine_mirror (c : TableClient) (line : Bytes) :
    (tableLine c line).1.mirror = mirrorLine c.mirror line := by
  unfold tableLine handshakeLine
  split
  · split
    · next h => exact (mirrorLine_of_key (fun _ => rfl) h c.mirror).symm
    · split
      · next h => exact (mirrorLine_of_key (fun _ => rfl) h c.mirror).symm
      · split
        · rfl
        · next h =>
          rw [mirrorLine_of_not h]
          split <;> rfl
  · split
    · next h => exact (mirrorLine_of_key (fun _ => rfl) h c.mirror).symm
    · split
      · rfl
      · next h =>
        rw [mirrorLine_of_not h]
        repeat (first | rfl | split)

theorem tableLine_cart (c : TableClient) (line : Bytes) : (tableLine c line).1.cart = c.cart := by
  unfold tableLine handshakeLine
  split
  · repeat (first | rfl | split)
  · repeat (first | rfl | split)

theorem tableLine_tableId (c : TableClient) (line : Bytes) :
    (tableLine c line).1.tableId = c.tableId := by
  unfold tableLine handshakeLine
  split
  · repeat (first | rfl | split)
  · repeat (first | rfl | split)

/-- A line leaves the catalog alone or replaces it by a menu response. -/
theorem tableLine_cat (c : TableClient) (line : Bytes) :
    (tableLine c line).1.cat = c.cat ∨ (tableLine c line).1.cat = uiApplyMenuResponse c.cat line := by
  unfold tableLine handshakeLine
  split
  · repeat (first | exact Or.inl rfl | exact Or.inr rfl | split)
  · repeat (first | exact Or.inl rfl | exact Or.inr rfl | split)

/-- A line is answered by requests for the menu only. -/
theorem tableLine_sent (c : TableClient) (line : Bytes) :
    ∀ msg ∈ (tableLine c line).2, msg.isOrder = false := by
  have hrequest : ∀ msg ∈ [TableSent.menuRequest], msg.isOrder = false := by
    intro msg hmsg
    rw [List.mem_singleton] at hmsg
    rw [hmsg]
    rfl
  have hnone : ∀ msg ∈ ([] : List TableSent), msg.isOrder = false := by simp
  unfold tableLine handshakeLine
  split
  · repeat (first | exact hnone | exact hrequest | split)
  · repeat (first | exact hnone | exact hrequest | split)

theorem KeyEffect.rest {c c' : TableClient} {sent : List TableSent} (h : KeyEffect S c c' sent) :
    SameRest c c' := by
  cases h with
  | moved hdata _ => exact hdata.toSameRest
  | added _ _ _ _ hr _ => exact hr
  | counted _ _ _ hr _ => exact hr
  | removed _ _ hr _ => exact hr
  | submitted _ _ _ hr _ => exact hr

/-- The order that a key sends is the cart under the open popup, which is empty from then on. -/
theorem KeyEffect.order {c c' : TableClient} {sent : List TableSent} (h : KeyEffect S c c' sent)
    {tableId : Int} {cart : Cart} (hmem : TableSent.orderCreate tableId cart ∈ sent) :
    tableId = c.tableId ∧ cart = c.cart ∧ c.confirmPopup = true ∧ c.cart.items ≠ [] ∧
      c'.cart = cartInit := by
  cases h with
  | moved _ hother => exact absurd (hother _ hmem) (by simp [TableSent.isOrder])
  | added _ _ _ _ _ hsent =>
    rw [hsent] at hmem
    cases hmem
  | counted _ _ _ _ hsent =>
    rw [hsent] at hmem
    cases hmem
  | removed _ _ _ hsent =>
    rw [hsent] at hmem
    cases hmem
  | submitted hpopup hne hcart _ hsent =>
    rw [hsent, List.mem_singleton] at hmem
    cases hmem
    exact ⟨rfl, rfl, hpopup, hne, hcart⟩

/-- What does not depend on the quantity, and holds of everything on sale that the customer can
add, is kept of all lines of the cart. -/
theorem KeyEffect.cart_forall {P : CartItem → Prop} {c c' : TableClient} {sent : List TableSent}
    (h : KeyEffect S c c' sent) (hqty : ∀ it q, P it → P { it with qty := S.norm q })
    (hnew : ∀ m ∈ c.cat.items, m.soldOut = 0 → P (cartItemOf m)) (hc : ∀ it ∈ c.cart.items, P it) :
    ∀ it ∈ c'.cart.items, P it := by
  have hset {i : Nat} {v : CartItem} {q : Int} (hi : c.cart.items[i]? = some v)
      (hitems : c'.cart.items = c.cart.items.set i { v with qty := S.norm q }) :
      ∀ it ∈ c'.cart.items, P it := by
    intro it hit
    rw [hitems] at hit
    rcases List.mem_or_eq_of_mem_set hit with hit | rfl
    · exact hc it hit
    · exact hqty v q (hc v (List.mem_of_getElem? hi))
  have herase {i : Nat} (hitems : c'.cart.items = c.cart.items.eraseIdx i) :
      ∀ it ∈ c'.cart.items, P it := by
    intro it hit
    rw [hitems] at hit
    exact hc it (List.mem_of_mem_eraseIdx hit)
  cases h with
  | moved hdata _ =>
    rw [hdata.cart]
    exact hc
  | added m hm hsold hadd _ _ =>
    obtain ⟨-, ⟨i, v, hi, -, hitems⟩ | ⟨-, -, hitems⟩⟩ := cartAdd_cases S hadd
    · exact hset hi hitems
    · intro it hit
      rw [hitems, List.mem_append, List.mem_singleton] at hit
      rcases hit with hit | rfl
      · exact hc it hit
      · exact hnew m (List.mem_of_getElem? hm) hsold
  | counted menuId qty hcount _ _ =>
    obtain ⟨i, v, hi, -, ⟨-, hitems⟩ | ⟨-, hitems⟩⟩ := cartSetQty_cases hcount
    · exact hset hi hitems
    · exact herase hitems
  | removed menuId hrem _ _ =>
    obtain ⟨i, v, -, -, hitems⟩ := cartRemoveLine_eq_some hrem
    exact herase hitems
  | submitted _ _ hcart _ _ =>
    rw [hcart]
    intro it hit
    cases hit

/-- The ids of the cart stay distinct. -/
theorem KeyEffect.cart_nodup {c c' : TableClient} {sent : List TableSent} (h : KeyEffect S c c' sent)
    (hnd : (c.cart.items.map (·.menuId)).Nodup) : (c'.cart.items.map (·.menuId)).Nodup := by
  have hset {i : Nat} {v : CartItem} {q : Int} (hi : c.cart.items[i]? = some v)
      (hitems : c'.cart.items = c.cart.items.set i { v with qty := q }) :
      (c'.cart.items.map (·.menuId)).Nodup := by
    rw [hitems, map_set_of_eq (y := { v with qty := q }) (g := (·.menuId)) hi rfl]
    exact hnd
  have herase {i : Nat} (hitems : c'.cart.items = c.cart.items.eraseIdx i) :
      (c'.cart.items.map (·.menuId)).Nodup := by
    rw [hitems]
    exact hnd.sublist ((List.eraseIdx_sublist _ _).map _)
  cases h with
  | moved hdata _ =>
    rw [hdata.cart]
    exact hnd
  | added m _ _ hadd _ _ =>
    obtain ⟨-, ⟨i, v, hi, -, hitems⟩ | ⟨hfresh, -, hitems⟩⟩ := cartAdd_cases S hadd
    · exact hset hi hitems
    · rw [hitems, List.map_append, List.nodup_append]
      refine ⟨hnd, List.nodup_singleton _, ?_⟩
      intro a ha b hb hab
      rw [List.map_singleton, List.mem_singleton] at hb
      rw [hab, hb] at ha
      exact hfresh ha
  | counted menuId qty hcount _ _ =>
    obtain ⟨i, v, hi, -, ⟨-, hitems⟩ | ⟨-, hitems⟩⟩ := cartSetQty_cases hcount
    · exact hset hi hitems
    · exact herase hitems
  | removed menuId hrem _ _ =>
    obtain ⟨i, v, -, -, hitems⟩ := cartRemoveLine_eq_some hrem
    exact herase hitems
  | submitted _ _ hcart _ _ =>
    rw [hcart]
    exact List.nodup_nil

/-! ## Runs of the client -/

inductive TableInput where
  | line (line : Bytes)
  | key (stray : CartItem) (key : Key)

/-- The line, if it is one. -/
def TableInput.received : TableInput → Option Bytes
  | .line text => some text
  | .key _ _ => none

def tableInput : TableInput → TableClient → TableClient × List TableSent
  | .line line, c => tableLine c line
  | .key stray key, c => tableKey S stray key c

/-- The client after these lines and keys. -/
def runTable (c : TableClient) (inputs : List TableInput) : TableClient :=
  inputs.foldl (fun c input => (tableInput S input c).1) c

/-- Whatever keys are pressed, the mirror is what the lines made it. -/
theorem runTable_mirror (c : TableClient) (inputs : List TableInput) :
    (runTable S c inputs).mirror = (inputs.filterMap TableInput.received).foldl mirrorLine c.mirror := by
  induction inputs generalizing c with
  | nil => rfl
  | cons input inputs ih =>
    cases input with
    | line line =>
      show (runTable S (tableLine c line).1 inputs).mirror = _
      rw [ih, tableLine_mirror]
      rfl
    | key stray key =>
      show (runTable S (tableKey S stray key c).1 inputs).mirror = _
      rw [ih, (tableKey_effect S stray key c).rest.mirror]
      rfl

end TableOrder
