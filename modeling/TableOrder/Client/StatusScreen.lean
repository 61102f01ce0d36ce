import TableOrder.Client.Table

/-!
# The status screen and its total

`ui_draw_table_status_lines` prints the orders of the table from an offset on, as many as fit, and
adds up their prices in the same loop. So the total leaves out the orders above and below the
screen (`statusTotal_iff`).
-/

namespace TableOrder

open CLib

variable (S : IntSem)

/-! ## Drawing -/

/-- One `mvprintw`. Boxes, lines and colours are left out. -/
structure Printed where
  y : Int
  x : Int
  text : Bytes
  deriving DecidableEq

/-- `"%04d"`. -/
def fmtPadded (n : Int) : Bytes :=
  let digits := fmtInt n
  let zeros := List.replicate (4 - digits.length) (ch '0')
  if n < 0 then ch '-' :: (zeros ++ digits.drop 1) else zeros ++ digits

/-- `"%.*s x%d"` into 80 bytes. -/
def itemBuf (it : OrderLineItem) : Bytes :=
  clip 80 (it.name.bytes.take 74 ++ lit " x" ++ fmtInt it.qty)

/-- The items of an order, wrapped once; `x` and `y` are where the next one goes. -/
def statusItems (boxX boxW line : Int) : Int → Int → List OrderLineItem → List Printed
  | _, _, [] => []
  | x, y, it :: its =>
    let buf := itemBuf it
    if boxX + boxW - 2 ≤ x + buf.length + 2 then
      if line + 4 ≤ y + 1 then [⟨y + 1, boxX + 10, lit "..."⟩]
      else
        ⟨y + 1, boxX + 10, buf⟩ ::
          statusItems boxX boxW line (boxX + 10 + buf.length + 3) (y + 1) its
    else ⟨y, x, buf⟩ :: statusItems boxX boxW line (x + buf.length + 3) y its

/-- The four lines of an order. -/
def statusEntry (boxX boxW line : Int) (selected : Bool) (o : Order) : List Printed :=
  [⟨line, boxX + 2, (if selected then lit "▶ 주문 #" else lit "  주문 #") ++ fmtPadded o.orderId⟩,
    ⟨line, boxX + 20, lit "상태: " ++ statusToString o.status⟩] ++
  (match o.status with
    | .waiting => [⟨line, boxX + boxW - 24, lit "[취소 가능]"⟩]
    | .cooking => [⟨line, boxX + boxW - 26, lit "[조리중 취소 불가]"⟩]
    | _ => []) ++
  [⟨line + 1, boxX + 4, lit "합계: "⟩, ⟨line + 1, boxX + 10, fmtInt o.totalPrice ++ lit "원"⟩,
    ⟨line + 2, boxX + 4, lit "메뉴: "⟩] ++
  statusItems boxX boxW line (boxX + 10) (line + 2) (o.items.items.take 5)

/-- The local variables of the loop. -/
structure StatusDraw where
  orderNo : Nat
  visibleNo : Nat
  line : Int
  totalAmount : Int
  printed : List Printed

/-- The loop over the orders. An order that does not fit any more ends it, after it has been added. -/
def drawStatusOrders (tableId boxX boxY boxW boxH maxVisible startOrder : Int) (sel : Nat) :
    StatusDraw → List Order → StatusDraw
  | d, [] => d
  | d, o :: os =>
    if maxVisible ≤ d.visibleNo then d
    else if o.tableId ≠ tableId then
      drawStatusOrders tableId boxX boxY boxW boxH maxVisible startOrder sel d os
    else if o.status = .cancelled then
      drawStatusOrders tableId boxX boxY boxW boxH maxVisible startOrder sel d os
    else if d.orderNo < startOrder then
      drawStatusOrders tableId boxX boxY boxW boxH maxVisible startOrder sel
        { d with orderNo := d.orderNo + 1 } os
    else
      let selected := d.orderNo == sel
      let d := { d with
        orderNo := d.orderNo + 1
        totalAmount := S.norm (d.totalAmount + o.totalPrice) }
      if boxY + boxH - 1 ≤ d.line + 5 then
        { d with printed := d.printed ++ [⟨d.line, boxX + 2, lit "... 더 많은 주문이 있습니다 ..."⟩] }
      else
        drawStatusOrders tableId boxX boxY boxW boxH maxVisible startOrder sel
          { d with
            visibleNo := d.visibleNo + 1
            line := d.line + 5
            printed := d.printed ++ statusEntry boxX boxW d.line selected o } os

def statusMaxVisible (boxH : Int) : Int :=
  if (boxH - 4).tdiv 5 < 1 then 1 else (boxH - 4).tdiv 5

def statusStartOrder (maxVisible : Int) (sel : Nat) : Int :=
  if maxVisible ≤ sel then sel - maxVisible + 1 else 0

/-- What the screen shows; no total where the terminal is too small. -/
structure StatusLines where
  printed : List Printed
  total : Option Int

def uiDrawTableStatusLines (orders : Mirror) (tableId rows cols base : Int) (sel : Nat) :
    StatusLines :=
  if cols < 70 ∨ rows < 18 then
    ⟨[⟨base, 0, lit "터미널 크기가 너무 작습니다. 주문내역 화면을 보려면 창을 더 크게 해주세요."⟩,
      ⟨rows - 2, 0, lit "m 메뉴화면  q 종료"⟩], none⟩
  else
    let boxH := rows - base - 3
    let boxW := cols - 4
    let maxVisible := statusMaxVisible boxH
    let d := drawStatusOrders S tableId 2 base boxW boxH maxVisible
      (statusStartOrder maxVisible sel) sel
      ⟨0, 0, base + 2, 0, [⟨base, 4, lit " 주문 내역 "⟩]⟩ orders.items
    let msg1 := lit "아직 주문 내역이 없습니다"
    let msg2 := lit "장바구니에서 주문을 확정해 주세요"
    let cy := base + boxH.tdiv 2 - 1
    let empty : List Printed :=
      if d.orderNo = 0 then
        [⟨cy, (cols - msg1.length).tdiv 2, msg1⟩, ⟨cy + 2, (cols - msg2.length).tdiv 2, msg2⟩]
      else []
    ⟨d.printed ++ empty ++
      [⟨rows - 3, 2, lit "현재 테이블 주문 총액: " ++ fmtInt d.totalAmount ++ lit "원"⟩,
        ⟨rows - 1, 0, lit "↑↓ 주문 선택  c 취소(WAITING 상태만 가능)  m 메뉴화면  q 종료"⟩],
      some d.totalAmount⟩

/-! ## The window -/

/-- The prices that are added up. -/
theorem drawStatusOrders_total {tableId boxX boxY boxW boxH maxVisible startOrder : Int} {sel : Nat}
    (hfit : 5 * maxVisible + 4 ≤ boxH) {d : StatusDraw}
    (hline : d.line = boxY + 2 + 5 * d.visibleNo) (os : List Order) :
    (drawStatusOrders S tableId boxX boxY boxW boxH maxVisible startOrder sel d os).totalAmount =
      S.accum d.totalAmount ((((os.filter fun o => o.tableId == tableId && o.status != .cancelled).drop
        (startOrder - d.orderNo).toNat).take (maxVisible - d.visibleNo).toNat).map (·.totalPrice)) := by
  induction os generalizing d with
  | nil => simp [drawStatusOrders]
  | cons o os ih =>
    rw [drawStatusOrders]
    split
    · next hfull =>
      have hnone : (maxVisible - d.visibleNo).toNat = 0 := by omega
      simp [hnone]
    · next hroom =>
      split
      · next hother =>
        rw [ih hline, List.filter_cons_of_neg (by simp [hother])]
      · next htable =>
        split
        · next hcancelled =>
          rw [ih hline, List.filter_cons_of_neg (by simp [hcancelled])]
        · next hopen =>
          rw [List.filter_cons_of_pos (by simp [not_not.mp htable, hopen])]
          split
          · next habove =>
            have hskip : (startOrder - d.orderNo).toNat = (startOrder - (d.orderNo + 1 : Nat)).toNat + 1 := by
              omega
            have hnext := @ih { d with orderNo := d.orderNo + 1 } hline
            rw [hnext, hskip, List.drop_succ_cons]
          · next hwindow =>
            have hskip : (startOrder - d.orderNo).toNat = 0 := by omega
            have hskip' : (startOrder - (d.orderNo + 1 : Nat)).toNat = 0 := by omega
            have htake : (maxVisible - d.visibleNo).toNat =
                (maxVisible - (d.visibleNo + 1 : Nat)).toNat + 1 := by omega
            have hline' : d.line + 5 = boxY + 2 + 5 * (d.visibleNo + 1 : Nat) := by omega
            -- inside the box, so that the loop goes on
            rw [if_neg (by simp only; omega)]
            refine (ih hline').trans ?_
            rw [hskip, hskip', htake]
            rfl

/-! ## The total -/

def ordersTotal (os : List Order) : Int := (os.map (·.totalPrice)).sum

/-- The orders of the table above and below the `(rows - 10) / 5` that end with the cursor, or with
which the list begins. -/
def statusHidden (orders : Mirror) (tableId rows : Int) (sel : Nat) : List Order :=
  let visible := ((rows - 10) / 5).toNat
  let listed := tableOrders orders tableId
  listed.take (sel + 1 - visible) ++ listed.drop (sel + 1 - visible + visible)

theorem ordersTotal_split (os : List Order) (n k : Nat) : ordersTotal os =
    ordersTotal ((os.drop n).take k) + ordersTotal (os.take n ++ os.drop (n + k)) := by
  have hsplit : os = os.take n ++ ((os.drop n).take k ++ os.drop (n + k)) := by
    rw [← List.drop_drop, List.take_append_drop, List.take_append_drop]
  conv_lhs => rw [hsplit]
  simp only [ordersTotal, List.map_append, List.sum_append]
  omega

/-- What is printed: the orders on the screen, added up as the program does. -/
theorem statusLines_total (orders : Mirror) (tableId : Int) (sel : Nat) {rows cols : Int}
    (hcols : 70 ≤ cols) (hrows : 18 ≤ rows) :
    (uiDrawTableStatusLines S orders tableId rows cols 3 sel).total =
      some (S.accum 0 ((((tableOrders orders tableId).drop (sel + 1 - ((rows - 10) / 5).toNat)).take
        ((rows - 10) / 5).toNat).map (·.totalPrice))) := by
  have hvisible : statusMaxVisible (rows - 3 - 3) = (rows - 10) / 5 := by
    unfold statusMaxVisible
    rw [Int.tdiv_eq_ediv_of_nonneg (by omega)]
    omega
  have hstart : (statusStartOrder ((rows - 10) / 5) sel - (0 : Nat)).toNat =
      sel + 1 - ((rows - 10) / 5).toNat := by
    unfold statusStartOrder
    split <;> omega
  unfold uiDrawTableStatusLines
  rw [if_neg (by omega)]
  simp only [hvisible]
  rw [drawStatusOrders_total S (by omega) (by simp), hstart]
  simp [tableOrders]

/-- The printed total is the one of all orders of the table, exactly when that fits and the orders
outside the screen come to nothing. -/
theorem statusTotal_iff (orders : Mirror) (tableId : Int) (sel : Nat) {rows cols : Int}
    (hcols : 70 ≤ cols) (hrows : 18 ≤ rows) :
    (uiDrawTableStatusLines .wrap orders tableId rows cols 3 sel).total =
        some (ordersTotal (tableOrders orders tableId)) ↔
      FitsInt (ordersTotal (tableOrders orders tableId)) ∧
        (4294967296 : Int) ∣ ordersTotal (statusHidden orders tableId rows sel) := by
  have hsplit := ordersTotal_split (tableOrders orders tableId) (sel + 1 - ((rows - 10) / 5).toNat)
    ((rows - 10) / 5).toNat
  have haccum := IntSem.wrap_accum 0 ((((tableOrders orders tableId).drop
    (sel + 1 - ((rows - 10) / 5).toNat)).take ((rows - 10) / 5).toNat).map (·.totalPrice))
  rw [statusLines_total .wrap orders tableId sel hcols hrows, Option.some_inj,
    show (0 : Int) = IntSem.wrap.norm 0 from rfl, haccum, IntSem.wrap_norm_eq_iff, Int.zero_add]
  refine and_congr_right fun _ => ?_
  rw [hsplit]
  show _ ∣ ordersTotal _ + ordersTotal (statusHidden orders tableId rows sel) - ordersTotal _ ↔ _
  rw [add_sub_cancel_left]

/-- Two orders of the table. -/
def twoOrders : Mirror := [riceOrder 1 .done, riceOrder 2 .waiting].foldl uiMergeOrderMirror noOrders

/-- A terminal that shows both. -/
theorem statusTotal_iff_both :
    (uiDrawTableStatusLines .wrap twoOrders 1 24 80 3 0).total = some (ordersTotal (tableOrders twoOrders 1)) ↔
      FitsInt (ordersTotal (tableOrders twoOrders 1)) ∧
        (4294967296 : Int) ∣ ordersTotal (statusHidden twoOrders 1 24 0) :=
  statusTotal_iff twoOrders 1 0 (by decide) (by decide)

/-- The smallest terminal shows one order, and the total is the price of that one. -/
theorem statusTotal_fails : ¬ ∀ (orders : Mirror) (tableId : Int) (sel : Nat) (rows cols : Int),
    70 ≤ cols → 18 ≤ rows →
    (uiDrawTableStatusLines .wrap orders tableId rows cols 3 sel).total =
      some (ordersTotal (tableOrders orders tableId)) := by
  intro hall
  have h := hall twoOrders 1 0 18 80 (by decide) (by decide)
  revert h
  decide +kernel

end TableOrder
