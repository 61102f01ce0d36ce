import TableOrder.Server.Intake
import TableOrder.Server.Steps

/-!
# C values

Every number in a running server is a value of its C type: ids, prices, quantities and totals are
`int`s, times are 64-bit. The arguments of an operation come as C values (`Action.Fits`), and the
operations keep it so (`fits_runOps`).
-/

namespace TableOrder

open CLib

structure CartItem.Fits (it : CartItem) : Prop where
  menuId : FitsInt it.menuId
  price : FitsInt it.price
  qty : FitsInt it.qty

def Op.Fits : Op → Prop
  | .createOrder tableId cart => FitsInt tableId ∧ ∀ it ∈ cart.items, it.Fits
  | .changeMenu menu => ∀ m ∈ menu.items, FitsInt m.price
  | _ => True

/-- The operation's arguments and the clock are C values. -/
structure Action.Fits (a : Action) : Prop where
  now : FitsLong a.1.now
  op : a.2.Fits

structure WorldFits (w : World) : Prop where
  menu : ∀ m ∈ w.ctx.menu.items, FitsInt m.price
  nextOrderId : FitsInt w.ctx.cfg.nextOrderId
  orders : ∀ o ∈ w.ctx.orders.items, o.Fits

/-! ## Orders that are built -/

theorem addPrice_fits (total price qty : Int) : FitsInt (addPrice .wrap total price qty) :=
  IntSem.wrap_norm_fits _

theorem cartTotal_fits (cart : Cart) : FitsInt (cartTotal .wrap cart) := by
  unfold cartTotal
  have hstart : FitsInt 0 := by decide
  revert hstart
  generalize (0 : Int) = t
  induction cart.items generalizing t with
  | nil => exact id
  | cons it its ih =>
    intro _
    exact ih _ (addPrice_fits _ _ _)

theorem built_fits {orderId tableId now : Int} {cart : Cart} {o : Order}
    (ho : orderBuildFromCart .wrap orderId tableId now cart = .ok o) (hid : FitsInt orderId)
    (htable : FitsInt tableId) (hnow : FitsLong now) (hcart : ∀ it ∈ cart.items, it.Fits) :
    o.Fits := by
  rw [orderBuildFromCart_eq] at ho
  split at ho
  · cases ho
  · cases ho
    refine ⟨hid, htable, cartTotal_fits cart, hnow, ?_⟩
    intro it hit
    obtain ⟨v, hv, rfl⟩ := List.mem_map.mp hit
    have hfits := hcart v hv
    rw [lineOf_eq]
    exact ⟨hfits.menuId, hfits.qty, hfits.price⟩

/-- The merged lines of a request. -/
theorem merged_fits {menu : MenuCatalog} {parsed lines : List CartItem} {cart : Cart}
    (hmenu : ∀ m ∈ menu.items, FitsInt m.price) (hparsed : ∀ it ∈ parsed, it.Parsed)
    (hfin : finalizeCartLines menu parsed = .ok lines)
    (hcart : lines.foldlM (cartAdd .wrap) cartInit = .ok cart) :
    ∀ it ∈ cart.items, it.Fits := by
  have hlines : ∀ it ∈ lines, it.Fits := by
    intro it hit
    obtain ⟨v, hv, hfinal⟩ := exists_of_mem_mapM hfin hit
    obtain ⟨mi, hmi, -, rfl⟩ := finalizeLine_eq_ok.mp hfinal
    have hp := hparsed v hv
    exact ⟨hp.menuId_fits, hmenu mi (menuFindById_eq_some hmi).1, hp.qty_fits⟩
  have hfilled := filled_of_foldlM .wrap hcart
  intro it hit
  obtain ⟨first, hfind, heq⟩ := hfilled.line it hit
  have hfirst := hlines first (List.mem_of_find?_eq_some hfind)
  rw [heq]
  refine ⟨hfirst.menuId, hfirst.price, ?_⟩
  -- a merged quantity is one that was parsed, or the result of an addition
  show FitsInt (sumQty .wrap (qtysOf lines it.menuId))
  have hqtys : ∀ q ∈ qtysOf lines it.menuId, FitsInt q := by
    intro q hq
    obtain ⟨v, hv, rfl⟩ := List.mem_map.mp hq
    exact (hlines v (List.mem_filter.mp hv).1).qty
  revert hqtys
  generalize qtysOf lines it.menuId = qs
  intro hqtys
  cases qs with
  | nil => decide
  | cons q qs =>
    have hq := hqtys q (by simp)
    clear hqtys
    rw [sumQty]
    induction qs generalizing q with
    | nil => exact hq
    | cons r qs ih => exact ih _ (IntSem.wrap_norm_fits _)

theorem Op.Builds.fits {op : Op} {env : Env} {w : World} {o : Order}
    (h : op.Builds .wrap env w o) (hop : op.Fits) (hnow : FitsLong env.now) (hw : WorldFits w) :
    o.Fits := by
  rcases h with ⟨line, tableId, parsed, lines, cart, rfl, hreq, hfin, hcart, ho⟩ |
    ⟨tableId, cart, rfl, ho⟩
  · obtain ⟨-, htable, -, hparsed⟩ :=
      protoParseOrderCreate_ok (orderCreateRequest_eq_ok.mp hreq)
    exact built_fits ho hw.nextOrderId htable hnow (merged_fits hw.menu hparsed hfin hcart)
  · exact built_fits ho hw.nextOrderId hop.1 hnow hop.2

theorem withStatus_fits {o : Order} (h : o.Fits) (st : OrderStatus) : (o.withStatus st).Fits :=
  ⟨h.orderId, h.tableId, h.totalPrice, h.createdAt, h.items⟩

/-! ## Runs -/

theorem started_fits {w : World} (h : Started w) : WorldFits w := by
  obtain ⟨boot, hload⟩ := h
  have hmenu := menuLoadFile_forall (P := fun m => FitsInt m.price)
    (fun _ _ _ hm _ _ => (menuItemOfTokens_fits hm).2) boot.menuFile
  constructor
  · unfold serverLoadPersistent at hload
    simp only at hload
    split at hload
    · cases hload
    · cases hload
      exact hmenu
  · exact (started_nextOrderId ⟨boot, hload⟩).2
  · rw [started_orders ⟨boot, hload⟩]
    simp

theorem fits_set {w w' : World} {i : Nat} {o : Order} {st : OrderStatus} (hw : WorldFits w)
    (hm : Moved .wrap w w' i o st) : WorldFits w' := by
  refine ⟨by rw [hm.ctx]; exact hw.menu, by rw [hm.ctx]; exact hw.nextOrderId, ?_⟩
  intro o' ho'
  rw [hm.orders] at ho'
  rcases List.mem_or_eq_of_mem_set ho' with hmem | rfl
  · exact hw.orders o' hmem
  · exact withStatus_fits (hw.orders o (List.mem_of_getElem? hm.found)) st

theorem fits_effect {env : Env} {op : Op} {w w' : World} {failed : Bool}
    (ha : Action.Fits (env, op)) (hw : WorldFits w) (he : Effect .wrap env op w w' failed) : WorldFits w' := by
  cases he with
  | quiet failed lines horders hclients hnext hsales hmenu =>
    refine ⟨?_, by rw [hnext]; exact hw.nextOrderId, by rw [horders]; exact hw.orders⟩
    rcases hmenu with hmenu | hop
    · rw [hmenu]
      exact hw.menu
    · have hfits := ha.op
      rw [hop] at hfits
      exact hfits
  | created o hbuilds hc =>
    refine ⟨by rw [hc.ctx]; exact hw.menu, ?_, ?_⟩
    · rw [hc.ctx]
      exact IntSem.wrap_norm_fits _
    · intro o' ho'
      rw [hc.orders, List.mem_append, List.mem_singleton] at ho'
      rcases ho' with ho' | rfl
      · exact hw.orders o' ho'
      · exact hbuilds.fits ha.op ha.now hw
  | cooked i o st hvalid hsales hm => exact fits_set hw hm
  | cancelled i o hst hop hsales hm => exact fits_set hw hm
  | paid i o hop hst hsales hm => exact fits_set hw hm
  | entered fd kind tableId heq =>
    rw [heq]
    exact ⟨by simpa using hw.menu, by simpa using hw.nextOrderId, by simpa using hw.orders⟩
  | left fd heq =>
    rw [heq]
    exact ⟨by simpa using hw.menu, by simpa using hw.nextOrderId, by simpa using hw.orders⟩

theorem fits_runOps {w : World} (hw : WorldFits w) {as : List Action} (has : ∀ a ∈ as, a.Fits) :
    WorldFits (runOps .wrap w as) :=
  Runs.run_invariant (P := Action.Fits) (fun a v ha hv => fits_effect ha hv (a.2.effect .wrap a.1 v))
    hw has

end TableOrder
