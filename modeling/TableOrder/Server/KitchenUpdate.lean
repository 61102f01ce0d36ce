import TableOrder.Server.Steps

/-!
# Status updates of the kitchen (`handle_order_update_client`)

The last `status=` field of a line decides, and every text that is no status name is read as WAITING.
The transition table takes a cooking order there, so such a line puts the order back
(`orderUpdate_named_iff`); at any other status it changes nothing.
-/

namespace TableOrder

open CLib

/-! ## The fields of a line -/

/-- The fields after the header. -/
def updateFields (line : Bytes) : List Bytes :=
  tokens (ch '|') (line.drop (lit "ORDER_UPDATE|").length)

/-- The status field that counts. -/
def statusField (line : Bytes) : Option Bytes := lastField (lit "status=") (updateFields line)

/-- The order field that counts, without one no order. -/
def orderIdField (line : Bytes) : Int :=
  ((lastField (lit "order_id=") (updateFields line)).map atoi).getD (-1)

/-- The status field is one of the five names. -/
def NamesStatus (line : Bytes) : Prop := ∃ st, statusField line = some (statusToString st)

/-- The status that the line is read as. -/
def statusRead (line : Bytes) : OrderStatus :=
  ((statusField line).map statusFromString).getD .waiting

theorem protoParseOrderUpdate_eq {line : Bytes} (hhead : startsWith (lit "ORDER_UPDATE|") line = true)
    (hlen : line.length < MAX_PROTO_LINE) :
    protoParseOrderUpdate line =
      if orderIdField line ≤ 0 then .error (lit "bad order_id")
      else .ok (orderIdField line, statusRead line) := by
  have hbuf : clip MAX_PROTO_LINE (line.drop (lit "ORDER_UPDATE|").length) =
      line.drop (lit "ORDER_UPDATE|").length := by
    apply clip_eq_self
    rw [List.length_drop]
    omega
  rw [protoParseOrderUpdate, requestFields, strstr_of_startsWith hhead, Option.map_some, hbuf]
  rfl

theorem statusRead_of_name {line : Bytes} {st : OrderStatus}
    (h : statusField line = some (statusToString st)) : statusRead line = st := by
  rw [statusRead, h, Option.map_some, Option.getD_some, statusFromString_toString]

theorem statusFromString_of_no_name {s : Bytes} (h : ∀ st, s ≠ statusToString st) :
    statusFromString s = .waiting := by
  have hwaiting : s ≠ lit "WAITING" := h .waiting
  have hcooking : s ≠ lit "COOKING" := h .cooking
  have hdone : s ≠ lit "DONE" := h .done
  have hpaid : s ≠ lit "PAID" := h .paid
  rw [statusFromString, if_neg hwaiting, if_neg hcooking, if_neg hdone, if_neg hpaid, ite_eq_right_iff]
  intro hcancelled
  exact absurd hcancelled (h .cancelled)

/-- A missing status and a misspelt one are read alike. -/
theorem statusRead_of_no_name {line : Bytes} (h : ¬ NamesStatus line) :
    statusRead line = .waiting := by
  unfold statusRead
  cases hfield : statusField line with
  | none => rfl
  | some s =>
    rw [Option.map_some, Option.getD_some]
    apply statusFromString_of_no_name
    rintro st rfl
    exact h ⟨st, hfield⟩

/-! ## What the line does -/

/-- A status changed only to the one that the line names, and without a name nothing did. -/
structure StatusNamed (line : Bytes) (w w' : World) : Prop where
  changed : ∀ (i : Nat) (o o' : Order), w.ctx.orders.items[i]? = some o →
    w'.ctx.orders.items[i]? = some o' → o'.status ≠ o.status →
    statusField line = some (statusToString o'.status)
  unnamed : ¬ NamesStatus line → w'.ctx.orders = w.ctx.orders

/-- The line names no status, and its order is cooking. -/
def PutsBack (line : Bytes) (w : World) : Prop :=
  ¬ NamesStatus line ∧ 0 < orderIdField line ∧
    ∃ i o, ordersFind w.ctx.orders.items (orderIdField line) = some (i, o) ∧ o.status = .cooking

variable (S : IntSem)

theorem clientLine_orderUpdate {line : Bytes} (hhead : startsWith (lit "ORDER_UPDATE|") line = true)
    (env : Env) (w : World) (fd tableId : Int) :
    clientLine S env w fd .kitchen tableId line = handleOrderUpdateClient S env w line := by
  obtain ⟨rest, rfl⟩ := List.isPrefixOf_iff_prefix.mp hhead
  have hmenu : lit "ORDER_UPDATE|" ++ rest ≠ lit "MENU_REQUEST" := by
    intro h
    cases h
  have hcreate : startsWith (lit "ORDER_CREATE|") (lit "ORDER_UPDATE|" ++ rest) = false := rfl
  have hcancel : startsWith (lit "ORDER_CANCEL|") (lit "ORDER_UPDATE|" ++ rest) = false := rfl
  rw [clientLine, if_neg hmenu, hcreate, hcancel, hhead]
  rfl

theorem serverUpdateOrderStatus_isOk (env : Env) {w : World} {orderId : Int} {st : OrderStatus}
    {i : Nat} {o : Order} (hfind : ordersFind w.ctx.orders.items orderId = some (i, o))
    (hvalid : validKitchenTransition o.status st = true) :
    ∃ w', serverUpdateOrderStatus S env w orderId st = (.ok (), w') := by
  have hpaid : o.status ≠ .paid := by
    intro h
    rw [h] at hvalid
    cases hvalid
  rw [serverUpdateOrderStatus, hfind]
  simp only [if_neg hpaid, hvalid, Bool.not_true, Bool.false_eq_true, if_false]
  exact ⟨_, rfl⟩

/-- Only the stove has a way back. -/
theorem cooking_of_put_back {cur : OrderStatus} (h : validKitchenTransition cur .waiting = true) :
    cur = .cooking := by
  cases cur <;> first | rfl | cases h

theorem StatusNamed.same {line : Bytes} {w : World} : StatusNamed line w w where
  changed := by
    intro i o o' ho ho' hne
    rw [ho] at ho'
    obtain rfl := Option.some.inj ho'
    exact absurd rfl hne
  unnamed := fun _ => rfl

/-- One order moved to the status that the line is read as. -/
theorem statusNamed_of_moved {line : Bytes} {w w' : World} {i : Nat} {o : Order}
    (hname : NamesStatus line) (hm : Moved S w w' i o (statusRead line)) : StatusNamed line w w' := by
  obtain ⟨st, hst⟩ := hname
  rw [statusRead_of_name hst] at hm
  constructor
  · intro j a a' ha ha' hne
    rw [hm.orders, List.getElem?_set] at ha'
    split at ha'
    · split at ha'
      · obtain rfl := Option.some.inj ha'
        exact hst
      · cases ha'
    · rw [ha] at ha'
      obtain rfl := Option.some.inj ha'
      exact absurd rfl hne
  · intro hnone
    exact absurd ⟨st, hst⟩ hnone

/-- A status changes only as the line says, unless the line names no status and its order is
cooking. -/
theorem orderUpdate_named_iff (env : Env) (w : World) (fd tableId : Int) {line : Bytes}
    (hhead : startsWith (lit "ORDER_UPDATE|") line = true) (hlen : line.length < MAX_PROTO_LINE) :
    StatusNamed line w (clientLine S env w fd .kitchen tableId line) ↔ ¬ PutsBack line w := by
  rw [clientLine_orderUpdate S hhead, handleOrderUpdateClient, protoParseOrderUpdate_eq hhead hlen]
  by_cases hpos : orderIdField line ≤ 0
  · rw [if_pos hpos]
    refine iff_of_true StatusNamed.same ?_
    rintro ⟨-, hid, -⟩
    omega
  rw [if_neg hpos]
  change StatusNamed line w
    (serverUpdateOrderStatus S env w (orderIdField line) (statusRead line)).2 ↔ _
  rcases hrun : serverUpdateOrderStatus S env w (orderIdField line) (statusRead line) with ⟨r, w'⟩
  rcases serverUpdateOrderStatus_cases S hrun with ⟨⟨e, rfl⟩, rfl⟩ | ⟨i, o, hfind, hvalid, -, -, hm⟩
  · -- a cooking order would have been put back
    refine iff_of_true StatusNamed.same ?_
    rintro ⟨hname, -, i, o, hfind, hcook⟩
    have hvalid : validKitchenTransition o.status (statusRead line) = true := by
      rw [hcook, statusRead_of_no_name hname]
      rfl
    obtain ⟨v, hok⟩ := serverUpdateOrderStatus_isOk S env hfind hvalid
    rw [hrun] at hok
    cases hok
  · by_cases hname : NamesStatus line
    · exact iff_of_true (statusNamed_of_moved S hname hm) fun hback => hback.1 hname
    · have hwait := statusRead_of_no_name hname
      rw [hwait] at hvalid hm
      have hcook := cooking_of_put_back hvalid
      refine iff_of_false ?_ ?_
      · intro hnamed
        have hsame := hm.orders
        rw [hnamed.unnamed hname] at hsame
        have hset : (w.ctx.orders.items.set i (o.withStatus .waiting))[i]? =
            some (o.withStatus .waiting) :=
          List.getElem?_set_self (List.getElem?_eq_some_iff.mp hm.found).1
        rw [← hsame, hm.found, Option.some.injEq] at hset
        have hst := congrArg Order.status hset
        rw [hcook] at hst
        cases hst
      · exact not_not.mpr ⟨hname, by omega, i, o, hfind, hcook⟩

/-- A kitchen sends a misspelt status for an order that is cooking. -/
def cookin : Bytes := lit "ORDER_UPDATE|order_id=1|status=COOKIN"

/-- A server whose only order is cooking. -/
def cookingWorld : World :=
  runOps .wrap (serverLoadPersistent (World.boot none none)).2
    [(Env.fair 1, .orderCreate (lit "ORDER_CREATE|table=2|items=1:2") 2),
      (Env.fair 2, .orderUpdate (lit "ORDER_UPDATE|order_id=1|status=COOKING"))]

theorem orderUpdate_named_iff_cookin :
    StatusNamed cookin cookingWorld (clientLine .wrap (Env.fair 3) cookingWorld 5 .kitchen 0 cookin) ↔
      ¬ PutsBack cookin cookingWorld :=
  orderUpdate_named_iff .wrap (Env.fair 3) cookingWorld 5 0 (by decide) (by decide)

theorem cookin_putsBack :
    (cookingWorld.ctx.orders.items.map (·.status)) = [.cooking] ∧
      ((clientLine .wrap (Env.fair 3) cookingWorld 5 .kitchen 0 cookin).ctx.orders.items.map
        (·.status)) = [.waiting] ∧ statusField cookin = some (lit "COOKIN") := by
  rw [cookingWorld, firstStart_eq]
  decide +kernel

theorem orderUpdate_unnamed_moves :
    ¬ ∀ (S : IntSem) (env : Env) (w : World) (fd tableId : Int) (line : Bytes),
      startsWith (lit "ORDER_UPDATE|") line = true → line.length < MAX_PROTO_LINE →
      StatusNamed line w (clientLine S env w fd .kitchen tableId line) := by
  intro h
  obtain ⟨hbefore, hafter, hfield⟩ := cookin_putsBack
  have hnamed := h .wrap (Env.fair 3) cookingWorld 5 0 cookin (by decide) (by decide)
  have hname : ¬ NamesStatus cookin := by
    rintro ⟨st, hst⟩
    rw [hfield] at hst
    cases st <;> exact absurd (Option.some.inj hst) (by decide)
  rw [hnamed.unnamed hname, hbefore] at hafter
  cases hafter

end TableOrder
