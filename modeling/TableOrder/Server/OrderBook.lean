import TableOrder.Lib.Lifecycle
import TableOrder.Server.Connections
import TableOrder.Server.History

/-!
# The server keeps a book of orders

What the server is for, without arrays, files and sockets: an order is placed, the kitchen moves it
back and forth, and it ends paid or cancelled. `orderLife` is this life, and the store of the server
refines the book in which every order lives it by itself (`trace_of_moves`). The entries of the trace
are the orders an operation leaves changed, and these are what it publishes.
-/

namespace TableOrder

open CLib
open Lifecycle (Life Book changed)

/-! ## The life of an order -/

/-- How an order moves. -/
inductive OrderStatus.Next : OrderStatus → OrderStatus → Prop
  | start : Next .waiting .cooking
  | skip : Next .waiting .done
  | finish : Next .cooking .done
  | putBack : Next .cooking .waiting
  | reheat : Next .done .cooking
  | cancel : Next .waiting .cancelled
  | pay : Next .done .paid

/-- An order is placed WAITING, and only its status moves. -/
def orderLife : Life Order where
  Birth := fun o => o.status = .waiting
  Edge := fun o o' => o' = o.withStatus o'.status ∧ o.status.Next o'.status

theorem next_of_transition {cur nw : OrderStatus} (h : validKitchenTransition cur nw = true) :
    cur.Next nw := by
  cases cur with
  | waiting =>
    cases nw with
    | cooking => exact .start
    | done => exact .skip
    | waiting => cases h
    | paid => cases h
    | cancelled => cases h
  | cooking =>
    cases nw with
    | waiting => exact .putBack
    | done => exact .finish
    | cooking => cases h
    | paid => cases h
    | cancelled => cases h
  | done =>
    cases nw with
    | cooking => exact .reheat
    | waiting => cases h
    | done => cases h
    | paid => cases h
    | cancelled => cases h
  | paid => cases h
  | cancelled => cases h

theorem OrderStatus.Next.ne {st st' : OrderStatus} (h : st.Next st') : st' ≠ st := by
  cases h <;> exact OrderStatus.noConfusion

/-! ## The book of a store -/

/-- The order that `orders_find` finds under each id. -/
def bookOf (w : World) : Book Int Order := fun id => (ordersFind w.ctx.orders.items id).map (·.2)

theorem bookOf_eq_some {w : World} (hnd : (w.ctx.orders.items.map (·.orderId)).Nodup) {id : Int}
    {o : Order} : bookOf w id = some o ↔ o ∈ w.ctx.orders.items ∧ o.orderId = id := by
  constructor
  · intro h
    obtain ⟨⟨i, o'⟩, hfind, rfl⟩ := Option.map_eq_some_iff.mp h
    obtain ⟨ho, hid⟩ := ordersFind_eq_some hfind
    exact ⟨List.mem_of_getElem? ho, hid⟩
  · rintro ⟨ho, rfl⟩
    obtain ⟨i, hi⟩ := List.mem_iff_getElem?.mp ho
    rw [bookOf, ordersFind_of_nodup hnd hi]
    rfl

theorem bookOf_congr {w w' : World} (h : w'.ctx.orders.items = w.ctx.orders.items) :
    bookOf w' = bookOf w := by
  unfold bookOf
  rw [h]

/-- Two books of stores with distinct ids agree when the stores have the same orders but one. -/
theorem bookOf_record {w w' : World} (hnd : (w.ctx.orders.items.map (·.orderId)).Nodup)
    (hnd' : (w'.ctx.orders.items.map (·.orderId)).Nodup) {o : Order}
    (ho : o ∈ w'.ctx.orders.items)
    (hrest : ∀ o', o'.orderId ≠ o.orderId →
      (o' ∈ w'.ctx.orders.items ↔ o' ∈ w.ctx.orders.items)) :
    bookOf w' = (bookOf w).record o.orderId o := by
  funext id
  by_cases hid : id = o.orderId
  · subst hid
    rw [Book.record, Function.update_self]
    exact (bookOf_eq_some hnd').mpr ⟨ho, rfl⟩
  · rw [Book.record, Function.update_of_ne hid]
    ext o'
    rw [bookOf_eq_some hnd, bookOf_eq_some hnd']
    constructor
    · rintro ⟨hmem, rfl⟩
      exact ⟨(hrest o' hid).mp hmem, rfl⟩
    · rintro ⟨hmem, rfl⟩
      exact ⟨(hrest o' hid).mpr hmem, rfl⟩

/-! ## What an operation publishes -/

/-- The orders that are not what they were, or are new. -/
def published (w w' : World) : List Order := changed (orderList w) (orderList w')

/-- An order as an entry of the book. -/
def entry (o : Order) : Int × Order := (o.orderId, o)

theorem published_same {w w' : World} (h : w'.ctx.orders = w.ctx.orders) : published w w' = [] := by
  unfold published orderList
  rw [h, Lifecycle.changed_self]

section Step

variable {S : IntSem} {w w' : World}

theorem Created.published_eq {o : Order} (h : Created S w w' o) : published w w' = [o] := by
  unfold published orderList
  rw [h.orders, Lifecycle.changed_push]

theorem Moved.published_eq {i : Nat} {o : Order} {st : OrderStatus} (h : Moved S w w' i o st)
    (hst : st ≠ o.status) : published w w' = [o.withStatus st] := by
  unfold published orderList
  rw [h.orders]
  apply Lifecycle.changed_set h.found
  intro heq
  exact hst (congrArg Order.status heq)

theorem Moved.trace {i : Nat} {o : Order} {st : OrderStatus} (h : Moved S w w' i o st)
    (hnext : o.status.Next st) (hnd : (w.ctx.orders.items.map (·.orderId)).Nodup)
    (hnd' : (w'.ctx.orders.items.map (·.orderId)).Nodup) :
    orderLife.Trace (bookOf w) ((published w w').map entry) (bookOf w') := by
  have ho : o ∈ w.ctx.orders.items := List.mem_of_getElem? h.found
  have hold : bookOf w o.orderId = some o := (bookOf_eq_some hnd).mpr ⟨ho, rfl⟩
  obtain ⟨hlt, hi⟩ := List.getElem?_eq_some_iff.mp h.found
  have hbook : bookOf w' = (bookOf w).record o.orderId (o.withStatus st) := by
    apply bookOf_record (o := o.withStatus st) hnd hnd'
    · rw [h.orders]
      exact List.mem_set hlt _
    · intro o' hne
      rw [h.orders]
      constructor
      · intro hmem
        rcases List.mem_or_eq_of_mem_set hmem with hmem | rfl
        · exact hmem
        · exact absurd rfl hne
      · intro hmem
        obtain ⟨j, hj⟩ := List.mem_iff_getElem?.mp hmem
        have hij : i ≠ j := by
          rintro rfl
          rw [h.found] at hj
          obtain rfl := Option.some.inj hj
          exact hne rfl
        apply List.mem_of_getElem? (i := j)
        rw [List.getElem?_set_ne hij]
        exact hj
  rw [h.published_eq hnext.ne, hbook]
  apply Life.Trace.single
  show orderLife.Allows (bookOf w o.orderId) _
  rw [hold]
  exact ⟨rfl, hnext⟩

theorem Created.trace {o : Order} (h : Created S w w' o)
    (hnd : (w.ctx.orders.items.map (·.orderId)).Nodup)
    (hnd' : (w'.ctx.orders.items.map (·.orderId)).Nodup) :
    orderLife.Trace (bookOf w) ((published w w').map entry) (bookOf w') := by
  have hfresh : o.orderId ∉ w.ctx.orders.items.map (·.orderId) := by
    rw [h.orders, List.map_append, List.nodup_append] at hnd'
    intro hmem
    exact hnd'.2.2 _ hmem _ (by simp) rfl
  have hbook : bookOf w' = (bookOf w).record o.orderId o := by
    apply bookOf_record hnd hnd'
    · rw [h.orders]
      simp
    · intro o' hne
      rw [h.orders, List.mem_append, List.mem_singleton]
      constructor
      · rintro (hmem | rfl)
        · exact hmem
        · exact absurd rfl hne
      · exact .inl
  have hnone : bookOf w o.orderId = none := by
    rw [Option.eq_none_iff_forall_ne_some]
    intro o' ho'
    obtain ⟨hmem, hid⟩ := (bookOf_eq_some hnd).mp ho'
    exact hfresh (List.mem_map.mpr ⟨o', hmem, hid⟩)
  rw [h.published_eq, hbook]
  apply Life.Trace.single
  show orderLife.Allows (bookOf w o.orderId) o
  rw [hnone]
  exact h.waiting

end Step

/-- How the store changes: not at all, by one order that is placed, or by one move of its life. -/
inductive BookMove (w w' : World) : Prop
  | same : w'.ctx.orders = w.ctx.orders → BookMove w w'
  | created (o : Order) : Created .wrap w w' o → BookMove w w'
  | moved (i : Nat) (o : Order) (st : OrderStatus) : o.status.Next st →
      Moved .wrap w w' i o st → BookMove w w'

theorem Effect.bookMove {env : Env} {op : Op} {w w' : World} {failed : Bool}
    (h : Effect .wrap env op w w' failed) : BookMove w w' := by
  cases h with
  | quiet failed lines horders => exact .same horders
  | created o hbuilds hc => exact .created o hc
  | cooked i o st hvalid hsales hm => exact .moved i o st (next_of_transition hvalid) hm
  | cancelled i o hst hop hsales hm =>
    refine .moved i o _ ?_ hm
    rw [hst]
    exact .cancel
  | paid i o hop hst hsales hm =>
    refine .moved i o _ ?_ hm
    rw [hst]
    exact .pay
  | entered fd kind tableId heq =>
    rw [heq]
    exact .same (serverRegisterClient_orders _ _ _ _)
  | left fd heq =>
    rw [heq]
    exact .same (serverUnregisterFd_orders _ _)

/-- One operation emits a trace of the book. -/
theorem BookMove.trace {w w' : World} (h : BookMove w w')
    (hnd : (w.ctx.orders.items.map (·.orderId)).Nodup)
    (hnd' : (w'.ctx.orders.items.map (·.orderId)).Nodup) :
    orderLife.Trace (bookOf w) ((published w w').map entry) (bookOf w') := by
  cases h with
  | same heq =>
    rw [published_same heq, bookOf_congr (congrArg Arr.items heq)]
    exact .nil _
  | created o hc => exact hc.trace hnd hnd'
  | moved i o st hnext hm => exact hm.trace hnext hnd hnd'

/-! ## Runs -/

/-- The entries of the book that a run of a system around the server makes. -/
abbrev entriesOf {σ α : Type} (world : σ → World) (stp : α → σ → σ) (s : σ) (as : List α) :
    List Order := Lifecycle.emitted stp (fun s s' => published (world s) (world s')) s as

theorem emitted_map {σ α ε δ : Type} (stp : α → σ → σ) (emit : σ → σ → List ε) (f : ε → δ) (s : σ)
    (as : List α) : Lifecycle.emitted stp (fun s s' => (emit s s').map f) s as =
      (Lifecycle.emitted stp emit s as).map f := by
  induction as generalizing s with
  | nil => rfl
  | cons a as ih => rw [Lifecycle.emitted, Lifecycle.emitted, ih, List.map_append]

/-- A system each of whose steps leaves the world alone or runs an operation refines the book. -/
theorem trace_of_moves {σ α : Type} (world : σ → World) {stp : α → σ → σ} (J : σ → Prop)
    (hkeep : ∀ a s, J s → J (stp a s))
    (hmove : ∀ a s, J s → BookMove (world s) (world (stp a s)))
    (hnd : ∀ s, J s → ((world s).ctx.orders.items.map (·.orderId)).Nodup) {s : σ} (hs : J s)
    (as : List α) :
    orderLife.Trace (bookOf (world s)) ((entriesOf world stp s as).map entry)
      (bookOf (world (Runs.run stp s as))) := by
  rw [entriesOf, ← emitted_map]
  refine Lifecycle.run_trace (fun s => bookOf (world s)) J hkeep ?_ hs as
  intro a v hv
  exact (hmove a v hv).trace (hnd v hv) (hnd _ (hkeep a v hv))

end TableOrder
