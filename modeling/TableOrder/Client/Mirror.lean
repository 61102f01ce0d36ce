import TableOrder.Client.Table
import TableOrder.Server.History
import TableOrder.Server.Slots
import TableOrder.Server.Typed

/-!
# Mirrors follow the server

Every operation that changes an order sends its event to all clients in the same critical section,
and registration sends the snapshot in the same critical section that takes the slot. So a mirror
that has merged everything sent to its socket is a replica of the orders in the sense of
`Replica.Mirrors`: after the snapshot (`mirrors_enter`), after one operation (`mirrors_effect`), and
after any number of them (`mirrors_runOps`).

A table client also hears about the orders of other tables, and keeps those it hears about. The
view of its mirror shows the orders of its own table only.
-/

namespace TableOrder

open CLib

/-! ## What a socket carries -/

/-- The texts of these that went to one socket. -/
def textsTo (fd : Int) (out : List (Int × Bytes)) : List Bytes :=
  (out.filter fun p => p.1 == fd).map (·.2)

/-- The lines the client at that socket reads. -/
def linesTo (fd : Int) (out : List (Int × Bytes)) : List Bytes := (textsTo fd out).map netLine

theorem textsTo_append (fd : Int) (out out' : List (Int × Bytes)) :
    textsTo fd (out ++ out') = textsTo fd out ++ textsTo fd out' := by
  rw [textsTo, List.filter_append, List.map_append]
  rfl

theorem linesTo_append (fd : Int) (out out' : List (Int × Bytes)) :
    linesTo fd (out ++ out') = linesTo fd out ++ linesTo fd out' := by
  rw [linesTo, textsTo_append, List.map_append]
  rfl

/-- A broadcast reaches a socket as often as it is registered. -/
theorem textsTo_broadcast (fd : Int) (fds : List Int) (text : Bytes) :
    textsTo fd (fds.map fun r => (r, text)) = List.replicate (fds.count fd) text := by
  induction fds with
  | nil => rfl
  | cons r fds ih =>
    by_cases h : r = fd
    · subst h
      rw [List.map_cons, textsTo, List.filter_cons_of_pos (by simp), List.map_cons,
        List.count_cons_self, List.replicate_succ]
      exact congrArg _ ih
    · rw [List.map_cons, textsTo, List.filter_cons_of_neg (by simpa using h),
        List.count_cons_of_ne h]
      exact ih

/-- A snapshot goes to the new socket only. -/
theorem textsTo_snapshot (fd fd' : Int) (os : List Order) :
    textsTo fd (os.map fun o => (fd', orderEvent o)) = if fd' = fd then os.map orderEvent else [] := by
  split
  · next h =>
    subst h
    rw [textsTo, List.filter_eq_self.mpr (by simp), List.map_map]
    rfl
  · next h =>
    rw [textsTo, List.filter_eq_nil_iff.mpr (by simpa using fun _ _ => h), List.map_nil]

theorem mem_textsTo {fd : Int} {out : List (Int × Bytes)} {text : Bytes}
    (h : text ∈ textsTo fd out) : (fd, text) ∈ out := by
  obtain ⟨⟨fd', t⟩, hp, rfl⟩ := List.mem_map.mp h
  obtain ⟨hp, hfd⟩ := List.mem_filter.mp hp
  rw [← eq_of_beq hfd]
  exact hp

/-! ## What the client makes of it -/

/-- An event is read back as the order it was built from. -/
theorem mirrorLine_orderEvent {o : Order} (hfits : o.Fits) (hnamed : o.Named) (orders : Mirror) :
    mirrorLine orders (netLine (orderEvent o)) = uiMergeOrderMirror orders (sanitizeOrder o) := by
  have hline : netLine (orderEvent o) = protoBuildOrderBroadcast o := by
    rw [orderEvent, build_eq hfits]
    apply netLine_line
    · intro b hb
      cases hend : isLineEnd b with
      | false => rfl
      | true =>
        exfalso
        rw [isLineEnd, Bool.or_eq_true, beq_iff_eq, beq_iff_eq] at hend
        rcases hend with rfl | rfl
        · exact reserved_not_mem_eventText (by decide) (by decide) (by decide) (by decide) o hb
        · exact reserved_not_mem_eventText (by decide) (by decide) (by decide) (by decide) o hb
    · have := length_eventText_lt hfits
      show _ < 16384
      omega
  have hstart : startsWith (lit "ORDER_EVENT|") (protoBuildOrderBroadcast o) = true := by
    rw [build_eq hfits]
    rfl
  rw [hline, mirrorLine, if_pos hstart, parse_build hfits hnamed]

theorem foldl_mirrorLine_other {texts : List Bytes} (h : ∀ t ∈ texts, isOrderEvent t = false)
    (orders : Mirror) : (texts.map netLine).foldl mirrorLine orders = orders := by
  induction texts with
  | nil => rfl
  | cons t texts ih =>
    have ht : ¬ startsWith (lit "ORDER_EVENT|") (netLine t) = true := by
      intro hstart
      have hevent : isOrderEvent t = true := startsWith_netLine hstart
      rw [h t (by simp)] at hevent
      cases hevent
    rw [List.map_cons, List.foldl_cons, mirrorLine_of_not ht]
    exact ih fun t' ht' => h t' (by simp [ht'])

/-- An event that arrives once or more often is one merge. -/
theorem foldl_mirrorLine_replicate {o : Order} (hfits : o.Fits) (hnamed : o.Named)
    {orders : Mirror} (hnd : (orders.items.map (·.orderId)).Nodup)
    (hroom : o.orderId ∉ orders.items.map (·.orderId) → orders.items.length < MAX_ORDERS)
    (n : Nat) :
    (((List.replicate (n + 1) (orderEvent o)).map netLine).foldl mirrorLine orders).items =
      Replica.merge (·.orderId) orders.items (sanitizeOrder o) := by
  induction n generalizing orders with
  | zero =>
    show (mirrorLine orders (netLine (orderEvent o))).items = _
    rw [mirrorLine_orderEvent hfits hnamed]
    exact uiMergeOrderMirror_items (sanitizeOrder o) hnd hroom
  | succ n ih =>
    have hitems := uiMergeOrderMirror_items (sanitizeOrder o) hnd hroom
    rw [List.replicate_succ, List.map_cons, List.foldl_cons, mirrorLine_orderEvent hfits hnamed, ih,
      hitems, Replica.merge_merge]
    · rw [hitems]
      exact Replica.nodup_merge hnd _
    · intro hnew
      rw [hitems] at hnew
      exact absurd (Replica.mem_keys_merge orders.items (sanitizeOrder o)) hnew

/-- Events of new orders, one after the other. -/
theorem foldl_mirrorLine_events {os : List Order} {orders : Mirror}
    (hfits : ∀ o ∈ os, o.Fits) (hnamed : ∀ o ∈ os, o.Named)
    (hnd : (orders.items.map (·.orderId)).Nodup)
    (hroom : orders.items.length + os.length ≤ MAX_ORDERS) :
    ((os.map orderEvent).map netLine |>.foldl mirrorLine orders).items =
      (os.map sanitizeOrder).foldl (Replica.merge (·.orderId)) orders.items := by
  induction os generalizing orders with
  | nil => rfl
  | cons o os ih =>
    rw [List.length_cons] at hroom
    have hitems := uiMergeOrderMirror_items (sanitizeOrder o) hnd (by omega)
    have hlen : (Replica.merge (·.orderId) orders.items (sanitizeOrder o)).length ≤
        orders.items.length + 1 := by
      unfold Replica.merge Replica.put
      split <;> simp
    rw [List.map_cons, List.map_cons, List.foldl_cons,
      mirrorLine_orderEvent (hfits o (by simp)) (hnamed o (by simp)),
      ih (fun o' ho' => hfits o' (by simp [ho'])) (fun o' ho' => hnamed o' (by simp [ho'])), hitems]
    · rfl
    · rw [hitems]
      exact Replica.nodup_merge hnd _
    · rw [hitems]
      omega

/-! ## One operation -/

/-- The operation neither registers this socket nor drops it. -/
def Op.KeepsClient (fd : Int) (op : Op) : Prop :=
  (∀ kind tableId, op ≠ .enter fd kind tableId) ∧ op ≠ .leave fd

/-- What a client hears of an operation: the event of the order it changed, or no event. -/
inductive Heard (fd : Int) (w w' : World) (out : List (Int × Bytes)) : Prop
  | nothing : w'.ctx.orders = w.ctx.orders →
      (∀ t ∈ textsTo fd out, isOrderEvent t = false) → Heard fd w w' out
  | created (o : Order) : w.ctx.orders.items.length < MAX_ORDERS →
      w'.ctx.orders.items = w.ctx.orders.items ++ [o] →
      textsTo fd out = List.replicate (w.ctx.receivers.count fd) (orderEvent o) → Heard fd w w' out
  | moved (i : Nat) (o : Order) (st : OrderStatus) : w.ctx.orders.items[i]? = some o →
      o.status.terminal = false →
      w'.ctx.orders.items = w.ctx.orders.items.set i (o.withStatus st) →
      textsTo fd out = List.replicate (w.ctx.receivers.count fd) (orderEvent (o.withStatus st)) →
      Heard fd w w' out

theorem Moved.heard {S : IntSem} {w w' : World} {i : Nat} {o : Order} {st : OrderStatus}
    (hm : Moved S w w' i o st) (hlive : o.status.terminal = false) (fd : Int) :
    ∃ out, w'.sent = w.sent ++ out ∧ Heard fd w w' out :=
  ⟨_, hm.sent, .moved i o st hm.found hlive hm.orders (textsTo_broadcast _ _ _)⟩

theorem Effect.heard {S : IntSem} {env : Env} {op : Op} {w w' : World} {failed : Bool}
    (he : Effect S env op w w' failed) {fd : Int} (hkeep : op.KeepsClient fd) :
    ∃ out, w'.sent = w.sent ++ out ∧ Heard fd w w' out := by
  cases he with
  | quiet failed lines horders _ _ _ _ hsent hquiet =>
    refine ⟨lines, hsent, .nothing horders ?_⟩
    intro t ht
    exact hquiet _ (mem_textsTo ht)
  | created o _ hc =>
    exact ⟨_, hc.sent, .created o hc.room hc.orders (textsTo_broadcast _ _ _)⟩
  | cooked i o st hvalid _ hm => exact hm.heard (not_terminal_of_transition hvalid).1 fd
  | cancelled i o hst _ _ hm => exact hm.heard (by rw [hst]; rfl) fd
  | paid i o _ hst _ hm => exact hm.heard (by rw [hst]; rfl) fd
  | entered fd' kind tableId heq hop =>
    subst heq
    have hne : fd' ≠ fd := by
      rintro rfl
      exact hkeep.1 kind tableId hop
    refine ⟨_, rfl, .nothing (by simp) ?_⟩
    rw [textsTo_snapshot, if_neg hne]
    simp
  | left fd' heq _ =>
    subst heq
    exact ⟨[], by simp, .nothing (by simp) (by simp [textsTo])⟩

theorem Effect.mem_receivers_iff {S : IntSem} {env : Env} {op : Op} {w w' : World} {failed : Bool}
    (he : Effect S env op w w' failed) {fd : Int} (hkeep : op.KeepsClient fd) :
    fd ∈ w'.ctx.receivers ↔ fd ∈ w.ctx.receivers := by
  cases he with
  | quiet failed lines _ hclients => rw [receivers_of_clients hclients]
  | created o _ hc => rw [hc.ctx]; rfl
  | cooked i o st _ _ hm => rw [hm.ctx]; rfl
  | cancelled i o _ _ _ hm => rw [hm.ctx]; rfl
  | paid i o _ _ _ hm => rw [hm.ctx]; rfl
  | entered fd' kind tableId heq hop =>
    subst heq
    apply mem_receivers_register
    rintro rfl
    exact hkeep.1 kind tableId hop
  | left fd' heq hop =>
    subst heq
    apply mem_receivers_unregister
    rintro rfl
    exact hkeep.2 hop

/-! ## The replica -/

/-- The orders a client of this kind is to show. -/
def activeFor : ClientKind → Int → Order → Bool
  | .table, tableId, o => !o.status.terminal && o.tableId == tableId
  | _, _, o => !o.status.terminal

theorem inSnapshot_eq (kind : ClientKind) (tableId : Int) :
    inSnapshot kind tableId = activeFor kind tableId := by
  funext o
  cases kind <;> simp [inSnapshot, activeFor, bne]

def mirrorView (kind : ClientKind) (tableId : Int) : Replica.View Order Order Int where
  key := (·.orderId)
  image := sanitizeOrder
  keyOf := (·.orderId)
  shows := activeFor kind tableId
  showsOf := activeFor kind tableId
  keyOf_image := fun _ => rfl
  showsOf_image := by cases kind <;> exact fun _ => rfl

/-- The mirror is a replica of the orders of the server. -/
abbrev MirrorOf (kind : ClientKind) (tableId : Int) (orders : Mirror) (w : World) : Prop :=
  Replica.Mirrors (mirrorView kind tableId) orders.items w.ctx.orders.items

theorem activeFor_of_moved {kind : ClientKind} {tableId : Int} {o : Order} {st : OrderStatus}
    (hlive : o.status.terminal = false) (h : activeFor kind tableId (o.withStatus st) = true) :
    activeFor kind tableId o = true := by
  cases kind with
  | table =>
    simp only [activeFor, Bool.and_eq_true] at h ⊢
    exact ⟨by rw [hlive]; rfl, h.2⟩
  | _ => simp [activeFor, hlive]

/-- After one operation. -/
theorem mirrors_heard {kind : ClientKind} {tableId fd : Int} {w w' : World}
    {out : List (Int × Bytes)} {orders : Mirror} (hmirror : MirrorOf kind tableId orders w)
    (hin : fd ∈ w.ctx.receivers) (hnd : (w.ctx.orders.items.map (·.orderId)).Nodup)
    (hnd' : (w'.ctx.orders.items.map (·.orderId)).Nodup)
    (hfits : ∀ o ∈ w'.ctx.orders.items, o.Fits) (hnamed : ∀ o ∈ w'.ctx.orders.items, o.Named)
    (hheard : Heard fd w w' out) :
    MirrorOf kind tableId ((linesTo fd out).foldl mirrorLine orders) w' := by
  obtain ⟨k, hk⟩ : ∃ k, w.ctx.receivers.count fd = k + 1 :=
    Nat.exists_eq_succ_of_ne_zero (Nat.pos_iff_ne_zero.mp (List.count_pos_iff.mpr hin))
  cases hheard with
  | nothing horders hquiet =>
    rw [linesTo, foldl_mirrorLine_other hquiet, MirrorOf, horders]
    exact hmirror
  | created o hroom hitems htexts =>
    have ho : o ∈ w'.ctx.orders.items := by simp [hitems]
    have hnew : o.orderId ∉ w.ctx.orders.items.map (·.orderId) := by
      rw [hitems, List.map_append, List.nodup_append] at hnd'
      intro h
      exact hnd'.2.2 _ h _ (by simp) rfl
    have hlen := hmirror.length_le
    rw [MirrorOf, linesTo, htexts, hk, foldl_mirrorLine_replicate (hfits o ho) (hnamed o ho)
      hmirror.nodup (fun _ => by omega), hitems]
    exact hmirror.push hnew
  | moved i o st hfound hlive hitems htexts =>
    have hmem : o ∈ w.ctx.orders.items := List.mem_of_getElem? hfound
    have hlt := (List.getElem?_eq_some_iff.mp hfound).1
    have ho : o.withStatus st ∈ w'.ctx.orders.items := by
      rw [hitems]
      exact List.mem_set hlt _
    have hroom (hnew : o.orderId ∉ orders.items.map (·.orderId)) :
        orders.items.length < MAX_ORDERS :=
      Nat.lt_of_lt_of_le (hmirror.room (List.mem_map_of_mem hmem) hnew) w.ctx.orders.bound
    rw [MirrorOf, linesTo, htexts, hk, foldl_mirrorLine_replicate (hfits _ ho) (hnamed _ ho)
      hmirror.nodup hroom, hitems,
      Replica.set_eq_put (b := o.withStatus st) hnd hfound rfl]
    exact hmirror.update hnd hmem rfl (activeFor_of_moved hlive)

/-- After registration and snapshot. -/
theorem mirrors_enter {w : World} (kind : ClientKind) (tableId fd : Int)
    (hnd : (w.ctx.orders.items.map (·.orderId)).Nodup)
    (hfits : ∀ o ∈ w.ctx.orders.items, o.Fits) (hnamed : ∀ o ∈ w.ctx.orders.items, o.Named) :
    ∃ out, (enterClient w fd kind tableId).sent = w.sent ++ out ∧
      MirrorOf kind tableId ((linesTo fd out).foldl mirrorLine noOrders)
        (enterClient w fd kind tableId) := by
  have hctx : (enterClient w fd kind tableId).ctx.orders = w.ctx.orders := by simp
  refine ⟨_, rfl, ?_⟩
  rw [MirrorOf, hctx, linesTo, textsTo_snapshot, if_pos rfl, foldl_mirrorLine_events]
  · show Replica.Mirrors _ (((List.filter (inSnapshot kind tableId)
      (serverRegisterClient w.ctx fd kind tableId).orders.items).map sanitizeOrder).foldl
        (Replica.merge (·.orderId)) []) _
    rw [serverRegisterClient_orders, inSnapshot_eq]
    exact Replica.Mirrors.snapshot (mirrorView kind tableId) hnd
  · intro o ho
    have hmem := (List.mem_filter.mp ho).1
    rw [serverRegisterClient_orders] at hmem
    exact hfits o hmem
  · intro o ho
    have hmem := (List.mem_filter.mp ho).1
    rw [serverRegisterClient_orders] at hmem
    exact hnamed o hmem
  · exact List.nodup_nil
  · have hlen := List.length_filter_le (inSnapshot kind tableId)
      (serverRegisterClient w.ctx fd kind tableId).orders.items
    have hbound := (serverRegisterClient w.ctx fd kind tableId).orders.bound
    exact Nat.le_trans (Nat.le_of_eq (Nat.zero_add _)) (Nat.le_trans hlen hbound)

/-! ## Runs -/

/-- Orders keep their lines. -/
theorem named_before {w : World} {as : List Action}
    (hnamed : ∀ o ∈ (runOps .wrap w as).ctx.orders.items, o.Named) :
    ∀ o ∈ w.ctx.orders.items, o.Named := by
  intro o ho
  obtain ⟨i, hi⟩ := List.mem_iff_getElem?.mp ho
  obtain ⟨st, hlater, -⟩ := later_order as hi
  have hlines : (o.withStatus st).Named := hnamed _ (List.mem_of_getElem? hlater)
  exact hlines

theorem mirrors_runOps {n : Int} {kind : ClientKind} {tableId fd : Int} {w : World}
    {orders : Mirror} (hnum : Numbered n w) (hw : WorldFits w) (hin : fd ∈ w.ctx.receivers)
    (hmirror : MirrorOf kind tableId orders w) {as : List Action} (hfits : ∀ a ∈ as, a.Fits)
    (hkeep : ∀ a ∈ as, a.2.KeepsClient fd)
    (hnamed : ∀ o ∈ (runOps .wrap w as).ctx.orders.items, o.Named) :
    ∃ out, (runOps .wrap w as).sent = w.sent ++ out ∧
      MirrorOf kind tableId ((linesTo fd out).foldl mirrorLine orders) (runOps .wrap w as) := by
  induction as generalizing w orders with
  | nil => exact ⟨[], by simp, hmirror⟩
  | cons a as ih =>
    have heffect := a.2.effect .wrap a.1 w
    have hka := hkeep a (by simp)
    have hnum' := hnum.effect heffect
    have hw' := fits_effect (hfits a (by simp)) hw heffect
    obtain ⟨out, hsent, hheard⟩ := heffect.heard hka
    have hstep := mirrors_heard hmirror hin hnum.nodup hnum'.nodup hw'.orders (named_before hnamed)
      hheard
    obtain ⟨out', hsent', hrun⟩ := ih hnum' hw' ((heffect.mem_receivers_iff hka).mpr hin) hstep
      (fun b hb => hfits b (by simp [hb])) (fun b hb => hkeep b (by simp [hb])) hnamed
    refine ⟨out ++ out', ?_, ?_⟩
    · rw [← List.append_assoc, ← hsent]
      exact hsent'
    · rw [linesTo_append, List.foldl_append]
      exact hrun

/-- A socket that is not registered hears no event. -/
theorem Heard.quiet {fd : Int} {w w' : World} {out : List (Int × Bytes)} (h : Heard fd w w' out)
    (hout : fd ∉ w.ctx.receivers) : ∀ t ∈ textsTo fd out, isOrderEvent t = false := by
  have hcount : w.ctx.receivers.count fd = 0 := List.count_eq_zero.mpr hout
  cases h with
  | nothing _ hquiet => exact hquiet
  | created o _ _ htexts =>
    rw [htexts, hcount]
    simp
  | moved i o st _ _ _ htexts =>
    rw [htexts, hcount]
    simp

theorem quiet_runOps {fd : Int} {w : World} (hout : fd ∉ w.ctx.receivers) {as : List Action}
    (hkeep : ∀ a ∈ as, a.2.KeepsClient fd) :
    fd ∉ (runOps .wrap w as).ctx.receivers ∧
      ∃ out, (runOps .wrap w as).sent = w.sent ++ out ∧
        ∀ t ∈ textsTo fd out, isOrderEvent t = false := by
  induction as generalizing w with
  | nil => exact ⟨hout, [], by simp, by simp [textsTo]⟩
  | cons a as ih =>
    have heffect := a.2.effect .wrap a.1 w
    have hka := hkeep a (by simp)
    obtain ⟨out, hsent, hheard⟩ := heffect.heard hka
    obtain ⟨hend, out', hsent', hquiet⟩ :=
      ih (fun h => hout ((heffect.mem_receivers_iff hka).mp h)) (fun b hb => hkeep b (by simp [hb]))
    refine ⟨hend, out ++ out', ?_, ?_⟩
    · rw [← List.append_assoc, ← hsent]
      exact hsent'
    · intro t ht
      rw [textsTo_append, List.mem_append] at ht
      rcases ht with ht | ht
      · exact hheard.quiet hout t ht
      · exact hquiet t ht

/-! ## Connections -/

/-- One connection in a run of the server: what happened before the client connected, between that
and its registration, and since. -/
structure Connection where
  fd : Int
  kind : ClientKind
  tableId : Int
  before : List Action
  handshake : List Action
  env : Env
  after : List Action

namespace Connection

variable (c : Connection) (w : World)

/-- The server when the client connects. -/
def opened : World := runOps .wrap w c.before

/-- The server when the client is about to be registered. -/
def greeted : World := runOps .wrap (c.opened w) c.handshake

def registered : World := step .wrap (c.env, .enter c.fd c.kind c.tableId) (c.greeted w)

def now : World := runOps .wrap (c.registered w) c.after

/-- Every line written to the socket so far. -/
def lines : List Bytes := linesTo c.fd ((c.now w).sent.drop (c.opened w).sent.length)

/-- The socket is a new one, its client registers once, in a free slot, and is still there; every
order so far has names on its lines. -/
structure Valid : Prop where
  fits : ∀ a ∈ c.before ++ (c.handshake ++ c.after), a.Fits
  fresh : c.fd ∉ (c.opened w).ctx.receivers
  once : ∀ a ∈ c.handshake ++ c.after, a.2.KeepsClient c.fd
  free : ∃ s ∈ (c.greeted w).ctx.clients.slots, s.inUse = false
  named : ∀ o ∈ (c.now w).ctx.orders.items, o.Named

/-- A client that merged every line holds a replica of the orders. -/
theorem mirrorOf_lines {c : Connection} {w : World} (hstart : Started w) (hc : c.Valid w) :
    MirrorOf c.kind c.tableId ((c.lines w).foldl mirrorLine noOrders) (c.now w) := by
  have hfits {as : List Action} (hsub : ∀ a ∈ as, a ∈ c.before ++ (c.handshake ++ c.after)) :
      ∀ a ∈ as, a.Fits := fun a ha => hc.fits a (hsub a ha)
  have hnum : Numbered w.ctx.cfg.nextOrderId (c.greeted w) :=
    numbered_runOps (numbered_runOps (Numbered.of_started hstart) _) _
  have hw : WorldFits (c.greeted w) :=
    fits_runOps (fits_runOps (started_fits hstart) (hfits fun a ha => by simp [ha]))
      (hfits fun a ha => by simp [ha])
  obtain ⟨-, out₁, hsent₁, hquiet⟩ :=
    quiet_runOps hc.fresh fun a (ha : a ∈ c.handshake) => hc.once a (by simp [ha])
  -- the snapshot
  have hnamed : ∀ o ∈ (c.greeted w).ctx.orders.items, o.Named := by
    have h := named_before hc.named
    simpa [registered, step, Op.run] using h
  obtain ⟨out₂, hsent₂, hsnapshot⟩ :=
    mirrors_enter c.kind c.tableId c.fd hnum.nodup hw.orders hnamed
  -- the events since
  have heffect : Effect .wrap c.env (.enter c.fd c.kind c.tableId) (c.greeted w)
      (c.registered w) false := Op.effect .wrap c.env (c.greeted w) _
  have hin : c.fd ∈ (c.registered w).ctx.receivers :=
    mem_receivers_enter hc.free c.fd c.kind c.tableId
  have hw' : WorldFits (c.registered w) := by
    refine ⟨?_, ?_, ?_⟩
    · simpa [registered, step, Op.run] using hw.menu
    · simpa [registered, step, Op.run] using hw.nextOrderId
    · simpa [registered, step, Op.run] using hw.orders
  obtain ⟨out₃, hsent₃, hmirror⟩ := mirrors_runOps (hnum.effect heffect) hw' hin hsnapshot
    (hfits fun a ha => by simp [ha]) (fun a ha => hc.once a (by simp [ha])) hc.named
  have hall : (c.now w).sent = (c.opened w).sent ++ (out₁ ++ (out₂ ++ out₃)) := by
    rw [← List.append_assoc, ← List.append_assoc]
    show (runOps .wrap (c.registered w) c.after).sent = _
    rw [hsent₃]
    show (enterClient (c.greeted w) c.fd c.kind c.tableId).sent ++ out₃ = _
    rw [hsent₂]
    show (runOps .wrap (c.opened w) c.handshake).sent ++ out₂ ++ out₃ = _
    rw [hsent₁]
  rw [lines, hall, List.drop_left, linesTo_append, linesTo_append, List.foldl_append,
    List.foldl_append, linesTo, foldl_mirrorLine_other hquiet]
  exact hmirror

end Connection

/-- A mirror shows the active orders: one entry for each, in the order of the server, and no
other. -/
structure ShowsActive (kind : ClientKind) (tableId : Int) (orders : Mirror) (w : World) :
    Prop where
  nodup : (orders.items.map (·.orderId)).Nodup
  active : orders.items.filter (activeFor kind tableId) =
    (w.ctx.orders.items.filter (activeFor kind tableId)).map sanitizeOrder

theorem showsActive_of_mirrorOf {kind : ClientKind} {tableId : Int} {orders : Mirror} {w : World}
    (h : MirrorOf kind tableId orders w) : ShowsActive kind tableId orders w := ⟨h.nodup, h.shown⟩

/-- At any point of any run, a kitchen that has read every line shows the active orders, and so
does a table client for its table, whatever keys were pressed there. -/
theorem mirror_showsActive {w : World} (hstart : Started w) {c : Connection} (hc : c.Valid w) :
    (c.kind = .kitchen →
      ShowsActive .kitchen c.tableId ((c.lines w).foldl kitchenLine Kitchen.init).board (c.now w)) ∧
    (c.kind = .table → ∀ (menuFile : Option Bytes) (inputs : List TableInput),
      inputs.filterMap TableInput.received = c.lines w →
      ShowsActive .table c.tableId
        (runTable .wrap (TableClient.start c.tableId menuFile) inputs).mirror (c.now w)) := by
  have hmirror := Connection.mirrorOf_lines hstart hc
  constructor
  · intro hkind
    rw [hkind] at hmirror
    rw [foldl_kitchenLine_board]
    exact showsActive_of_mirrorOf hmirror
  · intro hkind menuFile inputs hinputs
    rw [hkind] at hmirror
    rw [runTable_mirror, hinputs]
    exact showsActive_of_mirrorOf hmirror

/-- A kitchen that connects after the first order and sees it cook, and a second one placed. -/
def lateKitchen : Connection where
  fd := 5
  kind := .kitchen
  tableId := 0
  before := [(Env.fair 1, .orderCreate (lit "ORDER_CREATE|table=2|items=1:2,3:1") 2)]
  handshake := [(Env.fair 2, .reply 5 .hello)]
  env := Env.fair 2
  after := [(Env.fair 3, .updateOrderStatus 1 .cooking),
    (Env.fair 4, .orderCreate (lit "ORDER_CREATE|table=3|items=2:1") 3)]

theorem mirror_showsActive_lateKitchen :
    let w := (serverLoadPersistent (World.boot none none)).2
    (lateKitchen.kind = .kitchen → ShowsActive .kitchen lateKitchen.tableId
      ((lateKitchen.lines w).foldl kitchenLine Kitchen.init).board (lateKitchen.now w)) ∧
    (lateKitchen.kind = .table → ∀ (menuFile : Option Bytes) (inputs : List TableInput),
      inputs.filterMap TableInput.received = lateKitchen.lines w →
      ShowsActive .table lateKitchen.tableId
        (runTable .wrap (TableClient.start lateKitchen.tableId menuFile) inputs).mirror
        (lateKitchen.now w)) := by
  rw [firstStart_eq]
  intro w
  have hstart : Started w := started_firstStart
  have hnames : ((lateKitchen.now w).ctx.orders.items.all
      fun o => o.items.items.all fun it => !it.name.bytes.isEmpty) = true := by
    decide +kernel
  have hslots : ((lateKitchen.greeted w).ctx.clients.slots.any (!·.inUse)) = true := by
    decide +kernel
  apply mirror_showsActive hstart
  constructor
  · intro a ha
    simp only [lateKitchen, List.cons_append, List.nil_append, List.mem_cons, List.not_mem_nil,
      or_false] at ha
    rcases ha with rfl | rfl | rfl | rfl <;> exact ⟨by decide, trivial⟩
  · decide +kernel
  · intro a ha
    simp only [lateKitchen, List.cons_append, List.nil_append, List.mem_cons, List.not_mem_nil,
      or_false] at ha
    rcases ha with rfl | rfl | rfl <;> exact ⟨by simp, by simp⟩
  · obtain ⟨s, hs, huse⟩ := List.any_eq_true.mp hslots
    exact ⟨s, hs, by simpa using huse⟩
  · intro o ho it hit hempty
    have hlines : (o.items.items.all fun it => !it.name.bytes.isEmpty) = true :=
      List.all_eq_true.mp hnames o ho
    have hline := List.all_eq_true.mp hlines it hit
    rw [hempty] at hline
    cases hline

end TableOrder
