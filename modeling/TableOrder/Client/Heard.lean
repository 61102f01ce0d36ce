import TableOrder.Client.Mirror
import TableOrder.Lib.Moments
import TableOrder.Server.OrderBook

/-!
# What a client hears

A socket that is registered once hears of every order that changes, once and in order. So the events
that a client is sent are a trace of the book of orders (`hub_hears_lives`): those about one order are
a path of its life. A client that is behind has read the lines of an earlier moment of the server, and
shows the orders as they were then (`mirror_moments`).
-/

namespace TableOrder

open CLib

/-! ## How often a socket is registered -/

def timesRegistered (ctx : ServerContext) (fd : Int) : Nat := ctx.receivers.count fd

theorem timesRegistered_eq (ctx : ServerContext) (fd : Int) :
    timesRegistered ctx fd = ctx.clients.slots.countP fun c => c.fd == fd && c.inUse := by
  unfold timesRegistered ServerContext.receivers List.count
  rw [List.countP_map, List.countP_filter]
  rfl

/-- A change of one slot. -/
theorem timesRegistered_modify {ctx : ServerContext} {i : Nat} {c : ClientSlot}
    (hc : ctx.clients.slots[i]? = some c) (f : ClientSlot → ClientSlot) (fd : Int) :
    timesRegistered { ctx with clients := ctx.clients.modify i f } fd =
      timesRegistered ctx fd - (if (c.fd == fd && c.inUse) = true then 1 else 0) +
        (if ((f c).fd == fd && (f c).inUse) = true then 1 else 0) := by
  obtain ⟨hlt, hi⟩ := List.getElem?_eq_some_iff.mp hc
  rw [timesRegistered_eq, timesRegistered_eq]
  show (ctx.clients.slots.modify i f).countP _ = _
  rw [modify_eq_set hc, List.countP_set hlt, hi]

theorem timesRegistered_register_le (ctx : ServerContext) (fd fd' : Int) (kind : ClientKind)
    (tableId : Int) : timesRegistered (serverRegisterClient ctx fd' kind tableId) fd ≤
      timesRegistered ctx fd + if fd' = fd then 1 else 0 := by
  unfold serverRegisterClient
  split
  · omega
  · next i hi =>
    obtain ⟨hlt, -⟩ := List.findIdx?_eq_some_iff_getElem.mp hi
    rw [timesRegistered_modify (List.getElem?_eq_getElem hlt)]
    by_cases hfd : fd' = fd
    · simp [hfd]
    · simp [hfd]

theorem timesRegistered_unregister_le (ctx : ServerContext) (fd fd' : Int) :
    timesRegistered (serverUnregisterFd ctx fd') fd ≤ timesRegistered ctx fd := by
  unfold serverUnregisterFd
  split
  · exact Nat.le_refl _
  · next i hi =>
    obtain ⟨hlt, -⟩ := List.findIdx?_eq_some_iff_getElem.mp hi
    rw [timesRegistered_modify (List.getElem?_eq_getElem hlt)]
    simp

/-- Only registering a socket makes it hear more. -/
theorem Effect.timesRegistered_le {S : IntSem} {env : Env} {op : Op} {w w' : World} {failed : Bool}
    (he : Effect S env op w w' failed) {fd : Int} (hkeep : op.KeepsClient fd) :
    timesRegistered w'.ctx fd ≤ timesRegistered w.ctx fd := by
  cases he with
  | quiet failed lines _ hclients =>
    unfold timesRegistered
    rw [receivers_of_clients hclients]
  | created o _ hc => rw [hc.ctx]; exact Nat.le_refl _
  | cooked i o st _ _ hm => rw [hm.ctx]; exact Nat.le_refl _
  | cancelled i o _ _ _ hm => rw [hm.ctx]; exact Nat.le_refl _
  | paid i o _ _ _ hm => rw [hm.ctx]; exact Nat.le_refl _
  | entered fd' kind tableId heq hop =>
    have hne : fd' ≠ fd := by
      rintro rfl
      exact hkeep.1 kind tableId hop
    subst heq
    have hle := timesRegistered_register_le w.ctx fd fd' kind tableId
    rwa [if_neg hne] at hle
  | left fd' heq _ =>
    subst heq
    exact timesRegistered_unregister_le w.ctx fd fd'

/-- Where no socket is in two slots, each hears everything once. -/
theorem timesRegistered_of_distinct {ctx : ServerContext} (h : SlotsDistinct ctx) {fd : Int}
    (hfd : fd ∈ ctx.receivers) : timesRegistered ctx fd = 1 := by
  have hslots : ctx.clients.slots.Pairwise fun c d => c.inUse = true → d.inUse = true →
      c.fd ≠ d.fd := by
    apply List.pairwise_iff_getElem.mpr
    intro i j hi hj hij hc hd hsame
    have heq := h i j _ _ (List.getElem?_eq_getElem hi) (List.getElem?_eq_getElem hj) hc hd hsame
    omega
  have hnd : ctx.receivers.Nodup := by
    apply List.pairwise_map.mpr
    apply List.pairwise_filter.mpr
    exact hslots.imp fun {c d} hne hc hd => hne hc hd
  exact List.count_eq_one_of_mem hnd hfd

/-! ## One operation -/

/-- The events among these that go to one socket. -/
def eventsTo (fd : Int) (out : List (Int × Bytes)) : List Bytes :=
  (textsTo fd out).filter isOrderEvent

theorem eventsTo_append (fd : Int) (out out' : List (Int × Bytes)) :
    eventsTo fd (out ++ out') = eventsTo fd out ++ eventsTo fd out' := by
  rw [eventsTo, textsTo_append, List.filter_append]
  rfl

theorem isOrderEvent_orderEvent (o : Order) : isOrderEvent (orderEvent o) = true := by
  unfold orderEvent
  rw [build_eq_clip]
  rfl

theorem eventsTo_broadcast {w : World} {fd : Int} (honce : timesRegistered w.ctx fd = 1) (o : Order) :
    eventsTo fd (w.ctx.receivers.map fun r => (r, orderEvent o)) = [orderEvent o] := by
  rw [eventsTo, textsTo_broadcast, show w.ctx.receivers.count fd = 1 from honce,
    List.replicate_one]
  simp [isOrderEvent_orderEvent]

/-- No event goes to the socket where the store is as it was. -/
theorem events_of_quiet {w w' : World} {fd : Int} {out : List (Int × Bytes)}
    (hsent : w'.sent = w.sent ++ out) (hsame : w'.ctx.orders = w.ctx.orders)
    (hquiet : ∀ t ∈ textsTo fd out, isOrderEvent t = false) :
    ∃ out, w'.sent = w.sent ++ out ∧ eventsTo fd out = (published w w').map orderEvent := by
  refine ⟨out, hsent, ?_⟩
  rw [published_same hsame, eventsTo, List.filter_eq_nil_iff.mpr]
  · rfl
  · intro t ht
    rw [hquiet t ht]
    exact Bool.false_ne_true

theorem Moved.events {w w' : World} {i : Nat} {o : Order} {st : OrderStatus}
    (hm : Moved .wrap w w' i o st) (hnext : o.status.Next st) {fd : Int}
    (honce : timesRegistered w.ctx fd = 1) :
    ∃ out, w'.sent = w.sent ++ out ∧ eventsTo fd out = (published w w').map orderEvent := by
  refine ⟨_, hm.sent, ?_⟩
  rw [eventsTo_broadcast honce, hm.published_eq hnext.ne]
  rfl

/-- A socket that is registered once hears what an operation publishes. -/
theorem Effect.events {env : Env} {op : Op} {w w' : World} {failed : Bool}
    (he : Effect .wrap env op w w' failed) {fd : Int} (hkeep : op.KeepsClient fd)
    (honce : timesRegistered w.ctx fd = 1) :
    ∃ out, w'.sent = w.sent ++ out ∧ eventsTo fd out = (published w w').map orderEvent := by
  cases he with
  | quiet failed lines horders _ _ _ _ hsent hquiet =>
    apply events_of_quiet hsent horders
    intro t ht
    exact hquiet _ (mem_textsTo ht)
  | created o _ hc =>
    refine ⟨_, hc.sent, ?_⟩
    rw [eventsTo_broadcast honce, hc.published_eq]
    rfl
  | cooked i o st hvalid _ hm => exact hm.events (next_of_transition hvalid) honce
  | cancelled i o hst _ _ hm =>
    apply hm.events _ honce
    rw [hst]
    exact .cancel
  | paid i o _ hst _ hm =>
    apply hm.events _ honce
    rw [hst]
    exact .pay
  | entered fd' kind tableId heq hop =>
    have hne : fd' ≠ fd := by
      rintro rfl
      exact hkeep.1 kind tableId hop
    subst heq
    refine events_of_quiet rfl (by simp) ?_
    rw [textsTo_snapshot, if_neg hne]
    simp
  | left fd' heq _ =>
    subst heq
    exact events_of_quiet (List.append_nil _).symm (by simp) (by simp [textsTo])

/-! ## The threads of the server -/

/-- A step of the threads leaves the world alone or runs one operation. -/
theorem hubStep_action {s : Hub} (hworks : s.Works) (a : HubAction) :
    (hubStep a s).world = s.world ∨
      ∃ b : Action, (hubStep a s).world = step .wrap b s.world := by
  obtain ⟨hmove, -⟩ := hubStep_move hworks a
  cases hmove with
  | idle hworld _ => exact .inl hworld
  | replied fd r hworld _ _ _ => exact .inr ⟨(Env.fair 0, .reply fd r), hworld⟩
  | shared b _ hworld _ => exact .inr ⟨b, hworld⟩
  | registered fd kind tableId _ _ heq =>
    exact .inr ⟨(Env.fair 0, .enter fd kind tableId), by rw [heq]; rfl⟩
  | left fd heq => exact .inr ⟨(Env.fair 0, .leave fd), by rw [heq]; rfl⟩

theorem keepsClient_of_isShared {op : Op} (h : op.isShared = true) (fd : Int) :
    op.KeepsClient fd := by
  constructor
  · rintro kind tableId rfl
    cases h
  · rintro rfl
    cases h

/-- Nobody but its own thread closes a socket that is served, and only when the client is gone. -/
theorem hubStep_phase {s : Hub} {fd : Int} (hserving : (s.phase fd).isServing = true)
    {a : HubAction} (hstays : a ≠ .disconnect fd) : ((hubStep a s).phase fd).isServing = true := by
  have hset (w : World) (fd' : Int) {phase : Phase} (h : phase.isServing = true ∨ fd' ≠ fd) :
      ((s.setPhase w fd' phase).phase fd).isServing = true := by
    by_cases heq : fd' = fd
    · subst heq
      rw [setPhase_self]
      exact h.resolve_right (not_not.mpr rfl)
    · rw [setPhase_of_ne _ _ _ (Ne.symm heq)]
      exact hserving
  -- a thread that does anything else than serve is the thread of another socket
  have hother {fd' : Int} (h : (s.phase fd').isServing = false) : fd' ≠ fd := by
    rintro rfl
    rw [hserving] at h
    cases h
  unfold hubStep
  cases a with
  | pos env op =>
    simp only
    split <;> exact hserving
  | connect fd' =>
    simp only
    split
    · next hphase => exact hset _ _ (.inr (hother (by rw [hphase]; rfl)))
    · exact hserving
  | hello fd' line =>
    simp only
    split
    · next hphase =>
      have hne : fd' ≠ fd := hother (by rw [hphase]; rfl)
      split <;> exact hset _ _ (.inr hne)
    · exact hserving
  | register fd' =>
    simp only
    split
    · exact hset _ _ (.inl rfl)
    · exact hserving
  | line fd' env line =>
    simp only
    split
    · exact hset _ _ (.inl rfl)
    · exact hserving
  | work fd' env =>
    simp only
    split
    · exact hset _ _ (.inl rfl)
    · exact hserving
  | disconnect fd' =>
    have hne : fd' ≠ fd := by
      rintro rfl
      exact hstays rfl
    simp only
    split
    · exact hset _ _ (.inr hne)
    · exact hset _ _ (.inr hne)
    · exact hserving

/-- As long as a client stays, no step registers its socket again or drops it. -/
theorem hubStep_keeps {s : Hub} (hs : s.Sound) {fd : Int} (hfd : fd ∈ s.world.ctx.receivers)
    {a : HubAction} (hstays : a ≠ .disconnect fd) :
    (hubStep a s).world = s.world ∨
      ∃ b : Action, b.2.KeepsClient fd ∧ (hubStep a s).world = step .wrap b s.world := by
  have hserving := hs.serving fd hfd
  have hphase := hubStep_phase hserving hstays
  obtain ⟨hmove, -⟩ := hubStep_move hs.works a
  cases hmove with
  | idle hworld _ => exact .inl hworld
  | replied fd' r hworld _ _ _ =>
    exact .inr ⟨(Env.fair 0, .reply fd' r), ⟨by simp, by simp⟩, hworld⟩
  | shared b hb hworld _ => exact .inr ⟨b, keepsClient_of_isShared hb fd, hworld⟩
  | registered fd' kind tableId _ hgreeted heq =>
    refine .inr ⟨(Env.fair 0, .enter fd' kind tableId), ⟨?_, by simp⟩, by rw [heq]; rfl⟩
    rintro _ _ ⟨⟩
    rw [hgreeted] at hserving
    cases hserving
  | left fd' heq =>
    refine .inr ⟨(Env.fair 0, .leave fd'), ⟨by simp, ?_⟩, by rw [heq]; rfl⟩
    rintro ⟨⟩
    rw [heq, setPhase_self] at hphase
    cases hphase

/-- The order events that the threads send to a socket while its client stays, and the orders they
are about. -/
theorem hub_events {s : Hub} (hs : s.Sound) {fd : Int} (hfd : fd ∈ s.world.ctx.receivers)
    {as : List HubAction} (hstays : ∀ a ∈ as, a ≠ .disconnect fd) :
    ∃ out, (runHub s as).world.sent = s.world.sent ++ out ∧
      eventsTo fd out = (entriesOf Hub.world hubStep s as).map orderEvent := by
  refine Lifecycle.run_log (fun s : Hub => s.world.sent)
    (fun s : Hub => s.Sound ∧ fd ∈ s.world.ctx.receivers)
    (eventsTo_append fd) rfl ?_ ?_ ⟨hs, hfd⟩ hstays
  · rintro a v ha ⟨hv, hin⟩
    refine ⟨hv.step a, ?_⟩
    rcases hubStep_keeps hv hin ha with hworld | ⟨b, hb, hworld⟩
    · rw [hworld]
      exact hin
    · rw [hworld]
      exact ((b.2.effect .wrap b.1 v.world).mem_receivers_iff hb).mpr hin
  · rintro a v ha ⟨hv, hin⟩
    rcases hubStep_keeps hv hin ha with hworld | ⟨b, hb, hworld⟩
    · show ∃ out, (hubStep a v).world.sent = _ ∧ _ = (published v.world (hubStep a v).world).map _
      rw [hworld]
      exact events_of_quiet (List.append_nil _).symm rfl (by simp [textsTo])
    · show ∃ out, (hubStep a v).world.sent = _ ∧ _ = (published v.world (hubStep a v).world).map _
      rw [hworld]
      exact (b.2.effect .wrap b.1 v.world).events hb (timesRegistered_of_distinct hv.distinct hin)

/-- The threads refine the book of orders. -/
theorem hub_trace {n : Int} {s : Hub} (hs : s.Sound) (hnum : Numbered n s.world)
    (as : List HubAction) :
    orderLife.Trace (bookOf s.world) ((entriesOf Hub.world hubStep s as).map entry)
      (bookOf (runHub s as).world) := by
  have hnext (a : HubAction) (v : Hub) (hv : v.Sound ∧ Numbered n v.world) :
      Numbered n (hubStep a v).world ∧ BookMove v.world (hubStep a v).world := by
    rcases hubStep_action hv.1.works a with hworld | ⟨b, hworld⟩
    · rw [hworld]
      exact ⟨hv.2, .same rfl⟩
    · rw [hworld]
      have heffect := b.2.effect .wrap b.1 v.world
      exact ⟨hv.2.effect heffect, heffect.bookMove⟩
  refine trace_of_moves Hub.world (fun v => v.Sound ∧ Numbered n v.world) ?_ ?_
    (fun v hv => hv.2.nodup) ⟨hs, hnum⟩ as
  · intro a v hv
    exact ⟨hv.1.step a, (hnext a v hv).1⟩
  · intro a v hv
    exact (hnext a v hv).2

theorem statesOf_entries (id : Int) (events : List Order) :
    Lifecycle.Life.statesOf id (events.map entry) = events.filter fun o => o.orderId = id := by
  unfold Lifecycle.Life.statesOf
  rw [List.filter_map, List.map_map]
  exact List.map_id _

/-- What a client is sent while it is served: the events of orders that live their lives. The events
of each order are a path from what it was to what it is. -/
theorem hub_hears_lives {configFile menuFile : Option Bytes} {w : World}
    (hload : serverLoadPersistent (World.boot configFile menuFile) = (.ok (), w))
    (as : List HubAction) {fd : Int} (hin : fd ∈ (runHub (Hub.start w) as).world.ctx.receivers)
    {bs : List HubAction} (hstays : ∀ a ∈ bs, a ≠ .disconnect fd) :
    let s := runHub (Hub.start w) as
    let s' := runHub s bs
    ∃ events : List Order, eventsTo fd (newlySent s.world s'.world) = events.map orderEvent ∧
      ∀ id, orderLife.Path (bookOf s.world id) (events.filter fun o => o.orderId = id)
        (bookOf s'.world id) := by
  intro s s'
  obtain ⟨hs, hnum⟩ : s.Sound ∧ Numbered w.ctx.cfg.nextOrderId s.world := by
    refine Runs.run_invariant (P := fun _ => True)
      (I := fun v : Hub => v.Sound ∧ Numbered w.ctx.cfg.nextOrderId v.world) ?_ ?_
      fun _ _ => trivial
    · rintro a v - ⟨hv, hn⟩
      refine ⟨hv.step a, ?_⟩
      rcases hubStep_action hv.works a with hworld | ⟨b, hworld⟩
      · rw [hworld]
        exact hn
      · rw [hworld]
        exact hn.effect (b.2.effect .wrap b.1 v.world)
    · exact ⟨(sound_start (booted_clients hload)).1, Numbered.of_started ⟨_, hload⟩⟩
  obtain ⟨out, hsent, hevents⟩ := hub_events hs hin hstays
  refine ⟨entriesOf Hub.world hubStep s bs, ?_, ?_⟩
  · rw [newlySent_eq hsent, hevents]
  · intro id
    have hpath := (hub_trace hs hnum bs).path id
    rwa [statesOf_entries] at hpath

/-- An order that is placed, cooked and paid while the client of table 1 looks on. -/
def oneMeal : List HubAction :=
  [oneOrder, .pos (Env.fair 2) (.updateOrderStatus 1 .done), .pos (Env.fair 3) (.payOrder 1)]

theorem hub_hears_lives_oneMeal :
    let s := runHub (Hub.start (serverLoadPersistent (World.boot none none)).2) (joins 5)
    let s' := runHub s oneMeal
    ∃ events : List Order, eventsTo 5 (newlySent s.world s'.world) = events.map orderEvent ∧
      ∀ id, orderLife.Path (bookOf s.world id) (events.filter fun o => o.orderId = id)
        (bookOf s'.world id) := by
  rw [firstStart_eq]
  refine hub_hears_lives serverLoadPersistent_none (joins 5) (by decide +kernel) ?_
  intro a ha
  simp only [oneMeal, oneOrder, List.mem_cons, List.not_mem_nil, or_false] at ha
  rcases ha with rfl | rfl | rfl <;> exact HubAction.noConfusion

/-! ## Mirrors in between -/

theorem textsTo_le_one {w : World} {op : Op} {out : List (Int × Bytes)} {fd : Int}
    (hout : op.Wrote w out) (hkeep : op.KeepsClient fd) (honce : timesRegistered w.ctx fd ≤ 1) :
    (textsTo fd out).length ≤ 1 := by
  cases hout with
  | nothing => exact Nat.zero_le 1
  | broadcast n =>
    rw [textsTo_broadcast, List.length_replicate]
    exact honce
  | reply fd' r hop =>
    unfold textsTo
    rw [List.length_map]
    exact (List.length_filter_le _ _).trans (Nat.le_refl 1)
  | snapshot fd' kind tableId os hop =>
    have hne : fd' ≠ fd := by
      rintro rfl
      exact hkeep.1 kind tableId hop
    rw [textsTo_snapshot, if_neg hne]
    exact Nat.zero_le 1

/-- A socket that is registered at most once stays so. -/
theorem timesRegistered_runOps_le {w : World} {n : Nat} {sock : Int}
    (honce : timesRegistered w.ctx sock ≤ n) {as : List Action}
    (hkeep : ∀ a ∈ as, a.2.KeepsClient sock) :
    timesRegistered (runOps .wrap w as).ctx sock ≤ n := by
  refine Runs.run_invariant (I := fun v : World => timesRegistered v.ctx sock ≤ n) ?_ honce hkeep
  intro a v ha hv
  exact ((a.2.effect .wrap a.1 v).timesRegistered_le ha).trans hv

theorem sent_runOps (w : World) (as : List Action) : w.sent <+: (runOps .wrap w as).sent := by
  refine Runs.run_invariant (P := fun _ => True) (I := fun v : World => w.sent <+: v.sent) ?_
    List.prefix_rfl fun _ _ => trivial
  rintro a v - hv
  obtain ⟨out, hsent, -⟩ := a.2.writes .wrap a.1 v
  exact hv.trans ⟨out, hsent.symm⟩

namespace Connection

variable {c : Connection} {w : World}

/-- The connection as it was after these actions. -/
def upTo (c : Connection) (as : List Action) : Connection := { c with after := as }

theorem now_concat (c : Connection) (w : World) (pre : List Action) (a : Action) :
    (c.upTo (pre ++ [a])).now w = step .wrap a ((c.upTo pre).now w) := Runs.run_concat _ _ _ _

theorem opened_sent (c : Connection) (w : World) : (c.opened w).sent <+: (c.now w).sent := by
  have h₁ : (c.opened w).sent <+: (c.greeted w).sent := sent_runOps _ _
  have h₂ : (c.greeted w).sent <+: (c.registered w).sent := ⟨_, rfl⟩
  have h₃ : (c.registered w).sent <+: (c.now w).sent := sent_runOps _ _
  exact h₁.trans (h₂.trans h₃)

/-- The lines of one more action. -/
theorem lines_concat {pre : List Action} {a : Action} (out : List (Int × Bytes))
    (hsent : ((c.upTo (pre ++ [a])).now w).sent = ((c.upTo pre).now w).sent ++ out) :
    (c.upTo (pre ++ [a])).lines w = (c.upTo pre).lines w ++ linesTo c.fd out := by
  have hopen : (c.opened w).sent.length ≤ ((c.upTo pre).now w).sent.length :=
    ((c.upTo pre).opened_sent w).length_le
  show linesTo c.fd (((c.upTo (pre ++ [a])).now w).sent.drop (c.opened w).sent.length) = _
  rw [hsent, List.drop_append_of_le_length hopen, linesTo_append]
  rfl

/-- The socket is registered at most once. -/
theorem registered_once (hc : c.Valid w) : timesRegistered (c.registered w).ctx c.fd ≤ 1 := by
  have hfresh : timesRegistered (c.opened w).ctx c.fd ≤ 0 := by
    unfold timesRegistered
    rw [List.count_eq_zero.mpr hc.fresh]
  have hgreeted : timesRegistered (c.greeted w).ctx c.fd ≤ 0 :=
    timesRegistered_runOps_le hfresh fun a ha => hc.once a (List.mem_append_left _ ha)
  have hregister := timesRegistered_register_le (c.greeted w).ctx c.fd c.fd c.kind c.tableId
  rw [if_pos rfl] at hregister
  exact hregister.trans (Nat.add_le_add_right hgreeted 1)

theorem lines_step (hc : c.Valid w) {pre : List Action} {a : Action} (hpre : pre ++ [a] <+: c.after) :
    ∃ out, out.length ≤ 1 ∧ (c.upTo (pre ++ [a])).lines w = (c.upTo pre).lines w ++ out := by
  have hmem : ∀ b ∈ pre ++ [a], b.2.KeepsClient c.fd := fun b hb =>
    hc.once b (List.mem_append_right _ (hpre.subset hb))
  have honce : timesRegistered ((c.upTo pre).now w).ctx c.fd ≤ 1 :=
    timesRegistered_runOps_le (registered_once hc) fun b hb => hmem b (List.mem_append_left _ hb)
  obtain ⟨out, hsent, hout⟩ := a.2.writes .wrap a.1 ((c.upTo pre).now w)
  refine ⟨linesTo c.fd out, ?_, lines_concat _ ?_⟩
  · rw [linesTo, List.length_map]
    exact textsTo_le_one hout (hmem a (by simp)) honce
  · rw [now_concat]
    exact hsent

/-- The lines of an earlier moment were read first. -/
theorem lines_upTo (c : Connection) (w : World) {pre as : List Action} (h : pre <+: as) :
    (c.upTo pre).lines w <+: (c.upTo as).lines w := by
  obtain ⟨rest, rfl⟩ := h
  induction rest using List.reverseRecOn with
  | nil => rw [List.append_nil]
  | append_singleton rest a ih =>
    obtain ⟨out, hsent, -⟩ := a.2.writes .wrap a.1 ((c.upTo (pre ++ rest)).now w)
    have hlines := lines_concat (c := c) (w := w) out (by
      rw [now_concat]
      exact hsent)
    rw [← List.append_assoc, hlines]
    exact ih.trans (List.prefix_append _ _)

theorem valid_upTo (hc : c.Valid w) {pre : List Action} (h : pre <+: c.after) :
    (c.upTo pre).Valid w where
  fits := by
    intro a ha
    apply hc.fits
    simp only [upTo, List.mem_append] at ha ⊢
    rcases ha with ha | ha | ha
    · exact .inl ha
    · exact .inr (.inl ha)
    · exact .inr (.inr (h.subset ha))
  fresh := hc.fresh
  once := by
    intro a ha
    apply hc.once
    rcases List.mem_append.mp ha with ha | ha
    · exact List.mem_append_left _ ha
    · exact List.mem_append_right _ (h.subset ha)
  free := hc.free
  named := by
    obtain ⟨rest, hrest⟩ := h
    have hnow : c.now w = runOps .wrap ((c.upTo pre).now w) rest := by
      show runOps .wrap (c.registered w) c.after = _
      rw [← hrest, runOps_append]
      rfl
    have hnamed := hc.named
    rw [hnow] at hnamed
    exact named_before hnamed

/-- What the server did until it had written `k` lines to the client. -/
def moment (c : Connection) (w : World) (k : Nat) : List Action :=
  Runs.moment (fun pre => ((c.upTo pre).lines w).length) c.after k

theorem moment_within (c : Connection) (w : World) (k : Nat) : c.moment w k <+: c.after :=
  Runs.moment_within c.after k

/-- A mirror of the first `k` lines, the snapshot among them, shows the orders as they were then. -/
theorem shows_moment (hstart : Started w) (hc : c.Valid w) {k : Nat}
    (hfirst : ((c.upTo []).lines w).length ≤ k) (hlast : k ≤ (c.lines w).length) :
    (c.upTo (c.moment w k)).lines w = (c.lines w).take k ∧
      ShowsActive c.kind c.tableId (((c.lines w).take k).foldl mirrorLine noOrders)
        ((c.upTo (c.moment w k)).now w) := by
  have hself : c.upTo c.after = c := rfl
  have hstep : ∀ p a, p ++ [a] <+: c.after →
      ((c.upTo (p ++ [a])).lines w).length ≤ ((c.upTo p).lines w).length + 1 := by
    intro p a hp
    obtain ⟨out, hout, hlines⟩ := lines_step hc hp
    rw [hlines, List.length_append]
    omega
  have hlines : (c.upTo (c.moment w k)).lines w = (c.lines w).take k := by
    have hlen : ((c.upTo (c.moment w k)).lines w).length = k :=
      Runs.moment_len (fun pre => ((c.upTo pre).lines w).length) hstep hfirst hlast
    have hread := c.lines_upTo w (c.moment_within w k)
    rw [hself, List.prefix_iff_eq_take] at hread
    rw [hread]
    exact congrArg (fun n => (c.lines w).take n) hlen
  refine ⟨hlines, ?_⟩
  have hmirror := mirrorOf_lines hstart (valid_upTo hc (c.moment_within w k))
  rw [hlines] at hmirror
  exact showsActive_of_mirrorOf hmirror

/-- A client that has read `k` lines shows the orders as they were at `moment k`, and the moments
come in order. -/
structure Follows (c : Connection) (w : World) (moment : Nat → List Action) : Prop where
  ordered : ∀ k k', k ≤ k' → moment k <+: moment k'
  within : ∀ k, moment k <+: c.after
  lines : ∀ k, ((c.upTo []).lines w).length ≤ k → k ≤ (c.lines w).length →
    (c.upTo (moment k)).lines w = (c.lines w).take k
  kitchen : c.kind = .kitchen → ∀ k, ((c.upTo []).lines w).length ≤ k → k ≤ (c.lines w).length →
    ShowsActive .kitchen c.tableId (((c.lines w).take k).foldl kitchenLine Kitchen.init).board
      ((c.upTo (moment k)).now w)
  table : c.kind = .table → ∀ k, ((c.upTo []).lines w).length ≤ k → k ≤ (c.lines w).length →
    ∀ (menuFile : Option Bytes) (inputs : List TableInput),
      inputs.filterMap TableInput.received = (c.lines w).take k →
      ShowsActive .table c.tableId
        (runTable .wrap (TableClient.start c.tableId menuFile) inputs).mirror
        ((c.upTo (moment k)).now w)

end Connection

/-- A client that is behind shows the orders of an earlier moment, once it has read the snapshot: it
never shows what was not so, and never goes back. -/
theorem mirror_follows {w : World} (hstart : Started w) {c : Connection} (hc : c.Valid w) :
    ∃ moment, c.Follows w moment := by
  have hshows (k : Nat) (hfirst : ((c.upTo []).lines w).length ≤ k)
      (hlast : k ≤ (c.lines w).length) := Connection.shows_moment hstart hc hfirst hlast
  refine ⟨c.moment w, fun k k' h => Runs.moment_mono c.after h, c.moment_within w,
    fun k hfirst hlast => (hshows k hfirst hlast).1, ?_, ?_⟩
  · intro hkind k hfirst hlast
    have hk := (hshows k hfirst hlast).2
    rw [hkind] at hk
    rw [foldl_kitchenLine_board]
    exact hk
  · intro hkind k hfirst hlast menuFile inputs hinputs
    have hk := (hshows k hfirst hlast).2
    rw [hkind] at hk
    rw [runTable_mirror, hinputs]
    exact hk

/-- Names and slots can be looked at. -/
theorem Connection.valid_of_checks {c : Connection} {w : World}
    (hfits : ∀ a ∈ c.before ++ (c.handshake ++ c.after), a.Fits)
    (hfresh : c.fd ∉ (c.opened w).ctx.receivers)
    (honce : ∀ a ∈ c.handshake ++ c.after, a.2.KeepsClient c.fd)
    (hslots : ((c.greeted w).ctx.clients.slots.any (!·.inUse)) = true)
    (hnames : ((c.now w).ctx.orders.items.all
      fun o => o.items.items.all fun it => !it.name.bytes.isEmpty) = true) : c.Valid w where
  fits := hfits
  fresh := hfresh
  once := honce
  free := by
    obtain ⟨s, hs, huse⟩ := List.any_eq_true.mp hslots
    exact ⟨s, hs, by simpa using huse⟩
  named := by
    intro o ho it hit hempty
    have hlines := List.all_eq_true.mp hnames o ho
    have hline := List.all_eq_true.mp hlines it hit
    rw [hempty] at hline
    cases hline

theorem valid_lateKitchen : lateKitchen.Valid firstStart := by
  apply Connection.valid_of_checks
  · intro a ha
    simp only [lateKitchen, List.cons_append, List.nil_append, List.mem_cons, List.not_mem_nil,
      or_false] at ha
    rcases ha with rfl | rfl | rfl | rfl <;> exact ⟨by decide, trivial⟩
  · decide +kernel
  · intro a ha
    simp only [lateKitchen, List.cons_append, List.nil_append, List.mem_cons, List.not_mem_nil,
      or_false] at ha
    rcases ha with rfl | rfl | rfl <;> exact ⟨by simp, by simp⟩
  · decide +kernel
  · decide +kernel

theorem mirror_follows_lateKitchen :
    ∃ moment, lateKitchen.Follows (serverLoadPersistent (World.boot none none)).2 moment := by
  rw [firstStart_eq]
  exact mirror_follows started_firstStart valid_lateKitchen

end TableOrder
