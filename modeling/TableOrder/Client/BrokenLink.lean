import TableOrder.Client.Heard
import TableOrder.Client.Requests

/-!
# A connection that breaks

The bytes on their way to a client may end anywhere, also inside a line. The client has then read the
lines that came whole, and shows the orders as they were at some earlier moment of the server: never
half an event, and never an order that was not there (`brokenLink_shows`).
-/

namespace TableOrder

open CLib
open LineReader (Returned results joined BreaksOff)

/-! ## The texts on a socket -/

theorem plain_flatMap {α : Type} {f : α → Bytes} {l : List α} (h : ∀ a ∈ l, PlainBytes (f a)) :
    PlainBytes (l.flatMap f) := by
  intro b hb
  obtain ⟨a, ha, hb⟩ := List.mem_flatMap.mp hb
  exact h a ha b hb

/-- A name keeps no line end, and had no NUL. -/
theorem plain_sanitizeField (name : Name) : PlainBytes (sanitizeField name.bytes) := by
  intro b hb
  obtain ⟨hfree, hnul⟩ := mem_sanitizeField hb
  refine ⟨fun h => name.noNul (h ▸ hnul h), ?_⟩
  cases hend : isLineEnd b with
  | false => rfl
  | true =>
    have hb : b = ch '\r' ∨ b = ch '\n' := by simpa [isLineEnd] using hend
    rcases hb with rfl | rfl <;> cases hfree

theorem plain_itemPayload (it : OrderLineItem) : PlainBytes (itemPayload it) := by
  have hsep : PlainBytes (lit ":") := by decide
  have hids := ((plain_fmtInt it.menuId).append hsep).append (plain_fmtInt it.qty)
  have hname := (hids.append hsep).append (plain_sanitizeField it.name)
  exact (hname.append hsep).append (plain_fmtInt it.unitPrice)

theorem plain_eventFields (o : Order) : ∀ w ∈ eventFields o, PlainBytes w := by
  have hword {word : Bytes} (h : PlainBytes word) (x : Int) : PlainBytes (word ++ fmtInt x) :=
    h.append (plain_fmtInt x)
  have hstatus : PlainBytes (lit "status=") := by decide
  intro w hw
  simp only [eventFields, List.mem_cons, List.not_mem_nil, or_false] at hw
  rcases hw with rfl | rfl | rfl | rfl | rfl | rfl
  · decide
  · exact hword (by decide) o.orderId
  · exact hword (by decide) o.tableId
  · exact hstatus.append (plain_statusToString o.status)
  · exact hword (by decide) o.totalPrice
  · exact hword (by decide) o.createdAt

theorem plain_eventText (o : Order) : PlainBytes (eventText o) := by
  have hbar : PlainBytes [ch '|'] := by decide
  have hsemi : PlainBytes [ch ';'] := by decide
  have hitems : PlainBytes (lit "items=") := by decide
  apply PlainBytes.append
  · exact plain_flatMap fun w hw => (plain_eventFields o w hw).append hbar
  · exact hitems.append (plain_flatMap fun it _ => hsemi.append (plain_itemPayload it))

/-- An order event is one line for the reader of a client. -/
theorem isLine_orderEvent {o : Order} (hfits : o.Fits) :
    IsLine (orderEvent o) (protoBuildOrderBroadcast o) where
  text := rfl
  plain := by
    rw [build_eq hfits]
    exact plain_eventText o
  short := by
    have hlen := length_eventText_lt hfits
    rw [build_eq hfits]
    show _ < 8192
    omega

/-- The order events among these texts are lines. -/
def EventsAreLines (out : List (Int × Bytes)) : Prop :=
  ∀ p ∈ out, isOrderEvent p.2 = true → ∃ line, IsLine p.2 line

theorem eventsAreLines_events {fds : List Int} {o : Order} (hfits : o.Fits) :
    EventsAreLines (fds.map fun fd => (fd, orderEvent o)) := by
  intro p hp _
  obtain ⟨fd, -, rfl⟩ := List.mem_map.mp hp
  exact ⟨_, isLine_orderEvent hfits⟩

theorem Effect.eventLines {S : IntSem} {env : Env} {op : Op} {w w' : World} {failed : Bool}
    (he : Effect S env op w w' failed) (hfits : ∀ o ∈ w'.ctx.orders.items, o.Fits) :
    ∃ out, w'.sent = w.sent ++ out ∧ EventsAreLines out := by
  have hmoved {i : Nat} {o : Order} {st : OrderStatus} (hm : Moved S w w' i o st) :
      ∃ out, w'.sent = w.sent ++ out ∧ EventsAreLines out := by
    refine ⟨_, hm.sent, eventsAreLines_events (hfits _ ?_)⟩
    rw [hm.orders]
    exact List.mem_set (List.getElem?_eq_some_iff.mp hm.found).1 _
  cases he with
  | quiet failed lines horders hclients hnext hsales hmenu hsent hquiet =>
    refine ⟨lines, hsent, ?_⟩
    intro p hp hevent
    rw [hquiet p hp] at hevent
    cases hevent
  | created o hbuilds hc =>
    refine ⟨_, hc.sent, eventsAreLines_events (hfits o ?_)⟩
    rw [hc.orders]
    exact List.mem_append_right _ (List.mem_singleton.mpr rfl)
  | cooked i o st hvalid hsales hm => exact hmoved hm
  | cancelled i o hst hcancels hsales hm => exact hmoved hm
  | paid i o hop hst hsales hm => exact hmoved hm
  | entered fd kind tableId heq =>
    subst heq
    refine ⟨_, rfl, ?_⟩
    intro p hp _
    obtain ⟨o, ho, rfl⟩ := List.mem_map.mp hp
    exact ⟨_, isLine_orderEvent (hfits o (List.mem_filter.mp ho).1)⟩
  | left fd heq =>
    subst heq
    refine ⟨[], (List.append_nil _).symm, ?_⟩
    intro p hp
    cases hp

/-- Along a run. -/
theorem eventLines_runOps {w : World} (hw : WorldFits w) {as : List Action} (has : ∀ a ∈ as, a.Fits) :
    ∃ out, (runOps .wrap w as).sent = w.sent ++ out ∧ EventsAreLines out := by
  have hrun : WorldFits (runOps .wrap w as) ∧
      ∃ out, (runOps .wrap w as).sent = w.sent ++ out ∧ EventsAreLines out := by
    refine Runs.run_invariant
      (I := fun v : World => WorldFits v ∧ ∃ out, v.sent = w.sent ++ out ∧ EventsAreLines out)
      ?_ ⟨hw, [], (List.append_nil _).symm, by intro p hp; cases hp⟩ has
    rintro a v ha ⟨hv, out, hsent, hlines⟩
    have heffect := a.2.effect .wrap a.1 v
    have hnext := fits_effect ha hv heffect
    obtain ⟨more, hmore, hnew⟩ := heffect.eventLines hnext.orders
    refine ⟨hnext, out ++ more, ?_, List.forall_mem_append.mpr ⟨hlines, hnew⟩⟩
    show (a.2.run .wrap a.1 v).2.sent = _
    rw [hmore, hsent, List.append_assoc]
  exact hrun.2

/-! ## What came through -/

namespace Connection

variable {c : Connection} {w : World}

/-- Every text written to the socket so far. -/
def texts (c : Connection) (w : World) : List Bytes :=
  textsTo c.fd ((c.now w).sent.drop (c.opened w).sent.length)

theorem eventTexts (hstart : Started w) (hc : c.Valid w) :
    ∀ t ∈ c.texts w, isOrderEvent t = true → ∃ line, IsLine t line := by
  have hbefore : ∀ a ∈ c.before, a.Fits := fun a ha => hc.fits a (by simp [ha])
  have hhandshake : ∀ a ∈ c.handshake, a.Fits := fun a ha => hc.fits a (by simp [ha])
  have hafter : ∀ a ∈ c.after, a.Fits := fun a ha => hc.fits a (by simp [ha])
  have hopened : WorldFits (c.opened w) := fits_runOps (started_fits hstart) hbefore
  have hgreeted : WorldFits (c.greeted w) := fits_runOps hopened hhandshake
  have hregistered : WorldFits (c.registered w) := by
    refine ⟨?_, ?_, ?_⟩
    · simpa [registered, step, Op.run] using hgreeted.menu
    · simpa [registered, step, Op.run] using hgreeted.nextOrderId
    · simpa [registered, step, Op.run] using hgreeted.orders
  obtain ⟨out₁, hsent₁, hlines₁⟩ := eventLines_runOps hopened hhandshake
  obtain ⟨out₂, hsent₂, hlines₂⟩ :=
    ((Op.enter c.fd c.kind c.tableId).effect .wrap c.env (c.greeted w)).eventLines hregistered.orders
  obtain ⟨out₃, hsent₃, hlines₃⟩ := eventLines_runOps hregistered hafter
  have hall : (c.now w).sent = (c.opened w).sent ++ (out₁ ++ out₂ ++ out₃) := by
    have hregister : (c.registered w).sent = (c.greeted w).sent ++ out₂ := hsent₂
    have hgreet : (c.greeted w).sent = (c.opened w).sent ++ out₁ := hsent₁
    have hnow : (c.now w).sent = (c.registered w).sent ++ out₃ := hsent₃
    rw [hnow, hregister, hgreet, List.append_assoc, List.append_assoc, List.append_assoc]
  intro t ht
  rw [texts, hall, List.drop_left] at ht
  have hout : EventsAreLines (out₁ ++ out₂ ++ out₃) :=
    List.forall_mem_append.mpr ⟨List.forall_mem_append.mpr ⟨hlines₁, hlines₂⟩, hlines₃⟩
  exact hout _ (mem_textsTo ht)

end Connection

/-- Where the connection breaks, the client has read the texts that came whole, and its mirror shows the
orders as they were at some moment of the server, once the snapshot is among them. -/
theorem brokenLink_shows {w : World} (hstart : Started w) {c : Connection} (hc : c.Valid w)
    (hlines : ∀ t ∈ c.texts w, isOrderEvent t = false → ∃ line, IsLine t line) {bytes : Bytes}
    (hbytes : bytes <+: (c.texts w).flatten) :
    ∃ n ≤ (c.texts w).length, ((c.texts w).take n).flatten <+: bytes ∧
      (n < (c.texts w).length → bytes.length < ((c.texts w).take (n + 1)).flatten.length) ∧
      (∀ splits : List (Nat → Nat),
        results (uiSockReadLine MAX_PROTO_LINE) READER_SIZE splits [] bytes =
          (((c.lines w).take n).map Returned.line ++ [Returned.closed]).take splits.length) ∧
      (((c.upTo []).lines w).length ≤ n → ∃ pre, pre <+: c.after ∧
        ShowsActive c.kind c.tableId (((c.lines w).take n).foldl mirrorLine noOrders)
          ((c.upTo pre).now w)) := by
  have hall : ∀ t ∈ c.texts w, IsLine t (netLine t) := by
    intro t ht
    have hline : ∃ line, IsLine t line := by
      cases hevent : isOrderEvent t with
      | true => exact Connection.eventTexts hstart hc t ht hevent
      | false => exact hlines t ht hevent
    obtain ⟨line, hline⟩ := hline
    rw [hline.netLine]
    exact hline
  have hjoined : ∀ k, ((c.texts w).take k).flatten = joined (ch '\n') ((c.lines w).take k) := by
    intro k
    have hmap : (c.lines w).take k = ((c.texts w).take k).map netLine := List.map_take.symm
    rw [hmap, joined, List.flatMap_map, ← List.flatMap_id']
    exact List.flatMap_congr fun t ht => (hall t (List.mem_of_mem_take ht)).text
  have hlen : (c.lines w).length = (c.texts w).length := List.length_map _
  have hstream : bytes <+: joined (ch '\n') (c.lines w) := by
    have hwhole := hjoined (c.texts w).length
    rw [List.take_length, ← hlen, List.take_length] at hwhole
    rwa [hwhole] at hbytes
  obtain ⟨n, hn, hresults⟩ := streamResults_cut (by
    intro line hline
    obtain ⟨t, ht, rfl⟩ := List.mem_map.mp hline
    exact ⟨(hall t ht).plain, (hall t ht).short⟩) hstream
  refine ⟨n, hlen ▸ hn.le, ?_, ?_, ?_, ?_⟩
  · rw [hjoined]
    exact hn.whole
  · intro hlt
    rw [hjoined]
    exact hn.cut (hlen ▸ hlt)
  · intro splits
    rw [uiSockReadLine_results, hresults]
  · intro hfirst
    exact ⟨c.moment w n, c.moment_within w n, (Connection.shows_moment hstart hc hfirst hn.le).2⟩

/-- The connection breaks in the middle of the third text, the event that the order cooks. -/
theorem brokenLink_shows_lateKitchen :
    let w := (serverLoadPersistent (World.boot none none)).2
    let bytes := (lateKitchen.texts w).flatten.take 190
    ∃ n ≤ (lateKitchen.texts w).length, ((lateKitchen.texts w).take n).flatten <+: bytes ∧
      (n < (lateKitchen.texts w).length →
        bytes.length < ((lateKitchen.texts w).take (n + 1)).flatten.length) ∧
      (∀ splits : List (Nat → Nat),
        results (uiSockReadLine MAX_PROTO_LINE) READER_SIZE splits [] bytes =
          (((lateKitchen.lines w).take n).map Returned.line ++ [Returned.closed]).take
            splits.length) ∧
      (((lateKitchen.upTo []).lines w).length ≤ n → ∃ pre, pre <+: lateKitchen.after ∧
        ShowsActive lateKitchen.kind lateKitchen.tableId
          (((lateKitchen.lines w).take n).foldl mirrorLine noOrders) ((lateKitchen.upTo pre).now w)) := by
  rw [firstStart_eq]
  intro w
  have hstart : Started w := started_firstStart
  have hvalid : lateKitchen.Valid w := valid_lateKitchen
  have hother : (lateKitchen.texts w).all (fun t => isOrderEvent t || t == lit "OK|hello\n") = true := by
    decide +kernel
  clear_value w
  refine brokenLink_shows hstart hvalid ?_ (List.take_prefix _ _)
  intro t ht hevent
  have htext := List.all_eq_true.mp hother t ht
  rw [hevent, Bool.false_or, beq_iff_eq] at htext
  exact ⟨lit "OK|hello", ⟨htext, by decide, by decide⟩⟩

end TableOrder
