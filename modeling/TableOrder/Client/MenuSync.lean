import TableOrder.Client.Reader
import TableOrder.Client.Visit
import TableOrder.Lib.Refresh

/-!
# The catalogs of the clients follow the menu

Any number of table clients with their threads, the POS and the kitchens, in any interleaving. The POS
changes the menu under the lock and broadcasts `MENU_SYNC` later. A client answers that with
`MENU_REQUEST`; its thread builds the response under the lock and sends it after the unlock, so that
the menu may change, and a notice of it may overtake the response, between the two.

A client past its handshake is a view that is refreshed on request (`Refresh.Step`), and stays one
whatever the other threads do. So its catalog is the image of the menu whenever nothing is under way
(`menu_synced`).
-/

namespace TableOrder

open CLib
open Refresh (Msg Tracks)

/-! ## What a client makes of a menu -/

/-- The catalog a client has after the response for this one. -/
def wireImage (cat : MenuCatalog) : MenuCatalog :=
  uiApplyMenuResponse menuInitCatalog (menuResponseText cat)

/-- The response fits a line with its newline. -/
def MenuFits (cat : MenuCatalog) : Prop := menuTextLength cat + 1 < MAX_PROTO_LINE

instance (cat : MenuCatalog) : Decidable (MenuFits cat) :=
  inferInstanceAs (Decidable (menuTextLength cat + 1 < MAX_PROTO_LINE))

/-- The image has the cleaned items, in their order. -/
theorem wireImage_items {cat : MenuCatalog} (hline : MenuFits cat) (hfits : ∀ m ∈ cat.items, m.Fits)
    (hpos : ∀ m ∈ cat.items, 0 < m.id) (hnamed : ∀ m ∈ cat.items, m.name.bytes ≠ []) :
    (wireImage cat).items = cat.items.map wireItem := by
  apply uiApplyMenuResponse_response hfits hpos hnamed
  rw [protoBuildMenuResponse_eq, length_menuResponseText, if_pos]
  exact Nat.lt_of_succ_lt hline

/-- What was in the catalog before does not matter. -/
theorem uiApplyMenuResponse_fresh {line : Bytes} (h : startsWith (lit "MENU_RESPONSE|") line = true)
    (cat : MenuCatalog) : uiApplyMenuResponse cat line = uiApplyMenuResponse menuInitCatalog line := by
  unfold uiApplyMenuResponse
  rw [strstr_of_startsWith h]

/-- A text on the socket of a client, as far as the catalog is concerned. -/
def menuMsg (text : Bytes) : Msg MenuCatalog :=
  if startsWith (lit "MENU_RESPONSE|") (netLine text) then
    .answer (uiApplyMenuResponse menuInitCatalog (netLine text))
  else if startsWith (lit "MENU_SY") (netLine text) then .notice
  else .other

theorem menuMsg_of_not {text : Bytes} (h : startsWith (lit "MENU_RESPONSE|") text = false) :
    (menuMsg text).isAnswer = false := by
  have hline : ¬ startsWith (lit "MENU_RESPONSE|") (netLine text) = true := by
    intro hstart
    rw [startsWith_netLine hstart] at h
    cases h
  unfold menuMsg
  rw [if_neg hline]
  split <;> rfl

theorem menuMsg_menu {cat : MenuCatalog} (h : MenuFits cat) :
    menuMsg (Reply.menu cat).text = .answer (wireImage cat) := by
  have hlen : (menuResponseText cat).length < MAX_PROTO_LINE := by
    rw [length_menuResponseText]
    exact Nat.lt_of_succ_lt h
  have hroom : (menuResponseText cat ++ lit "\n").length < MAX_PROTO_LINE := by
    rw [List.length_append, length_menuResponseText]
    exact h
  have hline : netLine (Reply.menu cat).text = menuResponseText cat := by
    rw [menuReply_text, if_pos hlen, clip_eq_self hroom]
    exact netLine_line (menuResponseText_oneLine cat) hlen
  have hstart : startsWith (lit "MENU_RESPONSE|") (menuResponseText cat) = true :=
    startsWith_append _ _
  rw [menuMsg, hline, if_pos hstart]
  rfl

/-- No other reply is a response. -/
theorem menuMsg_reply {r : Reply} (h : ∀ cat, r ≠ .menu cat) : (menuMsg r.text).isAnswer = false := by
  apply menuMsg_of_not
  cases r with
  | menu cat => exact absurd rfl (h cat)
  | _ => rfl

theorem menuMsg_menuSync : menuMsg menuSyncText = .notice := by
  have hline : netLine menuSyncText = lit "MENU_SYNC" := by decide
  rw [menuMsg, hline]
  rfl

theorem menuMsg_notice (n : Notice) : (menuMsg n.text).isAnswer = false := by
  cases n with
  | order o =>
    apply menuMsg_of_not
    show startsWith _ (orderEvent o) = false
    rw [orderEvent, build_eq_clip]
    rfl
  | staff tableId => exact menuMsg_of_not rfl
  | menuSync =>
    show (menuMsg menuSyncText).isAnswer = false
    rw [menuMsg_menuSync]
    rfl

/-- A client past its handshake takes over a response and asks after a notice. -/
theorem tableLine_menu {c : TableClient} (hok : c.handshakeOk = true) (text : Bytes) :
    (tableLine c (netLine text)).1.handshakeOk = true ∧
      (tableLine c (netLine text)).1.cat = Refresh.receive c.cat (menuMsg text) ∧
      (menuMsg text = .notice → .menuRequest ∈ (tableLine c (netLine text)).2) := by
  have hlater : ¬ (!c.handshakeOk) = true := by
    rw [hok]
    decide
  unfold tableLine menuMsg
  rw [if_neg hlater]
  split
  · next hresponse => exact ⟨hok, uiApplyMenuResponse_fresh hresponse c.cat, by rintro ⟨⟩⟩
  · split
    · next hevent =>
      -- an order event is no notice
      have hsync : ¬ startsWith (lit "MENU_SY") (netLine text) = true := by
        intro hsync
        rw [eq_append_of_startsWith hevent] at hsync
        cases hsync
      rw [if_neg hsync]
      exact ⟨hok, rfl, by rintro ⟨⟩⟩
    · split
      · exact ⟨hok, rfl, fun _ => List.mem_singleton_self _⟩
      · repeat' split
        all_goals exact ⟨hok, rfl, by rintro ⟨⟩⟩

/-! ## What a client overhears -/

/-- The socket an operation is about. -/
def Op.socket : Op → Option Int
  | .reply fd _ => some fd
  | .enter fd _ _ => some fd
  | .leave fd => some fd
  | _ => none

/-- A change of the menu makes the broadcast due. -/
def Op.syncDue (due : Bool) : Op → Bool
  | .changeMenu _ => true
  | .menuSync => false
  | _ => due

/-- What the client at this socket overhears of a step that is not about its socket. -/
structure Overhears (fd : Int) (due : Bool) (w : World) (due' : Bool) (w' : World) : Prop where
  receivers : fd ∈ w'.ctx.receivers ↔ fd ∈ w.ctx.receivers
  menu : w'.ctx.menu = w.ctx.menu ∨ due' = true
  texts : ∃ ms, textsTo fd w'.sent = textsTo fd w.sent ++ ms ∧
    (∀ m ∈ ms, (menuMsg m).isAnswer = false) ∧ (fd ∉ w.ctx.receivers → ms = []) ∧
    (fd ∈ w.ctx.receivers → due = true → due' = false → menuSyncText ∈ ms)

theorem Overhears.refl (fd : Int) (due : Bool) (w : World) : Overhears fd due w due w := by
  refine ⟨Iff.rfl, .inl rfl, [], (List.append_nil _).symm, by simp, fun _ => rfl, ?_⟩
  rintro - rfl ⟨⟩

theorem keepsClient_of_socket {op : Op} {fd : Int} (h : op.socket ≠ some fd) : op.KeepsClient fd := by
  refine ⟨?_, ?_⟩
  · rintro kind tableId rfl
    exact h rfl
  · rintro rfl
    exact h rfl

/-- What an operation writes to a socket that it is not about. -/
theorem Op.Wrote.textsTo {op : Op} {w : World} {out : List (Int × Bytes)} (h : op.Wrote w out) {fd : Int}
    (hop : op.socket ≠ some fd) : (∀ m ∈ TableOrder.textsTo fd out, (menuMsg m).isAnswer = false) ∧
      (fd ∉ w.ctx.receivers → TableOrder.textsTo fd out = []) := by
  cases h with
  | nothing => exact ⟨by simp [TableOrder.textsTo], fun _ => rfl⟩
  | broadcast n =>
    rw [textsTo_broadcast]
    refine ⟨?_, ?_⟩
    · intro m hm
      rw [List.eq_of_mem_replicate hm]
      exact menuMsg_notice n
    · intro hout
      rw [List.count_eq_zero_of_not_mem hout]
      rfl
  | reply fd' r hreply =>
    have hne : fd' ≠ fd := by
      rintro rfl
      exact hop (by rw [hreply]; rfl)
    have hnone : TableOrder.textsTo fd [(fd', r.text)] = [] := by simp [TableOrder.textsTo, hne]
    rw [hnone]
    exact ⟨by simp, fun _ => rfl⟩
  | snapshot fd' kind tableId os henter =>
    have hne : fd' ≠ fd := by
      rintro rfl
      exact hop (by rw [henter]; rfl)
    rw [textsTo_snapshot, if_neg hne]
    exact ⟨by simp, fun _ => rfl⟩

theorem Op.overhears (env : Env) (w : World) {op : Op} {fd : Int} (hop : op.socket ≠ some fd)
    (due : Bool) : Overhears fd due w (op.syncDue due) (step .wrap (env, op) w) := by
  have heffect := op.effect .wrap env w
  obtain ⟨out, hsent, hout⟩ := op.writes .wrap env w
  obtain ⟨hquiet, hnone⟩ := hout.textsTo hop
  refine ⟨heffect.mem_receivers_iff (keepsClient_of_socket hop), ?_, textsTo fd out, ?_, hquiet, hnone, ?_⟩
  · rcases heffect.menu with hmenu | hchange
    · exact .inl hmenu
    · right
      rw [hchange]
      rfl
  · show textsTo fd (op.run .wrap env w).2.sent = _
    rw [hsent, textsTo_append]
  · intro hin hdue hdone
    -- of all operations only the broadcast itself ends the time in which it is due
    have hsync : op = .menuSync := by
      cases op with
      | menuSync => rfl
      | changeMenu menu => cases hdone
      | _ =>
        rw [hdue] at hdone
        cases hdone
    subst hsync
    -- the broadcast is all that was written
    have hall : out = w.ctx.receivers.map fun fd => (fd, menuSyncText) :=
      (List.append_cancel_left hsent).symm
    rw [hall, textsTo_broadcast]
    apply List.mem_replicate.mpr
    exact ⟨Nat.pos_iff_ne_zero.mp (List.count_pos_iff.mpr hin), rfl⟩

/-- The locked part of a line is about no socket. -/
theorem clientTurn_overhears (env : Env) (w : World) (fd : Int) (kind : ClientKind) (tableId : Int)
    (line : Bytes) (fd' : Int) (due : Bool) :
    Overhears fd' due w due (clientTurn .wrap env w fd kind tableId line).2 := by
  have hsame := Overhears.refl fd' due w
  have hop (op : Op) (hsocket : op.socket = none) (hdue : op.syncDue due = due) :
      Overhears fd' due w due (step .wrap (env, op) w) := by
    have hne : op.socket ≠ some fd' := by
      rw [hsocket]
      exact (Option.some_ne_none fd').symm
    have h := Op.overhears env w hne due
    rw [hdue] at h
    exact h
  have hturn := clientTurn_cases .wrap env w fd kind tableId line
  generalize clientTurn .wrap env w fd kind tableId line = turn at hturn ⊢
  cases hturn with
  | menu _ => exact hsame
  | replied r _ => exact hsame
  | ordered _ _ => exact hop (.orderCreate line tableId) rfl rfl
  | cancelled _ => exact hop (.orderCancel line tableId) rfl rfl
  | updated _ => exact hop (.orderUpdate line) rfl rfl
  | called tbl _ _ _ => exact hsame

/-! ## The view of one client -/

/-- What was sent to the client and it has not read yet. -/
def unread (fd : Int) (w : World) (seen : Nat) : List Bytes := (textsTo fd w.sent).drop seen

/-- What the client gets from a reply that its thread has still to send. -/
def Op.builtMsg : Op → Option (Msg MenuCatalog)
  | .reply _ r => some (menuMsg r.text)
  | _ => none

/-- The catalog of the client as a view of the menu. -/
def Visit.refresh (v : Visit) (fd : Int) (due : Bool) : Refresh.State MenuCatalog MenuCatalog where
  current := v.world.ctx.menu
  due := due
  view := v.client.cat
  wire := (unread fd v.world v.seen).map menuMsg
  built := v.todo.filterMap Op.builtMsg
  asked := .menuRequest ∈ v.uplink

/-- The catalog is right when all that is under way has arrived, or there will be another response. -/
def Visit.Tracks (v : Visit) (fd : Int) (due : Bool) : Prop := Refresh.Tracks wireImage (v.refresh fd due)

/-- Of what a thread does after a line. -/
inductive Op.Answers (fd : Int) : Op → Prop
  | reply (r : Reply) : Answers fd (.reply fd r)
  | staffCall (tbl : Int) : Answers fd (.staffCall tbl)
  | staffTouch : Answers fd .staffTouch
  | staffBroadcast (tbl : Int) : Answers fd (.staffBroadcast tbl)
  | staffLog (tbl : Int) : Answers fd (.staffLog tbl)

theorem unread_append {fd : Int} {w w' : World} {seen : Nat} {ms : List Bytes}
    (hseen : seen ≤ (textsTo fd w.sent).length) (h : textsTo fd w'.sent = textsTo fd w.sent ++ ms) :
    unread fd w' seen = unread fd w seen ++ ms := by
  rw [unread, h, List.drop_append_of_le_length hseen]
  rfl

theorem textsTo_reply (fd : Int) (env : Env) (w : World) (r : Reply) :
    textsTo fd (step .wrap (env, .reply fd r) w).sent = textsTo fd w.sent ++ [r.text] := by
  show textsTo fd (w.sent ++ [(fd, r.text)]) = _
  rw [textsTo_append]
  simp [textsTo]

theorem Overhears.tracks {fd : Int} {due due' : Bool} {v : Visit} {w' : World}
    (h : Overhears fd due v.world due' w') (hin : fd ∈ v.world.ctx.receivers)
    (hseen : v.seen ≤ (textsTo fd v.world.sent).length) (hv : v.Tracks fd due) :
    ({ v with world := w' } : Visit).Tracks fd due' := by
  obtain ⟨ms, htexts, hquiet, -, hsync⟩ := h.texts
  cases hdue : due' with
  | true =>
    -- the notice of the last change is still to come
    exact .inr (.inl rfl)
  | false =>
    subst hdue
    have hmenu : w'.ctx.menu = v.world.ctx.menu := h.menu.resolve_right Bool.false_ne_true
    have hpost : Refresh.Step wireImage (v.refresh fd due) { v.refresh fd due with
        due := false, wire := (v.refresh fd due).wire ++ ms.map menuMsg } := by
      apply Refresh.Step.post
      · intro m hm
        obtain ⟨text, htext, rfl⟩ := List.mem_map.mp hm
        exact hquiet text htext
      · intro hdue _
        apply List.mem_map.mpr
        exact ⟨menuSyncText, hsync hin hdue rfl, menuMsg_menuSync⟩
    have hafter : ({ v with world := w' } : Visit).refresh fd false = { v.refresh fd due with
        due := false, wire := (v.refresh fd due).wire ++ ms.map menuMsg } := by
      simp only [Visit.refresh, hmenu, unread_append hseen htexts, List.map_append]
    rw [Visit.Tracks, hafter]
    exact hpost.tracks hv

/-- The thread goes on with its line. -/
theorem Op.Answers.tracks {fd : Int} {due : Bool} {op : Op} {todo : List Op} (hop : op.Answers fd)
    {v : Visit} (htodo : v.todo = op :: todo) (hin : fd ∈ v.world.ctx.receivers)
    (hseen : v.seen ≤ (textsTo fd v.world.sent).length) (hv : v.Tracks fd due) (env : Env) :
    ({ v with world := step .wrap (env, op) v.world, todo := todo } : Visit).Tracks fd due := by
  have hstaff (hsocket : op.socket ≠ some fd) (hdue : op.syncDue due = due)
      (hbuilt : op.builtMsg = none) :
      ({ v with world := step .wrap (env, op) v.world, todo := todo } : Visit).Tracks fd due := by
    have hover := Op.overhears env v.world hsocket due
    rw [hdue] at hover
    have hworld := hover.tracks hin hseen hv
    simp only [Visit.Tracks, Visit.refresh, htodo, List.filterMap_cons, hbuilt] at hworld
    exact hworld
  cases hop with
  | reply r =>
    have hsend : Refresh.Step wireImage (v.refresh fd due) { v.refresh fd due with
        wire := (v.refresh fd due).wire ++ [menuMsg r.text], built := todo.filterMap Op.builtMsg } := by
      apply Refresh.Step.send
      rw [Visit.refresh, htodo]
      rfl
    have htexts := textsTo_reply fd env v.world r
    have hafter : ({ v with world := step .wrap (env, .reply fd r) v.world, todo := todo } : Visit).refresh
        fd due = { v.refresh fd due with
          wire := (v.refresh fd due).wire ++ [menuMsg r.text], built := todo.filterMap Op.builtMsg } := by
      simp only [Visit.refresh, unread_append hseen htexts, List.map_append, List.map_cons, List.map_nil]
      rfl
    rw [Visit.Tracks, hafter]
    exact hsend.tracks hv
  | staffCall tbl => exact hstaff (by rintro ⟨⟩) rfl rfl
  | staffTouch => exact hstaff (by rintro ⟨⟩) rfl rfl
  | staffBroadcast tbl => exact hstaff (by rintro ⟨⟩) rfl rfl
  | staffLog tbl => exact hstaff (by rintro ⟨⟩) rfl rfl

/-- A line is answered with the menu if it asks for it, and otherwise not. -/
theorem clientTurn_answers (env : Env) (w : World) (fd : Int) (kind : ClientKind) (tableId : Int)
    (line : Bytes) :
    (line = lit "MENU_REQUEST" ∧
      clientTurn .wrap env w fd kind tableId line = ([.reply fd (.menu w.ctx.menu)], w)) ∨
    (line ≠ lit "MENU_REQUEST" ∧ ∀ op ∈ (clientTurn .wrap env w fd kind tableId line).1,
      op.Answers fd ∧ ∀ m, op.builtMsg = some m → m.isAnswer = false) := by
  by_cases hline : line = lit "MENU_REQUEST"
  · left
    rw [clientTurn, if_pos hline]
    exact ⟨hline, rfl⟩
  · refine .inr ⟨hline, ?_⟩
    have hreply {r : Reply} (hr : ∀ cat, r ≠ .menu cat) : ∀ op ∈ [Op.reply fd r],
        op.Answers fd ∧ ∀ m, op.builtMsg = some m → m.isAnswer = false := by
      intro op hop
      rw [List.mem_singleton.mp hop]
      refine ⟨.reply r, ?_⟩
      rintro m ⟨⟩
      exact menuMsg_reply hr
    have hturn := clientTurn_cases .wrap env w fd kind tableId line
    generalize clientTurn .wrap env w fd kind tableId line = turn at hturn ⊢
    cases hturn with
    | menu hmenu => exact absurd hmenu hline
    | replied r hr => exact hreply hr
    | ordered _ _ =>
      rcases hstep : orderCreateStep .wrap env w line tableId with ⟨res, w'⟩
      apply hreply
      intro cat hcat
      rcases orderCreateStep_cases .wrap hstep with ⟨⟨r, rfl, herr⟩, -⟩ |
        ⟨_, _, _, o, -, -, -, -, rfl, -⟩
      · -- a request is refused with an error
        obtain rfl : r = .menu cat := hcat
        cases herr
      · cases hcat
    | cancelled _ =>
      apply hreply
      cases (orderCancelStep .wrap w line tableId).1 <;> simp [orderCancelReply]
    | updated _ =>
      intro op hop
      cases hop
    | called tbl _ _ _ =>
      intro op hop
      simp only [List.mem_cons, List.not_mem_nil, or_false] at hop
      rcases hop with rfl | rfl | rfl | rfl | rfl
      · exact ⟨.staffCall tbl, by simp [Op.builtMsg]⟩
      · exact ⟨.staffTouch, by simp [Op.builtMsg]⟩
      · exact ⟨.staffBroadcast tbl, by simp [Op.builtMsg]⟩
      · exact ⟨.staffLog tbl, by simp [Op.builtMsg]⟩
      · exact hreply (by simp) _ (List.mem_singleton_self _)

/-! ## The stages of a connection -/

/-- The client reads the greeting next, or it has read it and `P` holds. -/
def Greeted (fd : Int) (P : Prop) (v : Visit) : Prop :=
  (v.client.handshakeOk = false ∧ ∃ rest, unread fd v.world v.seen = Reply.hello.text :: rest) ∨
    (v.client.handshakeOk = true ∧ P)

/-- Nothing was sent to the client. -/
structure Silent (fd : Int) (v : Visit) : Prop where
  unread : unread fd v.world v.seen = []
  handshake : v.client.handshakeOk = false
  outside : fd ∉ v.world.ctx.receivers

inductive VisitStage (fd : Int) (due : Bool) (v : Visit) : Prop
  | fresh : v.thread = .fresh → v.todo = [] → Silent fd v → VisitStage fd due v
  | refused : v.thread = .gone → (∀ op ∈ v.todo, op.Answers fd) → fd ∉ v.world.ctx.receivers →
      VisitStage fd due v
  | greeting (kind : ClientKind) (tableId : Int) : v.thread = .serving kind tableId →
      v.todo = [.reply fd .hello, .enter fd kind tableId] → Silent fd v → VisitStage fd due v
  | entering (kind : ClientKind) (tableId : Int) : v.thread = .serving kind tableId →
      v.todo = [.enter fd kind tableId] → fd ∉ v.world.ctx.receivers →
      Greeted fd (.menuRequest ∈ v.uplink) v → VisitStage fd due v
  /-- Without a free slot the client was not registered, and hears of no change. -/
  | serving (kind : ClientKind) (tableId : Int) : v.thread = .serving kind tableId →
      (∀ op ∈ v.todo, op.Answers fd) →
      (fd ∈ v.world.ctx.receivers → Greeted fd (v.Tracks fd due) v) → VisitStage fd due v

/-- The connection is at one of its stages; a client that is registered follows the menu. -/
structure Follows (fd : Int) (due : Bool) (v : Visit) : Prop where
  seen : v.seen ≤ (textsTo fd v.world.sent).length
  stage : VisitStage fd due v

theorem follows_start (fd tableId : Int) (menuFile : Option Bytes) {w : World}
    (hout : fd ∉ w.ctx.receivers) (due : Bool) : Follows fd due (Visit.start fd tableId menuFile w) := by
  refine ⟨le_refl _, .fresh rfl rfl ⟨?_, rfl, hout⟩⟩
  exact List.drop_length

/-- With nothing under way the catalog is the image of the menu. -/
theorem Follows.settled {fd : Int} {v : Visit} (h : Follows fd false v) (htodo : v.todo = [])
    (huplink : v.uplink = []) (hunread : unread fd v.world v.seen = [])
    (hshaken : v.client.handshakeOk = true) (hin : fd ∈ v.world.ctx.receivers) :
    v.client.cat = wireImage v.world.ctx.menu := by
  cases h.stage with
  | fresh hthread htodo hsilent => exact absurd hin hsilent.outside
  | refused hthread htodo hout => exact absurd hin hout
  | greeting kind tableId hthread htodo hsilent => exact absurd hin hsilent.outside
  | entering kind tableId hthread htodo hout hgreeted => exact absurd hin hout
  | serving kind tableId hthread hwork hgreeted =>
    rcases hgreeted hin with ⟨hnot, -⟩ | ⟨-, htracks⟩
    · rw [hshaken] at hnot
      cases hnot
    · apply Refresh.Tracks.settled htracks rfl
      · show (unread fd v.world v.seen).map menuMsg = []
        rw [hunread]
        rfl
      · show v.todo.filterMap Op.builtMsg = []
        rw [htodo]
        rfl
      · show .menuRequest ∉ v.uplink
        rw [huplink]
        exact List.not_mem_nil

/-! ## The steps of others -/

theorem Greeted.append {fd : Int} {P P' : Prop} {v v' : Visit} (h : Greeted fd P v)
    (hclient : v'.client.handshakeOk = v.client.handshakeOk) {ms : List Bytes}
    (hunread : unread fd v'.world v'.seen = unread fd v.world v.seen ++ ms) (hP : P → P') :
    Greeted fd P' v' := by
  rcases h with ⟨hnot, rest, hnext⟩ | ⟨hok, hp⟩
  · left
    rw [hclient, hunread, hnext]
    exact ⟨hnot, rest ++ ms, rfl⟩
  · right
    rw [hclient]
    exact ⟨hok, hP hp⟩

theorem Silent.overhears {fd : Int} {due due' : Bool} {v : Visit} {w' : World} (hsilent : Silent fd v)
    (hseen : v.seen ≤ (textsTo fd v.world.sent).length) (h : Overhears fd due v.world due' w') :
    Silent fd { v with world := w' } := by
  obtain ⟨ms, htexts, -, hnone, -⟩ := h.texts
  rw [hnone hsilent.outside] at htexts
  -- a broadcast goes to registered sockets only
  refine ⟨?_, hsilent.handshake, fun hin => hsilent.outside (h.receivers.mp hin)⟩
  show TableOrder.unread fd w' v.seen = []
  rw [unread_append hseen htexts, List.append_nil]
  exact hsilent.unread

/-- A step that is not about this socket. -/
theorem Follows.overhears {fd : Int} {due due' : Bool} {v : Visit} {w' : World} (hv : Follows fd due v)
    (h : Overhears fd due v.world due' w') : Follows fd due' { v with world := w' } := by
  obtain ⟨ms, htexts, -⟩ := h.texts
  have hunread := unread_append hv.seen htexts
  have hout : fd ∉ v.world.ctx.receivers → fd ∉ w'.ctx.receivers := fun hn hin => hn (h.receivers.mp hin)
  refine ⟨?_, ?_⟩
  · show v.seen ≤ (textsTo fd w'.sent).length
    rw [htexts, List.length_append]
    exact Nat.le_add_right_of_le hv.seen
  · cases hv.stage with
    | fresh hthread htodo hsilent => exact .fresh hthread htodo (hsilent.overhears hv.seen h)
    | refused hthread htodo hn => exact .refused hthread htodo (hout hn)
    | greeting kind tableId hthread htodo hsilent =>
      exact .greeting kind tableId hthread htodo (hsilent.overhears hv.seen h)
    | entering kind tableId hthread htodo hn hgreeted =>
      exact .entering kind tableId hthread htodo (hout hn) (hgreeted.append rfl hunread id)
    | serving kind tableId hthread htodo hgreeted =>
      refine .serving kind tableId hthread htodo ?_
      intro hin'
      have hin := h.receivers.mp hin'
      exact (hgreeted hin).append rfl hunread (h.tracks hin hv.seen)

/-! ## The steps of the client -/

theorem Follows.key {fd : Int} {due : Bool} {v : Visit} (hv : Follows fd due v) (stray : CartItem)
    (key : Key) : Follows fd due (visitStep fd (.key stray key) v) := by
  have hrest := (tableKey_effect .wrap stray key v.client).rest
  -- the handshake loop reads no key
  have hidle (hnot : v.client.handshakeOk = false) : visitStep fd (.key stray key) v = v := by
    simp only [visitStep, tableKey, hnot, Bool.not_false, ↓reduceIte, List.append_nil]
  have hunread : unread fd v.world v.seen = unread fd v.world v.seen ++ [] := (List.append_nil _).symm
  refine ⟨hv.seen, ?_⟩
  cases hv.stage with
  | fresh hthread htodo hsilent =>
    rw [hidle hsilent.handshake]
    exact .fresh hthread htodo hsilent
  | refused hthread htodo hout => exact .refused hthread htodo hout
  | greeting kind tableId hthread htodo hsilent =>
    rw [hidle hsilent.handshake]
    exact .greeting kind tableId hthread htodo hsilent
  | entering kind tableId hthread htodo hout hgreeted =>
    refine .entering kind tableId hthread htodo hout (hgreeted.append hrest.handshakeOk hunread ?_)
    exact List.mem_append_left _
  | serving kind tableId hthread htodo hgreeted =>
    refine .serving kind tableId hthread htodo ?_
    intro hin
    refine (hgreeted hin).append hrest.handshakeOk hunread ?_
    intro htracks
    have hask : Refresh.Step wireImage (v.refresh fd due) { v.refresh fd due with
        asked := .menuRequest ∈ v.uplink ++ (tableKey .wrap stray key v.client).2 } :=
      .ask _ _ (List.mem_append_left _)
    have hafter : (visitStep fd (.key stray key) v).refresh fd due = { v.refresh fd due with
        asked := .menuRequest ∈ v.uplink ++ (tableKey .wrap stray key v.client).2 } := by
      simp only [visitStep, Visit.refresh, hrest.cat]
    rw [Visit.Tracks, hafter]
    exact hask.tracks htracks

theorem unread_eq_cons {fd : Int} {w : World} {seen : Nat} {text : Bytes}
    (h : (textsTo fd w.sent)[seen]? = some text) :
    seen < (textsTo fd w.sent).length ∧ unread fd w seen = text :: unread fd w (seen + 1) := by
  obtain ⟨hlt, htext⟩ := List.getElem?_eq_some_iff.mp h
  refine ⟨hlt, ?_⟩
  rw [unread, unread, List.drop_eq_getElem_cons hlt, htext]

/-- A registered client reads a line. -/
theorem Greeted.read {fd : Int} {P P' : Prop} {v : Visit} {text : Bytes}
    (h : Greeted fd P v) (htext : (textsTo fd v.world.sent)[v.seen]? = some text)
    (hasked : .menuRequest ∈ (visitStep fd .read v).uplink → P')
    (hread : v.client.handshakeOk = true → P → P') : Greeted fd P' (visitStep fd .read v) := by
  have hnext := (unread_eq_cons htext).2
  right
  rcases h with ⟨hnot, rest, hgreeting⟩ | ⟨hok, hp⟩
  · -- the greeting ends the handshake, and the client asks for the menu
    rw [hgreeting] at hnext
    obtain ⟨rfl, -⟩ := List.cons.inj hnext
    have hline : netLine Reply.hello.text = lit "OK|hello" := by decide
    have hshake : tableLine v.client (netLine Reply.hello.text) =
        ({ v.client with handshakeOk := true }, [.menuRequest]) := by
      rw [hline, tableLine, hnot]
      rfl
    refine ⟨?_, hasked ?_⟩
    · simp only [visitStep, htext, hshake]
    · simp only [visitStep, htext, hshake]
      exact List.mem_append_right _ (List.mem_singleton_self _)
  · refine ⟨?_, hread hok hp⟩
    simp only [visitStep, htext]
    exact (tableLine_menu hok text).1

theorem Visit.Tracks.read {fd : Int} {due : Bool} {v : Visit} {text : Bytes} (hv : v.Tracks fd due)
    (htext : (textsTo fd v.world.sent)[v.seen]? = some text) (hok : v.client.handshakeOk = true) :
    (visitStep fd .read v).Tracks fd due := by
  obtain ⟨-, hcat, hask⟩ := tableLine_menu hok text
  have hnext := (unread_eq_cons htext).2
  have hreceive : Refresh.Step wireImage (v.refresh fd due) { v.refresh fd due with
      view := Refresh.receive v.client.cat (menuMsg text)
      wire := (unread fd v.world (v.seen + 1)).map menuMsg
      asked := .menuRequest ∈ v.uplink ++ (tableLine v.client (netLine text)).2 } := by
    apply Refresh.Step.receive
    · show (unread fd v.world v.seen).map menuMsg = _
      rw [hnext]
      rfl
    · rintro (hasked | hnotice)
      · exact List.mem_append_left _ hasked
      · exact List.mem_append_right _ (hask hnotice)
  have hafter : (visitStep fd .read v).refresh fd due = { v.refresh fd due with
      view := Refresh.receive v.client.cat (menuMsg text)
      wire := (unread fd v.world (v.seen + 1)).map menuMsg
      asked := .menuRequest ∈ v.uplink ++ (tableLine v.client (netLine text)).2 } := by
    simp only [visitStep, htext, Visit.refresh, hcat]
  rw [Visit.Tracks, hafter]
  exact hreceive.tracks hv

theorem Follows.read {fd : Int} {due : Bool} {v : Visit} (hv : Follows fd due v) :
    Follows fd due (visitStep fd .read v) := by
  cases htext : (textsTo fd v.world.sent)[v.seen]? with
  | none =>
    simp only [visitStep, htext]
    exact hv
  | some text =>
    obtain ⟨hlt, hnext⟩ := unread_eq_cons htext
    have hworld : (visitStep fd .read v).world = v.world := by simp only [visitStep, htext]
    have hthread : (visitStep fd .read v).thread = v.thread := by simp only [visitStep, htext]
    have htodo : (visitStep fd .read v).todo = v.todo := by simp only [visitStep, htext]
    have hseen : (visitStep fd .read v).seen = v.seen + 1 := by simp only [visitStep, htext]
    have hnotSilent : ¬ Silent fd v := by
      intro hsilent
      have hnone := hsilent.unread
      rw [hnext] at hnone
      cases hnone
    refine ⟨?_, ?_⟩
    · rw [hseen, hworld]
      exact hlt
    · cases hv.stage with
      | fresh _ _ hsilent => exact absurd hsilent hnotSilent
      | refused ht hwork hout =>
        rw [← hthread] at ht
        rw [← htodo] at hwork
        rw [← hworld] at hout
        exact .refused ht hwork hout
      | greeting _ _ _ _ hsilent => exact absurd hsilent hnotSilent
      | entering kind tableId ht hwork hout hgreeted =>
        have hmore : ∀ msg ∈ v.uplink, msg ∈ (visitStep fd .read v).uplink := by
          intro msg hmsg
          simp only [visitStep, htext]
          exact List.mem_append_left _ hmsg
        have hafter := hgreeted.read htext id fun _ => hmore _
        rw [← hthread] at ht
        rw [← htodo] at hwork
        rw [← hworld] at hout
        exact .entering kind tableId ht hwork hout hafter
      | serving kind tableId ht hwork hgreeted =>
        rw [← hthread] at ht
        rw [← htodo] at hwork
        rw [← hworld] at hgreeted
        refine .serving kind tableId ht hwork ?_
        intro hin
        refine (hgreeted hin).read htext ?_ ?_
        · exact fun hasked => Refresh.Tracks.of_asked hasked
        · exact fun hok htracks => htracks.read htext hok

/-! ## The steps of the thread -/

/-- The thread of a registered client reads a line. -/
theorem Visit.Tracks.line {fd : Int} {due : Bool} {v : Visit} {msg : TableSent} {uplink : List TableSent}
    (hv : v.Tracks fd due) (hin : fd ∈ v.world.ctx.receivers) (hmenu : MenuFits v.world.ctx.menu)
    (hseen : v.seen ≤ (textsTo fd v.world.sent).length) (htodo : v.todo = [])
    (huplink : v.uplink = msg :: uplink) (env : Env) (kind : ClientKind) (tableId : Int) :
    ({ v with
      world := (clientTurn .wrap env v.world fd kind tableId msg.line).2
      uplink := uplink
      todo := (clientTurn .wrap env v.world fd kind tableId msg.line).1 } : Visit).Tracks fd due := by
  rcases clientTurn_answers env v.world fd kind tableId msg.line with ⟨-, hturn⟩ | ⟨hline, hwork⟩
  · -- the response is the image of the menu as it is now, whatever happens before it is sent
    rw [hturn]
    have hbuild : Refresh.Step wireImage (v.refresh fd due) { v.refresh fd due with
        built := (v.refresh fd due).built ++ [.answer (wireImage v.world.ctx.menu)]
        asked := .menuRequest ∈ uplink } := .build _ _
    have hafter : ({ v with
        uplink := uplink, todo := [.reply fd (.menu v.world.ctx.menu)] } : Visit).refresh fd due =
        { v.refresh fd due with
          built := (v.refresh fd due).built ++ [.answer (wireImage v.world.ctx.menu)]
          asked := .menuRequest ∈ uplink } := by
      simp only [Visit.refresh, htodo, List.filterMap_cons, List.filterMap_nil, Op.builtMsg,
        menuMsg_menu hmenu, List.nil_append]
    rw [Visit.Tracks, hafter]
    exact hbuild.tracks hv
  · -- what the thread has to do is no response, and the line was no request for one
    have hworld := (clientTurn_overhears env v.world fd kind tableId msg.line fd due).tracks hin hseen hv
    generalize clientTurn .wrap env v.world fd kind tableId msg.line = turn at hwork hworld ⊢
    obtain ⟨todo, w'⟩ := turn
    have hnot : .menuRequest ≠ msg := by
      rintro rfl
      exact hline (by decide)
    have hprepare : Refresh.Step wireImage (({ v with world := w' } : Visit).refresh fd due)
        { ({ v with world := w' } : Visit).refresh fd due with
          built := (({ v with world := w' } : Visit).refresh fd due).built ++ todo.filterMap Op.builtMsg } := by
      apply Refresh.Step.prepare
      intro m hm
      obtain ⟨op, hop, hbuilt⟩ := List.mem_filterMap.mp hm
      exact (hwork op hop).2 m hbuilt
    have htracks := hprepare.tracks hworld
    simp only [Visit.refresh, htodo, huplink, List.filterMap_nil, List.nil_append, List.mem_cons, hnot,
      false_or] at htracks
    exact htracks

theorem textsTo_step (fd : Int) (env : Env) (w : World) (op : Op) :
    ∃ ms, textsTo fd (step .wrap (env, op) w).sent = textsTo fd w.sent ++ ms := by
  obtain ⟨out, hsent, -⟩ := op.writes .wrap env w
  refine ⟨textsTo fd out, ?_⟩
  show textsTo fd (op.run .wrap env w).2.sent = _
  rw [hsent, textsTo_append]

theorem Op.Answers.keepsClient {fd : Int} {op : Op} (h : op.Answers fd) (fd' : Int) :
    op.KeepsClient fd' := by
  cases h <;> exact ⟨by rintro kind tableId ⟨⟩, by rintro ⟨⟩⟩

/-- The thread does the next of what it has left to do. -/
theorem Follows.work {fd : Int} {due : Bool} {v : Visit} {op : Op} {todo : List Op}
    (hv : Follows fd due v) (htodo : v.todo = op :: todo) (env : Env) :
    Follows fd due { v with world := step .wrap (env, op) v.world, todo := todo } := by
  obtain ⟨ms, htexts⟩ := textsTo_step fd env v.world op
  have hunread := unread_append hv.seen htexts
  have hmember (hop : op.Answers fd) :
      fd ∈ (step .wrap (env, op) v.world).ctx.receivers ↔ fd ∈ v.world.ctx.receivers :=
    (op.effect .wrap env v.world).mem_receivers_iff (hop.keepsClient fd)
  refine ⟨?_, ?_⟩
  · show v.seen ≤ (textsTo fd (step .wrap (env, op) v.world).sent).length
    rw [htexts, List.length_append]
    exact Nat.le_add_right_of_le hv.seen
  · cases hv.stage with
    | fresh hthread hnone _ =>
      rw [htodo] at hnone
      cases hnone
    | refused hthread hwork hout =>
      rw [htodo] at hwork
      refine .refused hthread (fun op' hop' => hwork op' (List.mem_cons_of_mem _ hop')) ?_
      exact fun hin => hout ((hmember (hwork op List.mem_cons_self)).mp hin)
    | greeting kind tableId hthread hwork hsilent =>
      rw [htodo] at hwork
      obtain ⟨rfl, rfl⟩ := List.cons.inj hwork
      -- before this nothing was sent, so the greeting is the next text
      have hgreeting : unread fd (step .wrap (env, .reply fd .hello) v.world) v.seen =
          [Reply.hello.text] := by
        rw [unread_append hv.seen (textsTo_reply fd env v.world .hello), hsilent.unread]
        rfl
      exact .entering kind tableId hthread rfl hsilent.outside
        (.inl ⟨hsilent.handshake, [], hgreeting⟩)
    | entering kind tableId hthread hwork _ hgreeted =>
      rw [htodo] at hwork
      obtain ⟨rfl, rfl⟩ := List.cons.inj hwork
      refine .serving kind tableId hthread (by simp) ?_
      intro _
      -- a client that is past its handshake by now has asked, and its thread has not read that yet
      exact hgreeted.append rfl hunread fun hasked => Refresh.Tracks.of_asked hasked
    | serving kind tableId hthread hwork hgreeted =>
      rw [htodo] at hwork
      have hop := hwork op List.mem_cons_self
      refine .serving kind tableId hthread (fun op' hop' => hwork op' (List.mem_cons_of_mem _ hop')) ?_
      intro hin'
      have hin := (hmember hop).mp hin'
      exact (hgreeted hin).append rfl hunread fun htracks => hop.tracks htodo hin hv.seen htracks env

/-- The thread reads the next line. -/
theorem Follows.line {fd : Int} {due : Bool} {v : Visit} {msg : TableSent} {uplink : List TableSent}
    (hv : Follows fd due v) (hmenu : MenuFits v.world.ctx.menu) (htodo : v.todo = [])
    (huplink : v.uplink = msg :: uplink) (env : Env) :
    Follows fd due (threadReads fd env msg.line { v with uplink := uplink }) := by
  cases hv.stage with
  | fresh hthread _ hsilent =>
    simp only [threadReads, hthread]
    split
    · next r _ =>
      refine ⟨hv.seen, .refused rfl ?_ hsilent.outside⟩
      intro op hop
      rw [List.mem_singleton.mp hop]
      exact .reply r
    · next kind tableId _ =>
      exact ⟨hv.seen, .greeting kind tableId rfl rfl ⟨hsilent.unread, hsilent.handshake, hsilent.outside⟩⟩
  | refused hthread hwork hout =>
    simp only [threadReads, hthread]
    exact ⟨hv.seen, .refused rfl hwork hout⟩
  | greeting kind tableId _ hwork _ =>
    rw [htodo] at hwork
    cases hwork
  | entering kind tableId _ hwork _ _ =>
    rw [htodo] at hwork
    cases hwork
  | serving kind tableId hthread hwork hgreeted =>
    simp only [threadReads, hthread]
    have hover := clientTurn_overhears env v.world fd kind tableId msg.line fd due
    obtain ⟨ms, htexts, -⟩ := hover.texts
    refine ⟨?_, .serving kind tableId rfl ?_ ?_⟩
    · show v.seen ≤ (textsTo fd (clientTurn .wrap env v.world fd kind tableId msg.line).2.sent).length
      rw [htexts, List.length_append]
      exact Nat.le_add_right_of_le hv.seen
    · show ∀ op ∈ (clientTurn .wrap env v.world fd kind tableId msg.line).1, op.Answers fd
      rcases clientTurn_answers env v.world fd kind tableId msg.line with ⟨-, hturn⟩ | ⟨-, hanswers⟩
      · rw [hturn]
        intro op hop
        rw [List.mem_singleton.mp hop]
        exact .reply _
      · exact fun op hop => (hanswers op hop).1
    · intro hin'
      have hin := hover.receivers.mp hin'
      refine (hgreeted hin).append rfl (unread_append hv.seen htexts) ?_
      exact fun htracks => htracks.line hin hmenu hv.seen htodo huplink env kind tableId

theorem Follows.thread {fd : Int} {due : Bool} {v : Visit} (hv : Follows fd due v)
    (hmenu : MenuFits v.world.ctx.menu) (env : Env) : Follows fd due (visitStep fd (.thread env) v) := by
  cases htodo : v.todo with
  | cons op todo =>
    simp only [visitStep, htodo]
    exact hv.work htodo env
  | nil =>
    cases huplink : v.uplink with
    | cons msg uplink =>
      simp only [visitStep, htodo, huplink]
      have h := hv.line hmenu htodo huplink env
      simp only [htodo] at h
      exact h
    | nil =>
      simp only [visitStep, htodo, huplink]
      exact hv

/-- The thread leaves the client alone, and only adds to what was sent to it. -/
theorem visitStep_thread (fd : Int) (env : Env) (v : Visit) :
    (visitStep fd (.thread env) v).client = v.client ∧ (visitStep fd (.thread env) v).seen = v.seen ∧
      ∃ ms, textsTo fd (visitStep fd (.thread env) v).world.sent = textsTo fd v.world.sent ++ ms := by
  have hsame : ∃ ms, textsTo fd v.world.sent = textsTo fd v.world.sent ++ ms :=
    ⟨[], (List.append_nil _).symm⟩
  simp only [visitStep]
  split
  · exact ⟨rfl, rfl, textsTo_step fd env v.world _⟩
  · next msg uplink _ _ =>
    unfold threadReads
    split
    · split <;> exact ⟨rfl, rfl, hsame⟩
    · next kind tableId _ =>
      obtain ⟨ms, htexts, -⟩ := (clientTurn_overhears env v.world fd kind tableId msg.line fd true).texts
      exact ⟨rfl, rfl, ms, htexts⟩
    · exact ⟨rfl, rfl, hsame⟩
  · exact ⟨rfl, rfl, hsame⟩

/-! ## What one client's steps are to another -/

/-- What a thread has left to do is about its own socket. -/
theorem VisitStage.todo {fd : Int} {due : Bool} {v : Visit} (h : VisitStage fd due v) :
    ∀ op ∈ v.todo, op.Answers fd ∨ ∃ kind tableId, op = .enter fd kind tableId := by
  intro op hop
  cases h with
  | fresh _ htodo _ =>
    rw [htodo] at hop
    cases hop
  | refused _ htodo _ => exact .inl (htodo op hop)
  | greeting kind tableId _ htodo _ =>
    rw [htodo] at hop
    rcases List.mem_pair.mp hop with rfl | rfl
    · exact .inl (.reply .hello)
    · exact .inr ⟨kind, tableId, rfl⟩
  | entering kind tableId _ htodo _ _ =>
    rw [htodo] at hop
    exact .inr ⟨kind, tableId, List.mem_singleton.mp hop⟩
  | serving _ _ _ htodo _ => exact .inl (htodo op hop)

/-- A client and its thread are no more to another client than a thread that is not about its
socket. -/
theorem Follows.elsewhere {fd fd' : Int} (hne : fd ≠ fd') {due : Bool} {v : Visit}
    (hv : Follows fd due v) {a : VisitAction} (ha : ∀ b, a ≠ .server b) (due' : Bool) :
    Overhears fd' due' v.world due' (visitStep fd a v).world := by
  have hsame := Overhears.refl fd' due' v.world
  cases a with
  | server b => exact absurd rfl (ha b)
  | key stray key => exact hsame
  | read =>
    simp only [visitStep]
    split <;> exact hsame
  | thread env =>
    simp only [visitStep]
    split
    · next op todo htodo =>
      have hop := hv.stage.todo op (by rw [htodo]; exact List.mem_cons_self)
      have hother : op.socket ≠ some fd' ∧ op.syncDue due' = due' := by
        rcases hop with hop | ⟨kind, tableId, rfl⟩
        · cases hop with
          | reply r => exact ⟨fun h => hne (Option.some.inj h), rfl⟩
          | _ => exact ⟨by rintro ⟨⟩, rfl⟩
        · exact ⟨fun h => hne (Option.some.inj h), rfl⟩
      have hover := Op.overhears env v.world hother.1 due'
      rw [hother.2] at hover
      exact hover
    · next msg uplink _ _ =>
      unfold threadReads
      split
      · split <;> exact hsame
      · exact clientTurn_overhears _ _ _ _ _ _ _ _
      · exact hsame
    · exact hsame

end TableOrder
