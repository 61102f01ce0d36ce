import TableOrder.Server.Slots
import TableOrder.Server.Wire

/-!
# The connections of the server (`server_accept_loop`, `client_thread_main`)

One thread for each socket: it reads the handshake, answers `OK|hello`, registers the socket, and then
serves the client line by line until it leaves. The answer is given before the slot is taken, and a
client that finds no free slot is served like any other. Everybody who is served hears of every order
as long as each registration finds a free slot (`hub_served`).
-/

namespace TableOrder

open CLib

/-! ## The threads -/

/-- Where the thread of a socket is. A closed socket has none. -/
inductive Phase where
  | closed
  | accepted
  /-- After `OK|hello`. -/
  | greeted (kind : ClientKind) (tableId : Int)
  /-- After `server_register_client`, with what is left to do for the last line. -/
  | serving (kind : ClientKind) (tableId : Int) (todo : List Op)

def Phase.isServing : Phase → Bool
  | .serving _ _ _ => true
  | _ => false

structure Hub where
  world : World
  phase : Int → Phase

def Hub.start (w : World) : Hub := ⟨w, fun _ => .closed⟩

/-- What the POS does under the lock. -/
def Op.isPos : Op → Bool
  | .createOrder _ _ => true
  | .updateOrderStatus _ _ => true
  | .cancelOrder _ _ => true
  | .payOrder _ => true
  | .staffClear _ => true
  | .changeMenu _ => true
  | .menuSync => true
  | .syncMaxTables _ => true
  | .saveConfig => true
  | _ => false

inductive HubAction where
  | pos (env : Env) (op : Op)
  /-- `accept` returned this number. -/
  | connect (fd : Int)
  | hello (fd : Int) (line : Bytes)
  | register (fd : Int)
  | line (fd : Int) (env : Env) (line : Bytes)
  /-- The thread goes on with its last line. -/
  | work (fd : Int) (env : Env)
  /-- The client is gone. -/
  | disconnect (fd : Int)

/-- The socket whose thread this is. -/
def HubAction.fd : HubAction → Option Int
  | .pos _ _ => none
  | .connect fd => some fd
  | .hello fd _ => some fd
  | .register fd => some fd
  | .line fd _ _ => some fd
  | .work fd _ => some fd
  | .disconnect fd => some fd

def Hub.setPhase (s : Hub) (w : World) (fd : Int) (phase : Phase) : Hub :=
  ⟨w, Function.update s.phase fd phase⟩

theorem setPhase_self (s : Hub) (w : World) (fd : Int) (phase : Phase) :
    (s.setPhase w fd phase).phase fd = phase := Function.update_self ..

theorem setPhase_of_ne (s : Hub) (w : World) {fd fd' : Int} (phase : Phase) (h : fd' ≠ fd) :
    (s.setPhase w fd phase).phase fd' = s.phase fd' := Function.update_of_ne h ..

/-- A number is reused only after it was closed. A refused handshake and a client that is gone close
the socket. -/
def hubStep (a : HubAction) (s : Hub) : Hub :=
  match a with
  | .pos env op => if op.isPos then { s with world := step .wrap (env, op) s.world } else s
  | .connect fd =>
    match s.phase fd with
    | .closed => s.setPhase s.world fd .accepted
    | _ => s
  | .hello fd line =>
    match s.phase fd with
    | .accepted =>
      match handshake line with
      | .error r => s.setPhase (reply s.world fd r) fd .closed
      | .ok (kind, tableId) => s.setPhase (reply s.world fd .hello) fd (.greeted kind tableId)
    | _ => s
  | .register fd =>
    match s.phase fd with
    | .greeted kind tableId =>
      s.setPhase (enterClient s.world fd kind tableId) fd (.serving kind tableId [])
    | _ => s
  | .line fd env line =>
    match s.phase fd with
    | .serving kind tableId [] =>
      let (todo, w) := clientTurn .wrap env s.world fd kind tableId line
      s.setPhase w fd (.serving kind tableId todo)
    | _ => s
  | .work fd env =>
    match s.phase fd with
    | .serving kind tableId (op :: todo) =>
      s.setPhase (step .wrap (env, op) s.world) fd (.serving kind tableId todo)
    | _ => s
  | .disconnect fd =>
    match s.phase fd with
    | .accepted => s.setPhase s.world fd .closed
    | .serving _ _ [] =>
      s.setPhase { s.world with ctx := serverUnregisterFd s.world.ctx fd } fd .closed
    | _ => s

def runHub (s : Hub) (as : List HubAction) : Hub := Runs.run hubStep s as

/-- The texts that are sent from `w` to `w'`. -/
def newlySent (w w' : World) : List (Int × Bytes) := w'.sent.drop w.sent.length

/-- In the step from `s` to `s'` every client that is served is sent the event of each order that
changes. A socket is sent something only while it is served or by its own thread, and never while it
is closed. -/
structure Served (a : HubAction) (s s' : Hub) : Prop where
  told : ∀ fd, (s.phase fd).isServing = true → ∀ (i : Nat) (o : Order),
    s'.world.ctx.orders.items[i]? = some o → s.world.ctx.orders.items[i]? ≠ some o →
    (fd, orderEvent o) ∈ newlySent s.world s'.world
  own : ∀ p ∈ newlySent s.world s'.world,
    (s.phase p.1).isServing = true ∨ (a.fd = some p.1 ∧ s.phase p.1 ≠ .closed)

/-- A client that is to be registered finds a free slot. -/
def FindsSlot (a : HubAction) (s : Hub) : Prop :=
  ∀ fd kind tableId, a = .register fd → s.phase fd = .greeted kind tableId →
    ∃ c ∈ s.world.ctx.clients.slots, c.inUse = false

/-! ## What a step is -/

/-- The operations that neither reply nor let a client in or out. -/
def Op.isShared : Op → Bool
  | .reply _ _ => false
  | .enter _ _ _ => false
  | .leave _ => false
  | _ => true

/-- What is left to do for a line: replies to the client itself, and operations on the shared state. -/
def OwnWork (fd : Int) (todo : List Op) : Prop :=
  ∀ op ∈ todo, op.isShared = true ∨ ∃ r, op = .reply fd r

def Hub.Works (s : Hub) : Prop :=
  ∀ fd kind tableId todo, s.phase fd = .serving kind tableId todo → OwnWork fd todo

/-- The same sockets are served. -/
def SameServing (s s' : Hub) : Prop := ∀ fd, (s'.phase fd).isServing = (s.phase fd).isServing

inductive HubMove (a : HubAction) (s s' : Hub) : Prop
  | idle : s'.world = s.world → SameServing s s' → HubMove a s s'
  | replied (fd : Int) (r : Reply) : s'.world = reply s.world fd r → SameServing s s' →
      a.fd = some fd → s.phase fd ≠ .closed → HubMove a s s'
  | shared (b : Action) : b.2.isShared = true → s'.world = step .wrap b s.world → SameServing s s' →
      HubMove a s s'
  | registered (fd : Int) (kind : ClientKind) (tableId : Int) : a = .register fd →
      s.phase fd = .greeted kind tableId →
      s' = s.setPhase (enterClient s.world fd kind tableId) fd (.serving kind tableId []) →
      HubMove a s s'
  | left (fd : Int) : s' = s.setPhase { s.world with ctx := serverUnregisterFd s.world.ctx fd } fd
      .closed → HubMove a s s'

theorem sameServing_set {s : Hub} {fd : Int} {phase : Phase}
    (h : phase.isServing = (s.phase fd).isServing) (w : World) :
    SameServing s (s.setPhase w fd phase) := by
  intro fd'
  by_cases hfd : fd' = fd
  · rw [hfd, setPhase_self, h]
  · rw [setPhase_of_ne _ _ _ hfd]

theorem works_set {s : Hub} (h : s.Works) {fd : Int} {phase : Phase}
    (hnew : ∀ kind tableId todo, phase = .serving kind tableId todo → OwnWork fd todo) (w : World) :
    (s.setPhase w fd phase).Works := by
  intro fd' kind tableId todo hphase
  by_cases hfd : fd' = fd
  · subst hfd
    rw [setPhase_self] at hphase
    exact hnew kind tableId todo hphase
  · rw [setPhase_of_ne _ _ _ hfd] at hphase
    exact h fd' kind tableId todo hphase

theorem isShared_of_isPos {op : Op} (h : op.isPos = true) : op.isShared = true := by
  cases op <;> first | rfl | cases h

/-- A turn up to its first unlock is one operation or none, and leaves the thread its own work. -/
theorem clientTurn_shared (env : Env) (w : World) (fd : Int) (kind : ClientKind) (tableId : Int)
    (line : Bytes) :
    OwnWork fd (clientTurn .wrap env w fd kind tableId line).1 ∧
      ((clientTurn .wrap env w fd kind tableId line).2 = w ∨ ∃ b : Action, b.2.isShared = true ∧
        (clientTurn .wrap env w fd kind tableId line).2 = step .wrap b w) := by
  have hreply (r : Reply) : OwnWork fd [.reply fd r] := by
    intro op hop
    exact .inr ⟨r, List.mem_singleton.mp hop⟩
  have hturn := clientTurn_cases .wrap env w fd kind tableId line
  generalize clientTurn .wrap env w fd kind tableId line = turn at hturn ⊢
  cases hturn with
  | menu => exact ⟨hreply _, .inl rfl⟩
  | replied r => exact ⟨hreply r, .inl rfl⟩
  | ordered => exact ⟨hreply _, .inr ⟨(env, .orderCreate line tableId), rfl, rfl⟩⟩
  | cancelled => exact ⟨hreply _, .inr ⟨(env, .orderCancel line tableId), rfl, rfl⟩⟩
  | updated => exact ⟨fun _ h => (by cases h), .inr ⟨(env, .orderUpdate line), rfl, rfl⟩⟩
  | called tbl =>
    refine ⟨?_, .inl rfl⟩
    intro op hop
    simp only [List.mem_cons, List.not_mem_nil, or_false] at hop
    rcases hop with rfl | rfl | rfl | rfl | rfl
    · exact .inl rfl
    · exact .inl rfl
    · exact .inl rfl
    · exact .inl rfl
    · exact .inr ⟨_, rfl⟩

theorem hubStep_move {s : Hub} (hworks : s.Works) (a : HubAction) :
    HubMove a s (hubStep a s) ∧ (hubStep a s).Works := by
  have hidle : HubMove a s s ∧ s.Works := ⟨.idle rfl fun _ => rfl, hworks⟩
  have hnone {phase : Phase} (h : phase.isServing = false) (fd : Int) :
      ∀ kind tableId todo, phase = .serving kind tableId todo → OwnWork fd todo := by
    rintro kind tableId todo rfl
    cases h
  unfold hubStep
  cases a with
  | pos env op =>
    simp only
    split
    · next hpos => exact ⟨.shared (env, op) (isShared_of_isPos hpos) rfl fun _ => rfl, hworks⟩
    · exact hidle
  | connect fd =>
    simp only
    split
    · next hphase =>
      exact ⟨.idle rfl (sameServing_set (by rw [hphase]; rfl) _), works_set hworks (hnone rfl fd) _⟩
    · exact hidle
  | hello fd line =>
    simp only
    split
    · next hphase =>
      have hopen : s.phase fd ≠ .closed := by simp [hphase]
      split
      · next r _ =>
        exact ⟨.replied fd r rfl (sameServing_set (by rw [hphase]; rfl) _) rfl hopen,
          works_set hworks (hnone rfl fd) _⟩
      · exact ⟨.replied fd .hello rfl (sameServing_set (by rw [hphase]; rfl) _) rfl hopen,
          works_set hworks (hnone rfl fd) _⟩
    · exact hidle
  | register fd =>
    simp only
    split
    · next kind tableId hphase =>
      refine ⟨.registered fd kind tableId rfl hphase rfl, works_set hworks ?_ _⟩
      intro _ _ todo h
      cases h
      intro op hop
      cases hop
    · exact hidle
  | line fd env line =>
    simp only
    split
    · next kind tableId hphase =>
      obtain ⟨hwork, hworld⟩ := clientTurn_shared env s.world fd kind tableId line
      have hsame (w : World) (todo : List Op) :
          SameServing s (s.setPhase w fd (.serving kind tableId todo)) :=
        sameServing_set (by rw [hphase]; rfl) w
      refine ⟨?_, works_set hworks (by rintro _ _ _ ⟨⟩; exact hwork) _⟩
      rcases hworld with hworld | ⟨b, hb, hworld⟩
      · exact .idle hworld (hsame _ _)
      · exact .shared b hb hworld (hsame _ _)
    · exact hidle
  | work fd env =>
    simp only
    split
    · next kind tableId op todo hphase =>
      have hwork := hworks fd kind tableId _ hphase
      have hsame (w : World) : SameServing s (s.setPhase w fd (.serving kind tableId todo)) :=
        sameServing_set (by rw [hphase]; rfl) w
      have hopen : s.phase fd ≠ .closed := by simp [hphase]
      refine ⟨?_, works_set hworks (by
        rintro _ _ _ ⟨⟩
        exact fun op hop => hwork op (List.mem_cons_of_mem _ hop)) _⟩
      rcases hwork op List.mem_cons_self with hshared | ⟨r, rfl⟩
      · exact .shared (env, op) hshared rfl (hsame _)
      · exact .replied fd r rfl (hsame _) rfl hopen
    · exact hidle
  | disconnect fd =>
    simp only
    split
    · next hphase =>
      exact ⟨.idle rfl (sameServing_set (by rw [hphase]; rfl) _), works_set hworks (hnone rfl fd) _⟩
    · exact ⟨.left fd rfl, works_set hworks (hnone rfl fd) _⟩
    · exact hidle

/-! ## What a step sends -/

theorem newlySent_eq {w w' : World} {out : List (Int × Bytes)} (h : w'.sent = w.sent ++ out) :
    newlySent w w' = out := by
  rw [newlySent, h, List.drop_left]

/-- An operation on the shared state leaves the slots alone. -/
theorem shared_clients {b : Action} (hb : b.2.isShared = true) (w : World) :
    (step .wrap b w).ctx.clients = w.ctx.clients := by
  have heffect := b.2.effect .wrap b.1 w
  generalize (b.2.run .wrap b.1 w).1 = failed at heffect
  change Effect .wrap b.1 b.2 w (step .wrap b w) failed at heffect
  cases heffect with
  | quiet failed lines _ hclients => exact hclients
  | created o _ hc => rw [hc.ctx]
  | cooked i o st _ _ hm => rw [hm.ctx]
  | cancelled i o _ _ _ hm => rw [hm.ctx]
  | paid i o _ _ _ hm => rw [hm.ctx]
  | entered fd kind tableId _ hop =>
    rw [hop] at hb
    cases hb
  | left fd _ hop =>
    rw [hop] at hb
    cases hb

/-- It is told to the sockets in the slots and to no others. -/
theorem shared_receivers {b : Action} (hb : b.2.isShared = true) (w : World) :
    ∀ p ∈ newlySent w (step .wrap b w), p.1 ∈ w.ctx.receivers := by
  obtain ⟨out, hsent, hout⟩ := b.2.writes .wrap b.1 w
  change (step .wrap b w).sent = w.sent ++ out at hsent
  rw [newlySent_eq hsent]
  intro p hp
  cases hout with
  | nothing => cases hp
  | broadcast n =>
    obtain ⟨fd, hfd, rfl⟩ := List.mem_map.mp hp
    exact hfd
  | reply fd r hop =>
    rw [hop] at hb
    cases hb
  | snapshot fd kind tableId os hop =>
    rw [hop] at hb
    cases hb

/-- An order that changes is told to every socket in the slots. -/
theorem changed_told (b : Action) (w : World) {fd : Int} (hfd : fd ∈ w.ctx.receivers) {i : Nat}
    {o : Order} (ho : (step .wrap b w).ctx.orders.items[i]? = some o)
    (hchanged : w.ctx.orders.items[i]? ≠ some o) :
    (fd, orderEvent o) ∈ newlySent w (step .wrap b w) := by
  have hmoved {j : Nat} {v : Order} {st : OrderStatus} (hm : Moved .wrap w (step .wrap b w) j v st) :
      (fd, orderEvent o) ∈ newlySent w (step .wrap b w) := by
    rw [newlySent_eq hm.sent]
    rw [hm.orders, List.getElem?_set] at ho
    split at ho
    · split at ho
      · obtain rfl := Option.some.inj ho
        exact List.mem_map_of_mem (f := fun fd => (fd, orderEvent (v.withStatus st))) hfd
      · cases ho
    · exact absurd ho hchanged
  have heffect := b.2.effect .wrap b.1 w
  generalize (b.2.run .wrap b.1 w).1 = failed at heffect
  change Effect .wrap b.1 b.2 w (step .wrap b w) failed at heffect
  cases heffect with
  | quiet failed lines horders =>
    rw [horders] at ho
    exact absurd ho hchanged
  | created v _ hc =>
    rw [newlySent_eq hc.sent]
    rw [hc.orders] at ho
    rcases Nat.lt_or_ge i w.ctx.orders.items.length with hlt | hge
    · rw [List.getElem?_append_left hlt] at ho
      exact absurd ho hchanged
    · rw [List.getElem?_append_right hge] at ho
      obtain rfl := List.mem_singleton.mp (List.mem_of_getElem? ho)
      exact List.mem_map_of_mem (f := fun fd => (fd, orderEvent o)) hfd
  | cooked j v st _ _ hm => exact hmoved hm
  | cancelled j v _ _ _ hm => exact hmoved hm
  | paid j v _ _ _ hm => exact hmoved hm
  | entered fd' kind tableId heq =>
    rw [heq, enterClient_ctx, serverRegisterClient_orders] at ho
    exact absurd ho hchanged
  | left fd' heq =>
    rw [heq] at ho
    change (serverUnregisterFd w.ctx fd').orders.items[i]? = some o at ho
    rw [serverUnregisterFd_orders] at ho
    exact absurd ho hchanged

/-! ## Runs -/

/-- No socket is in two slots, and those in the slots are served. -/
structure Hub.Sound (s : Hub) : Prop where
  works : s.Works
  distinct : SlotsDistinct s.world.ctx
  serving : ∀ fd ∈ s.world.ctx.receivers, (s.phase fd).isServing = true

/-- Every client that is served has a slot. -/
def Hub.AllSlotted (s : Hub) : Prop :=
  ∀ fd, (s.phase fd).isServing = true → fd ∈ s.world.ctx.receivers

/-- A step that neither fills nor frees a slot, and neither begins nor ends to serve anybody. -/
theorem Hub.Sound.of_clients {s s' : Hub} (hs : s.Sound) (hworks : s'.Works)
    (h : s'.world.ctx.clients = s.world.ctx.clients) (hsame : SameServing s s') : s'.Sound := by
  refine ⟨hworks, slotsDistinct_of_clients h hs.distinct, ?_⟩
  intro fd hfd
  rw [receivers_of_clients h] at hfd
  rw [hsame]
  exact hs.serving fd hfd

theorem Hub.AllSlotted.of_clients {s s' : Hub} (hall : s.AllSlotted)
    (h : s'.world.ctx.clients = s.world.ctx.clients) (hsame : SameServing s s') : s'.AllSlotted := by
  intro fd hfd
  rw [hsame] at hfd
  rw [receivers_of_clients h]
  exact hall fd hfd

theorem Hub.Sound.step {s : Hub} (hs : s.Sound) (a : HubAction) : (hubStep a s).Sound := by
  obtain ⟨hmove, hworks⟩ := hubStep_move hs.works a
  generalize hubStep a s = s' at hmove hworks ⊢
  cases hmove with
  | idle hworld hsame =>
    apply hs.of_clients hworks _ hsame
    rw [hworld]
  | replied fd r hworld hsame =>
    apply hs.of_clients hworks _ hsame
    rw [hworld]
    rfl
  | shared b hb hworld hsame =>
    apply hs.of_clients hworks _ hsame
    rw [hworld]
    exact shared_clients hb s.world
  | registered fd kind tableId ha hphase heq =>
    subst heq
    have hout : fd ∉ s.world.ctx.receivers := by
      intro hfd
      have hserving := hs.serving fd hfd
      rw [hphase] at hserving
      cases hserving
    refine ⟨hworks, hs.distinct.register hout kind tableId, fun fd' hfd => ?_⟩
    by_cases hne : fd' = fd
    · rw [hne, setPhase_self]
      rfl
    · rw [setPhase_of_ne _ _ _ hne]
      exact hs.serving fd' ((mem_receivers_register (Ne.symm hne) kind tableId).mp hfd)
  | left fd heq =>
    subst heq
    refine ⟨hworks, hs.distinct.unregister fd, fun fd' hfd => ?_⟩
    by_cases hne : fd' = fd
    · rw [hne] at hfd
      exact absurd hfd (not_mem_receivers_unregister hs.distinct fd)
    · rw [setPhase_of_ne _ _ _ hne]
      exact hs.serving fd' ((mem_receivers_unregister (Ne.symm hne)).mp hfd)

theorem Hub.AllSlotted.step {s : Hub} (hs : s.Sound) (hall : s.AllSlotted) {a : HubAction}
    (hslot : FindsSlot a s) : (hubStep a s).AllSlotted := by
  obtain ⟨hmove, -⟩ := hubStep_move hs.works a
  generalize hubStep a s = s' at hmove ⊢
  cases hmove with
  | idle hworld hsame =>
    apply hall.of_clients _ hsame
    rw [hworld]
  | replied fd r hworld hsame =>
    apply hall.of_clients _ hsame
    rw [hworld]
    rfl
  | shared b hb hworld hsame =>
    apply hall.of_clients _ hsame
    rw [hworld]
    exact shared_clients hb s.world
  | registered fd kind tableId ha hphase heq =>
    subst heq
    intro fd' hfd
    show fd' ∈ (serverRegisterClient s.world.ctx fd kind tableId).receivers
    by_cases hne : fd' = fd
    · rw [hne]
      exact mem_receivers_enter (hslot fd kind tableId ha hphase) fd kind tableId
    · rw [setPhase_of_ne _ _ _ hne] at hfd
      exact (mem_receivers_register (Ne.symm hne) kind tableId).mpr (hall fd' hfd)
  | left fd heq =>
    subst heq
    intro fd' hfd
    have hne : fd' ≠ fd := by
      rintro rfl
      rw [setPhase_self] at hfd
      cases hfd
    rw [setPhase_of_ne _ _ _ hne] at hfd
    exact (mem_receivers_unregister (Ne.symm hne)).mpr (hall fd' hfd)

theorem served_of_slotted {s : Hub} (hs : s.Sound) (hall : s.AllSlotted) (a : HubAction) :
    Served a s (hubStep a s) := by
  obtain ⟨hmove, -⟩ := hubStep_move hs.works a
  generalize hubStep a s = s' at hmove ⊢
  have hunchanged (h : s'.world.ctx.orders = s.world.ctx.orders) {i : Nat} {o : Order}
      (ho : s'.world.ctx.orders.items[i]? = some o) : s.world.ctx.orders.items[i]? = some o := by
    rw [← h]
    exact ho
  cases hmove with
  | idle hworld hsame =>
    have hnone : newlySent s.world s'.world = [] := newlySent_eq (by rw [hworld, List.append_nil])
    refine ⟨fun fd _ i o ho hne => absurd (hunchanged (by rw [hworld]) ho) hne, fun p hp => ?_⟩
    rw [hnone] at hp
    cases hp
  | replied fd r hworld hsame ha hopen =>
    have hone : newlySent s.world s'.world = [(fd, r.text)] := newlySent_eq (by rw [hworld]; rfl)
    refine ⟨fun fd _ i o ho hne => absurd (hunchanged (by rw [hworld]; rfl) ho) hne, fun p hp => ?_⟩
    rw [hone, List.mem_singleton] at hp
    rw [hp]
    exact .inr ⟨ha, hopen⟩
  | shared b hb hworld hsame =>
    constructor
    · intro fd hfd i o ho hne
      rw [hworld] at ho ⊢
      exact changed_told b s.world (hall fd hfd) ho hne
    · intro p hp
      rw [hworld] at hp
      exact .inl (hs.serving p.1 (shared_receivers hb s.world p hp))
  | registered fd kind tableId ha hphase heq =>
    subst heq
    refine ⟨fun fd' _ i o ho hne => absurd (hunchanged ?_ ho) hne, fun p hp => ?_⟩
    · exact serverRegisterClient_orders _ _ _ _
    · -- the snapshot goes to the new client
      have hsnapshot : newlySent s.world (enterClient s.world fd kind tableId) = _ := newlySent_eq rfl
      change p ∈ newlySent s.world (enterClient s.world fd kind tableId) at hp
      rw [hsnapshot] at hp
      obtain ⟨o, -, rfl⟩ := List.mem_map.mp hp
      exact .inr ⟨by rw [ha]; rfl, by rw [hphase]; simp⟩
  | left fd heq =>
    subst heq
    have hnone : newlySent s.world { s.world with ctx := serverUnregisterFd s.world.ctx fd } = [] :=
      newlySent_eq (List.append_nil _).symm
    refine ⟨fun fd' _ i o ho hne => absurd (hunchanged ?_ ho) hne, fun p hp => ?_⟩
    · exact serverUnregisterFd_orders _ _
    · change p ∈ newlySent s.world { s.world with ctx := serverUnregisterFd s.world.ctx fd } at hp
      rw [hnone] at hp
      cases hp

theorem booted_clients {configFile menuFile : Option Bytes} {w : World}
    (h : serverLoadPersistent (World.boot configFile menuFile) = (.ok (), w)) :
    w.ctx.clients = ClientTable.zero := by
  unfold serverLoadPersistent at h
  simp only at h
  split at h
  · cases h
  · obtain rfl := (Prod.mk.inj h).2
    rfl

theorem sound_start {w : World} (h : w.ctx.clients = ClientTable.zero) :
    (Hub.start w).Sound ∧ (Hub.start w).AllSlotted := by
  obtain ⟨hnone, hdistinct⟩ := clientTable_zero_receivers h
  refine ⟨⟨?_, hdistinct, ?_⟩, ?_⟩
  · intro fd kind tableId todo hphase
    cases hphase
  · intro fd hfd
    change fd ∈ w.ctx.receivers at hfd
    rw [hnone] at hfd
    cases hfd
  · intro fd hserving
    cases hserving

/-- Whatever connects, leaves and orders: every client that is served hears of every order as long as
each registration finds a free slot, and closed sockets hear nothing. -/
theorem hub_served {configFile menuFile : Option Bytes} {w : World}
    (hload : serverLoadPersistent (World.boot configFile menuFile) = (.ok (), w))
    {as : List HubAction} (hslots : Runs.AllSteps hubStep FindsSlot (Hub.start w) as) :
    ∀ pre a post, as = pre ++ a :: post →
      Served a (runHub (Hub.start w) pre) (hubStep a (runHub (Hub.start w) pre)) := by
  rintro pre a post rfl
  have hstart := sound_start (booted_clients hload)
  have hpre : Runs.AllSteps hubStep FindsSlot (Hub.start w) pre := by
    rw [Runs.allSteps_iff] at hslots ⊢
    rintro before b after rfl
    exact hslots before b (after ++ a :: post) (by simp)
  have hnow := Runs.AllSteps.invariant (Q := fun _ => True)
    (I := fun s : Hub => s.Sound ∧ s.AllSlotted)
    (fun b s _ hslot hs => ⟨hs.1.step b, hs.2.step hs.1 hslot⟩) hstart (fun _ _ => trivial) hpre
  exact served_of_slotted hnow.1 hnow.2 a

theorem findsSlot_of_any {s : Hub} (h : s.world.ctx.clients.slots.any (!·.inUse) = true)
    (a : HubAction) : FindsSlot a s := by
  intro fd kind tableId _ _
  obtain ⟨c, hc, hfree⟩ := List.any_eq_true.mp h
  exact ⟨c, hc, by simpa using hfree⟩

/-- An order of the POS at table 1. -/
def oneOrder : HubAction :=
  .pos (Env.fair 1) (.createOrder 1 ⟨[⟨1, CStr.copy MAX_NAME (lit "Tea"), 900, 1⟩], by decide⟩)

/-- A client comes and is registered. -/
def joins (fd : Int) : List HubAction := [.connect fd, .hello fd (lit "HELLO TABLE 1"), .register fd]

theorem hub_served_one :
    let served := runHub (Hub.start (serverLoadPersistent (World.boot none none)).2) (joins 5)
    Served oneOrder served (hubStep oneOrder served) := by
  rw [firstStart_eq]
  refine hub_served serverLoadPersistent_none ?_ (joins 5) oneOrder [] rfl
  refine ⟨findsSlot_of_any ?_ _, findsSlot_of_any ?_ _, findsSlot_of_any ?_ _, findsSlot_of_any ?_ _,
    trivial⟩
  all_goals decide +kernel

/-- More clients than slots. -/
def crowd : List HubAction := (List.range 65).flatMap fun n => joins n

theorem crowd_unheard :
    let s := runHub (Hub.start firstStart) crowd
    (s.phase 64).isServing = true ∧ s.world.ctx.orders.items.length = 0 ∧
      (hubStep oneOrder s).world.ctx.orders.items.length = 1 ∧
      ((newlySent s.world (hubStep oneOrder s).world).all fun p => p.1 != 64) = true := by
  decide +kernel

theorem hub_unserved :
    ¬ ∀ (configFile menuFile : Option Bytes) (w : World),
      serverLoadPersistent (World.boot configFile menuFile) = (.ok (), w) →
      ∀ (as pre : List HubAction) (a : HubAction) (post : List HubAction), as = pre ++ a :: post →
        Served a (runHub (Hub.start w) pre) (hubStep a (runHub (Hub.start w) pre)) := by
  intro h
  have hserved := h none none firstStart serverLoadPersistent_none (crowd ++ [oneOrder]) crowd oneOrder
    [] rfl
  obtain ⟨hserving, hbefore, hafter, hnone⟩ := crowd_unheard
  obtain ⟨o, ho⟩ := List.length_eq_one_iff.mp hafter
  have htold := hserved.told 64 hserving 0 o (by rw [ho]; rfl) (by
    rw [List.eq_nil_of_length_eq_zero hbefore]
    simp)
  have hother := List.all_eq_true.mp hnone _ htold
  simp at hother

end TableOrder
