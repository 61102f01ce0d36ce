import TableOrder.Client.MenuSync

/-!
# All table clients

The server with any number of table clients, each with the queue between its two threads, and with the
POS and the kitchens. Lines arrive in order and whole; the queue drops a line that finds it full.

A client whose queue drops nothing is a `Visit` that has read what was popped from the queue. So every
client follows the menu (`shopInv_step`), and its catalog is the image of the menu whenever nothing
is under way to it (`menu_synced`).
-/

namespace TableOrder

open CLib

/-- A table client, its messages and its thread at the server. -/
structure Seat where
  client : TableClient
  uplink : List TableSent
  /-- The number of texts that the network thread has read from the socket. -/
  received : Nat
  queue : UiNetQueue
  thread : ClientThread
  todo : List Op

structure Shop where
  world : World
  /-- The POS has changed the menu and not broadcast it yet. -/
  syncDue : Bool
  /-- The table clients by their sockets. -/
  seats : Int → Option Seat

inductive ShopAction where
  /-- The socket of a new client is one that no client has. -/
  | connect (fd tableId : Int) (menuFile : Option Bytes)
  | close (fd : Int)
  /-- The thread of the client at the server. -/
  | thread (fd : Int) (env : Env)
  /-- The network thread of the client. -/
  | receive (fd : Int)
  /-- The user interface takes a line from the queue. -/
  | pop (fd : Int)
  | key (fd : Int) (stray : CartItem) (key : Key)
  /-- The POS thread, or the thread of a kitchen. -/
  | server (env : Env) (op : Op)

/-- What the user interface has handled, as a visit. -/
def Seat.visit (seat : Seat) (w : World) : Visit where
  world := w
  client := seat.client
  uplink := seat.uplink
  seen := seat.received - seat.queue.items.length
  thread := seat.thread
  todo := seat.todo

def Seat.start (fd tableId : Int) (menuFile : Option Bytes) (w : World) : Seat where
  client := TableClient.start tableId menuFile
  uplink := [.hello tableId]
  received := (textsTo fd w.sent).length
  queue := Arr.empty Bytes 128
  thread := .fresh
  todo := []

def Seat.receive (fd : Int) (w : World) (seat : Seat) : Seat :=
  match (textsTo fd w.sent)[seat.received]? with
  | none => seat
  | some text =>
    { seat with received := seat.received + 1, queue := uiNetEnqueue seat.queue (netLine text) }

def Seat.pop (seat : Seat) : Seat :=
  match uiNetPop seat.queue with
  | none => seat
  | some (line, queue) =>
    let (c, sent) := tableLine seat.client line
    { seat with client := c, uplink := seat.uplink ++ sent, queue := queue }

def Seat.key (stray : CartItem) (key : Key) (seat : Seat) : Seat :=
  let (c, sent) := tableKey .wrap stray key seat.client
  { seat with client := c, uplink := seat.uplink ++ sent }

def Shop.updateSeat (s : Shop) (fd : Int) (f : Seat → Seat) : Shop :=
  match s.seats fd with
  | none => s
  | some seat => { s with seats := Function.update s.seats fd (some (f seat)) }

def shopStep : ShopAction → Shop → Shop
  | .connect fd tableId menuFile, s =>
    if (s.seats fd).isNone ∧ fd ∉ s.world.ctx.receivers then
      { s with seats := Function.update s.seats fd (some (Seat.start fd tableId menuFile s.world)) }
    else s
  | .close fd, s =>
    match s.seats fd with
    | none => s
    | some _ =>
      { s with
        world := { s.world with ctx := serverUnregisterFd s.world.ctx fd }
        seats := Function.update s.seats fd none }
  | .thread fd env, s =>
    match s.seats fd with
    | none => s
    | some seat =>
      let v := visitStep fd (.thread env) (seat.visit s.world)
      { s with
        world := v.world
        seats := Function.update s.seats fd
          (some { seat with uplink := v.uplink, thread := v.thread, todo := v.todo }) }
  | .receive fd, s => s.updateSeat fd (Seat.receive fd s.world)
  | .pop fd, s => s.updateSeat fd Seat.pop
  | .key fd stray key, s => s.updateSeat fd (Seat.key stray key)
  | .server env op, s =>
    -- no other thread writes to the socket of a client of its own, lets it in or drops it
    if op.socket.any fun fd => (s.seats fd).isSome then s
    else { s with world := step .wrap (env, op) s.world, syncDue := op.syncDue s.syncDue }

def Shop.start (w : World) : Shop := ⟨w, false, fun _ => none⟩

def runShop (s : Shop) (as : List ShopAction) : Shop := Runs.run shopStep s as

/-- The menu that the action stores. -/
def ShopAction.menu? : ShopAction → Option MenuCatalog
  | .server _ (.changeMenu menu) => some menu
  | _ => none

/-- The response for a menu that the action stores fits a line. -/
def ShopAction.MenuFits (a : ShopAction) : Prop := ∀ menu ∈ a.menu?, TableOrder.MenuFits menu

instance (a : ShopAction) : Decidable a.MenuFits :=
  inferInstanceAs (Decidable (∀ menu ∈ a.menu?, TableOrder.MenuFits menu))

/-- A line that arrives finds room in the queue. -/
def ShopAction.Delivers : ShopAction → Shop → Prop
  | .receive fd, s => ∀ seat ∈ s.seats fd, seat.queue.items.length < 128
  | _, _ => True

instance : (a : ShopAction) → (s : Shop) → Decidable (a.Delivers s)
  | .receive fd, s =>
    inferInstanceAs (Decidable (∀ seat ∈ s.seats fd, seat.queue.items.length < 128))
  | .connect _ _ _, _ => isTrue trivial
  | .close _, _ => isTrue trivial
  | .thread _ _, _ => isTrue trivial
  | .pop _, _ => isTrue trivial
  | .key _ _ _, _ => isTrue trivial
  | .server _ _, _ => isTrue trivial

/-! ## One seat -/

/-- The queue holds the lines of the last texts that were received. -/
def Seat.Queued (seat : Seat) (fd : Int) (w : World) : Prop :=
  ∃ handled queued rest, textsTo fd w.sent = handled ++ queued ++ rest ∧
    seat.queue.items = queued.map netLine ∧ seat.received = handled.length + queued.length

theorem queued_start (fd tableId : Int) (menuFile : Option Bytes) (w : World) :
    (Seat.start fd tableId menuFile w).Queued fd w :=
  ⟨textsTo fd w.sent, [], [], by simp, rfl, rfl⟩

theorem Seat.Queued.world {seat : Seat} {fd : Int} {w w' : World} (h : seat.Queued fd w) {ms : List Bytes}
    (htexts : textsTo fd w'.sent = textsTo fd w.sent ++ ms) : seat.Queued fd w' := by
  obtain ⟨handled, queued, rest, hsplit, hqueue, hreceived⟩ := h
  refine ⟨handled, queued, rest ++ ms, ?_, hqueue, hreceived⟩
  rw [htexts, hsplit, List.append_assoc]

/-- What a line on its way becomes in the queue, the user interface does not see. -/
theorem Seat.Queued.receive {seat : Seat} {fd : Int} {w : World} (h : seat.Queued fd w)
    (hroom : seat.queue.items.length < 128) :
    (seat.receive fd w).Queued fd w ∧ (seat.receive fd w).visit w = seat.visit w := by
  cases htext : (textsTo fd w.sent)[seat.received]? with
  | none =>
    simp only [Seat.receive, htext]
    exact ⟨h, trivial⟩
  | some text =>
    obtain ⟨handled, queued, rest, hsplit, hqueue, hreceived⟩ := h
    have hitems := uiNetEnqueue_items hroom text
    have hnext : rest.head? = some text := by
      rw [hsplit, hreceived, ← List.length_append, List.getElem?_append_right (le_refl _), Nat.sub_self,
        ← List.head?_eq_getElem?] at htext
      exact htext
    obtain ⟨rest, rfl⟩ := List.head?_eq_some_iff.mp hnext
    simp only [Seat.receive, htext]
    refine ⟨⟨handled, queued ++ [text], rest, ?_, ?_, ?_⟩, ?_⟩
    · rw [hsplit]
      simp
    · rw [hitems, hqueue, List.map_append]
      rfl
    · rw [hreceived, List.length_append]
      rfl
    · simp only [Seat.visit, hitems, List.length_append, List.length_singleton, Nat.add_sub_add_right]

/-- A line that is popped is the next one that the visit reads. -/
theorem Seat.Queued.pop {seat : Seat} {fd : Int} {w : World} (h : seat.Queued fd w) :
    seat.pop = seat ∨ seat.pop.Queued fd w ∧ seat.pop.visit w = visitStep fd .read (seat.visit w) := by
  cases hpop : uiNetPop seat.queue with
  | none =>
    left
    simp only [Seat.pop, hpop]
  | some popped =>
    right
    obtain ⟨line, queue⟩ := popped
    obtain ⟨handled, queued, rest, hsplit, hqueue, hreceived⟩ := h
    obtain ⟨first, hitems, hline⟩ := uiNetPop_eq_some hpop
    rw [hitems] at hqueue
    obtain ⟨text, queued, rfl, rfl, hrest⟩ := List.map_eq_cons_iff.mp hqueue.symm
    rw [clip_netLine] at hline
    subst hline
    -- what the visit has read are the texts before the queue
    have hseen : seat.received - seat.queue.items.length = handled.length := by
      rw [hreceived, hitems, ← hrest, List.length_cons, List.length_cons, List.length_map]
      exact Nat.add_sub_cancel _ _
    have hnext : (textsTo fd w.sent)[handled.length]? = some text := by
      rw [hsplit, List.append_assoc, List.getElem?_append_right (le_refl _), Nat.sub_self]
      rfl
    have hafter : seat.received - queue.items.length = handled.length + 1 := by
      rw [hreceived, ← hrest, List.length_cons, List.length_map]
      omega
    refine ⟨⟨handled ++ [text], queued, rest, ?_, ?_, ?_⟩, ?_⟩
    · rw [hsplit]
      simp
    · simp only [Seat.pop, hpop]
      exact hrest.symm
    · simp only [Seat.pop, hpop]
      rw [hreceived, List.length_append, List.length_cons, List.length_singleton]
      omega
    · simp only [Seat.pop, hpop, Seat.visit, visitStep, hseen, hnext, hafter]

structure SeatInv (fd : Int) (due : Bool) (w : World) (seat : Seat) : Prop where
  follows : Follows fd due (seat.visit w)
  queued : seat.Queued fd w

theorem SeatInv.overhears {fd : Int} {due due' : Bool} {w w' : World} {seat : Seat}
    (h : SeatInv fd due w seat) (hover : Overhears fd due w due' w') : SeatInv fd due' w' seat := by
  obtain ⟨ms, htexts, -⟩ := hover.texts
  exact ⟨h.follows.overhears hover, h.queued.world htexts⟩

theorem seatInv_start (fd tableId : Int) (menuFile : Option Bytes) {w : World}
    (hout : fd ∉ w.ctx.receivers) (due : Bool) :
    SeatInv fd due w (Seat.start fd tableId menuFile w) :=
  ⟨follows_start fd tableId menuFile hout due, queued_start fd tableId menuFile w⟩

theorem SeatInv.receive {fd : Int} {due : Bool} {w : World} {seat : Seat} (h : SeatInv fd due w seat)
    (hroom : seat.queue.items.length < 128) : SeatInv fd due w (seat.receive fd w) := by
  obtain ⟨hqueued, hvisit⟩ := h.queued.receive hroom
  refine ⟨?_, hqueued⟩
  rw [hvisit]
  exact h.follows

theorem SeatInv.pop {fd : Int} {due : Bool} {w : World} {seat : Seat} (h : SeatInv fd due w seat) :
    SeatInv fd due w seat.pop := by
  rcases h.queued.pop with hnone | ⟨hqueued, hvisit⟩
  · rw [hnone]
    exact h
  · refine ⟨?_, hqueued⟩
    rw [hvisit]
    exact h.follows.read

theorem SeatInv.key {fd : Int} {due : Bool} {w : World} {seat : Seat} (h : SeatInv fd due w seat)
    (stray : CartItem) (key : Key) : SeatInv fd due w (seat.key stray key) :=
  ⟨h.follows.key stray key, h.queued⟩

/-- What the thread does to the seat, and to the world. -/
theorem SeatInv.thread {fd : Int} {due : Bool} {w : World} {seat : Seat} (h : SeatInv fd due w seat)
    (hmenu : MenuFits w.ctx.menu) (env : Env) :
    let v := visitStep fd (.thread env) (seat.visit w)
    SeatInv fd due v.world { seat with uplink := v.uplink, thread := v.thread, todo := v.todo } := by
  intro v
  obtain ⟨hclient, hseen, ms, htexts⟩ := visitStep_thread fd env (seat.visit w)
  have hvisit : ({ seat with uplink := v.uplink, thread := v.thread, todo := v.todo } : Seat).visit v.world =
      v := by
    have hclient : v.client = seat.client := hclient
    have hseen : v.seen = seat.received - seat.queue.items.length := hseen
    simp only [Seat.visit, ← hclient, ← hseen]
  refine ⟨?_, ?_⟩
  · rw [hvisit]
    exact h.follows.thread hmenu env
  · exact h.queued.world htexts

/-! ## All seats -/

structure ShopInv (s : Shop) : Prop where
  menu : MenuFits s.world.ctx.menu
  seats : ∀ fd seat, s.seats fd = some seat → SeatInv fd s.syncDue s.world seat

theorem shopInv_start {w : World} (h : MenuFits w.ctx.menu) : ShopInv (Shop.start w) :=
  ⟨h, by rintro fd seat ⟨⟩⟩

theorem Overhears.menuFits {fd : Int} {w w' : World} (h : Overhears fd false w false w')
    (hw : MenuFits w.ctx.menu) : MenuFits w'.ctx.menu := by
  rw [h.menu.resolve_right Bool.false_ne_true]
  exact hw

/-- One seat changes or goes, and the other clients overhear what happened. -/
theorem ShopInv.update {s : Shop} (hs : ShopInv s) {fd : Int} {seat? : Option Seat} {w' : World}
    (hother : ∀ fd', fd ≠ fd' → ∀ due, Overhears fd' due s.world due w')
    (hseat : ∀ seat, seat? = some seat → SeatInv fd s.syncDue w' seat) :
    ShopInv { s with world := w', seats := Function.update s.seats fd seat? } := by
  refine ⟨(hother (fd + 1) (by omega) false).menuFits hs.menu, ?_⟩
  intro fd' seat' hseat'
  show SeatInv fd' s.syncDue w' seat'
  have hseat' : Function.update s.seats fd seat? fd' = some seat' := hseat'
  by_cases hfd : fd = fd'
  · subst hfd
    rw [Function.update_self] at hseat'
    exact hseat seat' hseat'
  · rw [Function.update_of_ne (Ne.symm hfd)] at hseat'
    exact (hs.seats fd' seat' hseat').overhears (hother fd' hfd s.syncDue)

/-- A step of the client alone. -/
theorem ShopInv.updateSeat {s : Shop} (hs : ShopInv s) {fd : Int} {f : Seat → Seat}
    (hf : ∀ seat, s.seats fd = some seat → SeatInv fd s.syncDue s.world (f seat)) :
    ShopInv (s.updateSeat fd f) := by
  unfold Shop.updateSeat
  split
  · exact hs
  · next seat hseat =>
    apply hs.update
    · exact fun fd' _ due => .refl fd' due s.world
    · rintro _ ⟨⟩
      exact hf seat hseat

theorem shopInv_step {s : Shop} (hs : ShopInv s) {a : ShopAction} (hmenu : a.MenuFits)
    (hroom : a.Delivers s) : ShopInv (shopStep a s) := by
  cases a with
  | connect fd tableId menuFile =>
    simp only [shopStep]
    split
    · next hfree =>
      apply hs.update
      · exact fun fd' _ due => .refl fd' due s.world
      · rintro _ ⟨⟩
        exact seatInv_start fd tableId menuFile hfree.2 s.syncDue
    · exact hs
  | close fd =>
    simp only [shopStep]
    split
    · exact hs
    · apply hs.update
      · -- for the others this is the operation that drops a client
        intro fd' hne due
        have hsocket : (Op.leave fd).socket ≠ some fd' := fun h => hne (Option.some.inj h)
        exact Op.overhears (Env.fair 0) s.world hsocket due
      · rintro _ ⟨⟩
  | thread fd env =>
    simp only [shopStep]
    split
    · exact hs
    · next seat hseat =>
      have hinv := hs.seats fd seat hseat
      apply hs.update
      · intro fd' hne due
        exact hinv.follows.elsewhere hne (by rintro b ⟨⟩) due
      · rintro _ ⟨⟩
        exact hinv.thread hs.menu env
  | receive fd => exact hs.updateSeat fun seat hseat => (hs.seats fd seat hseat).receive (hroom seat hseat)
  | pop fd => exact hs.updateSeat fun seat hseat => (hs.seats fd seat hseat).pop
  | key fd stray key => exact hs.updateSeat fun seat hseat => (hs.seats fd seat hseat).key stray key
  | server env op =>
    simp only [shopStep]
    split
    · exact hs
    · next hfree =>
      refine ⟨?_, ?_⟩
      · rcases (op.effect .wrap env s.world).menu with hsame | hchange
        · show MenuFits (op.run .wrap env s.world).2.ctx.menu
          rw [hsame]
          exact hs.menu
        · apply hmenu
          rw [hchange]
          exact rfl
      · intro fd seat hseat
        have hseat : s.seats fd = some seat := hseat
        refine (hs.seats fd seat hseat).overhears (Op.overhears env s.world ?_ s.syncDue)
        -- the guard of the step keeps it away from the sockets of the table clients
        intro hsocket
        rw [hsocket, Option.any_some, hseat] at hfree
        exact hfree rfl

/-! ## The menu of every client -/

/-- Nothing is under way to this client or from it, and its thread has no request to handle. -/
structure Seat.Quiet (seat : Seat) (fd : Int) (w : World) : Prop where
  received : (textsTo fd w.sent).length ≤ seat.received
  queue : seat.queue.items = []
  uplink : seat.uplink = []
  todo : seat.todo = []

/-- In every run in which the queues drop no line: whenever the POS has broadcast its last change, every
registered client that is past its handshake and has nothing under way shows the current menu. Where
every item has a name and a positive id, these are the items of the server, cleaned, in their order. -/
theorem menu_synced {w : World} {as : List ShopAction} (hstart : MenuFits w.ctx.menu)
    (hmenus : ∀ a ∈ as, a.MenuFits)
    (hdelivered : Runs.AllSteps shopStep ShopAction.Delivers (Shop.start w) as) :
    let s := runShop (Shop.start w) as
    s.syncDue = false → ∀ fd seat, s.seats fd = some seat → seat.Quiet fd s.world →
      seat.client.handshakeOk = true → fd ∈ s.world.ctx.receivers →
      seat.client.cat = wireImage s.world.ctx.menu ∧
        ((∀ m ∈ s.world.ctx.menu.items, m.Fits ∧ 0 < m.id ∧ m.name.bytes ≠ []) →
          seat.client.cat.items = s.world.ctx.menu.items.map wireItem) := by
  intro s hdue fd seat hseat hquiet hshaken hin
  have hinv : ShopInv s := by
    apply Runs.AllSteps.invariant (Q := ShopAction.MenuFits) ?_ (shopInv_start hstart) hmenus hdelivered
    intro a s' hmenu hroom hs'
    exact shopInv_step hs' hmenu hroom
  have hcat : seat.client.cat = wireImage s.world.ctx.menu := by
    have hfollows := (hinv.seats fd seat hseat).follows
    rw [hdue] at hfollows
    refine hfollows.settled hquiet.todo hquiet.uplink ?_ hshaken hin
    show (textsTo fd s.world.sent).drop (seat.received - seat.queue.items.length) = []
    rw [hquiet.queue]
    exact List.drop_of_length_le hquiet.received
  refine ⟨hcat, ?_⟩
  intro hitems
  rw [hcat]
  exact wireImage_items hinv.menu (fun m hm => (hitems m hm).1) (fun m hm => (hitems m hm).2.1)
    (fun m hm => (hitems m hm).2.2)

/-- A client comes in and asks for the menu. Before the response leaves, the POS stores another menu,
and its notice overtakes the response. -/
def overtakenResponse : List ShopAction :=
  let env := Env.fair 0
  [.connect 3 1 none, .thread 3 env, .thread 3 env, .thread 3 env, .receive 3, .pop 3, .thread 3 env,
    .server env (.changeMenu twoDishMenu), .server env .menuSync, .thread 3 env,
    .receive 3, .receive 3, .pop 3, .pop 3, .thread 3 env, .thread 3 env, .receive 3, .pop 3]

theorem menu_synced_overtaken :
    let s := runShop (Shop.start (serverLoadPersistent (World.boot none none)).2) overtakenResponse
    (s.seats 3).map (·.client.cat) = some (wireImage s.world.ctx.menu) ∧
      (s.seats 3).map (·.client.cat.items) = some (s.world.ctx.menu.items.map wireItem) := by
  rw [firstStart_eq]
  have hstart : MenuFits firstStart.ctx.menu := by decide +kernel
  have hmenus : ∀ a ∈ overtakenResponse, a.MenuFits := by decide +kernel
  have hdelivered : Runs.AllSteps shopStep ShopAction.Delivers
      (Shop.start firstStart) overtakenResponse := by
    decide +kernel
  have hsynced := menu_synced hstart hmenus hdelivered
  simp only at hsynced ⊢
  generalize hs : runShop (Shop.start firstStart)
    overtakenResponse = s at hsynced ⊢
  have hdue : s.syncDue = false := by
    rw [← hs]
    decide +kernel
  have hend : (s.seats 3).any (fun seat => decide ((textsTo 3 s.world.sent).length ≤ seat.received ∧
      seat.queue.items = [] ∧ seat.uplink = [] ∧ seat.todo.isEmpty = true ∧
      seat.client.handshakeOk = true ∧ 3 ∈ s.world.ctx.receivers)) = true := by
    rw [← hs]
    decide +kernel
  obtain ⟨seat, hseat, hend⟩ := (Option.any_eq_true _ _).mp hend
  obtain ⟨hreceived, hqueue, huplink, htodo, hshaken, hin⟩ := of_decide_eq_true hend
  have hquiet : seat.Quiet 3 s.world := ⟨hreceived, hqueue, huplink, List.isEmpty_iff.mp htodo⟩
  have hmenu : s.world.ctx.menu.items = twoDishMenu.items := by
    rw [← hs]
    decide +kernel
  obtain ⟨hcat, hitems⟩ := hsynced hdue 3 seat hseat hquiet hshaken hin
  rw [hseat, Option.map_some, Option.map_some]
  exact ⟨congrArg some hcat, congrArg some (hitems (hmenu ▸ twoDishMenu_items))⟩

end TableOrder
