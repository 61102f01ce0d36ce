import TableOrder.Client.Requests

/-!
# The client programs and the server

Whatever a client reads and whatever keys are pressed there, its requests are for its own table and
carry values of C types. So the server reads each of them as it was sent, in order and however the
reads cut the stream, and handles it as the request it was (`requests_arrive`).
-/

namespace TableOrder

open CLib
open LineReader (Returned results)

variable (S : IntSem)

/-! ## The programs -/

/-- Where a message of the table client comes from. -/
inductive TableClient.Sends (c : TableClient) : TableSent → Prop
  | menuRequest : c.Sends .menuRequest
  | callStaff : c.Sends (.callStaff c.tableId)
  | orderCreate : c.cart.items ≠ [] → c.Sends (.orderCreate c.tableId c.cart)
  | orderCancel (o : Order) : o ∈ tableOrders c.mirror c.tableId → o.status = .waiting →
      c.Sends (.orderCancel o.orderId)

theorem sends_menuScreenKey {key : Key} {c : TableClient} {msg : TableSent}
    (h : msg ∈ (menuScreenKey S key c).2) : c.Sends msg := by
  unfold menuScreenKey at h
  split at h
  · split at h <;> cases h
  · cases h
  · cases h
  · cases h
  · cases h
  · cases h
  · cases h
  · unfold sidebarSpace at h
    split at h
    · cases h
    · split at h
      · cases h
      · split at h
        · cases h
        · split at h
          · obtain rfl := List.mem_singleton.mp h
            exact .callStaff
          · cases h
  · cases h
  · cases h

theorem sends_popupKey {key : Key} {c : TableClient} {msg : TableSent}
    (h : msg ∈ (popupKey key c).2) : c.Sends msg := by
  unfold popupKey uiSubmitCartOrder at h
  split at h
  · by_cases hempty : c.cart.items = []
    · rw [if_pos hempty] at h
      cases h
    · rw [if_neg hempty] at h
      obtain rfl := List.mem_singleton.mp h
      exact .orderCreate hempty
  · split at h <;> cases h

theorem sends_statusScreenKey {key : Key} {c : TableClient} {msg : TableSent}
    (h : msg ∈ (statusScreenKey key c).2) : c.Sends msg := by
  unfold statusScreenKey at h
  simp only at h
  split at h
  · cases h
  · cases h
  -- both spellings of the cancel key
  iterate 2
    · split at h
      · cases h
      · next target htarget =>
        split at h
        · cases h
        · next hst =>
          obtain rfl := List.mem_singleton.mp h
          exact .orderCancel target (List.mem_of_getElem? htarget) (not_not.mp hst)
  · cases h
  · cases h

theorem sends_tableKey {stray : CartItem} {key : Key} {c : TableClient} {msg : TableSent}
    (h : msg ∈ (tableKey S stray key c).2) : c.Sends msg := by
  unfold tableKey at h
  split at h
  · cases h
  · split at h
    · exact sends_menuScreenKey S h
    · split at h
      · exact sends_popupKey h
      · cases h
    · exact sends_statusScreenKey h

theorem sends_tableLine {c : TableClient} {line : Bytes} {msg : TableSent}
    (h : msg ∈ (tableLine c line).2) : c.Sends msg := by
  have hrequest (hmsg : msg ∈ [TableSent.menuRequest]) : c.Sends msg := by
    obtain rfl := List.mem_singleton.mp hmsg
    exact .menuRequest
  have hnone (hmsg : msg ∈ ([] : List TableSent)) : c.Sends msg := by cases hmsg
  unfold tableLine handshakeLine at h
  split at h
  · repeat (first | exact hnone h | exact hrequest h | split at h)
  · repeat (first | exact hnone h | exact hrequest h | split at h)

theorem sends_tableInput {input : TableInput} {c : TableClient} {msg : TableSent}
    (h : msg ∈ (tableInput S input c).2) : c.Sends msg := by
  cases input with
  | line line => exact sends_tableLine h
  | key stray key => exact sends_tableKey S h

/-- The ids in a mirror were read with `atoi`. -/
def Mirror.IdsFit (orders : Mirror) : Prop := ∀ o ∈ orders.items, FitsInt o.orderId

theorem orderField_idFits {o : Order} (h : FitsInt o.orderId) (tok : Bytes) :
    FitsInt (orderField o tok).orderId := by
  unfold orderField
  split
  · exact atoi_fits _
  · split
    · exact h
    · split
      · exact h
      · split
        · exact h
        · split <;> exact h

theorem protoParseOrderBroadcast_idFits {line : Bytes} {o : Order}
    (h : protoParseOrderBroadcast line = .ok o) : FitsInt o.orderId := by
  have hfields (toks : List Bytes) : ∀ o : Order, FitsInt o.orderId →
      FitsInt (toks.foldl orderField o).orderId := by
    induction toks with
    | nil => exact fun _ ho => ho
    | cons tok toks ih => exact fun o ho => ih _ (orderField_idFits ho tok)
  unfold protoParseOrderBroadcast at h
  split at h
  · simp only at h
    split at h
    · cases h
    · cases h
      exact hfields _ zeroOrder (by decide)
  · cases h

/-- A merge puts the order in and keeps the others. -/
theorem mem_uiMergeOrderMirror {orders : Mirror} {incoming a : Order}
    (h : a ∈ (uiMergeOrderMirror orders incoming).items) : a ∈ orders.items ∨ a = incoming := by
  unfold uiMergeOrderMirror at h
  cases hfind : ordersFindIndex orders.items incoming.orderId with
  | some i =>
    obtain ⟨o, ho, -⟩ := ordersFindIndex_eq_some hfind
    rw [hfind] at h
    simp only [Arr.modify_items, modify_eq_set ho] at h
    exact List.mem_or_eq_of_mem_set h
  | none =>
    rw [hfind] at h
    cases hpush : orders.push? incoming with
    | none =>
      rw [hpush] at h
      exact .inl h
    | some pushed =>
      obtain ⟨-, hitems⟩ := Arr.push?_eq_some.mp hpush
      rw [hpush] at h
      change a ∈ pushed.items at h
      rw [hitems, List.mem_append, List.mem_singleton] at h
      exact h

theorem Mirror.IdsFit.line {orders : Mirror} (h : orders.IdsFit) (line : Bytes) :
    (mirrorLine orders line).IdsFit := by
  unfold mirrorLine
  split
  · split
    · next incoming hparse =>
      intro a ha
      rcases mem_uiMergeOrderMirror ha with hold | rfl
      · exact h a hold
      · exact protoParseOrderBroadcast_idFits hparse
    · exact h
  · exact h

/-- What the messages of a client rest on. -/
structure TableClient.Ready (tableId : Int) (c : TableClient) : Prop where
  tableId : c.tableId = tableId
  client : ClientOk c
  mirror : c.mirror.IdsFit

theorem TableClient.Ready.input {tableId : Int} {c : TableClient} (h : c.Ready tableId)
    (input : TableInput) : (tableInput .wrap input c).1.Ready tableId := by
  have hclient := h.client.input input
  cases input with
  | line line =>
    refine ⟨(tableLine_tableId c line).trans h.tableId, hclient, ?_⟩
    show (tableLine c line).1.mirror.IdsFit
    rw [tableLine_mirror]
    exact h.mirror.line line
  | key stray key =>
    have hrest := (tableKey_effect .wrap stray key c).rest
    refine ⟨hrest.tableId.trans h.tableId, hclient, ?_⟩
    show (tableKey .wrap stray key c).1.mirror.IdsFit
    rw [hrest.mirror]
    exact h.mirror

theorem TableClient.ready_start (tableId : Int) (menuFile : Option Bytes) :
    (TableClient.start tableId menuFile).Ready tableId where
  tableId := rfl
  client := clientOk_start tableId menuFile
  mirror := by
    intro o ho
    cases ho

theorem TableClient.Ready.run {tableId : Int} {c : TableClient} (h : c.Ready tableId)
    (inputs : List TableInput) : (runTable .wrap c inputs).Ready tableId := by
  induction inputs generalizing c with
  | nil => exact h
  | cons input inputs ih => exact ih (h.input input)

theorem TableClient.Ready.asks {tableId : Int} {c : TableClient} (h : c.Ready tableId)
    {msg : TableSent} (hmsg : c.Sends msg) : (Request.table msg).Asks .table tableId := by
  cases hmsg with
  | menuRequest => rfl
  | callStaff => exact ⟨rfl, h.tableId⟩
  | orderCreate hne => exact ⟨rfl, h.tableId, h.client.cart, hne⟩
  | orderCancel o ho _ => exact ⟨rfl, h.mirror o (List.mem_filter.mp ho).1⟩

/-- The messages of a run of the table client, in order. -/
def tableSends (c : TableClient) : List TableInput → List TableSent
  | [] => []
  | input :: inputs => (tableInput S input c).2 ++ tableSends (tableInput S input c).1 inputs

theorem TableClient.Ready.sends {tableId : Int} {c : TableClient} (h : c.Ready tableId)
    (inputs : List TableInput) :
    ∀ msg ∈ tableSends .wrap c inputs, (Request.table msg).Asks .table tableId := by
  induction inputs generalizing c with
  | nil =>
    intro msg hmsg
    cases hmsg
  | cons input inputs ih =>
    intro msg hmsg
    rw [tableSends, List.mem_append] at hmsg
    rcases hmsg with hmsg | hmsg
    · exact h.asks (sends_tableInput .wrap hmsg)
    · exact ih (h.input input) msg hmsg

inductive KitchenInput where
  | line (line : Bytes)
  | key (key : Key)

/-- The kitchen with its cursor. No key is read during the handshake. -/
def kitchenInput : KitchenInput → Kitchen × Nat → (Kitchen × Nat) × List KitchenUpdate
  | .line line, (k, sel) => ((kitchenLine k line, sel), [])
  | .key key, (k, sel) =>
    if !k.handshakeOk then ((k, sel), [])
    else
      let (sel, sent) := kitchenKey k.board sel key
      ((k, sel), sent.toList)

/-- The updates of a run of the kitchen, in order. -/
def kitchenSends (k : Kitchen × Nat) : List KitchenInput → List KitchenUpdate
  | [] => []
  | input :: inputs => (kitchenInput input k).2 ++ kitchenSends (kitchenInput input k).1 inputs

/-- An update is for an order on the board. -/
theorem kitchenKey_onBoard {board : Mirror} {sel : Nat} {key : Key} {u : KitchenUpdate}
    (h : (kitchenKey board sel key).2 = some u) : ∃ o ∈ board.items, o.orderId = u.orderId := by
  unfold kitchenKey at h
  simp only at h
  split at h
  · cases h
  · next oid _ =>
    cases hfind : ordersFind board.items oid with
    | none =>
      rw [hfind] at h
      cases h
    | some p =>
      obtain ⟨i, o⟩ := p
      obtain ⟨ho, hid⟩ := ordersFind_eq_some hfind
      rw [hfind] at h
      obtain ⟨st, -, rfl⟩ := Option.map_eq_some_iff.mp h
      exact ⟨o, List.mem_of_getElem? ho, hid⟩

theorem kitchenInput_idsFit {k : Kitchen} (sel : Nat) (h : k.board.IdsFit) (input : KitchenInput) :
    (kitchenInput input (k, sel)).1.1.board.IdsFit ∧
      ∀ u ∈ (kitchenInput input (k, sel)).2, FitsInt u.orderId := by
  cases input with
  | line line =>
    refine ⟨?_, fun u hu => by cases hu⟩
    show (kitchenLine k line).board.IdsFit
    rw [kitchenLine_board]
    exact h.line line
  | key key =>
    unfold kitchenInput
    simp only
    split
    · exact ⟨h, fun u hu => by cases hu⟩
    · refine ⟨h, ?_⟩
      intro u hu
      obtain ⟨o, ho, hid⟩ := kitchenKey_onBoard (Option.mem_toList.mp hu)
      rw [← hid]
      exact h o ho

theorem kitchenSends_fit {k : Kitchen} {sel : Nat} (h : k.board.IdsFit) (inputs : List KitchenInput) :
    ∀ u ∈ kitchenSends (k, sel) inputs, FitsInt u.orderId := by
  induction inputs generalizing k sel with
  | nil =>
    intro u hu
    cases hu
  | cons input inputs ih =>
    obtain ⟨hboard, hsent⟩ := kitchenInput_idsFit sel h input
    intro u hu
    rw [kitchenSends, List.mem_append] at hu
    rcases hu with hu | hu
    · exact hsent u hu
    · exact ih hboard u hu

/-! ## From the keys to the handlers -/

/-- A client program with everything that it reads and every key that is pressed there. -/
inductive Program where
  | table (tableId : Int) (menuFile : Option Bytes) (inputs : List TableInput)
  | kitchen (inputs : List KitchenInput)

namespace Program

def kind : Program → ClientKind
  | .table _ _ _ => .table
  | .kitchen _ => .kitchen

def tableId : Program → Int
  | .table tableId _ _ => tableId
  | .kitchen _ => 0

def hello : Program → Request
  | .table tableId _ _ => .table (.hello tableId)
  | .kitchen _ => .helloKitchen

/-- What the program sends after its `HELLO`. -/
def requests : Program → List Request
  | .table tableId menuFile inputs =>
    (tableSends .wrap (TableClient.start tableId menuFile) inputs).map .table
  | .kitchen inputs => (kitchenSends (Kitchen.init, 0) inputs).map .update

/-- `main` of the table client takes a positive number. -/
def Valid : Program → Prop
  | .table tableId _ _ => 0 < tableId ∧ FitsInt tableId
  | .kitchen _ => True

end Program

/-- The server reads the requests of the program and handles them. -/
structure Program.Arrives (p : Program) : Prop where
  /-- The lines that the thread of the client reads, however the reads cut the stream, and then the
  end of it. -/
  reads : ∀ splits : List (Nat → Nat),
    results (sockReadLine MAX_PROTO_LINE) SOCK_READER_SIZE splits []
        ((p.hello :: p.requests).flatMap Request.text) =
      ((p.hello :: p.requests).map (fun r : Request => Returned.line r.line) ++
        [Returned.closed]).take splits.length
  greeted : handshake p.hello.line = .ok (p.kind, p.tableId)
  handled : ∀ r ∈ p.requests, ∀ (env : Env) (w : World) (fd : Int),
    clientTurn .wrap env w fd p.kind p.tableId r.line = r.turn .wrap env w fd p.tableId

theorem Program.Valid.asks {p : Program} (h : p.Valid) :
    ∀ r ∈ p.requests, r.Asks p.kind p.tableId := by
  intro r hr
  cases p with
  | table tableId menuFile inputs =>
    obtain ⟨msg, hmsg, rfl⟩ := List.mem_map.mp hr
    exact (TableClient.ready_start tableId menuFile).sends inputs msg hmsg
  | kitchen inputs =>
    obtain ⟨u, hu, rfl⟩ := List.mem_map.mp hr
    exact ⟨rfl, kitchenSends_fit (fun o ho => by cases ho) inputs u hu⟩

theorem isLine_hello {tableId : Int} (hfits : FitsInt tableId) :
    IsLine (TableSent.hello tableId).text (lit "HELLO TABLE " ++ fmtInt tableId) :=
  isLine_number (by decide) (by decide) (by decide) hfits

/-- The number behind the blank of the header. -/
theorem handshake_hello {tableId : Int} (htable : 0 < tableId) (hfits : FitsInt tableId) :
    handshake (lit "HELLO TABLE " ++ fmtInt tableId) = .ok (.table, tableId) := by
  have hdrop : (lit "HELLO TABLE " ++ fmtInt tableId).drop (lit "HELLO TABLE").length =
      ch ' ' :: fmtInt tableId := rfl
  have hblanks : (ch ' ' :: fmtInt tableId).dropWhile isSpace = fmtInt tableId := by
    obtain ⟨b, digits, hdigits⟩ := List.exists_cons_of_ne_nil (fmtInt_ne_nil tableId)
    have hb : isSpace b = false := not_space_of_mem_fmtInt (hdigits ▸ List.mem_cons_self)
    have hblank : isSpace (ch ' ') = true := by decide
    rw [List.dropWhile_cons_of_pos hblank, hdigits, List.dropWhile_cons_of_neg (by rw [hb]; decide)]
  have hparse : protoParseHelloTable (lit "HELLO TABLE " ++ fmtInt tableId) = .ok tableId := by
    have hhead : startsWith (lit "HELLO TABLE") (lit "HELLO TABLE " ++ fmtInt tableId) = true := rfl
    rw [protoParseHelloTable, if_pos hhead, hdrop, hblanks]
    simp only [atoi_fmtInt hfits]
    rw [if_neg (not_le.mpr htable)]
  have hhead : startsWith (lit "HELLO TABLE") (lit "HELLO TABLE " ++ fmtInt tableId) = true := rfl
  rw [handshake, if_pos hhead, hparse]

/-- Whatever a client reads and whatever keys are pressed there, the server reads each of its requests
as it was sent, and does what was asked. -/
theorem requests_arrive {p : Program} (hp : p.Valid) : p.Arrives := by
  have hfits : FitsInt p.tableId := by
    cases p with
    | table tableId menuFile inputs => exact hp.2
    | kitchen inputs =>
      show FitsInt 0
      decide
  have hpos : p.kind = .table → 0 < p.tableId := by
    intro hkind
    cases p with
    | table tableId menuFile inputs => exact hp.1
    | kitchen inputs => cases hkind
  have hhello : ∃ line, IsLine p.hello.text line ∧ handshake line = .ok (p.kind, p.tableId) := by
    cases p with
    | table tableId menuFile inputs =>
      exact ⟨_, isLine_hello hp.2, handshake_hello hp.1 hp.2⟩
    | kitchen inputs => exact ⟨lit "HELLO KITCHEN", ⟨rfl, by decide, by decide⟩, by rfl⟩
  obtain ⟨line, hline, hgreeted⟩ := hhello
  have hhello : p.hello.line = line := hline.netLine
  constructor
  · apply requests_read
    intro r hr
    rcases List.mem_cons.mp hr with rfl | hr
    · rw [hhello]
      exact hline
    · exact (hp.asks r hr).isLine hfits
  · rw [hhello]
    exact hgreeted
  · intro r hr env w fd
    exact (hp.asks r hr).turn .wrap hpos hfits env w fd

/-- Table 7 orders a dish, sees it on its screen and takes it back. -/
def secondThoughts : Program :=
  .table 7 none ([.line (lit "OK|hello"), .key emptySlot (.char ' '), .key emptySlot .left] ++
    List.replicate 6 (.key emptySlot .down) ++
    [.key emptySlot (.char ' '), .key emptySlot (.char 'z'), .key emptySlot (.char 'y'),
      .line (orderEvent { riceOrder 41 .waiting with tableId := 7 }), .key emptySlot (.char 'c')])

theorem requests_arrive_secondThoughts : secondThoughts.Arrives :=
  requests_arrive ⟨by decide, by decide⟩

end TableOrder
