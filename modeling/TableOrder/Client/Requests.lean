import TableOrder.Client.KitchenBoard
import TableOrder.Server.KitchenUpdate
import TableOrder.SocketLines

/-!
# The requests of the clients

What the two client programs ask of the server goes there as text, one line for each request. Here a
request is followed from the call of `ui_send_line` to the handler. The server reads such lines as they
were sent (`requests_read`), and handles each as the request it was: `Request.turn` is what it does with
the values, without a text or a parser.
-/

namespace TableOrder

open CLib
open LineReader (Returned results joined BreaksOff)

/-! ## Requests -/

/-- One constructor for each client and its handshake. -/
inductive Request where
  | table (msg : TableSent)
  | helloKitchen
  | update (u : KitchenUpdate)

def Request.text : Request → Bytes
  | .table msg => msg.text
  | .helloKitchen => lit "HELLO KITCHEN\n"
  | .update u => u.text

/-- The line as it is read by the thread of the client. -/
def Request.line (r : Request) : Bytes := netLine r.text

variable (S : IntSem)

/-- A request for the lines of a cart, up to the unlock. -/
def cartRequested (env : Env) (w : World) (tableId : Int) (cart : Cart) :
    Except Reply Order × World :=
  if ∀ it ∈ cart.items, 0 < it.qty then
    orderCreateLocked S env w tableId ((cartContent cart).map pairItem)
  else (.error (.error (lit "bad menu/qty")), w)

/-- A request to cancel an order, up to its reply. -/
def cancelRequested (w : World) (tableId orderId : Int) : Except Bytes Unit × World :=
  if orderId ≤ 0 then (.error (lit "bad order_id"), w) else serverCancelOrder S w orderId tableId

/-- A status change, which has no reply. -/
def updateRequested (env : Env) (w : World) (u : KitchenUpdate) : World :=
  if u.orderId ≤ 0 then w else (serverUpdateOrderStatus S env w u.orderId u.status).2

/-- What the server does with a request after the handshake: the first critical section, and what the
thread has still to do after it. -/
def Request.turn (env : Env) (w : World) (fd tableId : Int) : Request → List Op × World
  | .table .menuRequest => ([.reply fd (.menu w.ctx.menu)], w)
  | .table (.orderCreate _ cart) =>
    let (res, w) := cartRequested S env w tableId cart
    ([.reply fd (orderCreateReply res)], w)
  | .table (.orderCancel orderId) =>
    let (res, w) := cancelRequested S w tableId orderId
    ([.reply fd (orderCancelReply res)], w)
  | .table (.callStaff tbl) =>
    ([.staffCall tbl, .staffTouch, .staffBroadcast tbl, .staffLog tbl, .reply fd .staffCalled], w)
  | .update u => ([], updateRequested S env w u)
  | .table (.hello _) => ([.reply fd .unknown], w)
  | .helloKitchen => ([.reply fd .unknown], w)

/-! ## The texts -/

/-- Bytes that may stand in a line. -/
def PlainBytes (s : Bytes) : Prop := ∀ b ∈ s, b ≠ 0 ∧ isLineEnd b = false

instance (s : Bytes) : Decidable (PlainBytes s) :=
  decidable_of_iff ((s.all fun b => b != 0 && !isLineEnd b) = true) (by simp [PlainBytes])

theorem PlainBytes.append {s s' : Bytes} (h : PlainBytes s) (h' : PlainBytes s') :
    PlainBytes (s ++ s') := List.forall_mem_append.mpr ⟨h, h'⟩

theorem plain_of_ne {s : Bytes} (hnul : 0 ∉ s) (hr : ch '\r' ∉ s) (hn : ch '\n' ∉ s) :
    PlainBytes s := by
  intro b hb
  have hb0 : b ≠ 0 := fun h => hnul (h ▸ hb)
  have hbr : b ≠ ch '\r' := fun h => hr (h ▸ hb)
  have hbn : b ≠ ch '\n' := fun h => hn (h ▸ hb)
  simp [isLineEnd, hb0, hbr, hbn]

theorem plain_fmtInt (x : Int) : PlainBytes (fmtInt x) :=
  plain_of_ne (not_mem_fmtInt (by decide) (by decide) x) (not_mem_fmtInt (by decide) (by decide) x)
    (not_mem_fmtInt (by decide) (by decide) x)

theorem plain_orderCreateText (tableId : Int) (ps : List (Int × Int)) :
    PlainBytes (orderCreateText tableId ps) := by
  apply plain_of_ne <;>
    exact not_mem_orderCreateText (by decide) (by decide) (by decide) (by decide) (by decide)

theorem plain_statusToString (st : OrderStatus) : PlainBytes (statusToString st) := by
  cases st <;> decide

/-- The text is this line with its newline, and the line fits the reader. -/
structure IsLine (text line : Bytes) : Prop where
  text : text = line ++ lit "\n"
  plain : PlainBytes line
  short : line.length < SOCK_READER_SIZE

/-- A text that is printed into a buffer large enough. -/
theorem isLine_clip {size : Nat} {line : Bytes} (hplain : PlainBytes line) (hlen : line.length + 1 < size)
    (hsize : size ≤ SOCK_READER_SIZE) : IsLine (clip size (line ++ lit "\n")) line where
  text := by
    apply clip_eq_self
    rw [List.length_append]
    exact hlen
  plain := hplain
  short := by omega

theorem IsLine.netLine {text line : Bytes} (h : IsLine text line) : netLine text = line := by
  rw [h.text]
  exact netLine_line (fun b hb => (h.plain b hb).2) (lt_trans h.short (by decide))

/-- What a client asks for after its handshake: values of C types, for its own table. -/
def Request.Asks (kind : ClientKind) (tableId : Int) : Request → Prop
  | .table .menuRequest => kind = .table
  | .table (.orderCreate t cart) =>
    kind = .table ∧ t = tableId ∧ CartOk cart ∧ cart.items ≠ []
  | .table (.orderCancel orderId) => kind = .table ∧ FitsInt orderId
  | .table (.callStaff t) => kind = .table ∧ t = tableId
  | .update u => kind = .kitchen ∧ FitsInt u.orderId
  | .table (.hello _) => False
  | .helloKitchen => False

theorem isLine_orderCreate {tableId : Int} (hfits : FitsInt tableId) {cart : Cart}
    (hcart : CartOk cart) : IsLine (TableSent.orderCreate tableId cart).text
      (orderCreateText tableId (cartContent cart)) where
  text := orderCreate_text hfits hcart
  plain := plain_orderCreateText tableId (cartContent cart)
  short := by
    have hlen := length_orderCreateText_le hfits hcart.fits (length_cartContent_le cart)
    show _ < 8192
    omega

/-- A request that is a word with one number behind it. -/
theorem isLine_number {size : Nat} {word : Bytes} (hword : PlainBytes word)
    (hsize : word.length + 12 < size) (hmax : size ≤ SOCK_READER_SIZE) {n : Int} (hfits : FitsInt n) :
    IsLine (clip size (word ++ fmtInt n ++ lit "\n")) (word ++ fmtInt n) := by
  apply isLine_clip (hword.append (plain_fmtInt n)) _ hmax
  have hlen := length_fmtInt_le hfits
  rw [List.length_append]
  omega

def orderUpdateText (u : KitchenUpdate) : Bytes :=
  lit "ORDER_UPDATE|order_id=" ++ fmtInt u.orderId ++ lit "|status=" ++ statusToString u.status

theorem length_statusToString_le (st : OrderStatus) : (statusToString st).length ≤ 9 := by
  cases st <;> decide

theorem isLine_update {u : KitchenUpdate} (hfits : FitsInt u.orderId) :
    IsLine u.text (orderUpdateText u) := by
  have hword : PlainBytes (lit "ORDER_UPDATE|order_id=") := by decide
  have hstatus : PlainBytes (lit "|status=") := by decide
  refine isLine_clip ?_ ?_ (by decide)
  · exact ((hword.append (plain_fmtInt _)).append hstatus).append (plain_statusToString _)
  · have hid := length_fmtInt_le hfits
    have hst := length_statusToString_le u.status
    have h₁ : (lit "ORDER_UPDATE|order_id=").length = 22 := by decide
    have h₂ : (lit "|status=").length = 8 := by decide
    simp only [List.length_append, h₁, h₂]
    omega

/-- Every request is one line. -/
theorem Request.Asks.isLine {kind : ClientKind} {tableId : Int} (hfits : FitsInt tableId) {r : Request}
    (h : r.Asks kind tableId) : IsLine r.text r.line := by
  have hline : ∃ line, IsLine r.text line := by
    cases r with
    | table msg =>
      cases msg with
      | hello t => cases h
      | menuRequest => exact ⟨lit "MENU_REQUEST", rfl, by decide, by decide⟩
      | callStaff t =>
        obtain ⟨-, rfl⟩ := h
        exact ⟨_, isLine_number (by decide) (by decide) (by decide) hfits⟩
      | orderCreate t cart =>
        obtain ⟨-, rfl, hcart, -⟩ := h
        exact ⟨_, isLine_orderCreate hfits hcart⟩
      | orderCancel orderId => exact ⟨_, isLine_number (by decide) (by decide) (by decide) h.2⟩
    | helloKitchen => cases h
    | update u => exact ⟨_, isLine_update h.2⟩
  obtain ⟨line, hline⟩ := hline
  rw [Request.line, hline.netLine]
  exact hline

/-! ## Reading the stream -/

/-- The reader takes nothing from a plain line. -/
theorem rdropWhile_plain {line : Bytes} (h : PlainBytes line) :
    line.rdropWhile (· == ch '\r') = line := by
  rw [List.rdropWhile_eq_self_iff]
  intro hne hlast
  have hend := (h _ (List.getLast_mem hne)).2
  rw [beq_iff_eq.mp hlast] at hend
  revert hend
  decide

/-- A reader returns the lines that came whole, and then that the stream is closed. -/
theorem streamResults_cut {lines : List Bytes}
    (h : ∀ line ∈ lines, PlainBytes line ∧ line.length < SOCK_READER_SIZE) {stream : Bytes}
    (hcut : stream <+: joined (ch '\n') lines) :
    ∃ n, BreaksOff (ch '\n') lines stream n ∧
      streamResults stream = (lines.take n).map .line ++ [.closed] := by
  have hfree : ∀ line ∈ lines, ch '\n' ∉ line := by
    intro line hline hmem
    have hend := ((h line hline).1 _ hmem).2
    revert hend
    decide
  obtain ⟨n, hn, hresults⟩ := LineReader.lineResults_cut (·.rdropWhile (· == ch '\r')) hfree
    (fun line hline => (h line hline).2) (by decide) hcut
  refine ⟨n, hn, hresults.trans ?_⟩
  congr 1
  apply List.map_congr_left
  intro line hline
  exact congrArg _ (rdropWhile_plain (h line (List.mem_of_mem_take hline)).1)

/-- Nothing is missing from the whole stream. -/
theorem streamResults_lines {lines : List Bytes}
    (h : ∀ line ∈ lines, PlainBytes line ∧ line.length < SOCK_READER_SIZE) :
    streamResults (joined (ch '\n') lines) = lines.map .line ++ [.closed] := by
  obtain ⟨n, hn, hresults⟩ := streamResults_cut h List.prefix_rfl
  have hall : lines.length ≤ n := by
    by_contra hlt
    rw [not_le] at hlt
    have hcut := hn.cut hlt
    have hpart : joined (ch '\n') (lines.take (n + 1)) <+: joined (ch '\n') lines := by
      refine ⟨joined (ch '\n') (lines.drop (n + 1)), ?_⟩
      rw [joined, joined, ← List.flatMap_append, List.take_append_drop]
      rfl
    exact absurd hpart.length_le (by omega)
  rw [hresults, List.take_of_length_le hall]

/-- A client's requests come out of the socket as they went in, wherever the reads cut the stream. -/
theorem requests_read {rs : List Request} (h : ∀ r ∈ rs, IsLine r.text r.line)
    (splits : List (Nat → Nat)) :
    results (sockReadLine MAX_PROTO_LINE) SOCK_READER_SIZE splits [] (rs.flatMap Request.text) =
      (rs.map (fun r : Request => Returned.line r.line) ++ [Returned.closed]).take splits.length := by
  have hlines : rs.flatMap Request.text = joined (ch '\n') (rs.map Request.line) := by
    rw [joined, List.flatMap_map]
    exact List.flatMap_congr fun r hr => (h r hr).text
  have hnul : 0 ∉ rs.flatMap Request.text := by
    intro hmem
    obtain ⟨r, hr, hmem⟩ := List.mem_flatMap.mp hmem
    rw [(h r hr).text, List.mem_append] at hmem
    rcases hmem with hmem | hmem
    · exact ((h r hr).plain _ hmem).1 rfl
    · revert hmem
      decide
  rw [sockReadLine_results hnul, hlines, streamResults_lines, List.map_map]
  · rfl
  · intro line hline
    obtain ⟨r, hr, rfl⟩ := List.mem_map.mp hline
    exact ⟨(h r hr).plain, (h r hr).short⟩

/-! ## Handling a request -/

/-- A header, a key and a number are read as that number. -/
theorem parseNumber_text {header notHeader badNumber : Bytes} (key : Bytes) (hkey : ch '|' ∉ key)
    (hlen : key.length + 11 < 256) {n : Int} (hfits : FitsInt n) :
    parseNumber header key notHeader badNumber (header ++ key ++ fmtInt n) =
      if n ≤ 0 then .error badNumber else .ok n := by
  have hstart : startsWith header (header ++ key ++ fmtInt n) = true := by
    rw [List.append_assoc, startsWith_append]
  have hdigits := length_fmtInt_le hfits
  have hclip : clip 256 ((header ++ key ++ fmtInt n).drop header.length) = key ++ fmtInt n := by
    rw [List.append_assoc, List.drop_left]
    apply clip_eq_self
    rw [List.length_append]
    omega
  have htoks : tokens (ch '|') (key ++ fmtInt n) = [key ++ fmtInt n] := by
    apply tokens_word (List.append_ne_nil_of_right_ne_nil _ (fmtInt_ne_nil n))
    rw [List.mem_append, not_or]
    exact ⟨hkey, not_mem_fmtInt (by decide) (by decide) n⟩
  have hfield : lastField key [key ++ fmtInt n] = some (fmtInt n) := by
    simp [lastField]
  rw [parseNumber, requestFields, strstr_of_startsWith hstart, Option.map_some, hclip, htoks]
  simp only [hfield, Option.map_some, Option.getD_some, atoi_fmtInt hfits]

/-- The first bad pair ends the loop, and there is one message for all of them. -/
theorem mapM_parsePair_bad {ps : List (Int × Int)} (hfits : ∀ p ∈ ps, PairFits p)
    (hbad : ¬ ∀ p ∈ ps, 0 < p.1 ∧ 0 < p.2) :
    (ps.map pairText).mapM parsePair = .error (lit "bad menu/qty") := by
  induction ps with
  | nil => exact absurd (by simp) hbad
  | cons p ps ih =>
    have hp := hfits p List.mem_cons_self
    have hcolon : ch ':' ∉ fmtInt p.1 := not_mem_fmtInt (by decide) (by decide) p.1
    have hparse : parsePair (pairText p) =
        if p.1 ≤ 0 ∨ p.2 ≤ 0 then .error (lit "bad menu/qty") else .ok (pairItem p) := by
      rw [pairText, parsePair, strchr_append hcolon]
      simp only [atoi_fmtInt hp.1, atoi_fmtInt hp.2]
      rfl
    rw [List.map_cons, List.mapM_cons, hparse]
    split
    · rfl
    · next hpos =>
      rw [not_or, Int.not_le, Int.not_le] at hpos
      have hrest : ¬ ∀ q ∈ ps, 0 < q.1 ∧ 0 < q.2 := fun hall =>
        hbad (List.forall_mem_cons.mpr ⟨hpos, hall⟩)
      rw [ih (fun q hq => hfits q (List.mem_cons_of_mem _ hq)) hrest]
      rfl

/-- The request of a cart with a quantity that is not positive. -/
theorem protoParseOrderCreate_bad {tableId : Int} (htable : 0 < tableId) (hfitsTable : FitsInt tableId)
    {ps : List (Int × Int)} (hne : ps ≠ []) (hfits : ∀ p ∈ ps, PairFits p)
    (hlen : ps.length ≤ MAX_ORDER_ITEMS) (hbad : ¬ ∀ p ∈ ps, 0 < p.1 ∧ 0 < p.2) :
    protoParseOrderCreate (orderCreateText tableId ps) MAX_ORDER_ITEMS =
      .error (lit "bad menu/qty") := by
  have htableField : lastField (lit "table=") [lit "table=" ++ fmtInt tableId,
      lit "items=" ++ pairsText ps] = some (fmtInt tableId) := by
    have hother : field (lit "table=") (lit "items=" ++ pairsText ps) = none := rfl
    simp [lastField, hother]
  have hitemsField : lastField (lit "items=") [lit "table=" ++ fmtInt tableId,
      lit "items=" ++ pairsText ps] = some (pairsText ps) := by
    have hother : field (lit "items=") (lit "table=" ++ fmtInt tableId) = none := rfl
    simp [lastField, hother]
  have hnonempty : pairsText ps ≠ [] := by
    cases ps with
    | nil => exact absurd rfl hne
    | cons p ps => exact List.append_ne_nil_of_left_ne_nil (pairText_ne_nil p) _
  have hshort : (pairsText ps).length < MAX_PROTO_LINE := by
    have := length_pairsText_le hfits hlen
    show _ < 16384
    omega
  have htake : (ps.map pairText).take MAX_ORDER_ITEMS = ps.map pairText :=
    List.take_of_length_le (by rwa [List.length_map])
  rw [protoParseOrderCreate, requestFields_orderCreateText hfitsTable hfits hlen]
  simp only [htableField, hitemsField, Option.map_some, Option.getD_some, atoi_fmtInt hfitsTable,
    clip_eq_self hshort, if_neg hnonempty, tokens_pairsText, htake, if_neg (not_le.mpr htable),
    mapM_parsePair_bad hfits hbad]

/-- The request of a cart, up to the unlock. -/
theorem orderCreateStep_cart (env : Env) (w : World) {tableId : Int} (htable : 0 < tableId)
    (hfits : FitsInt tableId) {cart : Cart} (hcart : CartOk cart) (hne : cart.items ≠ []) :
    orderCreateStep S env w (orderCreateText tableId (cartContent cart)) tableId =
      cartRequested S env w tableId cart := by
  unfold cartRequested
  split
  · next hqty =>
    have hok := (orderCreateRequest_cart hfits hcart hne tableId _).mpr ⟨htable, rfl, hqty, rfl⟩
    rw [orderCreate_line hfits hcart] at hok
    rw [orderCreateStep, hok]
  · next hqty =>
    have hcontent : cartContent cart ≠ [] := by simpa [cartContent] using hne
    have hbad : ¬ ∀ p ∈ cartContent cart, 0 < p.1 ∧ 0 < p.2 := by
      intro hall
      exact hqty fun it hit => (hall _ (List.mem_map_of_mem hit)).2
    rw [orderCreateStep, orderCreateRequest, protoParseOrderCreate_bad htable hfits hcontent
      hcart.fits (length_cartContent_le cart) hbad]

section Dispatch

variable (env : Env) (w : World) (fd tableId : Int) {line : Bytes}

theorem clientTurn_orderCreate (hhead : startsWith (lit "ORDER_CREATE|") line = true) :
    clientTurn S env w fd .table tableId line =
      ([.reply fd (orderCreateReply (orderCreateStep S env w line tableId).1)],
        (orderCreateStep S env w line tableId).2) := by
  obtain ⟨rest, rfl⟩ := List.isPrefixOf_iff_prefix.mp hhead
  have hmenu : lit "ORDER_CREATE|" ++ rest ≠ lit "MENU_REQUEST" := by
    intro h
    cases h
  rw [clientTurn, if_neg hmenu, hhead]
  rfl

theorem clientTurn_orderCancel (hhead : startsWith (lit "ORDER_CANCEL|") line = true) :
    clientTurn S env w fd .table tableId line =
      ([.reply fd (orderCancelReply (orderCancelStep S w line tableId).1)],
        (orderCancelStep S w line tableId).2) := by
  obtain ⟨rest, rfl⟩ := List.isPrefixOf_iff_prefix.mp hhead
  have hmenu : lit "ORDER_CANCEL|" ++ rest ≠ lit "MENU_REQUEST" := by
    intro h
    cases h
  have hcreate : startsWith (lit "ORDER_CREATE|") (lit "ORDER_CANCEL|" ++ rest) = false := rfl
  rw [clientTurn, if_neg hmenu, hcreate, hhead]
  rfl

theorem clientTurn_orderUpdate (hhead : startsWith (lit "ORDER_UPDATE|") line = true) :
    clientTurn S env w fd .kitchen tableId line = ([], handleOrderUpdateClient S env w line) := by
  obtain ⟨rest, rfl⟩ := List.isPrefixOf_iff_prefix.mp hhead
  have hmenu : lit "ORDER_UPDATE|" ++ rest ≠ lit "MENU_REQUEST" := by
    intro h
    cases h
  have hcreate : startsWith (lit "ORDER_CREATE|") (lit "ORDER_UPDATE|" ++ rest) = false := rfl
  have hcancel : startsWith (lit "ORDER_CANCEL|") (lit "ORDER_UPDATE|" ++ rest) = false := rfl
  rw [clientTurn, if_neg hmenu, hcreate, hcancel, hhead]
  rfl

theorem clientTurn_callStaff (hhead : startsWith (lit "CALL_STAFF|") line = true) {tbl : Int}
    (hparse : protoParseCallStaff line = .ok tbl) :
    clientTurn S env w fd .table tableId line =
      ([.staffCall tbl, .staffTouch, .staffBroadcast tbl, .staffLog tbl, .reply fd .staffCalled], w) := by
  obtain ⟨rest, rfl⟩ := List.isPrefixOf_iff_prefix.mp hhead
  have hmenu : lit "CALL_STAFF|" ++ rest ≠ lit "MENU_REQUEST" := by
    intro h
    cases h
  have hcreate : startsWith (lit "ORDER_CREATE|") (lit "CALL_STAFF|" ++ rest) = false := rfl
  have hcancel : startsWith (lit "ORDER_CANCEL|") (lit "CALL_STAFF|" ++ rest) = false := rfl
  have hupdate : startsWith (lit "ORDER_UPDATE|") (lit "CALL_STAFF|" ++ rest) = false := rfl
  rw [clientTurn, if_neg hmenu, hcreate, hcancel, hupdate, hhead]
  simp only [hparse]
  rfl

end Dispatch

theorem orderCancelStep_text (w : World) (tableId : Int) {orderId : Int} (hfits : FitsInt orderId) :
    orderCancelStep S w (lit "ORDER_CANCEL|order_id=" ++ fmtInt orderId) tableId =
      cancelRequested S w tableId orderId := by
  have hparse : protoParseOrderCancel (lit "ORDER_CANCEL|order_id=" ++ fmtInt orderId) =
      if orderId ≤ 0 then .error (lit "bad order_id") else .ok orderId :=
    parseNumber_text (lit "order_id=") (by decide) (by decide) hfits
  rw [orderCancelStep, hparse, cancelRequested]
  by_cases hpos : orderId ≤ 0
  · rw [if_pos hpos, if_pos hpos]
  · rw [if_neg hpos, if_neg hpos]

theorem protoParseOrderUpdate_text {u : KitchenUpdate} (hfits : FitsInt u.orderId) :
    protoParseOrderUpdate (orderUpdateText u) =
      if u.orderId ≤ 0 then .error (lit "bad order_id") else .ok (u.orderId, u.status) := by
  have hbar : ch '|' ∉ lit "order_id=" ++ fmtInt u.orderId := by
    rw [List.mem_append, not_or]
    exact ⟨by decide, not_mem_fmtInt (by decide) (by decide) _⟩
  have hbar' : ch '|' ∉ lit "status=" ++ statusToString u.status := by
    cases u.status <;> decide
  have hfields : updateFields (orderUpdateText u) =
      [lit "order_id=" ++ fmtInt u.orderId, lit "status=" ++ statusToString u.status] := by
    have htext : (orderUpdateText u).drop (lit "ORDER_UPDATE|").length =
        lit "order_id=" ++ fmtInt u.orderId ++ ch '|' :: (lit "status=" ++ statusToString u.status) := by
      rw [orderUpdateText, List.append_assoc, List.append_assoc]
      rfl
    rw [updateFields, htext,
      tokens_word_sep (List.append_ne_nil_of_right_ne_nil _ (fmtInt_ne_nil _)) hbar, tokens_word _ hbar']
    exact List.append_ne_nil_of_left_ne_nil (by decide) _
  have hid : orderIdField (orderUpdateText u) = u.orderId := by
    have hother : field (lit "order_id=") (lit "status=" ++ statusToString u.status) = none := rfl
    rw [orderIdField, hfields]
    simp [lastField, hother, atoi_fmtInt hfits]
  have hstatus : statusRead (orderUpdateText u) = u.status := by
    have hother : field (lit "status=") (lit "order_id=" ++ fmtInt u.orderId) = none := rfl
    apply statusRead_of_name
    rw [statusField, hfields]
    simp [lastField, hother]
  have hshort : (orderUpdateText u).length < MAX_PROTO_LINE :=
    lt_trans (isLine_update hfits).short (by decide)
  rw [protoParseOrderUpdate_eq rfl hshort, hid, hstatus]

theorem turn_orderCancel (env : Env) (w : World) (fd tableId : Int) {orderId : Int}
    (hfits : FitsInt orderId) :
    clientTurn S env w fd .table tableId (Request.table (.orderCancel orderId)).line =
      ([.reply fd (orderCancelReply (cancelRequested S w tableId orderId).1)],
        (cancelRequested S w tableId orderId).2) := by
  have hline : Request.line (.table (.orderCancel orderId)) =
      lit "ORDER_CANCEL|order_id=" ++ fmtInt orderId :=
    (isLine_number (by decide) (by decide) (by decide) hfits).netLine
  rw [hline, clientTurn_orderCancel S env w fd tableId rfl, orderCancelStep_text S w tableId hfits]

theorem turn_update (env : Env) (w : World) (fd tableId : Int) {u : KitchenUpdate}
    (hfits : FitsInt u.orderId) :
    clientTurn S env w fd .kitchen tableId (Request.update u).line =
      ([], updateRequested S env w u) := by
  have hline : Request.line (.update u) = orderUpdateText u := (isLine_update hfits).netLine
  rw [hline, clientTurn_orderUpdate S env w fd tableId rfl, handleOrderUpdateClient,
    protoParseOrderUpdate_text hfits, updateRequested]
  by_cases hpos : u.orderId ≤ 0
  · rw [if_pos hpos, if_pos hpos]
  · rw [if_neg hpos, if_neg hpos]

/-- Each request is handled as what it asks for. -/
theorem Request.Asks.turn {kind : ClientKind} {tableId : Int} (htable : kind = .table → 0 < tableId)
    (hfits : FitsInt tableId) {r : Request} (h : r.Asks kind tableId) (env : Env) (w : World)
    (fd : Int) : clientTurn S env w fd kind tableId r.line = r.turn S env w fd tableId := by
  cases r with
  | table msg =>
    cases msg with
    | hello t => cases h
    | menuRequest => rfl
    | callStaff t =>
      obtain ⟨rfl, rfl⟩ := h
      have hline : Request.line (.table (.callStaff t)) = lit "CALL_STAFF|table=" ++ fmtInt t :=
        (isLine_number (by decide) (by decide) (by decide) hfits).netLine
      have hparse : protoParseCallStaff (lit "CALL_STAFF|table=" ++ fmtInt t) =
          if t ≤ 0 then .error (lit "bad table") else .ok t :=
        parseNumber_text (lit "table=") (by decide) (by decide) hfits
      rw [if_neg (not_le.mpr (htable rfl))] at hparse
      rw [hline]
      exact clientTurn_callStaff S env w fd t rfl hparse
    | orderCreate t cart =>
      obtain ⟨rfl, rfl, hcart, hne⟩ := h
      have hline : Request.line (.table (.orderCreate t cart)) = orderCreateText t (cartContent cart) :=
        (isLine_orderCreate hfits hcart).netLine
      rw [hline, clientTurn_orderCreate S env w fd t rfl,
        orderCreateStep_cart S env w (htable rfl) hfits hcart hne]
      rfl
    | orderCancel orderId =>
      obtain ⟨rfl, hid⟩ := h
      exact turn_orderCancel S env w fd tableId hid
  | helloKitchen => cases h
  | update u =>
    obtain ⟨rfl, hid⟩ := h
    exact turn_update S env w fd tableId hid

end TableOrder
