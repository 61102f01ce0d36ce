import TableOrder.Common
import TableOrder.Lib.Decimal

/-!
# Order events (`protocol.c`): what the server broadcasts

`protoBuildOrderBroadcast` writes an order as one `ORDER_EVENT|` line and
`protoParseOrderBroadcast` reads it back on the client. The builder cleans the names
(`sanitizeField`) and puts a `;` before every line, the first included; the parser runs three
tokenizers, at `|`, `;` and `:`, and finds the lines by a substring search. The main result is
`parse_build`: an order of C `int`s whose lines have names comes back with the names cleaned.
-/

namespace TableOrder

open CLib

/-! ## Building -/

/-- The separators of the protocol, which no field may hold. -/
def isReserved (b : UInt8) : Bool :=
  b == ch ',' || b == ch ';' || b == ch '|' || b == ch ':' || b == ch '\n' || b == ch '\r'

def sanitizeField (s : Bytes) : Bytes := s.map fun b => if isReserved b then ch '_' else b

/-- The text of one line, after a separator when something precedes it. -/
def itemPayload (it : OrderLineItem) : Bytes :=
  fmtInt it.menuId ++ lit ":" ++ fmtInt it.qty ++ lit ":" ++ sanitizeField it.name.bytes ++
    lit ":" ++ fmtInt it.unitPrice

def appendItemPayload (buf : Bytes) (it : OrderLineItem) : Bytes :=
  buf ++ (if 0 < buf.length then lit ";" else []) ++ itemPayload it

def orderHeaderText (ord : Order) : Bytes :=
  lit "ORDER_EVENT|order_id=" ++ fmtInt ord.orderId ++ lit "|table=" ++ fmtInt ord.tableId ++
    lit "|status=" ++ statusToString ord.status ++ lit "|total=" ++ fmtInt ord.totalPrice ++
    lit "|created=" ++ fmtInt ord.createdAt ++ lit "|items="

/-- `snprintf` counts past the end of the buffer and stores nothing there, so what is stored is
the whole text clipped once. -/
def protoBuildOrderBroadcast (ord : Order) : Bytes :=
  clip MAX_PROTO_LINE (ord.items.items.foldl appendItemPayload (orderHeaderText ord))

/-- The staff-call event. -/
def protoBuildStaffBroadcast (tableId : Int) : Bytes := lit "STAFF_CALL|table=" ++ fmtInt tableId

/-! ## Parsing -/

/-- One turn of the loop over the `|` fields. -/
def orderField (ord : Order) (tok : Bytes) : Order :=
  if startsWith (lit "order_id=") tok then { ord with orderId := atoi (tok.drop 9) }
  else if startsWith (lit "table=") tok then { ord with tableId := atoi (tok.drop 6) }
  else if startsWith (lit "status=") tok then { ord with status := statusFromString (tok.drop 7) }
  else if startsWith (lit "total=") tok then { ord with totalPrice := atoi (tok.drop 6) }
  else if startsWith (lit "created=") tok then { ord with createdAt := atoll (tok.drop 8) }
  else ord

/-- The four fields of one `;` segment. -/
def segmentItem (seg : Bytes) : Option OrderLineItem :=
  match tokens (ch ':') (clip 512 seg) with
  | f1 :: f2 :: f3 :: f4 :: _ => some {
      menuId := atoi f1
      qty := atoi f2
      name := CStr.copy MAX_NAME f3
      unitPrice := atoi f4 }
  | _ => none

/-- The loop over the segments: a short segment ends it, and so does a full order. -/
def segmentItems (items : Arr OrderLineItem MAX_ORDER_ITEMS) :
    List Bytes → Arr OrderLineItem MAX_ORDER_ITEMS
  | [] => items
  | seg :: segs =>
    match segmentItem seg with
    | none => items
    | some it =>
      match items.push? it with
      | none => items
      | some items' => segmentItems items' segs

/-- `memset(out_order, 0, sizeof(*out_order))`. -/
def zeroOrder : Order where
  orderId := 0
  tableId := 0
  status := .waiting
  items := Arr.empty OrderLineItem MAX_ORDER_ITEMS
  totalPrice := 0
  createdAt := 0

def findItemsPayload (msg : Bytes) : Option Bytes :=
  (strstr (lit "|items=") msg).map (·.drop 7)

def protoParseOrderBroadcast (msg : Bytes) : Except Bytes Order :=
  if startsWith (lit "ORDER_EVENT|") msg then
    let fields := (tokens (ch '|') (clip MAX_PROTO_LINE msg)).tail
    let ord := fields.foldl orderField zeroOrder
    match findItemsPayload msg with
    | none => .error (lit "missing items payload")
    | some raw =>
      .ok { ord with
        items := segmentItems (Arr.empty OrderLineItem MAX_ORDER_ITEMS)
          (tokens (ch ';') (clip MAX_PROTO_LINE raw)) }
  else
    .error (lit "not ORDER_EVENT")

/-! ## Names -/

theorem length_sanitizeField (s : Bytes) : (sanitizeField s).length = s.length :=
  List.length_map _

/-- Cleaning leaves no separator and adds no NUL. -/
theorem mem_sanitizeField {s : Bytes} {b : UInt8} (h : b ∈ sanitizeField s) :
    isReserved b = false ∧ (b = 0 → b ∈ s) := by
  obtain ⟨c, hc, rfl⟩ := List.mem_map.mp h
  by_cases hr : isReserved c = true
  · rw [if_pos hr]
    exact ⟨by decide, fun h0 => absurd h0 (by decide)⟩
  · rw [if_neg hr]
    exact ⟨by simpa using hr, fun _ => hc⟩

theorem not_mem_sanitizeField {b : UInt8} (hb : isReserved b = true) (s : Bytes) :
    b ∉ sanitizeField s := by
  intro h
  rw [(mem_sanitizeField h).1] at hb
  cases hb

/-- A name with the separators replaced by `_`. -/
def sanitizeName (name : Name) : Name where
  bytes := sanitizeField name.bytes
  noNul := fun h => name.noNul ((mem_sanitizeField h).2 rfl)
  fits := by
    rw [length_sanitizeField]
    exact name.fits

def sanitizeItem (it : OrderLineItem) : OrderLineItem := { it with name := sanitizeName it.name }

/-- An order as its event carries it. -/
def sanitizeOrder (ord : Order) : Order :=
  { ord with items := ⟨ord.items.items.map sanitizeItem, by simpa using ord.items.bound⟩ }

@[simp] theorem sanitizeOrder_orderId (o : Order) : (sanitizeOrder o).orderId = o.orderId := rfl

@[simp] theorem sanitizeOrder_tableId (o : Order) : (sanitizeOrder o).tableId = o.tableId := rfl

@[simp] theorem sanitizeOrder_status (o : Order) : (sanitizeOrder o).status = o.status := rfl

/-! ## Orders that a C program can hold -/

structure OrderLineItem.Fits (it : OrderLineItem) : Prop where
  menuId : FitsInt it.menuId
  qty : FitsInt it.qty
  unitPrice : FitsInt it.unitPrice

structure Order.Fits (o : Order) : Prop where
  orderId : FitsInt o.orderId
  tableId : FitsInt o.tableId
  totalPrice : FitsInt o.totalPrice
  createdAt : FitsLong o.createdAt
  items : ∀ it ∈ o.items.items, it.Fits

/-- Every line has a name. -/
def Order.Named (o : Order) : Prop := ∀ it ∈ o.items.items, it.name.bytes ≠ []

/-! ## The text of an event -/

/-- The builder's loop puts a `;` before every line. -/
theorem foldl_appendItemPayload (its : List OrderLineItem) {buf : Bytes} (hbuf : buf ≠ []) :
    its.foldl appendItemPayload buf = buf ++ its.flatMap fun it => ch ';' :: itemPayload it := by
  induction its generalizing buf with
  | nil => simp
  | cons it its ih =>
    have hpos : 0 < buf.length := List.length_pos_iff.mpr hbuf
    have hstep : appendItemPayload buf it = buf ++ ch ';' :: itemPayload it := by
      rw [appendItemPayload, if_pos hpos, List.append_assoc]
      rfl
    rw [List.foldl_cons, hstep, ih (by simp [hbuf]), List.flatMap_cons, List.append_assoc]

/-- The event as its `|` fields. -/
def eventFields (ord : Order) : List Bytes :=
  [lit "ORDER_EVENT", lit "order_id=" ++ fmtInt ord.orderId, lit "table=" ++ fmtInt ord.tableId,
    lit "status=" ++ statusToString ord.status, lit "total=" ++ fmtInt ord.totalPrice,
    lit "created=" ++ fmtInt ord.createdAt]

/-- What follows `items=`. -/
def itemsText (ord : Order) : Bytes :=
  ord.items.items.flatMap fun it => ch ';' :: itemPayload it

/-- The unclipped event. -/
def eventText (ord : Order) : Bytes :=
  (eventFields ord).flatMap (· ++ [ch '|']) ++ (lit "items=" ++ itemsText ord)

theorem orderHeaderText_eq (ord : Order) :
    orderHeaderText ord = (eventFields ord).flatMap (· ++ [ch '|']) ++ lit "items=" := by
  have h0 : lit "ORDER_EVENT|order_id=" = lit "ORDER_EVENT" ++ (ch '|' :: lit "order_id=") := rfl
  have h1 : lit "|table=" = ch '|' :: lit "table=" := rfl
  have h2 : lit "|status=" = ch '|' :: lit "status=" := rfl
  have h3 : lit "|total=" = ch '|' :: lit "total=" := rfl
  have h4 : lit "|created=" = ch '|' :: lit "created=" := rfl
  have h5 : lit "|items=" = ch '|' :: lit "items=" := rfl
  simp only [orderHeaderText, eventFields, h0, h1, h2, h3, h4, h5, List.flatMap_cons,
    List.flatMap_nil, List.append_assoc, List.cons_append, List.nil_append, List.append_nil]

theorem build_eq_clip (ord : Order) :
    protoBuildOrderBroadcast ord = clip MAX_PROTO_LINE (eventText ord) := by
  have hne : orderHeaderText ord ≠ [] := by simp [orderHeaderText]
  rw [protoBuildOrderBroadcast, foldl_appendItemPayload _ hne, orderHeaderText_eq,
    List.append_assoc]
  rfl

theorem length_itemPayload_le {it : OrderLineItem} (hfits : it.Fits) :
    (itemPayload it).length ≤ 131 := by
  have h1 := length_fmtInt_le hfits.menuId
  have h2 := length_fmtInt_le hfits.qty
  have h3 := length_fmtInt_le hfits.unitPrice
  have h4 : (sanitizeField it.name.bytes).length < 96 := by
    rw [length_sanitizeField]
    exact it.name.fits
  have hc : (lit ":").length = 1 := rfl
  simp only [itemPayload, List.length_append, hc]
  omega

/-- An event with its newline fits the protocol buffer and the client's reader. -/
theorem length_eventText_lt {ord : Order} (hfits : ord.Fits) : (eventText ord).length < 8191 := by
  have hitems : (itemsText ord).length ≤ 132 * ord.items.items.length := by
    apply length_flatMap_le
    intro it hit
    have := length_itemPayload_le (hfits.items it hit)
    rw [List.length_cons]
    omega
  have hbound : ord.items.items.length ≤ 32 := ord.items.bound
  have h1 := length_fmtInt_le hfits.orderId
  have h2 := length_fmtInt_le hfits.tableId
  have h3 := length_fmtInt_le hfits.totalPrice
  have h4 := length_fmtLong_le hfits.createdAt
  have h5 : (statusToString ord.status).length ≤ 9 := by
    cases ord.status <;> decide
  have l0 : (lit "ORDER_EVENT").length = 11 := rfl
  have l1 : (lit "order_id=").length = 9 := rfl
  have l2 : (lit "table=").length = 6 := rfl
  have l3 : (lit "status=").length = 7 := rfl
  have l4 : (lit "total=").length = 6 := rfl
  have l5 : (lit "created=").length = 8 := rfl
  have l6 : (lit "items=").length = 6 := rfl
  simp only [eventText, eventFields, List.flatMap_cons, List.flatMap_nil, List.length_append,
    List.length_singleton, List.length_nil, l0, l1, l2, l3, l4, l5, l6]
  omega

theorem build_eq {ord : Order} (hfits : ord.Fits) :
    protoBuildOrderBroadcast ord = eventText ord := by
  have := length_eventText_lt hfits
  rw [build_eq_clip, clip_eq_self (by show _ < 16384; omega)]

/-! ## Reading an event back -/

theorem isReserved_of_mem_fmtInt {x : Int} {b : UInt8} (h : b ∈ fmtInt x) :
    isReserved b = false := by
  rcases mem_fmtInt h with hdigit | rfl
  · cases hr : isReserved b with
    | false => rfl
    | true =>
      rw [isDigit_iff] at hdigit
      simp only [isReserved, Bool.or_eq_true, beq_iff_eq] at hr
      rcases hr with ((((rfl | rfl) | rfl) | rfl) | rfl) | rfl <;> exact absurd hdigit (by decide)
  · decide

/-- No field of an event holds a separator. -/
theorem unreserved_of_all {s : Bytes} (h : (s.all fun c => !isReserved c) = true) :
    ∀ c ∈ s, isReserved c = false := by
  intro c hc
  simpa using List.all_eq_true.mp h c hc

theorem isReserved_of_mem_eventFields {ord : Order} {w : Bytes} (hw : w ∈ eventFields ord)
    {b : UInt8} (hb : b ∈ w) : isReserved b = false := by
  have hnum {key : Bytes} (hkey : ∀ c ∈ key, isReserved c = false) {x : Int}
      (h : b ∈ key ++ fmtInt x) : isReserved b = false := by
    rcases List.mem_append.mp h with h | h
    · exact hkey b h
    · exact isReserved_of_mem_fmtInt h
  have hstatus : ∀ c ∈ statusToString ord.status, isReserved c = false := by
    cases ord.status <;> exact unreserved_of_all (by decide)
  simp only [eventFields, List.mem_cons, List.not_mem_nil, or_false] at hw
  rcases hw with rfl | rfl | rfl | rfl | rfl | rfl
  · exact unreserved_of_all (by decide) b hb
  · exact hnum (unreserved_of_all (by decide)) hb
  · exact hnum (unreserved_of_all (by decide)) hb
  · rcases List.mem_append.mp hb with hb | hb
    · exact unreserved_of_all (by decide) b hb
    · exact hstatus b hb
  · exact hnum (unreserved_of_all (by decide)) hb
  · exact hnum (unreserved_of_all (by decide)) hb

theorem eventFields_ne_nil {ord : Order} {w : Bytes} (hw : w ∈ eventFields ord) : w ≠ [] := by
  simp only [eventFields, List.mem_cons, List.not_mem_nil, or_false] at hw
  rcases hw with rfl | rfl | rfl | rfl | rfl | rfl <;> simp

theorem reserved_not_mem_eventFields {b : UInt8} (hb : isReserved b = true) {ord : Order}
    {w : Bytes} (hw : w ∈ eventFields ord) : b ∉ w := by
  intro h
  rw [isReserved_of_mem_eventFields hw h] at hb
  cases hb

theorem reserved_not_mem_itemPayload {b : UInt8} (hb : isReserved b = true) (hcolon : b ≠ ch ':')
    (it : OrderLineItem) : b ∉ itemPayload it := by
  have hnum (x : Int) : b ∉ fmtInt x := by
    intro h
    rw [isReserved_of_mem_fmtInt h] at hb
    cases hb
  have hsep : b ∉ lit ":" := by
    intro h
    exact hcolon (List.mem_singleton.mp h)
  simp only [itemPayload, List.mem_append, not_or]
  exact ⟨⟨⟨⟨⟨⟨hnum _, hsep⟩, hnum _⟩, hsep⟩, not_mem_sanitizeField hb _⟩, hsep⟩, hnum _⟩

/-- An event holds no separator but the three that its fields, lines and numbers stand between. -/
theorem reserved_not_mem_eventText {b : UInt8} (hb : isReserved b = true) (hbar : b ≠ ch '|')
    (hsemi : b ≠ ch ';') (hcolon : b ≠ ch ':') (ord : Order) : b ∉ eventText ord := by
  intro h
  simp only [eventText, List.mem_append, List.mem_flatMap] at h
  rcases h with ⟨w, hw, h | h⟩ | h | h
  · exact reserved_not_mem_eventFields hb hw h
  · exact hbar (List.mem_singleton.mp h)
  · rw [unreserved_of_all (by decide) b h] at hb
    cases hb
  · obtain ⟨it, -, hit⟩ := List.mem_flatMap.mp h
    rcases List.mem_cons.mp hit with hit | hit
    · exact hsemi hit
    · exact reserved_not_mem_itemPayload hb hcolon it hit

theorem itemPayload_ne_nil (it : OrderLineItem) : itemPayload it ≠ [] := by
  simp [itemPayload, fmtInt_ne_nil]

/-- The fields of an event, read one after the other into an empty order. -/
theorem foldl_orderField_eventFields {ord : Order} (hfits : ord.Fits) (tail : Bytes) :
    ((eventFields ord).tail ++ [lit "items=" ++ tail]).foldl orderField zeroOrder =
      { ord with items := zeroOrder.items } := by
  have h1 := atoi_fmtInt hfits.orderId
  have h2 := atoi_fmtInt hfits.tableId
  have h3 := atoi_fmtInt hfits.totalPrice
  have h4 : atoll (fmtInt ord.createdAt) = ord.createdAt := by
    simpa using atoll_fmtInt_append hfits.createdAt EndsNumber.nil
  have s1 (o : Order) (v : Bytes) :
      orderField o (lit "order_id=" ++ v) = { o with orderId := atoi v } := rfl
  have s2 (o : Order) (v : Bytes) :
      orderField o (lit "table=" ++ v) = { o with tableId := atoi v } := rfl
  have s3 (o : Order) (v : Bytes) :
      orderField o (lit "status=" ++ v) = { o with status := statusFromString v } := rfl
  have s4 (o : Order) (v : Bytes) :
      orderField o (lit "total=" ++ v) = { o with totalPrice := atoi v } := rfl
  have s5 (o : Order) (v : Bytes) :
      orderField o (lit "created=" ++ v) = { o with createdAt := atoll v } := rfl
  have s6 (o : Order) (v : Bytes) : orderField o (lit "items=" ++ v) = o := rfl
  simp only [eventFields, List.tail_cons, List.cons_append, List.nil_append, List.foldl_cons,
    List.foldl_nil, s1, s2, s3, s4, s5, s6, h1, h2, h3, h4, statusFromString_toString]

theorem segmentItem_itemPayload {it : OrderLineItem} (hfits : it.Fits)
    (hname : it.name.bytes ≠ []) : segmentItem (itemPayload it) = some (sanitizeItem it) := by
  have hlen := length_itemPayload_le hfits
  have hnum (x : Int) : ch ':' ∉ fmtInt x := not_mem_fmtInt (by decide) (by decide) x
  have hclean : sanitizeField it.name.bytes ≠ [] := by
    intro h
    have hlen0 := congrArg List.length h
    rw [length_sanitizeField] at hlen0
    exact hname (List.eq_nil_of_length_eq_zero hlen0)
  have htext : itemPayload it = fmtInt it.menuId ++ ch ':' :: (fmtInt it.qty ++ ch ':' ::
      (sanitizeField it.name.bytes ++ ch ':' :: fmtInt it.unitPrice)) := by
    have hc : lit ":" = [ch ':'] := rfl
    simp only [itemPayload, hc, List.append_assoc, List.cons_append, List.nil_append]
  have htokens : tokens (ch ':') (itemPayload it) =
      [fmtInt it.menuId, fmtInt it.qty, sanitizeField it.name.bytes, fmtInt it.unitPrice] := by
    rw [htext, tokens_word_sep (fmtInt_ne_nil _) (hnum _), tokens_word_sep (fmtInt_ne_nil _)
      (hnum _), tokens_word_sep hclean (not_mem_sanitizeField (by decide) _),
      tokens_word (fmtInt_ne_nil _) (hnum _)]
  have hcopy : CStr.copy MAX_NAME (sanitizeField it.name.bytes) = sanitizeName it.name :=
    CStr.copy_self (sanitizeName it.name)
  unfold segmentItem
  rw [clip_eq_self (by omega), htokens]
  simp only [atoi_fmtInt hfits.menuId, atoi_fmtInt hfits.qty, atoi_fmtInt hfits.unitPrice, hcopy]
  rfl

theorem segmentItems_map (items : Arr OrderLineItem MAX_ORDER_ITEMS) {its : List OrderLineItem}
    (hfits : ∀ it ∈ its, it.Fits) (hnamed : ∀ it ∈ its, it.name.bytes ≠ [])
    (hroom : items.items.length + its.length ≤ MAX_ORDER_ITEMS) :
    (segmentItems items (its.map itemPayload)).items = items.items ++ its.map sanitizeItem := by
  induction its generalizing items with
  | nil => simp [segmentItems]
  | cons it its ih =>
    simp only [List.length_cons] at hroom
    have hlt : items.items.length < MAX_ORDER_ITEMS := by omega
    have hseg := segmentItem_itemPayload (hfits it (by simp)) (hnamed it (by simp))
    rw [List.map_cons, segmentItems]
    simp only [hseg, Arr.push?_of_lt hlt]
    rw [ih (items.push (sanitizeItem it) hlt) (fun v hv => hfits v (by simp [hv]))
      (fun v hv => hnamed v (by simp [hv])) (by
        simp only [Arr.push_items, List.length_append, List.length_singleton]
        omega)]
    simp

/-- The event of an order is read back as the order with its names cleaned. -/
theorem parse_build {ord : Order} (hfits : ord.Fits) (hnamed : ord.Named) :
    protoParseOrderBroadcast (protoBuildOrderBroadcast ord) = .ok (sanitizeOrder ord) := by
  have hlen := length_eventText_lt hfits
  have hstart : startsWith (lit "ORDER_EVENT|") (eventText ord) = true := rfl
  -- the field loop
  have hitemsBar : ch '|' ∉ lit "items=" ++ itemsText ord := by
    rw [List.mem_append, not_or]
    refine ⟨by decide, ?_⟩
    intro h
    obtain ⟨it, -, hit⟩ := List.mem_flatMap.mp h
    rcases List.mem_cons.mp hit with hit | hit
    · exact absurd hit (by decide)
    · exact reserved_not_mem_itemPayload (by decide) (by decide) it hit
  have hfields : tokens (ch '|') (eventText ord) =
      eventFields ord ++ [lit "items=" ++ itemsText ord] := by
    rw [eventText, tokens_fields (fun w hw => eventFields_ne_nil hw)
      (fun w hw => reserved_not_mem_eventFields (by decide) hw), tokens_word (by simp) hitemsBar]
  have hloop := foldl_orderField_eventFields hfits (itemsText ord)
  -- the lines
  have hraw : findItemsPayload (eventText ord) = some (itemsText ord) := by
    have hfound : strstr (ch '|' :: lit "items=") (eventText ord) =
        some (ch '|' :: (lit "items=" ++ itemsText ord)) := by
      have hbar : ∀ v ∈ eventFields ord, ch '|' ∉ v :=
        fun v hv => reserved_not_mem_eventFields (by decide) hv
      refine strstr_fields (hbar _ List.mem_cons_self)
        (fun v hv => hbar v (List.mem_cons_of_mem _ hv)) ?_ rfl
      intro v hv s
      simp only [List.mem_cons, List.not_mem_nil, or_false] at hv
      rcases hv with rfl | rfl | rfl | rfl | rfl <;> rfl
    have hpat : lit "|items=" = ch '|' :: lit "items=" := rfl
    rw [findItemsPayload, hpat, hfound]
    rfl
  have hsegs : tokens (ch ';') (itemsText ord) = ord.items.items.map itemPayload := by
    have hne : ∀ w ∈ ord.items.items.map itemPayload, w ≠ [] := by
      intro w hw
      obtain ⟨it, -, rfl⟩ := List.mem_map.mp hw
      exact itemPayload_ne_nil it
    have hfree : ∀ w ∈ ord.items.items.map itemPayload, ch ';' ∉ w := by
      intro w hw
      obtain ⟨it, -, rfl⟩ := List.mem_map.mp hw
      exact reserved_not_mem_itemPayload (by decide) (by decide) it
    have := tokens_flatMap hne hfree
    rwa [List.flatMap_map] at this
  have hshort : (itemsText ord).length < MAX_PROTO_LINE := by
    have hle : (itemsText ord).length ≤ (eventText ord).length := by
      simp only [eventText, List.length_append]
      omega
    show _ < 16384
    omega
  have hitems : segmentItems (Arr.empty OrderLineItem MAX_ORDER_ITEMS)
      (ord.items.items.map itemPayload) = (sanitizeOrder ord).items :=
    Arr.ext_items (segmentItems_map _ hfits.items hnamed (by simpa using ord.items.bound))
  unfold protoParseOrderBroadcast
  rw [build_eq hfits, if_pos hstart, clip_eq_self (by show _ < 16384; omega), hfields, hraw]
  simp only [clip_eq_self hshort, hsegs, hitems]
  rw [List.tail_append_of_ne_nil (by simp [eventFields]), hloop]
  rfl

end TableOrder
