import TableOrder.Common
import TableOrder.Lib.Decimal

/-!
# Requests (`protocol.c`): what a client sends to the server

A request is a header and `key=value` fields between `|`. `protoParseOrderCreate` also reads the
`id:qty` pairs of an order; an order of C `int`s is read back as it was written
(`protoParseOrderCreate_text`). The three parsers that read one positive number are `parseNumber` at
their own header, key and messages.
-/

namespace TableOrder

open CLib

/-- The value of the last field with this key, as the token loops leave it. -/
def lastField (key : Bytes) (toks : List Bytes) : Option Bytes :=
  (toks.filterMap (field key)).getLast?

/-- The text after the header, in a buffer of this size, split at `|`. -/
def requestFields (header : Bytes) (bufsize : Nat) (msg : Bytes) : Option (List Bytes) :=
  (strstr header msg).map fun p => tokens (ch '|') (clip bufsize (p.drop header.length))

/-! ## One positive number -/

def parseNumber (header key notHeader badNumber : Bytes) (msg : Bytes) : Except Bytes Int :=
  match requestFields header 256 msg with
  | none => .error notHeader
  | some toks =>
    let n := ((lastField key toks).map atoi).getD (-1)
    if n ≤ 0 then .error badNumber else .ok n

def protoParseOrderCancel : Bytes → Except Bytes Int :=
  parseNumber (lit "ORDER_CANCEL|") (lit "order_id=") (lit "not ORDER_CANCEL") (lit "bad order_id")

def protoParseCallStaff : Bytes → Except Bytes Int :=
  parseNumber (lit "CALL_STAFF|") (lit "table=") (lit "not CALL_STAFF") (lit "bad table")

/-- `HELLO TABLE <n>` has no fields: the number follows the header and blanks. -/
def protoParseHelloTable (msg : Bytes) : Except Bytes Int :=
  if startsWith (lit "HELLO TABLE") msg then
    let tid := atoi ((msg.drop (lit "HELLO TABLE").length).dropWhile isSpace)
    if tid ≤ 0 then .error (lit "bad table id") else .ok tid
  else
    .error (lit "expected HELLO TABLE")

/-! ## Status changes -/

/-- A missing status field leaves `STATUS_WAITING`. -/
def protoParseOrderUpdate (msg : Bytes) : Except Bytes (Int × OrderStatus) :=
  match requestFields (lit "ORDER_UPDATE|") MAX_PROTO_LINE msg with
  | none => .error (lit "not ORDER_UPDATE")
  | some toks =>
    let oid := ((lastField (lit "order_id=") toks).map atoi).getD (-1)
    let st := ((lastField (lit "status=") toks).map statusFromString).getD .waiting
    if oid ≤ 0 then .error (lit "bad order_id") else .ok (oid, st)

/-! ## Orders -/

/-- One `id:qty` pair as a cart line without name and price. -/
def parsePair (pair : Bytes) : Except Bytes CartItem :=
  match strchr (ch ':') pair with
  | none => .error (lit "bad item pair")
  | some (before, after) =>
    let mid := atoi before
    let qty := atoi after
    if mid ≤ 0 ∨ qty ≤ 0 then
      .error (lit "bad menu/qty")
    else
      .ok { menuId := mid, name := CStr.empty MAX_NAME, price := 0, qty := qty }

/-- The table and the cart lines. The loop ends after `maxCart` pairs, and the first bad pair
before that ends it with its error. -/
def protoParseOrderCreate (msg : Bytes) (maxCart : Nat) : Except Bytes (Int × List CartItem) :=
  match requestFields (lit "ORDER_CREATE|") MAX_PROTO_LINE msg with
  | none => .error (lit "not ORDER_CREATE")
  | some toks =>
    let tableId := ((lastField (lit "table=") toks).map atoi).getD (-1)
    let itemsPart := clip MAX_PROTO_LINE ((lastField (lit "items=") toks).getD [])
    if tableId ≤ 0 then
      .error (lit "bad table")
    else if itemsPart = [] then
      .error (lit "missing items")
    else
      match ((tokens (ch ',') itemsPart).take maxCart).mapM parsePair with
      | .error e => .error e
      | .ok lines => .ok (tableId, lines)

/-! ## `id:qty` pairs

The pairs of an order between commas, in a request and in a line of the sales log. -/

def pairText (p : Int × Int) : Bytes := fmtInt p.1 ++ ch ':' :: fmtInt p.2

/-- The pairs after the first. -/
def pairsTail (ps : List (Int × Int)) : Bytes := ps.flatMap fun p => ch ',' :: pairText p

def pairsText : List (Int × Int) → Bytes
  | [] => []
  | p :: ps => pairText p ++ pairsTail ps

/-- Both numbers are C `int`s. -/
def PairFits (p : Int × Int) : Prop := FitsInt p.1 ∧ FitsInt p.2

theorem length_pairText_le {p : Int × Int} (hfits : PairFits p) : (pairText p).length ≤ 23 := by
  have h1 := length_fmtInt_le hfits.1
  have h2 := length_fmtInt_le hfits.2
  rw [pairText, List.length_append, List.length_cons]
  omega

theorem length_pairsText_le {ps : List (Int × Int)} (hfits : ∀ p ∈ ps, PairFits p)
    (hlen : ps.length ≤ 32) : (pairsText ps).length ≤ 768 := by
  cases ps with
  | nil => simp [pairsText]
  | cons p ps =>
    have hfirst := length_pairText_le (hfits p (by simp))
    have hrest : (pairsTail ps).length ≤ 24 * ps.length := by
      apply length_flatMap_le
      intro q hq
      have := length_pairText_le (hfits q (by simp [hq]))
      rw [List.length_cons]
      omega
    rw [List.length_cons] at hlen
    rw [pairsText, List.length_append]
    omega

/-- The bytes of the pairs. -/
theorem mem_pairsText {ps : List (Int × Int)} {b : UInt8} (h : b ∈ pairsText ps) :
    isDigit b = true ∨ b = ch '-' ∨ b = ch ':' ∨ b = ch ',' := by
  have hpair {p : Int × Int} (hb : b ∈ pairText p) :
      isDigit b = true ∨ b = ch '-' ∨ b = ch ':' ∨ b = ch ',' := by
    rcases List.mem_append.mp hb with hb | hb
    · exact (mem_fmtInt hb).imp id Or.inl
    · rcases List.mem_cons.mp hb with hb | hb
      · exact Or.inr (Or.inr (Or.inl hb))
      · exact (mem_fmtInt hb).imp id Or.inl
  cases ps with
  | nil => cases h
  | cons p ps =>
    rcases List.mem_append.mp h with h | h
    · exact hpair h
    · obtain ⟨q, -, hq⟩ := List.mem_flatMap.mp h
      rcases List.mem_cons.mp hq with hq | hq
      · exact Or.inr (Or.inr (Or.inr hq))
      · exact hpair hq

theorem pairText_ne_nil (p : Int × Int) : pairText p ≠ [] := by
  simp [pairText, fmtInt_ne_nil]

/-- A byte that neither number nor the colon has. -/
theorem not_mem_pairText {b : UInt8} (hdigit : isDigit b = false) (hminus : b ≠ ch '-')
    (hcolon : b ≠ ch ':') (p : Int × Int) : b ∉ pairText p := by
  have hnot := not_mem_fmtInt hdigit hminus
  simp [pairText, hnot, hcolon]

/-- The commas split the pairs again. -/
theorem tokens_pairsText (ps : List (Int × Int)) :
    tokens (ch ',') (pairsText ps) = ps.map pairText := by
  have hwords : tokens (ch ',') ((ps.map pairText).flatMap (ch ',' :: ·)) = ps.map pairText := by
    apply tokens_flatMap
    · intro w hw
      obtain ⟨p, -, rfl⟩ := List.mem_map.mp hw
      exact pairText_ne_nil p
    · intro w hw
      obtain ⟨p, -, rfl⟩ := List.mem_map.mp hw
      exact not_mem_pairText (by decide) (by decide) (by decide) p
  rw [List.flatMap_map] at hwords
  cases ps with
  | nil => rfl
  | cons p ps =>
    rw [List.flatMap_cons, List.cons_append, tokens_sep_cons] at hwords
    exact hwords

/-! ## Orders are read back -/

/-- A pair as `parsePair` leaves it. -/
def pairItem (p : Int × Int) : CartItem where
  menuId := p.1
  name := CStr.empty MAX_NAME
  price := 0
  qty := p.2

theorem parsePair_pairText {p : Int × Int} (hfits : PairFits p) {it : CartItem} :
    parsePair (pairText p) = .ok it ↔ (0 < p.1 ∧ 0 < p.2) ∧ it = pairItem p := by
  have hcolon : ch ':' ∉ fmtInt p.1 := not_mem_fmtInt (by decide) (by decide) p.1
  rw [pairText, parsePair, strchr_append hcolon]
  simp only [atoi_fmtInt hfits.1, atoi_fmtInt hfits.2]
  split
  · next hbad =>
    constructor
    · intro h
      cases h
    · rintro ⟨hpos, -⟩
      omega
  · next hpos =>
    rw [not_or, Int.not_le, Int.not_le] at hpos
    constructor
    · intro h
      cases h
      exact ⟨hpos, rfl⟩
    · rintro ⟨-, rfl⟩
      rfl

theorem mapM_parsePair {ps : List (Int × Int)} (hfits : ∀ p ∈ ps, PairFits p)
    (lines : List CartItem) :
    (ps.map pairText).mapM parsePair = .ok lines ↔
      (∀ p ∈ ps, 0 < p.1 ∧ 0 < p.2) ∧ lines = ps.map pairItem := by
  rw [mapM_eq_ok, List.forall₂_map_left_iff]
  induction ps generalizing lines with
  | nil => simp
  | cons p ps ih =>
    have ih := ih fun q hq => hfits q (by simp [hq])
    rw [List.forall₂_cons_left_iff]
    constructor
    · rintro ⟨it, ls, hit, hls, rfl⟩
      obtain ⟨hp, rfl⟩ := (parsePair_pairText (hfits p (by simp))).mp hit
      obtain ⟨hps, rfl⟩ := (ih ls).mp hls
      exact ⟨List.forall_mem_cons.mpr ⟨hp, hps⟩, rfl⟩
    · rintro ⟨hpos, rfl⟩
      refine ⟨pairItem p, ps.map pairItem, ?_, ?_, rfl⟩
      · exact (parsePair_pairText (hfits p (by simp))).mpr ⟨hpos p (by simp), rfl⟩
      · exact (ih _).mpr ⟨fun q hq => hpos q (by simp [hq]), rfl⟩

/-- The request for these pairs. -/
def orderCreateText (tableId : Int) (ps : List (Int × Int)) : Bytes :=
  lit "ORDER_CREATE|table=" ++ fmtInt tableId ++ lit "|items=" ++ pairsText ps

theorem length_orderCreateText_le {tableId : Int} (htable : FitsInt tableId)
    {ps : List (Int × Int)} (hfits : ∀ p ∈ ps, PairFits p) (hlen : ps.length ≤ 32) :
    (orderCreateText tableId ps).length ≤ 805 := by
  have h1 := length_fmtInt_le htable
  have h2 := length_pairsText_le hfits hlen
  have l1 : (lit "ORDER_CREATE|table=").length = 19 := rfl
  have l2 : (lit "|items=").length = 7 := rfl
  simp only [orderCreateText, List.length_append, l1, l2]
  omega

/-- A byte that is neither in a number nor in the words and separators of a request. -/
theorem not_mem_orderCreateText {b : UInt8} (hdigit : isDigit b = false) (hminus : b ≠ ch '-')
    (hcolon : b ≠ ch ':') (hcomma : b ≠ ch ',') (hwords : b ∉ lit "ORDER_CREATE|table=|items=")
    {tableId : Int} {ps : List (Int × Int)} : b ∉ orderCreateText tableId ps := by
  have hsplit : lit "ORDER_CREATE|table=|items=" = lit "ORDER_CREATE|table=" ++ lit "|items=" := rfl
  rw [hsplit, List.mem_append, not_or] at hwords
  have hnumber : b ∉ fmtInt tableId := not_mem_fmtInt hdigit hminus tableId
  have hpairs : b ∉ pairsText ps := by
    intro hb
    rcases mem_pairsText hb with h | h | h | h
    · rw [hdigit] at h
      cases h
    · exact hminus h
    · exact hcolon h
    · exact hcomma h
  simp only [orderCreateText, List.mem_append, not_or]
  exact ⟨⟨⟨hwords.1, hnumber⟩, hwords.2⟩, hpairs⟩

theorem requestFields_orderCreateText {tableId : Int} (htable : FitsInt tableId)
    {ps : List (Int × Int)} (hfits : ∀ p ∈ ps, PairFits p) (hlen : ps.length ≤ 32) :
    requestFields (lit "ORDER_CREATE|") MAX_PROTO_LINE (orderCreateText tableId ps) =
      some [lit "table=" ++ fmtInt tableId, lit "items=" ++ pairsText ps] := by
  have htext : orderCreateText tableId ps = lit "ORDER_CREATE|" ++
      (lit "table=" ++ fmtInt tableId ++ ch '|' :: (lit "items=" ++ pairsText ps)) := by
    have h1 : lit "ORDER_CREATE|table=" = lit "ORDER_CREATE|" ++ lit "table=" := rfl
    have h2 : lit "|items=" = ch '|' :: lit "items=" := rfl
    simp only [orderCreateText, h1, h2, List.append_assoc, List.cons_append]
  have hstart : startsWith (lit "ORDER_CREATE|") (orderCreateText tableId ps) = true := by
    rw [htext, startsWith_append]
  have hshort := length_orderCreateText_le htable hfits hlen
  rw [requestFields, strstr_of_startsWith hstart, Option.map_some]
  rw [htext, List.length_append] at hshort
  have hbar : ch '|' ∉ pairsText ps := by
    intro h
    rcases mem_pairsText h with h | h | h | h <;> exact absurd h (by decide)
  have hbar' : ch '|' ∉ fmtInt tableId := not_mem_fmtInt (by decide) (by decide) tableId
  rw [htext, List.drop_left, clip_eq_self (by show _ < 16384; omega),
    tokens_word_sep (by simp [fmtInt_ne_nil]), tokens_word]
  · exact List.append_ne_nil_of_left_ne_nil (by decide) _
  · rw [List.mem_append, not_or]
    exact ⟨by decide, hbar⟩
  · rw [List.mem_append, not_or]
    exact ⟨by decide, hbar'⟩

/-- Such a request is accepted if and only if its numbers are positive, and then all its pairs come
back in order. -/
theorem protoParseOrderCreate_text {tableId : Int} (htable : FitsInt tableId)
    {ps : List (Int × Int)} (hne : ps ≠ []) (hfits : ∀ p ∈ ps, PairFits p)
    (hlen : ps.length ≤ MAX_ORDER_ITEMS) {t : Int} {lines : List CartItem} :
    protoParseOrderCreate (orderCreateText tableId ps) MAX_ORDER_ITEMS = .ok (t, lines) ↔
      0 < tableId ∧ (∀ p ∈ ps, 0 < p.1 ∧ 0 < p.2) ∧ t = tableId ∧ lines = ps.map pairItem := by
  have htoks := requestFields_orderCreateText htable hfits hlen
  have htableField : lastField (lit "table=") [lit "table=" ++ fmtInt tableId,
      lit "items=" ++ pairsText ps] = some (fmtInt tableId) := by
    have hother : field (lit "table=") (lit "items=" ++ pairsText ps) = none := rfl
    simp [lastField, hother]
  have hitemsField : lastField (lit "items=") [lit "table=" ++ fmtInt tableId,
      lit "items=" ++ pairsText ps] = some (pairsText ps) := by
    have hother : field (lit "items=") (lit "table=" ++ fmtInt tableId) = none := rfl
    simp [lastField, hother]
  have hnonempty : pairsText ps ≠ [] := by
    cases ps with
    | nil => exact absurd rfl hne
    | cons p ps => exact List.append_ne_nil_of_left_ne_nil (pairText_ne_nil p) _
  have hshort : (pairsText ps).length < MAX_PROTO_LINE := by
    have := length_pairsText_le hfits hlen
    show _ < 16384
    omega
  have htake : (ps.map pairText).take MAX_ORDER_ITEMS = ps.map pairText :=
    List.take_of_length_le (by rwa [List.length_map])
  rw [protoParseOrderCreate, htoks]
  simp only [htableField, hitemsField, Option.map_some, Option.getD_some, atoi_fmtInt htable,
    clip_eq_self hshort, if_neg hnonempty, tokens_pairsText, htake]
  split
  · next hbad =>
    constructor
    · intro h
      cases h
    · rintro ⟨hpos, -⟩
      omega
  · next hpos =>
    have hpairs := mapM_parsePair hfits
    cases hmap : (ps.map pairText).mapM parsePair with
    | error e =>
      constructor
      · intro h
        cases h
      · rintro ⟨-, hall, -⟩
        rw [(hpairs _).mpr ⟨hall, rfl⟩] at hmap
        cases hmap
    | ok ls =>
      obtain ⟨hall, rfl⟩ := (hpairs ls).mp hmap
      constructor
      · intro h
        cases h
        exact ⟨by omega, hall, rfl, rfl⟩
      · rintro ⟨-, -, rfl, rfl⟩
        rfl

/-! ## What the parser promises -/

/-- A line as the parser leaves it: a positive id and quantity in range, no name, no price. -/
structure CartItem.Parsed (it : CartItem) : Prop where
  menuId_pos : 0 < it.menuId
  qty_pos : 0 < it.qty
  menuId_fits : FitsInt it.menuId
  qty_fits : FitsInt it.qty

theorem parsePair_parsed {pair : Bytes} {it : CartItem} (h : parsePair pair = .ok it) :
    it.Parsed := by
  unfold parsePair at h
  split at h
  · cases h
  · simp only at h
    split at h
    · cases h
    · next hpos =>
      cases h
      rw [not_or, Int.not_le, Int.not_le] at hpos
      exact ⟨hpos.1, hpos.2, atoi_fits _, atoi_fits _⟩

theorem protoParseOrderCreate_ok {msg : Bytes} {maxCart : Nat} {tableId : Int}
    {lines : List CartItem} (h : protoParseOrderCreate msg maxCart = .ok (tableId, lines)) :
    0 < tableId ∧ FitsInt tableId ∧ lines.length ≤ maxCart ∧ ∀ it ∈ lines, it.Parsed := by
  unfold protoParseOrderCreate at h
  split at h
  · cases h
  · next toks _ =>
    simp only at h
    split at h
    · cases h
    · next hpos =>
      split at h
      · cases h
      · split at h
        · cases h
        · next lines' hlines =>
          cases h
          refine ⟨by omega, ?_, ?_, ?_⟩
          · cases hf : lastField (lit "table=") toks with
            | none => exact absurd hpos (by simp [hf])
            | some v => exact atoi_fits v
          · have hlen := (mapM_eq_ok.mp hlines).length_eq
            rw [List.length_take] at hlen
            omega
          · intro it hit
            obtain ⟨pair, -, hpair⟩ := exists_of_mem_mapM hlines hit
            exact parsePair_parsed hpair

end TableOrder
