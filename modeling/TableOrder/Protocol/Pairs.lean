import TableOrder.Protocol.Request

/-!
# Every pair of an order

`proto_parse_order_create` ends its loop on the first bad pair, with an error, and on a full array,
without one. So an accepted order has all pairs of its message exactly when the array had room for
them (`orderCreate_lists_iff`), the text after the header being no longer than the buffers.
-/

namespace TableOrder

open CLib

/-- The text after the header. -/
def orderText (msg : Bytes) : Bytes :=
  ((strstr (lit "ORDER_CREATE|") msg).map (·.drop (lit "ORDER_CREATE|").length)).getD []

/-- The value of the last `items=` field. -/
def itemsField (text : Bytes) : Bytes := (lastField (lit "items=") (tokens (ch '|') text)).getD []

/-- The pairs of the message, however long it is and however many they are. -/
def writtenPairs (msg : Bytes) : List Bytes := tokens (ch ',') (itemsField (orderText msg))

/-- The pairs in the part of the message that the buffers take. -/
def bufferedPairs (msg : Bytes) : List Bytes :=
  tokens (ch ',') (clip MAX_PROTO_LINE (itemsField (clip MAX_PROTO_LINE (orderText msg))))

/-- The numbers before and after the first colon. -/
def pairNumbers (pair : Bytes) : Option (Int × Int) :=
  (strchr (ch ':') pair).map fun (before, after) => (atoi before, atoi after)

/-- The line has the id and the quantity written in the pair, and both are positive. -/
structure PairAs (pair : Bytes) (it : CartItem) : Prop where
  numbers : pairNumbers pair = some (it.menuId, it.qty)
  menuId : 0 < it.menuId
  qty : 0 < it.qty

theorem pairAs_of_parsePair {pair : Bytes} {it : CartItem} (h : parsePair pair = .ok it) :
    PairAs pair it := by
  unfold parsePair at h
  cases hcolon : strchr (ch ':') pair with
  | none =>
    rw [hcolon] at h
    cases h
  | some p =>
    rw [hcolon] at h
    simp only at h
    split at h
    · cases h
    · next hpos =>
      cases h
      rw [not_or] at hpos
      refine ⟨?_, Int.lt_of_not_ge hpos.1, Int.lt_of_not_ge hpos.2⟩
      rw [pairNumbers, hcolon]
      rfl

theorem length_itemsField_le (text : Bytes) : (itemsField text).length ≤ text.length := by
  unfold itemsField lastField
  cases hlast : ((tokens (ch '|') text).filterMap (field (lit "items="))).getLast? with
  | none => exact Nat.zero_le _
  | some v =>
    obtain ⟨tok, htok, hv⟩ := List.mem_filterMap.mp (List.mem_of_getLast? hlast)
    have hle : tok.length ≤ text.length := length_le_of_mem_tokens htok
    unfold field at hv
    split at hv
    · cases hv
      rw [Option.getD_some, List.length_drop]
      omega
    · cases hv

/-- A text that fits is read whole. -/
theorem bufferedPairs_of_fits {msg : Bytes} (h : (orderText msg).length < MAX_PROTO_LINE) :
    bufferedPairs msg = writtenPairs msg := by
  have hfield := length_itemsField_le (orderText msg)
  rw [bufferedPairs, writtenPairs, clip_eq_self h, clip_eq_self (by omega)]

/-- An accepted order has the first pairs, as many as the array has room for. -/
theorem orderCreate_buffered {msg : Bytes} {maxCart : Nat} {tableId : Int} {lines : List CartItem}
    (h : protoParseOrderCreate msg maxCart = .ok (tableId, lines)) :
    List.Forall₂ PairAs ((bufferedPairs msg).take maxCart) lines := by
  unfold protoParseOrderCreate requestFields at h
  cases hheader : strstr (lit "ORDER_CREATE|") msg with
  | none =>
    rw [hheader] at h
    cases h
  | some p =>
    have htext : orderText msg = p.drop (lit "ORDER_CREATE|").length := by
      rw [orderText, hheader]
      rfl
    rw [hheader, Option.map_some, ← htext] at h
    simp only at h
    split at h
    · cases h
    · split at h
      · cases h
      · split at h
        · cases h
        · next lines' hlines =>
          cases h
          exact (mapM_eq_ok.mp hlines).imp fun _ _ => pairAs_of_parsePair

/-- Two lists of pairs stand for the same lines when their numbers are the same. -/
theorem forall₂_pairAs_iff {pairs pairs' : List Bytes} {lines : List CartItem}
    (h : List.Forall₂ PairAs pairs lines) :
    List.Forall₂ PairAs pairs' lines ↔ pairs.map pairNumbers = pairs'.map pairNumbers := by
  induction h generalizing pairs' with
  | nil => simp [List.forall₂_nil_right_iff, eq_comm]
  | cons hpair _ ih =>
    cases pairs' with
    | nil => simp
    | cons pair' pairs' =>
      rw [List.forall₂_cons, ih, List.map_cons, List.map_cons, List.cons.injEq, hpair.numbers]
      apply and_congr_left
      intro _
      exact ⟨fun h => h.numbers.symm, fun h => ⟨h.symm, hpair.menuId, hpair.qty⟩⟩

/-- Of an accepted message all pairs are in the cart if and only if those that are read, the first
`maxCart` in the part that the buffers take, have the numbers of all of them. Where the text fits the
buffers, that is if and only if there are at most `maxCart`. -/
theorem orderCreate_lists_iff {msg : Bytes} {maxCart : Nat} {tableId : Int}
    {lines : List CartItem} (h : protoParseOrderCreate msg maxCart = .ok (tableId, lines)) :
    (List.Forall₂ PairAs (writtenPairs msg) lines ↔
      ((bufferedPairs msg).take maxCart).map pairNumbers = (writtenPairs msg).map pairNumbers) ∧
    ((orderText msg).length < MAX_PROTO_LINE →
      (List.Forall₂ PairAs (writtenPairs msg) lines ↔ (writtenPairs msg).length ≤ maxCart)) := by
  have hread := orderCreate_buffered h
  refine ⟨forall₂_pairAs_iff hread, fun hfits => ?_⟩
  rw [bufferedPairs_of_fits hfits] at hread
  constructor
  · intro hall
    have hlen := hread.length_eq
    rw [← hall.length_eq, List.length_take] at hlen
    omega
  · intro hroom
    rw [List.take_of_length_le hroom] at hread
    exact hread

/-- The message of the protocol test. -/
theorem orderCreate_lists_iff_test :
    let msg := lit "ORDER_CREATE|table=2|items=1:2,3:1"
    let lines := [pairItem (1, 2), pairItem (3, 1)]
    (List.Forall₂ PairAs (writtenPairs msg) lines ↔
      ((bufferedPairs msg).take 32).map pairNumbers = (writtenPairs msg).map pairNumbers) ∧
    ((orderText msg).length < MAX_PROTO_LINE →
      (List.Forall₂ PairAs (writtenPairs msg) lines ↔ (writtenPairs msg).length ≤ 32)) := by
  have h : protoParseOrderCreate (lit "ORDER_CREATE|table=2|items=1:2,3:1") 32 =
      .ok (2, [pairItem (1, 2), pairItem (3, 1)]) := by
    decide
  exact orderCreate_lists_iff h

/-- One dish, ordered 33 times. -/
def longOrder : Bytes := orderCreateText 1 (List.replicate 33 (1, 1))

theorem orderCreate_dropsPair : ¬ ∀ (msg : Bytes) (tableId : Int) (lines : List CartItem),
    protoParseOrderCreate msg MAX_ORDER_ITEMS = .ok (tableId, lines) →
      List.Forall₂ PairAs (writtenPairs msg) lines := by
  intro hall
  have hparse : protoParseOrderCreate longOrder MAX_ORDER_ITEMS =
      .ok (1, List.replicate 32 (pairItem (1, 1))) := by
    decide +kernel
  have hlen := (hall _ _ _ hparse).length_eq
  revert hlen
  decide +kernel

end TableOrder
