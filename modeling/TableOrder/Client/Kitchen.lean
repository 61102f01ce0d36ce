import Mathlib.Data.List.DropRight
import TableOrder.Lib.Replica
import TableOrder.Order
import TableOrder.Protocol.Event

/-!
# Order mirrors and the kitchen client (`ui.c`)

A client keeps a mirror of the orders it was told about: every `ORDER_EVENT` it reads is merged
into the mirror by id, which is an array of the same size as the server's. Both clients do this,
before and after the `OK|` of the handshake; the board of the kitchen is nothing else.
-/

namespace TableOrder

open CLib

/-! ## Lines -/

def isLineEnd (b : UInt8) : Bool := b == ch '\r' || b == ch '\n'

/-- A line of the server as `ui_net_pop` returns it: cut at its newline and to the buffer, without
trailing carriage returns. -/
def netLine (text : Bytes) : Bytes :=
  (clip MAX_PROTO_LINE (text.takeWhile (· != ch '\n'))).rdropWhile isLineEnd

theorem netLine_isPrefixOf (text : Bytes) : netLine text <+: text := by
  have hstrip := List.rdropWhile_prefix isLineEnd
    (clip MAX_PROTO_LINE (text.takeWhile (· != ch '\n')))
  have hclip := List.take_prefix (MAX_PROTO_LINE - 1) (text.takeWhile (· != ch '\n'))
  have hcut := List.takeWhile_prefix (l := text) (· != ch '\n')
  exact hstrip.trans (hclip.trans hcut)

theorem startsWith_netLine {key text : Bytes} (h : startsWith key (netLine text) = true) :
    startsWith key text = true := by
  rw [startsWith, List.isPrefixOf_iff_prefix] at h ⊢
  exact h.trans (netLine_isPrefixOf text)

/-- A short text without line ends comes through whole. -/
theorem netLine_line {text : Bytes} (hfree : ∀ b ∈ text, isLineEnd b = false)
    (hlen : text.length < MAX_PROTO_LINE) : netLine (text ++ lit "\n") = text := by
  have hcut : (text ++ lit "\n").takeWhile (· != ch '\n') = text := by
    have hall : ∀ b ∈ text, (b != ch '\n') = true := by
      intro b hb
      have h := hfree b hb
      rw [isLineEnd, Bool.or_eq_false_iff] at h
      rw [bne, h.2]
      rfl
    rw [List.takeWhile_append_of_pos hall]
    exact List.append_nil text
  rw [netLine, hcut, clip_eq_self hlen, List.rdropWhile_eq_self_iff]
  intro hne
  rw [hfree _ (List.getLast_mem hne)]
  simp

/-! ## The mirror -/

abbrev Mirror := Arr Order MAX_ORDERS

/-- A full mirror drops a new order. -/
def uiMergeOrderMirror (orders : Mirror) (incoming : Order) : Mirror :=
  match ordersFindIndex orders.items incoming.orderId with
  | some i => orders.modify i fun _ => incoming
  | none => (orders.push? incoming).getD orders

/-- What a line does to the mirror of either client. -/
def mirrorLine (orders : Mirror) (line : Bytes) : Mirror :=
  if startsWith (lit "ORDER_EVENT|") line then
    match protoParseOrderBroadcast line with
    | .ok incoming => uiMergeOrderMirror orders incoming
    | .error _ => orders
  else orders

def noOrders : Mirror := Arr.empty Order MAX_ORDERS

/-- An order of one dish for table 1. -/
def riceOrder (orderId : Int) (status : OrderStatus) : Order :=
  { orderHeader orderId 1 0 with
    status := status
    items := ⟨[⟨1, CStr.copy MAX_NAME (lit "Rice"), 9000, 1⟩], by decide⟩
    totalPrice := 9000 }

/-- With distinct ids and room for the order this is a merge by id. -/
theorem uiMergeOrderMirror_items {orders : Mirror} (incoming : Order)
    (hnd : (orders.items.map (·.orderId)).Nodup)
    (hroom : incoming.orderId ∉ orders.items.map (·.orderId) → orders.items.length < MAX_ORDERS) :
    (uiMergeOrderMirror orders incoming).items =
      Replica.merge (·.orderId) orders.items incoming := by
  unfold uiMergeOrderMirror Replica.merge
  cases hfind : ordersFindIndex orders.items incoming.orderId with
  | some i =>
    obtain ⟨o, ho, hid⟩ := ordersFindIndex_eq_some hfind
    rw [if_pos (List.mem_map.mpr ⟨o, List.mem_of_getElem? ho, hid⟩)]
    exact (modify_eq_set ho).trans (Replica.set_eq_put hnd ho hid.symm)
  | none =>
    have hnew : incoming.orderId ∉ orders.items.map (·.orderId) := ordersFindIndex_eq_none.mp hfind
    rw [if_neg hnew]
    simp only [Arr.push?_of_lt (hroom hnew)]
    rfl

/-! ## The kitchen -/

structure Kitchen where
  handshakeOk : Bool
  board : Mirror

def Kitchen.init : Kitchen := ⟨false, noOrders⟩

/-- One line of the network, in the handshake loop or after it. A staff call is only printed. -/
def kitchenLine (k : Kitchen) (line : Bytes) : Kitchen :=
  if !k.handshakeOk && startsWith (lit "OK|") line then { k with handshakeOk := true }
  else { k with board := mirrorLine k.board line }

def uiKitchenCollectActive (orders : List Order) (maxIds : Nat) : List Int :=
  ((orders.filter (!·.status.terminal)).map (·.orderId)).take maxIds

theorem mirrorLine_of_not {line : Bytes} (h : ¬ startsWith (lit "ORDER_EVENT|") line = true)
    (orders : Mirror) : mirrorLine orders line = orders := if_neg h

/-- A line under another header leaves the mirror alone. -/
theorem mirrorLine_of_key {key line : Bytes}
    (hkey : ∀ v, startsWith (lit "ORDER_EVENT|") (key ++ v) = false)
    (h : startsWith key line = true) (orders : Mirror) : mirrorLine orders line = orders := by
  apply mirrorLine_of_not
  rw [eq_append_of_startsWith h, hkey]
  decide

theorem kitchenLine_board (k : Kitchen) (line : Bytes) :
    (kitchenLine k line).board = mirrorLine k.board line := by
  unfold kitchenLine
  split
  · next h =>
    rw [Bool.and_eq_true] at h
    exact (mirrorLine_of_key (fun _ => rfl) h.2 k.board).symm
  · rfl

theorem foldl_kitchenLine_board (k : Kitchen) (lines : List Bytes) :
    (lines.foldl kitchenLine k).board = lines.foldl mirrorLine k.board := by
  induction lines generalizing k with
  | nil => rfl
  | cons line lines ih => rw [List.foldl_cons, ih, kitchenLine_board, List.foldl_cons]

end TableOrder
