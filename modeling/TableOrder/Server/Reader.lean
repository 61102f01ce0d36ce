import TableOrder.Client.Submit
import TableOrder.Lib.LineReader

/-!
# The reader of the server (`sock_read_line`)

The thread of a client reads its socket through a buffer of 8192 bytes, like the clients do. The
request for a cart of any size fits it, so what the parser gets is the cart, however the reads cut the
stream (`orderCreate_throughServer`).
-/

namespace TableOrder

open CLib
open LineReader (Read Result)

/-- The size of `SockReader.buf`. -/
abbrev SOCK_READER_SIZE : Nat := 8192

/-- Remove the line ends from the end of a string; `strlen` stops at the first NUL. -/
def stripCrnl (s : Bytes) : Bytes := (s.takeWhile (· ≠ 0)).rdropWhile isLineEnd

/-- One call, with the bytes that are in the buffer, the bytes still to come and what the calls of
`read` do. -/
def sockReadLine (outsz : Nat) (buf src : Bytes) (reads : List Read) : Result UInt8 :=
  if outsz = 0 then .gaveUp
  else
    match LineReader.readLine (ch '\n') SOCK_READER_SIZE buf src reads with
    | .line text buf src => .line (stripCrnl (clip outsz text)) buf src
    | result => result

/-- The thread reads this line from these bytes, whatever is in the buffer and behind them and
however the reads cut the stream: it has the line and nothing behind it, or it waits, and not for more
reads than there are bytes. -/
def SockReads (sent line : Bytes) : Prop :=
  ∀ (buf src more : Bytes) (reads : List Read), buf ++ src = sent ++ more →
    (∀ r ∈ reads, r.works = true) →
    (∃ buf' src', buf' ++ src' = more ∧
      sockReadLine MAX_PROTO_LINE buf src reads = .line line buf' src') ∨
    (∃ buf' src', sockReadLine MAX_PROTO_LINE buf src reads = .waiting buf' src') ∧
      reads.countP Read.isDelivery < sent.length

/-- A string without line ends at its end is left as it is. -/
theorem stripCrnl_eq_self {s : Bytes} (hnul : 0 ∉ s) (hfree : ∀ b ∈ s, isLineEnd b = false) :
    stripCrnl s = s := by
  rw [stripCrnl, takeWhile_noNul hnul, List.rdropWhile_eq_self_iff]
  intro hne
  rw [hfree _ (List.getLast_mem hne)]
  simp

theorem sockReads_line {line : Bytes} (hnul : 0 ∉ line) (hfree : ∀ b ∈ line, isLineEnd b = false)
    (hlen : line.length < SOCK_READER_SIZE) : SockReads (line ++ lit "\n") line := by
  intro buf src more reads hsrc hworks
  have hnl : ch '\n' ∉ line := by
    intro h
    have hend := hfree _ h
    revert hend
    decide
  have hkept : stripCrnl (clip MAX_PROTO_LINE line) = line := by
    have hshort : line.length < MAX_PROTO_LINE := lt_trans hlen (by decide)
    rw [clip_eq_self hshort, stripCrnl_eq_self hnul hfree]
  have hstream : buf ++ src = line ++ ch '\n' :: more := by
    rw [hsrc, List.append_assoc]
    rfl
  unfold sockReadLine
  rw [if_neg (by decide)]
  rcases LineReader.readLine_line hstream hnl hlen hworks with
    ⟨buf', src', hrest, hline⟩ | ⟨⟨buf', src', hwait⟩, hcount⟩
  · refine .inl ⟨buf', src', hrest, ?_⟩
    rw [hline]
    show Result.line (stripCrnl (clip MAX_PROTO_LINE line)) buf' src' = .line line buf' src'
    rw [hkept]
  · refine .inr ⟨⟨buf', src', by rw [hwait]⟩, ?_⟩
    rw [List.length_append]
    have hone : (lit "\n").length = 1 := by decide
    omega

/-- The request for a non-empty cart of positive quantities is read and parsed into the table and the
lines of the cart, in order. -/
theorem orderCreate_throughServer {tableId : Int} (htable : 0 < tableId) (hfits : FitsInt tableId)
    {cart : Cart} (hne : cart.items ≠ []) (hcart : CartOk cart)
    (hqty : ∀ it ∈ cart.items, 0 < it.qty) :
    ∃ line lines, SockReads (TableSent.orderCreate tableId cart).text line ∧
      protoParseOrderCreate line MAX_ORDER_ITEMS = .ok (tableId, lines) ∧
      lines.map (fun it => (it.menuId, it.qty)) = cartContent cart := by
  have hlen := length_orderCreateText_le hfits hcart.fits (length_cartContent_le cart)
  have hnul : 0 ∉ orderCreateText tableId (cartContent cart) :=
    not_mem_orderCreateText (by decide) (by decide) (by decide) (by decide) (by decide)
  have hcontent : cartContent cart ≠ [] := by simpa [cartContent] using hne
  have hpos : ∀ p ∈ cartContent cart, 0 < p.1 ∧ 0 < p.2 := by
    intro p hp
    obtain ⟨it, hit, rfl⟩ := List.mem_map.mp hp
    exact ⟨(hcart.line it hit).1, hqty it hit⟩
  refine ⟨orderCreateText tableId (cartContent cart), (cartContent cart).map pairItem, ?_, ?_, ?_⟩
  · rw [orderCreate_text hfits hcart]
    apply sockReads_line hnul (orderCreateText_oneLine tableId (cartContent cart))
    show _ < 8192
    omega
  · rw [protoParseOrderCreate_text hfits hcontent hcart.fits (length_cartContent_le cart)]
    exact ⟨htable, hpos, rfl, rfl⟩
  · rw [List.map_map]
    exact List.map_id _

/-- The two ends of the range, for the last table. -/
def extremeCart : Cart where
  items := [⟨2147483647, CStr.empty MAX_NAME, 900, 2147483647⟩, ⟨1, CStr.empty MAX_NAME, 900, 1⟩]
  bound := by decide

theorem orderCreate_throughServer_extreme :
    ∃ line lines, SockReads (TableSent.orderCreate 2147483647 extremeCart).text line ∧
      protoParseOrderCreate line MAX_ORDER_ITEMS = .ok (2147483647, lines) ∧
      lines.map (fun it => (it.menuId, it.qty)) = cartContent extremeCart :=
  orderCreate_throughServer (by decide) (by decide) (by decide)
    ⟨by decide, by decide⟩ (by decide)

end TableOrder
