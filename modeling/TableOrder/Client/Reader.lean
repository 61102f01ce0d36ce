import TableOrder.Client.Kitchen
import TableOrder.Lib.LineReader
import TableOrder.Server.Wire

/-!
# The reader of the clients (`ui_sock_read_line`)

Both clients read the socket through a buffer of 8192 bytes, half of what the server puts into one
line. A line comes through however the reads cut the stream, if it fits that buffer with its newline
(`readsBack_line`). Every order event does (`orderEvent_throughReader`); a menu response does up to a
length that a full catalog can exceed (`menuReply_intact_iff`).
-/

namespace TableOrder

open CLib
open LineReader (Read Result)

/-- The size of `UiSockReader.buf`. -/
abbrev READER_SIZE : Nat := 8192

/-- One call, with the bytes that are in the buffer, the bytes still to come and what the calls of
`read` do. The line is cut to `out[outsz]` and its line ends are removed. -/
def uiSockReadLine (outsz : Nat) (buf src : Bytes) (reads : List Read) : Result UInt8 :=
  if outsz = 0 then .gaveUp
  else
    match LineReader.readLine (ch '\n') READER_SIZE buf src reads with
    | .line text buf src => .line ((clip outsz text).rdropWhile isLineEnd) buf src
    | result => result

/-- The reader returns this line for these bytes, however the reads cut the stream: it has returned
the line and nothing behind it, or it waits, and not for more reads than there are bytes. -/
def ReadsBack (sent line : Bytes) : Prop :=
  ∀ (buf src more : Bytes) (reads : List Read), buf ++ src = sent ++ more →
    buf.length ≤ READER_SIZE → (∀ r ∈ reads, r.works = true) →
    (∃ buf' src', buf' ++ src' = more ∧
      uiSockReadLine MAX_PROTO_LINE buf src reads = .line line buf' src') ∨
    (∃ buf' src', uiSockReadLine MAX_PROTO_LINE buf src reads = .waiting buf' src') ∧
      reads.countP Read.isDelivery < sent.length

theorem readsBack_line {line : Bytes} (hfree : ∀ b ∈ line, isLineEnd b = false)
    (hlen : line.length < READER_SIZE) : ReadsBack (line ++ lit "\n") line := by
  intro buf src more reads hsrc _ hworks
  have hnl : ch '\n' ∉ line := by
    intro h
    have hend := hfree _ h
    revert hend
    decide
  have hkept : (clip MAX_PROTO_LINE line).rdropWhile isLineEnd = line := by
    have hshort : line.length < MAX_PROTO_LINE := lt_trans hlen (by decide)
    rw [clip_eq_self hshort, List.rdropWhile_eq_self_iff]
    intro hne
    rw [hfree _ (List.getLast_mem hne)]
    simp
  have hstream : buf ++ src = line ++ ch '\n' :: more := by
    rw [hsrc, List.append_assoc]
    rfl
  unfold uiSockReadLine
  rw [if_neg (by decide)]
  rcases LineReader.readLine_line hstream hnl hlen hworks with
    ⟨buf', src', hrest, hline⟩ | ⟨⟨buf', src', hwait⟩, hcount⟩
  · refine .inl ⟨buf', src', hrest, ?_⟩
    rw [hline]
    show Result.line ((clip MAX_PROTO_LINE line).rdropWhile isLineEnd) buf' src' = .line line buf' src'
    rw [hkept]
  · refine .inr ⟨⟨buf', src', by rw [hwait]⟩, ?_⟩
    rw [List.length_append]
    have hone : (lit "\n").length = 1 := by decide
    omega

/-- Bytes whose first 8192 hold no newline make the reader give up. -/
theorem not_readsBack {sent line : Bytes} (hlong : READER_SIZE ≤ sent.length)
    (hfree : ch '\n' ∉ sent.take READER_SIZE) : ¬ ReadsBack sent line := by
  intro h
  let reads := List.replicate sent.length (Read.delivers 0)
  have hworks : ∀ r ∈ reads, r.works = true := by
    intro r hr
    rw [List.eq_of_mem_replicate hr]
    rfl
  have hcount : reads.countP Read.isDelivery = sent.length := by
    rw [List.countP_eq_length.mpr]
    · exact List.length_replicate
    · intro r hr
      rw [List.eq_of_mem_replicate hr]
      rfl
  have hgave : uiSockReadLine MAX_PROTO_LINE [] sent reads = .gaveUp := by
    unfold uiSockReadLine
    rw [if_neg (by decide)]
    rcases LineReader.readLine_gaveUp (show ([] : Bytes).length ≤ READER_SIZE from Nat.zero_le _) hlong hfree hworks with
      hgave | ⟨-, hfew⟩
    · rw [hgave]
    · rw [hcount, List.length_nil] at hfew
      omega
  rcases h [] sent [] reads (by simp) (Nat.zero_le _) hworks with
    ⟨buf', src', -, hline⟩ | ⟨⟨buf', src', hwait⟩, -⟩
  · rw [hgave] at hline
    cases hline
  · rw [hgave] at hwait
    cases hwait

/-! ## Order events -/

/-- The event of an order fits the buffers of both sides, and what the client reads from it is the
order with its names cleaned. -/
theorem orderEvent_throughReader {o : Order} (hfits : o.Fits) (hnamed : o.Named) :
    (orderEvent o).length < MAX_PROTO_LINE ∧ (orderEvent o).length ≤ READER_SIZE ∧
      ∃ line, ReadsBack (orderEvent o) line ∧
        protoParseOrderBroadcast line = .ok (sanitizeOrder o) := by
  have hlen := length_eventText_lt hfits
  have hevent : (orderEvent o).length = (eventText o).length + 1 := by
    rw [orderEvent, build_eq hfits, List.length_append]
    rfl
  have hline : (eventText o).length < READER_SIZE := by
    show (eventText o).length < 8192
    omega
  have hreader : (orderEvent o).length ≤ READER_SIZE := by
    rw [hevent]
    exact hline
  have hproto : READER_SIZE < MAX_PROTO_LINE := by decide
  refine ⟨lt_of_le_of_lt hreader hproto, hreader, protoBuildOrderBroadcast o, ?_,
    parse_build hfits hnamed⟩
  apply readsBack_line
  · rw [build_eq hfits]
    intro b hb
    have hfree {c : UInt8} (hc : isReserved c = true) (hbar : c ≠ ch '|') (hsemi : c ≠ ch ';')
        (hcolon : c ≠ ch ':') : b ≠ c := by
      rintro rfl
      exact reserved_not_mem_eventText hc hbar hsemi hcolon o hb
    have hcr := hfree (c := ch '\r') (by decide) (by decide) (by decide) (by decide)
    have hnl := hfree (c := ch '\n') (by decide) (by decide) (by decide) (by decide)
    simp [isLineEnd, hcr, hnl]
  · rw [build_eq hfits]
    exact hline

/-- An order with a separator and a newline in a name, and numbers of both signs. -/
def oddOrder : Order where
  orderId := 2147483647
  tableId := -3
  status := .cooking
  items := ⟨[⟨1, CStr.copy MAX_NAME (lit "a;b\n|items="), -2147483648, 2⟩, ⟨-4, CStr.copy MAX_NAME (lit " "), 5, 0⟩],
    by decide⟩
  totalPrice := -1
  createdAt := 9223372036854775807

theorem orderEvent_throughReader_oddOrder :
    (orderEvent oddOrder).length < MAX_PROTO_LINE ∧ (orderEvent oddOrder).length ≤ READER_SIZE ∧
      ∃ line, ReadsBack (orderEvent oddOrder) line ∧
        protoParseOrderBroadcast line = .ok (sanitizeOrder oddOrder) := by
  have heach {P : OrderLineItem → Prop}
      (h₁ : P ⟨1, CStr.copy MAX_NAME (lit "a;b\n|items="), -2147483648, 2⟩)
      (h₂ : P ⟨-4, CStr.copy MAX_NAME (lit " "), 5, 0⟩) : ∀ it ∈ oddOrder.items.items, P it := by
    intro it hit
    rcases List.mem_pair.mp hit with rfl | rfl
    · exact h₁
    · exact h₂
  refine orderEvent_throughReader ⟨by decide, by decide, by decide, by decide, ?_⟩ ?_
  · exact heach ⟨by decide, by decide, by decide⟩ ⟨by decide, by decide, by decide⟩
  · exact heach (by decide) (by decide)

/-! ## The menu reply -/

/-- The answer to `MENU_REQUEST` is one line with its newline, and the client reads that line. -/
def MenuReplyIntact (cat : MenuCatalog) : Prop :=
  ∃ line, (Reply.menu cat).text = line ++ lit "\n" ∧ ReadsBack (Reply.menu cat).text line

theorem menuReply_text (cat : MenuCatalog) : (Reply.menu cat).text =
    if (menuResponseText cat).length < MAX_PROTO_LINE then
      clip MAX_PROTO_LINE (menuResponseText cat ++ lit "\n")
    else lit "ERROR|menu encode\n" := by
  by_cases h : (menuResponseText cat).length < MAX_PROTO_LINE
  · simp only [Reply.text, protoBuildMenuResponse_eq, if_pos h]
  · simp only [Reply.text, protoBuildMenuResponse_eq, if_neg h]
    decide

/-- A response holds no line end. -/
theorem menuResponseText_oneLine (cat : MenuCatalog) : ∀ b ∈ menuResponseText cat, isLineEnd b = false := by
  intro b hb
  have hfree {c : UInt8} (hc : isReserved c = true) (hdigit : isDigit c = false)
      (hminus : c ≠ ch '-') (hcomma : c ≠ ch ',') (hsemi : c ∉ lit ";")
      (hheader : c ∉ lit "MENU_RESPONSE|") : b ≠ c := by
    rintro rfl
    rcases List.mem_append.mp hb with hb | hb
    · exact hheader hb
    · obtain ⟨entry, -, hb⟩ := List.mem_flatMap.mp hb
      rw [menuSegment_eq] at hb
      rcases List.mem_append.mp hb with hb | hb
      · split at hb
        · exact hsemi hb
        · cases hb
      · exact MenuItem.not_mem_csv hdigit hminus hcomma (not_mem_sanitizeField hc _)
          (not_mem_sanitizeField hc _) hb
  have hcr := hfree (c := ch '\r') (by decide) (by decide) (by decide) (by decide) (by decide)
    (by decide)
  have hnl := hfree (c := ch '\n') (by decide) (by decide) (by decide) (by decide) (by decide)
    (by decide)
  simp [isLineEnd, hcr, hnl]

/-- A response that fits the buffer of the server and not that of the client. -/
theorem not_menuReplyIntact {cat : MenuCatalog} (hlong : READER_SIZE ≤ menuTextLength cat)
    (hfits : menuTextLength cat < MAX_PROTO_LINE) : ¬ MenuReplyIntact cat := by
  rintro ⟨line, -, hback⟩
  rw [← length_menuResponseText] at hlong hfits
  have htake : (Reply.menu cat).text.take READER_SIZE = (menuResponseText cat).take READER_SIZE := by
    have hmin : min READER_SIZE (MAX_PROTO_LINE - 1) = READER_SIZE := by decide
    rw [menuReply_text, if_pos hfits, clip, List.take_take, hmin, List.take_append_of_le_length hlong]
  have hlen : READER_SIZE ≤ (Reply.menu cat).text.length := by
    rw [menuReply_text, if_pos hfits, clip, List.length_take, List.length_append]
    omega
  refine not_readsBack hlen ?_ hback
  rw [htake]
  intro hmem
  have hend := menuResponseText_oneLine cat _ (List.mem_of_mem_take hmem)
  revert hend
  decide

/-- The menu reply comes through if and only if the response, without its newline, has less than
8192 bytes, or at least 16384 so that an error is sent in its place. -/
theorem menuReply_intact_iff (cat : MenuCatalog) :
    MenuReplyIntact cat ↔ menuTextLength cat < READER_SIZE ∨ MAX_PROTO_LINE ≤ menuTextLength cat := by
  constructor
  · intro hintact
    by_contra hnot
    rw [not_or, Nat.not_lt, Nat.not_le] at hnot
    exact not_menuReplyIntact hnot.1 hnot.2 hintact
  · rw [← length_menuResponseText]
    rintro (hshort | hlong)
    · have hproto : READER_SIZE < MAX_PROTO_LINE := by decide
      have hroom : (menuResponseText cat ++ lit "\n").length < MAX_PROTO_LINE := by
        rw [List.length_append]
        exact lt_of_le_of_lt hshort hproto
      have htext : (Reply.menu cat).text = menuResponseText cat ++ lit "\n" := by
        rw [menuReply_text, if_pos (lt_trans hshort hproto), clip_eq_self hroom]
      refine ⟨menuResponseText cat, htext, ?_⟩
      rw [htext]
      exact readsBack_line (menuResponseText_oneLine cat) hshort
    · have htext : (Reply.menu cat).text = lit "ERROR|menu encode" ++ lit "\n" := by
        rw [menuReply_text, if_neg (Nat.not_lt.mpr hlong)]
        rfl
      have hfree : (lit "ERROR|menu encode").all (! isLineEnd ·) = true := by decide
      refine ⟨lit "ERROR|menu encode", htext, ?_⟩
      rw [htext]
      apply readsBack_line
      · intro b hb
        exact (Bool.not_eq_true' _).mp (List.all_eq_true.mp hfree b hb)
      · decide

/-- A full catalog with names of sixty bytes. -/
def longMenu : MenuCatalog where
  items := (List.range 128).map fun i =>
    ⟨i + 1, CStr.copy MAX_NAME (List.replicate 60 (ch 'x')), defaultCategory, 9000, 0, 0⟩
  bound := by simp

theorem menuReply_tooLong : ¬ ∀ cat, MenuReplyIntact cat := by
  intro h
  have hlen : READER_SIZE ≤ menuTextLength longMenu ∧ menuTextLength longMenu < MAX_PROTO_LINE := by
    decide +kernel
  exact not_menuReplyIntact hlen.1 hlen.2 (h longMenu)

/-! ## The queue of the network thread -/

/-- The lines that were read from the socket and not popped yet. -/
abbrev UiNetQueue := Arr Bytes 128

/-- A line that finds the queue full is dropped. -/
def uiNetEnqueue (nq : UiNetQueue) (line : Bytes) : UiNetQueue :=
  (nq.push? (clip MAX_PROTO_LINE line)).getD nq

def uiNetPop (nq : UiNetQueue) : Option (Bytes × UiNetQueue) :=
  nq.items.head?.map fun line => (clip MAX_PROTO_LINE line, nq.eraseIdx 0)

theorem clip_netLine (text : Bytes) : clip MAX_PROTO_LINE (netLine text) = netLine text := by
  apply clip_eq_self
  apply lt_of_le_of_lt (List.rdropWhile_prefix isLineEnd _).length_le
  exact length_clip_lt (by decide) _

theorem uiNetEnqueue_items {nq : UiNetQueue} (hroom : nq.items.length < 128) (text : Bytes) :
    (uiNetEnqueue nq (netLine text)).items = nq.items ++ [netLine text] := by
  rw [uiNetEnqueue, clip_netLine, Arr.push?_of_lt hroom]
  rfl

theorem uiNetPop_eq_some {nq nq' : UiNetQueue} {line : Bytes} (h : uiNetPop nq = some (line, nq')) :
    ∃ text, nq.items = text :: nq'.items ∧ line = clip MAX_PROTO_LINE text := by
  obtain ⟨text, hhead, heq⟩ := Option.map_eq_some_iff.mp h
  obtain ⟨rfl, rfl⟩ := Prod.ext_iff.mp heq
  obtain ⟨rest, hitems⟩ := List.head?_eq_some_iff.mp hhead
  refine ⟨text, ?_, rfl⟩
  rw [Arr.eraseIdx_items, hitems]
  rfl

end TableOrder
