import TableOrder.Client.Reader
import TableOrder.Server.Reader

/-!
# The two line readers (`sock_read_line`, `ui_sock_read_line`)

The server and the clients read their sockets with two functions that were written apart. On a stream
without NUL both return the same: its lines, without the carriage returns at their ends, up to the
first that does not fit the buffer, wherever the reads cut the stream (`readers_agree`).
-/

namespace TableOrder

open CLib
open LineReader (Read Result Returned results lineResults)

/-- The lines of a stream as the readers return them: 8191 bytes fit beside the newline, an unfinished
last line is dropped at the end. -/
def streamResults (stream : Bytes) : List (Returned UInt8) :=
  lineResults 8192 (·.rdropWhile (· == ch '\r')) (stream.splitOn (ch '\n'))

/-- A line that was found in the buffer, without the bytes at its end that `strip_crnl` takes. -/
theorem rdropWhile_isLineEnd {line : Bytes} (hnl : ch '\n' ∉ line) :
    line.rdropWhile isLineEnd = line.rdropWhile (· == ch '\r') := by
  induction line using List.reverseRecOn with
  | nil => rfl
  | append_singleton line b ih =>
    rw [List.mem_append, not_or, List.mem_singleton] at hnl
    have hb : isLineEnd b = (b == ch '\r') := by
      have hne : (b == ch '\n') = false := by simpa using fun h : b = ch '\n' => hnl.2 h.symm
      simp [isLineEnd, hne]
    rw [List.rdropWhile_concat, List.rdropWhile_concat, hb, ih hnl.1]

/-- A line that fits the buffer fits `out`, whose size is twice as large. -/
theorem clip_fittingLine {line : Bytes} (h : line.length < 8192) : clip MAX_PROTO_LINE line = line :=
  clip_eq_self (lt_trans h (by decide))

theorem sockReadLine_results {stream : Bytes} (hnul : 0 ∉ stream) (splits : List (Nat → Nat)) :
    results (sockReadLine MAX_PROTO_LINE) SOCK_READER_SIZE splits [] stream =
      (streamResults stream).take splits.length := by
  have hcall (buf src : Bytes) (reads : List Read) : sockReadLine MAX_PROTO_LINE buf src reads =
      (LineReader.readLine (ch '\n') SOCK_READER_SIZE buf src reads).onLine
        fun text => stripCrnl (clip MAX_PROTO_LINE text) := by
    rw [sockReadLine, if_neg (by decide)]
    cases LineReader.readLine (ch '\n') SOCK_READER_SIZE buf src reads <;> rfl
  rw [LineReader.results_eq hcall splits (Nat.zero_le _), List.nil_append, streamResults]
  congr 1
  apply LineReader.lineResults_congr
  intro line hline hshort
  obtain ⟨hnl, hsub⟩ := mem_splitOn hline
  have hline : 0 ∉ line := fun hzero => hnul (hsub.subset hzero)
  rw [clip_fittingLine hshort, stripCrnl, takeWhile_noNul hline, rdropWhile_isLineEnd hnl]

theorem uiSockReadLine_results (stream : Bytes) (splits : List (Nat → Nat)) :
    results (uiSockReadLine MAX_PROTO_LINE) READER_SIZE splits [] stream =
      (streamResults stream).take splits.length := by
  have hcall (buf src : Bytes) (reads : List Read) : uiSockReadLine MAX_PROTO_LINE buf src reads =
      (LineReader.readLine (ch '\n') READER_SIZE buf src reads).onLine
        fun text => (clip MAX_PROTO_LINE text).rdropWhile isLineEnd := by
    rw [uiSockReadLine, if_neg (by decide)]
    cases LineReader.readLine (ch '\n') READER_SIZE buf src reads <;> rfl
  rw [LineReader.results_eq hcall splits (Nat.zero_le _), List.nil_append, streamResults]
  congr 1
  apply LineReader.lineResults_congr
  intro line hline hshort
  rw [clip_fittingLine hshort, rdropWhile_isLineEnd (mem_splitOn hline).1]

/-- The successive results of either reader are those of the stream alone. -/
theorem readers_agree {stream : Bytes} (hnul : 0 ∉ stream) (splits splits' : List (Nat → Nat)) :
    results (sockReadLine MAX_PROTO_LINE) SOCK_READER_SIZE splits [] stream =
        (streamResults stream).take splits.length ∧
      results (uiSockReadLine MAX_PROTO_LINE) READER_SIZE splits' [] stream =
        (streamResults stream).take splits'.length :=
  ⟨sockReadLine_results hnul splits, uiSockReadLine_results stream splits'⟩

/-- Two lines and an unfinished one, byte by byte and in one piece. -/
theorem readers_agree_ping :
    let stream := lit "PING\r\r\n\nHEL"
    let bytewise := List.replicate 4 fun _ => 0
    let atOnce := List.replicate 4 fun _ => 8191
    results (sockReadLine MAX_PROTO_LINE) SOCK_READER_SIZE bytewise [] stream =
        (streamResults stream).take 4 ∧
      results (uiSockReadLine MAX_PROTO_LINE) READER_SIZE atOnce [] stream =
        (streamResults stream).take 4 :=
  readers_agree (by decide) (List.replicate 4 fun _ => 0) (List.replicate 4 fun _ => 8191)

example : streamResults (lit "PING\r\r\n\nHEL") = [.line (lit "PING"), .line [], .closed] := by
  decide

end TableOrder
