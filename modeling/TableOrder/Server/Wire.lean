import TableOrder.Lib.Stream
import TableOrder.Server.Steps

/-!
# The bytes on one socket (`write_all`)

`write_all` is a loop over `write`, and every turn may take only a part of what is left. A broadcast
or a snapshot runs it under `ctx->lock`; the thread of the client runs it without the lock for its
replies. `Socket` is one client's socket with the lock and the texts on their way.

The lock keeps the broadcasts apart (`Locked`), but not a reply from a broadcast. A run is clean when
no one writes while the other side is in the middle of a line and no reply is a cut one; the
socket then carries complete lines (`wire_whole`), and without that it need not
(`wire_mixed`).
-/

namespace TableOrder

open CLib

inductive Thread where
  /-- The thread of the client at the socket. -/
  | own
  /-- The POS thread and the threads of the other clients. -/
  | other (n : Nat)
  deriving DecidableEq

/-- What is sent under the lock, to one client or to all. -/
inductive Notice where
  | order (o : Order)
  | staff (tableId : Int)
  | menuSync

def Notice.text : Notice → Bytes
  | .order o => orderEvent o
  | .staff tableId => protoBuildStaffBroadcast tableId ++ lit "\n"
  | .menuSync => menuSyncText

structure Socket where
  /-- The holder of `ctx->lock`. -/
  lock : Option Thread
  stream : Stream.State Thread UInt8

def Socket.init : Socket := ⟨none, Stream.init⟩

inductive WireAction where
  | lock (t : Thread)
  | unlock (t : Thread)
  /-- A call of `write_all` under the lock. -/
  | notify (t : Thread) (n : Notice)
  /-- A call of `write_all` by the client's thread, after the unlock. -/
  | reply (r : Reply)
  /-- One `write`, of `k + 1` bytes or all that is left. -/
  | write (t : Thread) (k : Nat)

/-- A thread that is inside `write_all` does nothing else. -/
def wireStep : WireAction → Socket → Socket
  | .lock t, s =>
    if s.lock = none ∧ s.stream.writing t = none then { s with lock := some t } else s
  | .unlock t, s =>
    if s.lock = some t ∧ s.stream.writing t = none then { s with lock := none } else s
  | .notify t n, s =>
    if s.lock = some t then { s with stream := Stream.start t n.text s.stream } else s
  | .reply r, s =>
    if s.lock = some .own then s else { s with stream := Stream.start .own r.text s.stream }
  | .write t k, s => { s with stream := Stream.write t k s.stream }

def runWire (s : Socket) (as : List WireAction) : Socket := Runs.run wireStep s as

/-! ## Lines -/

def CompleteLine (text : Bytes) : Prop := text.getLast? = some (ch '\n')

instance (text : Bytes) : Decidable (CompleteLine text) :=
  inferInstanceAs (Decidable (text.getLast? = some (ch '\n')))

theorem completeLine_append (s : Bytes) : CompleteLine (s ++ lit "\n") := by
  rw [CompleteLine, List.getLast?_append]
  rfl

theorem completeLine_clip {size : Nat} {s : Bytes} (h : s.length + 1 < size) :
    CompleteLine (clip size (s ++ lit "\n")) := by
  have hlen : (s ++ lit "\n").length < size := by
    rw [List.length_append]
    exact h
  rw [clip_eq_self hlen]
  exact completeLine_append s

theorem Notice.completeLine (n : Notice) : CompleteLine n.text := by
  cases n with
  | order o => exact completeLine_append _
  | staff tableId => exact completeLine_append _
  | menuSync => decide

/-- The reply is not cut before its newline. The handshake error is always, with a length of 23 for
25 bytes; a menu response is when it fills its buffer. The buffers of the error texts have at most
160 bytes. -/
def Reply.NotCut : Reply → Prop
  | .handshakeRequired => False
  | .menu cat => ∀ resp, protoBuildMenuResponse cat = some resp → resp.length ≠ MAX_PROTO_LINE - 1
  | .orderCreated orderId total _ => FitsInt orderId ∧ FitsInt total
  | .error err => err.length < 160
  | _ => True

theorem Reply.completeLine {r : Reply} (h : r.NotCut) : CompleteLine r.text := by
  cases r with
  | handshakeRequired => exact h.elim
  | menu cat =>
    simp only [Reply.text]
    split
    · decide
    · next resp hresp =>
      have hlen := length_protoBuildMenuResponse hresp
      have hne := h resp hresp
      apply completeLine_clip
      show _ < 16384
      have : resp.length < 16384 := hlen
      have : resp.length ≠ 16383 := hne
      omega
  | orderCreated orderId total status =>
    have h1 := length_fmtInt_le h.1
    have h2 := length_fmtInt_le h.2
    have h3 : (statusToString status).length ≤ 9 := by
      cases status <;> decide
    have l1 : (lit "ORDER_CREATED|order_id=").length = 23 := rfl
    have l2 : (lit "|total=").length = 7 := rfl
    have l3 : (lit "|status=").length = 8 := rfl
    apply completeLine_clip
    simp only [List.length_append, l1, l2, l3]
    omega
  | error err =>
    have h : err.length < 160 := h
    have l1 : (lit "ERROR|").length = 6 := rfl
    apply completeLine_clip
    rw [List.length_append, l1]
    omega
  | _ => decide

/-! ## The calls of the server -/

/-- What one operation writes: nothing, a notice to all clients, a reply to one or its snapshot. -/
inductive Op.Wrote (op : Op) (w : World) : List (Int × Bytes) → Prop
  | nothing : op.Wrote w []
  | broadcast (n : Notice) : op.Wrote w (w.ctx.receivers.map fun fd => (fd, n.text))
  | reply (fd : Int) (r : Reply) : op = .reply fd r → op.Wrote w [(fd, r.text)]
  | snapshot (fd : Int) (kind : ClientKind) (tableId : Int) (os : List Order) :
      op = .enter fd kind tableId → op.Wrote w (os.map fun o => (fd, orderEvent o))

/-- From `w` to `w'` the operation wrote one of these. -/
def Op.Writes (op : Op) (w w' : World) : Prop := ∃ out, w'.sent = w.sent ++ out ∧ op.Wrote w out

theorem Op.Writes.same {op : Op} {w w' : World} (h : w'.sent = w.sent) : op.Writes w w' :=
  ⟨[], by rw [h, List.append_nil], .nothing⟩

theorem Op.Writes.broadcast {op : Op} {w w' : World} (n : Notice)
    (h : w'.sent = w.sent ++ w.ctx.receivers.map fun fd => (fd, n.text)) : op.Writes w w' :=
  ⟨_, h, .broadcast n⟩

theorem Op.writes (S : IntSem) (env : Env) (w : World) (op : Op) : op.Writes w (op.run S env w).2 := by
  cases hop : op.onOrders with
  | true =>
    rcases op.run_onOrders S hop env w with hsame | ⟨o, hc⟩ | ⟨i, o, st, hm⟩
    · exact .same (congrArg World.sent hsame)
    · exact .broadcast (.order o) hc.sent
    · exact .broadcast (.order (o.withStatus st)) hm.sent
  | false =>
    cases op with
    | reply fd r => exact ⟨[(fd, r.text)], rfl, .reply fd r rfl⟩
    | staffBroadcast tbl => exact .broadcast (.staff tbl) rfl
    | menuSync => exact .broadcast .menuSync rfl
    | enter fd kind tableId => exact ⟨_, rfl, .snapshot fd kind tableId _ rfl⟩
    | staffLog tbl => exact .same (appendOrdersMeta_sent _ _ _)
    | saveConfig => exact .same (serverSaveConfig_sent _ _)
    | staffCall tbl => exact .same rfl
    | staffTouch => exact .same rfl
    | staffClear tbl => exact .same rfl
    | changeMenu menu => exact .same rfl
    | syncMaxTables n => exact .same rfl
    | leave fd => exact .same rfl
    | _ => cases hop

/-! ## Clean runs -/

/-- No write of the client's thread falls into another thread's line, no write of another thread
into a line of the client's, and no reply is cut. -/
def Clean : WireAction → Socket → Prop
  | .write .own _, s => ∀ n, ¬ s.stream.Midway (.other n)
  | .write (.other _) _, s => ¬ s.stream.Midway .own
  | .reply r, _ => r.NotCut
  | _, _ => True

def CleanRun (s : Socket) : List WireAction → Prop
  | [] => True
  | a :: as => Clean a s ∧ CleanRun (wireStep a s) as

/-- Other threads write only while they hold the lock. -/
def Locked (s : Socket) : Prop :=
  ∀ n, s.stream.writing (.other n) ≠ none → s.lock = some (.other n)

theorem locked_start {s : Socket} (h : Locked s) {t : Thread} (text : Bytes)
    (ht : ∀ n, t = .other n → s.lock = some t) :
    Locked { s with stream := Stream.start t text s.stream } := by
  intro n hn
  rcases Stream.start_cases t text s.stream with hsame | ⟨-, -, heq⟩
  · rw [hsame] at hn
    exact h n hn
  · rw [heq] at hn
    obtain ⟨c, hc⟩ := Option.ne_none_iff_exists'.mp hn
    rcases Stream.update_eq_some hc with ⟨hnt, -⟩ | ⟨-, hold⟩
    · rw [hnt]
      exact ht n hnt.symm
    · exact h n (by rw [hold]; simp)

theorem locked_step {s : Socket} (h : Locked s) (a : WireAction) : Locked (wireStep a s) := by
  cases a with
  | lock t =>
    simp only [wireStep]
    split
    · next hfree =>
      intro n hn
      have hheld := h n hn
      rw [hfree.1] at hheld
      cases hheld
    · exact h
  | unlock t =>
    simp only [wireStep]
    split
    · next hheld =>
      intro n hn
      have hholder := h n hn
      rw [hheld.1] at hholder
      cases hholder
      exact absurd hheld.2 hn
    · exact h
  | notify t n =>
    simp only [wireStep]
    split
    · next hheld => exact locked_start h n.text fun _ _ => hheld
    · exact h
  | reply r =>
    simp only [wireStep]
    split
    · exact h
    · refine locked_start h r.text ?_
      intro n hn
      cases hn
  | write t k =>
    intro n hn
    rcases Stream.write_cases t k s.stream with ⟨-, hsame⟩ | ⟨c, hc, hcases⟩
    · have hsame' : (wireStep (.write t k) s).stream = s.stream := hsame
      rw [hsame'] at hn
      exact h n hn
    · obtain ⟨c', hc'⟩ := Option.ne_none_iff_exists'.mp hn
      have hbefore : s.stream.writing (.other n) ≠ none := by
        have hc' : (Stream.write t k s.stream).writing (.other n) = some c' := hc'
        rcases hcases with heq | ⟨piece, rest, -, -, -, heq⟩ <;> rw [heq] at hc'
        · rcases Stream.update_eq_some hc' with ⟨-, hnew⟩ | ⟨-, hold⟩
          · cases hnew
          · rw [hold]
            simp
        · rcases Stream.update_eq_some hc' with ⟨ht, -⟩ | ⟨-, hold⟩
          · rw [ht, hc]
            simp
          · rw [hold]
            simp
      exact h n hbefore

/-- Under the lock discipline a clean write is by a thread that is alone on the socket. -/
theorem alone_of_clean {s : Socket} (h : Locked s) {t : Thread} {k : Nat}
    (hclean : Clean (.write t k) s) (hwriting : s.stream.writing t ≠ none) :
    ∀ t', t' ≠ t → ¬ s.stream.Midway t' := by
  intro t' hne hmid
  cases t with
  | own =>
    cases t' with
    | own => exact hne rfl
    | other m => exact hclean m hmid
  | other n =>
    cases t' with
    | own => exact hclean hmid
    | other m =>
      obtain ⟨c, hc, -⟩ := hmid
      have hm := h m (by rw [hc]; simp)
      rw [h n hwriting] at hm
      exact hne (Option.some.inj hm).symm

structure Whole (s : Socket) : Prop where
  locked : Locked s
  orderly : Stream.Orderly s.stream
  texts : Stream.Texts CompleteLine s.stream

theorem whole_step {s : Socket} (h : Whole s) {a : WireAction} (hclean : Clean a s) :
    Whole (wireStep a s) := by
  refine ⟨locked_step h.locked a, ?_, ?_⟩
  · cases a with
    | lock t =>
      simp only [wireStep]
      split <;> exact h.orderly
    | unlock t =>
      simp only [wireStep]
      split <;> exact h.orderly
    | notify t n =>
      simp only [wireStep]
      split
      · exact h.orderly.start t n.text
      · exact h.orderly
    | reply r =>
      simp only [wireStep]
      split
      · exact h.orderly
      · exact h.orderly.start .own r.text
    | write t k =>
      show Stream.Orderly (Stream.write t k s.stream)
      by_cases hwriting : s.stream.writing t = none
      · have hsame : Stream.write t k s.stream = s.stream := by
          rw [Stream.write, hwriting]
        rw [hsame]
        exact h.orderly
      · exact h.orderly.write (alone_of_clean h.locked hclean hwriting) k
  · cases a with
    | lock t =>
      simp only [wireStep]
      split <;> exact h.texts
    | unlock t =>
      simp only [wireStep]
      split <;> exact h.texts
    | notify t n =>
      simp only [wireStep]
      split
      · exact h.texts.start t n.completeLine
      · exact h.texts
    | reply r =>
      simp only [wireStep]
      split
      · exact h.texts
      · exact h.texts.start .own (Reply.completeLine hclean)
    | write t k => exact h.texts.write t k

theorem whole_runWire {s : Socket} (h : Whole s) {as : List WireAction} (hclean : CleanRun s as) :
    Whole (runWire s as) := by
  induction as generalizing s with
  | nil => exact h
  | cons a as ih => exact ih (whole_step h hclean.1) hclean.2

theorem whole_init : Whole Socket.init :=
  ⟨fun _ h => absurd rfl h, Stream.Orderly.init, Stream.Texts.init CompleteLine⟩

/-- After a clean run that is in no call of `write_all`, the socket carried complete lines one after
the other. -/
theorem wire_whole {as : List WireAction} (hclean : CleanRun Socket.init as)
    (hidle : ∀ t, (runWire Socket.init as).stream.writing t = none) :
    (runWire Socket.init as).stream.sent = (runWire Socket.init as).stream.finished.flatten ∧
      ∀ text ∈ (runWire Socket.init as).stream.finished, CompleteLine text := by
  have h := whole_runWire whole_init hclean
  exact ⟨h.orderly.flatten hidle, h.texts.finished⟩

def WireAction.thread : WireAction → Thread
  | .lock t => t
  | .unlock t => t
  | .notify t _ => t
  | .reply _ => .own
  | .write t _ => t

/-- A thread that takes no part stays where it is. -/
theorem writing_of_absent {t : Thread} (s : Socket) {as : List WireAction}
    (h : ∀ a ∈ as, a.thread ≠ t) :
    (runWire s as).stream.writing t = s.stream.writing t := by
  induction as generalizing s with
  | nil => rfl
  | cons a as ih =>
    have hne := h a (by simp)
    have hstart {t' : Thread} (ht : t' ≠ t) (text : Bytes) :
        (Stream.start t' text s.stream).writing t = s.stream.writing t := by
      rcases Stream.start_cases t' text s.stream with hsame | ⟨-, -, heq⟩
      · rw [hsame]
      · rw [heq]
        exact Function.update_of_ne ht.symm _ _
    have hstep : (wireStep a s).stream.writing t = s.stream.writing t := by
      cases a with
      | lock t' =>
        simp only [wireStep]
        split <;> rfl
      | unlock t' =>
        simp only [wireStep]
        split <;> rfl
      | notify t' n =>
        simp only [wireStep]
        split
        · exact hstart hne n.text
        · rfl
      | reply r =>
        simp only [wireStep]
        split
        · rfl
        · exact hstart hne r.text
      | write t' k =>
        show (Stream.write t' k s.stream).writing t = _
        rcases Stream.write_cases t' k s.stream with ⟨-, hsame⟩ | ⟨c, -, heq | ⟨_, _, -, -, -, heq⟩⟩
        · rw [hsame]
        · rw [heq]
          exact Function.update_of_ne hne.symm _ _
        · rw [heq]
          exact Function.update_of_ne hne.symm _ _
    exact (ih (wireStep a s) fun b hb => h b (by simp [hb])).trans hstep

/-- A reply in two pieces, and after it a broadcast in two pieces. -/
def politeRun : List WireAction :=
  [.reply .pong, .write .own 1, .write .own 9, .lock (.other 0), .notify (.other 0) .menuSync,
    .write (.other 0) 3, .write (.other 0) 9, .unlock (.other 0)]

theorem wire_whole_polite :
    (runWire Socket.init politeRun).stream.sent =
        (runWire Socket.init politeRun).stream.finished.flatten ∧
      ∀ text ∈ (runWire Socket.init politeRun).stream.finished, CompleteLine text := by
  apply wire_whole
  · -- the replies are out before another thread starts, and the broadcast after them
    refine ⟨trivial, ?_, ?_, trivial, trivial, ?_, ?_, trivial, trivial⟩
    · rintro n ⟨c, hc, -⟩
      cases hc
    · rintro n ⟨c, hc, -⟩
      cases hc
    · rintro ⟨c, hc, -⟩
      cases hc
    · rintro ⟨c, hc, -⟩
      cases hc
  · intro t
    cases t with
    | own => decide +kernel
    | other n =>
      cases n with
      | zero => decide +kernel
      | succ n => exact writing_of_absent Socket.init (by simp [politeRun, WireAction.thread])

/-- The menu response of a server that has just started takes five bytes at first; the POS
broadcasts a menu change before the rest. -/
def mixedRun : List WireAction :=
  [.reply (.menu firstStart.ctx.menu), .write .own 4,
    .lock (.other 0), .notify (.other 0) .menuSync, .write (.other 0) 100, .unlock (.other 0),
    .write .own 16384]

theorem wire_mixed : ¬ ∀ as, (∀ t, (runWire Socket.init as).stream.writing t = none) →
    ∃ lines : List Bytes, lines.Perm (runWire Socket.init as).stream.finished ∧
      (runWire Socket.init as).stream.sent = lines.flatten := by
  intro hall
  have hidle : ∀ t, (runWire Socket.init mixedRun).stream.writing t = none := by
    intro t
    cases t with
    | own => decide +kernel
    | other n =>
      cases n with
      | zero => decide +kernel
      | succ n => exact writing_of_absent Socket.init (by simp [mixedRun, WireAction.thread])
  have hsent : (runWire Socket.init mixedRun).stream.sent.take 6 = lit "MENU_M" := by
    decide +kernel
  have hfinished : (runWire Socket.init mixedRun).stream.finished.map (·.take 6) =
      [lit "MENU_S", lit "MENU_R"] := by
    decide +kernel
  obtain ⟨lines, hperm, hlines⟩ := hall mixedRun hidle
  generalize (runWire Socket.init mixedRun).stream = s at *
  cases lines with
  | nil =>
    rw [hlines] at hsent
    cases hsent
  | cons line lines =>
    -- the stream starts with one of the two texts
    have hmem : line.take 6 ∈ [lit "MENU_S", lit "MENU_R"] := by
      rw [← hfinished]
      exact List.mem_map_of_mem (hperm.mem_iff.mp (by simp))
    have hlen : 6 ≤ line.length := by
      have hlen6 : (line.take 6).length = 6 := by
        simp only [List.mem_cons, List.not_mem_nil, or_false] at hmem
        rcases hmem with h | h <;> rw [h] <;> rfl
      rw [List.length_take] at hlen6
      omega
    rw [hlines, List.flatten_cons, List.take_append_of_le_length hlen] at hsent
    rw [hsent] at hmem
    exact absurd hmem (by decide)

end TableOrder
