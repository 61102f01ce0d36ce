import Mathlib.Data.List.TakeWhile

/-!
# Reading lines through a bounded buffer

A reader collects what arrives in a buffer of `cap` items and returns the items before the first
separator; what is behind it stays in the buffer for the next call. How much one `read` delivers is
up to the stream. The call gives up when the buffer is full and holds no separator.

Whatever the reads deliver, a line that fits the buffer with its separator is returned whole
(`readLine_line`), and a longer one makes the reader give up (`readLine_gaveUp`). Until then the call
waits, and it cannot wait for more reads than the line has items.
-/

namespace LineReader

/-- What a call of `read` does. -/
inductive Read where
  | interrupted
  /-- It delivers `k + 1` items, or as many as there are and the buffer has room for. -/
  | delivers (k : Nat)
  | closed
  | fails

/-- The read does not end the connection. -/
def Read.works : Read → Bool
  | .interrupted => true
  | .delivers _ => true
  | _ => false

def Read.isDelivery : Read → Bool
  | .delivers _ => true
  | _ => false

inductive Result (α : Type) where
  /-- A line, with the buffer and the rest of the stream behind it. -/
  | line (text buf src : List α)
  | closed
  | gaveUp
  /-- The reads are over and the call has not returned. -/
  | waiting (buf src : List α)

variable {α : Type} [DecidableEq α]

/-- One call, from a buffer and the stream still to come. -/
def readLine (sep : α) (cap : Nat) (buf src : List α) (reads : List Read) : Result α :=
  if sep ∈ buf then
    .line (buf.takeWhile (· ≠ sep)) ((buf.dropWhile (· ≠ sep)).drop 1) src
  else if cap ≤ buf.length then .gaveUp
  else
    match reads with
    | [] => .waiting buf src
    | .interrupted :: reads => readLine sep cap buf src reads
    | .delivers k :: reads =>
      let n := min (k + 1) (cap - buf.length)
      readLine sep cap (buf ++ src.take n) (src.drop n) reads
    | .closed :: _ => .closed
    | .fails :: _ => .gaveUp

variable {sep : α} {cap : Nat}

omit [DecidableEq α] in
/-- A buffer without the separator holds a part of the line. -/
theorem length_le_of_not_mem {buf src text rest : List α}
    (hsrc : buf ++ src = text ++ sep :: rest) (hbuf : sep ∉ buf) : buf.length ≤ text.length := by
  by_contra hlt
  rw [Nat.not_le] at hlt
  apply hbuf
  have hsep : (buf ++ src)[text.length]? = some sep := by
    rw [hsrc]
    simp
  rw [List.getElem?_append_left hlt] at hsep
  exact List.mem_of_getElem? hsep

/-- What a separator-free text before a separator is cut into. -/
theorem cut_append {text : List α} (hfree : sep ∉ text) (rest : List α) :
    (text ++ sep :: rest).takeWhile (· ≠ sep) = text ∧
      ((text ++ sep :: rest).dropWhile (· ≠ sep)).drop 1 = rest := by
  have hall : ∀ x ∈ text, decide (x ≠ sep) = true := by
    intro x hx
    rw [decide_eq_true_eq]
    rintro rfl
    exact hfree hx
  refine ⟨?_, ?_⟩
  · rw [List.takeWhile_append_of_pos hall]
    simp
  · rw [List.dropWhile_append_of_pos hall]
    simp

/-- A buffer with the separator holds the whole line. -/
theorem split_of_mem {buf src text rest : List α} (hsrc : buf ++ src = text ++ sep :: rest)
    (hfree : sep ∉ text) (hbuf : sep ∈ buf) :
    buf.takeWhile (· ≠ sep) = text ∧ (buf.dropWhile (· ≠ sep)).drop 1 ++ src = rest := by
  obtain ⟨before, after, rfl, hbefore⟩ := List.eq_append_cons_of_mem hbuf
  obtain ⟨hbuf, hafter⟩ := cut_append hbefore after
  rw [List.append_assoc, List.cons_append] at hsrc
  obtain ⟨htext, hrest⟩ := cut_append hfree rest
  obtain ⟨hwhole, hbehind⟩ := cut_append hbefore (after ++ src)
  rw [hsrc, htext] at hwhole
  rw [hsrc, hrest] at hbehind
  exact ⟨hbuf.trans hwhole.symm, by rw [hafter, hbehind]⟩

omit [DecidableEq α] in
/-- What one delivery leaves: the same items, and more of them in the buffer. -/
theorem delivered (cap : Nat) (buf src : List α) (k : Nat) :
    let n := min (k + 1) (cap - buf.length)
    (buf ++ src.take n) ++ src.drop n = buf ++ src ∧
      (buf.length ≤ cap → (buf ++ src.take n).length ≤ cap) ∧
      (buf.length < cap → src ≠ [] → buf.length < (buf ++ src.take n).length) := by
  intro n
  refine ⟨?_, ?_, ?_⟩
  · rw [List.append_assoc, List.take_append_drop]
  · intro hle
    rw [List.length_append, List.length_take]
    omega
  · intro hlt hne
    have hsrc := List.length_pos_iff.mpr hne
    rw [List.length_append, List.length_take]
    omega

/-- A line that fits with its separator is returned whole, or the call still waits for reads. -/
theorem readLine_line {buf src text rest : List α} {reads : List Read}
    (hsrc : buf ++ src = text ++ sep :: rest) (hfree : sep ∉ text) (hfits : text.length < cap)
    (hworks : ∀ r ∈ reads, r.works = true) :
    (∃ buf' src', buf' ++ src' = rest ∧ readLine sep cap buf src reads = .line text buf' src') ∨
      (∃ buf' src', readLine sep cap buf src reads = .waiting buf' src') ∧
        buf.length + reads.countP Read.isDelivery ≤ text.length := by
  induction reads generalizing buf src with
  | nil =>
    unfold readLine
    split
    · next hmem =>
      obtain ⟨htext, hrest⟩ := split_of_mem hsrc hfree hmem
      exact .inl ⟨_, src, hrest, by rw [htext]⟩
    · next hmem =>
      have hle := length_le_of_not_mem hsrc hmem
      rw [if_neg (by omega)]
      exact .inr ⟨⟨buf, src, rfl⟩, hle⟩
  | cons r reads ih =>
    have hlater : ∀ r ∈ reads, r.works = true := fun r hr => hworks r (List.mem_cons_of_mem _ hr)
    unfold readLine
    split
    · next hmem =>
      obtain ⟨htext, hrest⟩ := split_of_mem hsrc hfree hmem
      exact .inl ⟨_, src, hrest, by rw [htext]⟩
    · next hmem =>
      have hle := length_le_of_not_mem hsrc hmem
      rw [if_neg (by omega)]
      cases r with
      | interrupted =>
        simpa [Read.isDelivery] using ih hsrc hlater
      | delivers k =>
        obtain ⟨hsame, -, hmore⟩ := delivered cap buf src k
        -- the separator is still to come, so the stream is not over
        have hne : src ≠ [] := by
          rintro rfl
          rw [List.append_nil] at hsrc
          exact hmem (by rw [hsrc]; simp)
        have hgrown := hmore (by omega) hne
        rcases ih (hsame.trans hsrc) hlater with hline | ⟨hwait, hcount⟩
        · exact .inl hline
        · refine .inr ⟨hwait, ?_⟩
          rw [List.countP_cons_of_pos rfl]
          omega
      | closed => cases hworks .closed List.mem_cons_self
      | fails => cases hworks .fails List.mem_cons_self

/-- With no separator among the first `cap` items the reader gives up, or still waits for reads. -/
theorem readLine_gaveUp {buf src : List α} {reads : List Read} (hbuf : buf.length ≤ cap)
    (hlong : cap ≤ (buf ++ src).length) (hfree : sep ∉ (buf ++ src).take cap)
    (hworks : ∀ r ∈ reads, r.works = true) :
    readLine sep cap buf src reads = .gaveUp ∨
      (∃ buf' src', readLine sep cap buf src reads = .waiting buf' src') ∧
        buf.length + reads.countP Read.isDelivery < cap := by
  -- the buffer is a part of these items
  have hmem : sep ∉ buf := by
    intro h
    apply hfree
    rw [List.take_append]
    exact List.mem_append_left _ (by rwa [List.take_of_length_le hbuf])
  induction reads generalizing buf src with
  | nil =>
    unfold readLine
    rw [if_neg hmem]
    split
    · exact .inl rfl
    · next hroom => exact .inr ⟨⟨buf, src, rfl⟩, by simpa using hroom⟩
  | cons r reads ih =>
    have hlater : ∀ r ∈ reads, r.works = true := fun r hr => hworks r (List.mem_cons_of_mem _ hr)
    unfold readLine
    rw [if_neg hmem]
    split
    · exact .inl rfl
    · next hroom =>
      cases r with
      | interrupted =>
        simpa [Read.isDelivery] using ih hbuf hlong hfree hlater hmem
      | delivers k =>
        obtain ⟨hsame, hle, hmore⟩ := delivered cap buf src k
        have hne : src ≠ [] := by
          rintro rfl
          rw [List.append_nil] at hlong
          omega
        have hgrown := hmore (by omega) hne
        have hlong' : cap ≤ ((buf ++ src.take (min (k + 1) (cap - buf.length))) ++
            src.drop (min (k + 1) (cap - buf.length))).length := by
          rw [hsame]
          exact hlong
        have hfree' : sep ∉ ((buf ++ src.take (min (k + 1) (cap - buf.length))) ++
            src.drop (min (k + 1) (cap - buf.length))).take cap := by
          rw [hsame]
          exact hfree
        have hmem' : sep ∉ buf ++ src.take (min (k + 1) (cap - buf.length)) := by
          intro h
          apply hfree'
          rw [List.take_append]
          exact List.mem_append_left _ (by rwa [List.take_of_length_le (hle hbuf)])
        rcases ih (hle hbuf) hlong' hfree' hlater hmem' with hgave | ⟨hwait, hcount⟩
        · exact .inl hgave
        · refine .inr ⟨hwait, ?_⟩
          rw [List.countP_cons_of_pos rfl]
          omega
      | closed => cases hworks .closed List.mem_cons_self
      | fails => cases hworks .fails List.mem_cons_self

/-! ## Streams that end

A stream is delivered piece by piece and then `read` returns 0. Each piece has at least one item and
no more than were asked for; `split` says how many, and is arbitrary. However it cuts the stream, the
calls return the lines of the stream, up to the first that does not fit (`results_eq`). -/

/-- The reads of one call, with `left` items still to come and room for `room`. -/
def reads (split : Nat → Nat) (t left room : Nat) : List Read :=
  if left = 0 then [.closed]
  else if room = 0 then []
  else
    let n := min (min (split t + 1) room) left
    .delivers (split t) :: reads split (t + 1) (left - n) (room - n)
termination_by left

/-- What a call returns, from what is in the buffer and still to come. -/
inductive Returns (sep : α) (cap : Nat) (stream : List α) : Result α → Prop
  | line (text buf src : List α) : stream = text ++ sep :: (buf ++ src) → sep ∉ text →
      text.length < cap → buf.length ≤ cap → Returns sep cap stream (.line text buf src)
  | closed : sep ∉ stream → stream.length < cap → Returns sep cap stream .closed
  | gaveUp : cap ≤ stream.length → sep ∉ stream.take cap → Returns sep cap stream .gaveUp

theorem readLine_returns (split : Nat → Nat) (t : Nat) {buf src : List α} (hbuf : buf.length ≤ cap) :
    Returns sep cap (buf ++ src)
      (readLine sep cap buf src (reads split t src.length (cap - buf.length))) := by
  induction hlen : src.length using Nat.strong_induction_on generalizing t buf src with
  | _ left ih =>
    subst hlen
    unfold readLine
    by_cases hmem : sep ∈ buf
    · rw [if_pos hmem]
      obtain ⟨text, after, rfl, hfree⟩ := List.eq_append_cons_of_mem hmem
      obtain ⟨htext, hafter⟩ := cut_append hfree after
      rw [htext, hafter]
      rw [List.length_append, List.length_cons] at hbuf
      exact .line text after src (by simp) hfree (by omega) (by omega)
    · rw [if_neg hmem]
      by_cases hfull : cap ≤ buf.length
      · rw [if_pos hfull]
        refine .gaveUp (by rw [List.length_append]; omega) ?_
        rwa [List.take_append_of_le_length hfull, List.take_of_length_le hbuf]
      · rw [if_neg hfull]
        unfold reads
        by_cases hover : src.length = 0
        · rw [if_pos hover, List.eq_nil_of_length_eq_zero hover, List.append_nil]
          exact .closed hmem (by omega)
        · rw [if_neg hover, if_neg (by omega)]
          simp only
          obtain ⟨hsame, hle, -⟩ := delivered cap buf src (split t)
          have hnext := ih (src.drop (min (split t + 1) (cap - buf.length))).length
            (by rw [List.length_drop]; omega) (t + 1) (hle hbuf) rfl
          rw [hsame] at hnext
          convert hnext using 3
          · rw [List.length_drop]
            omega
          · rw [List.length_append, List.length_take]
            omega

/-- A reader that changes the line before it hands it on. -/
def Result.onLine (keep : List α → List α) : Result α → Result α
  | .line text buf src => .line (keep text) buf src
  | result => result

/-- What a call gives its caller. -/
inductive Returned (α : Type) where
  | line (text : List α)
  | closed
  | gaveUp
  deriving DecidableEq

/-- The results of the calls, one for each way to split its reads, up to one without a line. -/
def results (call : List α → List α → List Read → Result α) (cap : Nat) :
    List (Nat → Nat) → List α → List α → List (Returned α)
  | [], _, _ => []
  | split :: splits, buf, src =>
    match call buf src (reads split 0 src.length (cap - buf.length)) with
    | .line text buf src => .line text :: results call cap splits buf src
    | .closed => [.closed]
    | .gaveUp => [.gaveUp]
    | .waiting _ _ => []

/-- The results for a stream that is cut at its separators, when lines are returned through `keep`.
What is behind the last separator is not a line. -/
def lineResults (cap : Nat) (keep : List α → List α) : List (List α) → List (Returned α)
  | [] => []
  | [last] => if last.length < cap then [.closed] else [.gaveUp]
  | line :: rest =>
    if line.length < cap then .line (keep line) :: lineResults cap keep rest else [.gaveUp]

omit [DecidableEq α] in
/-- Only the lines that are returned matter. -/
theorem lineResults_congr {keep keep' : List α → List α} {pieces : List (List α)}
    (h : ∀ line ∈ pieces, line.length < cap → keep line = keep' line) :
    lineResults cap keep pieces = lineResults cap keep' pieces := by
  induction pieces with
  | nil => rfl
  | cons line rest ih =>
    have hrest := ih fun l hl => h l (List.mem_cons_of_mem _ hl)
    cases rest with
    | nil => rfl
    | cons next rest =>
      unfold lineResults
      split
      · next hshort => rw [h line List.mem_cons_self hshort, hrest]
      · rfl

theorem lineResults_line {keep : List α → List α} {text : List α} (hfree : sep ∉ text)
    (rest : List α) : lineResults cap keep ((text ++ sep :: rest).splitOn sep) =
      if text.length < cap then .line (keep text) :: lineResults cap keep (rest.splitOn sep)
      else [.gaveUp] := by
  rw [List.splitOn_append_cons_self_of_not_mem hfree]
  obtain ⟨next, pieces, hsplit⟩ := List.exists_cons_of_ne_nil (List.splitOn_ne_nil sep rest)
  rw [hsplit]
  rfl

/-- A stream whose first separator comes too late, if at all. -/
theorem lineResults_long {keep : List α → List α} {stream : List α} (hlong : cap ≤ stream.length)
    (hfree : sep ∉ stream.take cap) : lineResults cap keep (stream.splitOn sep) = [.gaveUp] := by
  by_cases hmem : sep ∈ stream
  · obtain ⟨text, rest, rfl, htext⟩ := List.eq_append_cons_of_mem hmem
    rw [lineResults_line htext, if_neg]
    intro hshort
    apply hfree
    rw [List.take_append, List.mem_append]
    right
    obtain ⟨n, hn⟩ : ∃ n, cap - text.length = n + 1 := ⟨cap - text.length - 1, by omega⟩
    rw [hn]
    exact List.mem_cons_self
  · rw [List.splitOn_eq_singleton hmem]
    show (if stream.length < cap then _ else _) = _
    rw [if_neg (by omega)]

/-! A stream of lines may break off anywhere, also inside a line. -/

/-- The lines with a separator behind each. -/
def joined (sep : α) (lines : List (List α)) : List α := lines.flatMap (· ++ [sep])

omit [DecidableEq α] in
theorem joined_cons (sep : α) (line : List α) (lines : List (List α)) :
    joined sep (line :: lines) = line ++ sep :: joined sep lines := by
  rw [joined, List.flatMap_cons, List.append_assoc]
  rfl

/-- The stream has broken off after `n` of the lines and within the next. -/
structure BreaksOff (sep : α) (lines : List (List α)) (stream : List α) (n : Nat) : Prop where
  le : n ≤ lines.length
  whole : joined sep (lines.take n) <+: stream
  cut : n < lines.length → stream.length < (joined sep (lines.take (n + 1))).length

/-- The lines that were whole are returned. -/
theorem lineResults_cut (keep : List α → List α) {lines : List (List α)}
    (hfree : ∀ line ∈ lines, sep ∉ line) (hshort : ∀ line ∈ lines, line.length < cap) (hcap : 0 < cap)
    {stream : List α} (h : stream <+: joined sep lines) :
    ∃ n, BreaksOff sep lines stream n ∧ lineResults cap keep (stream.splitOn sep) =
      (lines.take n).map (fun line => .line (keep line)) ++ [.closed] := by
  induction lines generalizing stream with
  | nil =>
    obtain rfl := List.prefix_nil.mp h
    refine ⟨0, ⟨le_rfl, List.prefix_rfl, fun h => absurd h (lt_irrefl _)⟩, ?_⟩
    rw [List.splitOn_nil, lineResults]
    exact if_pos hcap
  | cons line lines ih =>
    have hline := hfree line List.mem_cons_self
    have hfits := hshort line List.mem_cons_self
    rw [joined_cons] at h
    by_cases hinside : stream.length ≤ line.length
    · -- the first line is not whole
      have hpart : stream <+: line :=
        List.prefix_of_prefix_length_le h (List.prefix_append _ _) hinside
      have hnone : sep ∉ stream := fun hmem => hline (hpart.subset hmem)
      refine ⟨0, ⟨Nat.zero_le _, List.nil_prefix, ?_⟩, ?_⟩
      · intro _
        simp [joined]
        omega
      · rw [List.splitOn_eq_singleton hnone, lineResults]
        exact if_pos (by omega)
    · obtain ⟨rest, rfl⟩ : ∃ rest, stream = line ++ sep :: rest := by
        have hfirst : line ++ [sep] <+: line ++ sep :: joined sep lines := by
          rw [List.prefix_append_right_inj, List.cons_prefix_cons]
          exact ⟨rfl, List.nil_prefix⟩
        obtain ⟨rest, hrest⟩ := List.prefix_of_prefix_length_le hfirst h (by
          rw [List.length_append, List.length_singleton]
          omega)
        refine ⟨rest, ?_⟩
        rw [← hrest, List.append_assoc]
        rfl
      have hrest : rest <+: joined sep lines := by
        rw [List.prefix_append_right_inj, List.cons_prefix_cons] at h
        exact h.2
      obtain ⟨n, hn, hresults⟩ := ih (fun l hl => hfree l (List.mem_cons_of_mem _ hl))
        (fun l hl => hshort l (List.mem_cons_of_mem _ hl)) hrest
      refine ⟨n + 1, ⟨Nat.succ_le_succ hn.le, ?_, ?_⟩, ?_⟩
      · rw [List.take_succ_cons, joined_cons, List.prefix_append_right_inj, List.cons_prefix_cons]
        exact ⟨rfl, hn.whole⟩
      · intro hlt
        have hnext := hn.cut (Nat.lt_of_succ_lt_succ hlt)
        simp only [List.take_succ_cons, joined_cons, List.length_append, List.length_cons] at hnext ⊢
        omega
      · rw [lineResults_line hline, if_pos hfits, hresults]
        rfl

/-- However the reads cut the stream, a reader that hands on its lines through `keep` returns the
lines of the stream, up to the first that does not fit the buffer. -/
theorem results_eq {call : List α → List α → List Read → Result α} {keep : List α → List α}
    (hcall : ∀ buf src reads, call buf src reads = (readLine sep cap buf src reads).onLine keep)
    (splits : List (Nat → Nat)) {buf src : List α} (hbuf : buf.length ≤ cap) :
    results call cap splits buf src =
      (lineResults cap keep ((buf ++ src).splitOn sep)).take splits.length := by
  induction splits generalizing buf src with
  | nil => simp [results]
  | cons split splits ih =>
    have hreturns : Returns sep cap (buf ++ src)
        (readLine sep cap buf src (reads split 0 src.length (cap - buf.length))) :=
      readLine_returns split 0 hbuf
    unfold results
    rw [hcall]
    generalize readLine sep cap buf src (reads split 0 src.length (cap - buf.length)) = result at *
    generalize buf ++ src = stream at *
    cases hreturns with
    | line text buf' src' hstream hfree hshort hbuf' =>
      rw [hstream, lineResults_line hfree, if_pos hshort, List.length_cons, List.take_succ_cons]
      simp only [Result.onLine]
      rw [ih hbuf']
    | closed hfree hshort =>
      rw [List.splitOn_eq_singleton hfree]
      show _ = (if stream.length < cap then _ else _ : List (Returned α)).take _
      rw [if_pos hshort]
      simp [Result.onLine]
    | gaveUp hlong hfree =>
      rw [lineResults_long hlong hfree]
      simp [Result.onLine]

end LineReader
