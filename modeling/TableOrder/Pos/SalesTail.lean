import TableOrder.Lib.Pieces
import TableOrder.Pos.Viewport

/-!
# The sales log on the screen

The sales tab reads the last 15999 bytes of `sales.log`, copies them up to a NUL, cuts the copy into
lines and shows the first ones, as many as the pane has rows. The footer is drawn last and takes some of
these where the terminal is small. What is shown are the newest lines of the log only if the three cuts
are at the same place (`showsNewest_iff`).
-/

namespace TableOrder

open CLib
open Pieces (Piece pieces)

/-- `ln` is a pointer, so a line has a place in the file. -/
abbrev LogLine := Piece UInt8

/-! ## Drawing -/

/-- Where `storage_read_tail` seeks to, and the bytes it reads from there. -/
def storageReadTail (file : Option Bytes) (outsiz : Nat) : Option (Nat × Bytes) :=
  file.map fun bytes =>
    let want := outsiz - 1
    let start := if want < bytes.length then bytes.length - want else 0
    (start, (bytes.drop start).take (outsiz - 1))

/-- The loop over `strtok_r`, for at most `n` more rows; `pos` is where the rest `s` begins. -/
def salesRows : Nat → Nat → Bytes → List LogLine
  | 0, _, _ => []
  | n + 1, pos, s =>
    match strtok (ch '\n') s with
    | none => []
    | some (ln, rest) =>
      ⟨pos + (s.takeWhile (· == ch '\n')).length, ln⟩ ::
        salesRows n (pos + (s.length - rest.length)) rest

def SALES_CHUNK : Nat := 16000

/-- The rows of the log that are on the terminal in the end, top down. A row is cut at its end where the
pane is too narrow. -/
def uiDrawPosSales (file : Option Bytes) (rows cols : Int) : List LogLine :=
  match storageReadTail file SALES_CHUNK with
  | none => []
  | some (start, chunk) =>
    let bufcopy := clip SALES_CHUNK (chunk.takeWhile (· ≠ 0))
    rowsKept rows cols 0
      (salesRows ((uiPosLayoutFrame rows cols).main.h - 3).toNat start bufcopy)

/-- The rows that the pane has for the log, but for those that the footer takes. -/
def salesPaneRows (rows cols : Int) : Nat :=
  (min ((uiPosLayoutFrame rows cols).main.h - 3) (paneRows rows cols)).toNat

-- with 7 rows the footer takes the last of three
example : salesPaneRows 7 80 = 2 ∧ salesPaneRows 8 80 = 3 := by decide

/-- The rows are the first pieces of the text. -/
theorem salesRows_eq (n pos : Nat) (s : Bytes) :
    salesRows n pos s = (pieces (· == ch '\n') true pos s).take n := by
  induction n generalizing pos s with
  | zero => rfl
  | succ n ih =>
    have hskip := congrArg List.length (List.takeWhile_append_dropWhile (p := (· == ch '\n')) (l := s))
    rw [List.length_append] at hskip
    rw [salesRows, strtok, Pieces.pieces_skip]
    cases hrest : s.dropWhile (· == ch '\n') with
    | nil => simp
    | cons b rest =>
      have hb : (b == ch '\n') = false := by
        have := List.head?_dropWhile_not (· == ch '\n') s
        simpa [hrest] using this
      have hword := congrArg List.length
        (List.takeWhile_append_dropWhile (p := (· != ch '\n')) (l := b :: rest))
      rw [List.length_append] at hword
      rw [hrest] at hskip
      simp only
      rw [Pieces.pieces_run (· == ch '\n') hb, List.take_succ_cons, ih]
      have hbne : (fun x => !x == ch '\n') = (· != ch '\n') := rfl
      rw [hbne]
      cases hnext : (b :: rest).dropWhile (· != ch '\n') with
      | nil => simp
      | cons c rest' =>
        have hpos : pos + (List.length s - ((c :: rest').drop 1).length) =
            pos + (s.takeWhile (· == ch '\n')).length +
              ((b :: rest).takeWhile (· != ch '\n')).length + 1 := by
          rw [hnext, List.length_cons] at hword
          rw [List.drop_succ_cons, List.drop_zero]
          omega
        rw [hpos]

/-! ## The newest lines -/

/-- The lines of the log that are not empty (`Pieces.mem_pieces`), in the order of the file. -/
def logLines (log : Bytes) : List LogLine := pieces (· == ch '\n') true 0 log

/-- The pane shows the newest lines of the log, as many as it has rows, or all. -/
def ShowsNewest (log : Bytes) (rows cols : Int) : Prop :=
  uiDrawPosSales (some log) rows cols = (logLines log).rtake (salesPaneRows rows cols)

instance (log : Bytes) (rows cols : Int) : Decidable (ShowsNewest log rows cols) := by
  unfold ShowsNewest
  infer_instance

def tailStart (log : Bytes) : Nat := log.length - (SALES_CHUNK - 1)

structure TailFits (log : Bytes) (n : Nat) : Prop where
  noNul : 0 ∉ log.drop (tailStart log)
  /-- The tail begins where a line begins. -/
  uncut : tailStart log = 0 ∨ log[tailStart log - 1]? = some (ch '\n') ∨
    log[tailStart log]? = some (ch '\n')
  /-- As many lines begin in the tail as there are rows, or these are all. -/
  count : let newest := (logLines log).filter (decide <| tailStart log ≤ ·.pos)
    newest.length = n ∨ newest.length < n ∧ logLines log = newest

theorem uiDrawPosSales_eq (log : Bytes) (rows cols : Int) :
    uiDrawPosSales (some log) rows cols =
      (pieces (· == ch '\n') true (tailStart log)
        ((log.drop (tailStart log)).takeWhile (· ≠ 0))).take (salesPaneRows rows cols) := by
  have hstart : (if SALES_CHUNK - 1 < log.length then log.length - (SALES_CHUNK - 1) else 0) =
      tailStart log := by
    unfold tailStart
    split <;> omega
  have htail : (log.drop (tailStart log)).length ≤ SALES_CHUNK - 1 := by
    rw [List.length_drop, tailStart]
    omega
  have hcopy : ((log.drop (tailStart log)).takeWhile (· ≠ 0)).length < SALES_CHUNK :=
    Nat.lt_of_le_of_lt ((List.takeWhile_sublist _).length_le.trans htail) (by decide)
  simp only [uiDrawPosSales, storageReadTail, Option.map_some, hstart]
  have hrows : min (paneRows rows cols - (0 : Nat)).toNat
      ((uiPosLayoutFrame rows cols).main.h - 3).toNat = salesPaneRows rows cols := by
    unfold salesPaneRows
    omega
  rw [List.take_of_length_le htail, clip_eq_self hcopy, salesRows_eq, rowsKept_eq, List.take_take, hrows]

theorem tailStart_lt {log : Bytes} (h : tailStart log ≠ 0) : tailStart log < log.length := by
  have hchunk : 0 < SALES_CHUNK - 1 := by decide
  unfold tailStart at h ⊢
  omega

/-- No line runs from the first `start` bytes into the rest. -/
theorem uncut_iff {log : Bytes} {start : Nat} (hlt : start ≠ 0 → start < log.length) :
    (Pieces.closes (· == ch '\n') true (log.take start) = true ∨
      ∀ b ∈ (log.drop start).head?, (b == ch '\n') = true) ↔
    start = 0 ∨ log[start - 1]? = some (ch '\n') ∨ log[start]? = some (ch '\n') := by
  rw [Pieces.closes, List.getLast?_take, List.head?_drop]
  by_cases hstart : start = 0
  · simp [hstart]
  · have hlog := hlt hstart
    rw [if_neg hstart, List.getElem?_eq_getElem hlog, List.getElem?_eq_getElem (by omega)]
    simp [hstart]

/-- The rows are the newest lines just when the tail begins with a line, is free of NUL bytes and has
as many lines as there are rows, or fewer if it has all; or there is no row. -/
theorem showsNewest_iff (log : Bytes) (rows cols : Int) : ShowsNewest log rows cols ↔
    salesPaneRows rows cols = 0 ∨ TailFits log (salesPaneRows rows cols) := by
  by_cases hnone : salesPaneRows rows cols = 0
  · refine iff_of_true ?_ (.inl hnone)
    rw [ShowsNewest, uiDrawPosSales_eq, hnone, List.rtake_zero, List.take_zero]
  have hrows : 0 < salesPaneRows rows cols := Nat.pos_of_ne_zero hnone
  rw [or_iff_right hnone]
  have hlog : log.take (tailStart log) ++ log.drop (tailStart log) = log := List.take_append_drop _ _
  have hlen : (log.take (tailStart log)).length = tailStart log := by
    rw [List.length_take, tailStart]
    omega
  unfold ShowsNewest
  rw [uiDrawPosSales_eq]
  by_cases hnul : 0 ∈ log.drop (tailStart log)
  · -- what is copied ends at the NUL, and so before the newest line does
    refine iff_of_false (fun heq => ?_) fun h => h.noNul hnul
    obtain ⟨text, rest, htail, hfree⟩ := List.eq_append_cons_of_mem hnul
    have hcopy : (log.drop (tailStart log)).takeWhile (· ≠ 0) = text := by
      rw [htail, List.takeWhile_append_of_pos (ne_nul_of_mem hfree)]
      simp
    have hbyte : log[tailStart log + text.length]? = some 0 := by
      rw [← List.getElem?_drop, htail, List.getElem?_append_right (Nat.le_refl _), Nat.sub_self]
      rfl
    obtain ⟨p, hp, hend⟩ := Pieces.exists_mem_rtake (· == ch '\n') hbyte (by decide) hrows
    rw [hcopy] at heq
    rw [← logLines, ← heq] at hp
    have hle := Pieces.end_le (List.mem_of_mem_take hp)
    omega
  · rw [takeWhile_noNul hnul]
    have htail := Pieces.take_tail_iff (· == ch '\n') (log.take (tailStart log))
      (log.drop (tailStart log)) hrows
    rw [hlog, hlen, uncut_iff tailStart_lt] at htail
    exact htail.trans ⟨fun ⟨huncut, hcount⟩ => ⟨hnul, huncut, hcount⟩, fun h => ⟨h.uncut, h.count⟩⟩

/-- Four sales on a terminal of ten rows. The first three are shown. -/
theorem showsNewest_fails : ¬ ∀ (log : Bytes) (rows cols : Int), ShowsNewest log rows cols := by
  intro h
  have hshown := h ([lit "SALE id=1 table=1 total=9000 ts=10 detail=1:1\n",
    lit "SALE id=2 table=3 total=8000 ts=20 detail=2:1\n",
    lit "SALE id=3 table=1 total=9000 ts=30 detail=1:1\n",
    lit "SALE id=4 table=2 total=9000 ts=40 detail=1:1\n"].flatten) 10 80
  revert hshown
  decide +kernel

end TableOrder
