import TableOrder.Client.Reader
import TableOrder.Lib.Fifo

/-!
# The two threads of a client

`ui_net_reader_main` puts every line it reads into a queue of 128 lines, and the thread of the
screen pops them when it comes round. A line that finds the queue full is dropped without a word, so
the screen sees every line exactly when it never lets 128 of them pile up (`netLink_whole_iff`).
-/

namespace TableOrder

open CLib

/-- The queue, the lines read from the socket and the lines popped. -/
structure NetLink where
  nq : UiNetQueue
  received : List Bytes
  popped : List Bytes

def NetLink.init : NetLink := ⟨Arr.empty Bytes 128, [], []⟩

inductive NetAction where
  /-- The reader thread has a line in its `char line[MAX_PROTO_LINE]`. -/
  | receive (line : CStr MAX_PROTO_LINE)
  | pop

/-- Each call is atomic under the mutex of the queue. -/
def netStep : NetAction → NetLink → NetLink
  | .receive line, s =>
    { s with nq := uiNetEnqueue s.nq line.bytes, received := s.received ++ [line.bytes] }
  | .pop, s =>
    match uiNetPop s.nq with
    | none => s
    | some (line, nq) => { s with nq := nq, popped := s.popped ++ [line] }

def runNet (s : NetLink) (as : List NetAction) : NetLink := Runs.run netStep s as

/-- The lines popped are the lines received, in order, but for those that still wait. -/
def NothingLost (s : NetLink) : Prop := s.popped ++ s.nq.items = s.received

/-- A received line finds fewer than 128 lines in the queue. -/
def FindsRoom : NetAction → NetLink → Prop
  | .receive _, s => s.nq.items.length < 128
  | .pop, _ => True

/-! ## The link is a bounded queue -/

def NetLink.fifo (s : NetLink) : Fifo.State Bytes 128 := ⟨s.nq, s.received, s.popped⟩

def NetAction.fifo : NetAction → Fifo.Action Bytes
  | .receive line => .offer line.bytes
  | .pop => .take

/-- Every line in the queue fits the buffers it is copied through. -/
def LinesFit (s : NetLink) : Prop := ∀ line ∈ s.nq.items, line.length < MAX_PROTO_LINE

theorem clip_line (line : CStr MAX_PROTO_LINE) : clip MAX_PROTO_LINE line.bytes = line.bytes :=
  clip_eq_self line.fits

theorem netStep_fifo {s : NetLink} (h : LinesFit s) (a : NetAction) :
    (netStep a s).fifo = Fifo.step a.fifo s.fifo := by
  cases a with
  | receive line =>
    show (⟨(s.nq.push? (clip MAX_PROTO_LINE line.bytes)).getD s.nq, _, _⟩ : Fifo.State Bytes 128) = _
    rw [clip_line]
    rfl
  | pop =>
    cases hq : s.nq.items with
    | nil =>
      have hfifo : s.fifo.queue.items = [] := hq
      have hpop : uiNetPop s.nq = none := by
        rw [uiNetPop, hq]
        rfl
      have hstep : netStep .pop s = s := by rw [netStep, hpop]
      rw [hstep, NetAction.fifo, Fifo.step_take_nil hfifo]
    | cons line rest =>
      have hfifo : s.fifo.queue.items = line :: rest := hq
      have hline : clip MAX_PROTO_LINE line = line := clip_eq_self (h line (by simp [hq]))
      have hpop : uiNetPop s.nq = some (line, s.nq.eraseIdx 0) := by
        rw [uiNetPop, hq, List.head?_cons, Option.map_some, hline]
      have hstep : netStep .pop s =
          { s with nq := s.nq.eraseIdx 0, popped := s.popped ++ [line] } := by
        rw [netStep, hpop]
      rw [hstep, NetAction.fifo, Fifo.step_take_cons hfifo]
      rfl

theorem linesFit_step {s : NetLink} (h : LinesFit s) (a : NetAction) : LinesFit (netStep a s) := by
  have hfifo := congrArg (fun t => t.queue.items) (netStep_fifo h a)
  have hitems : (netStep a s).nq.items = (Fifo.step a.fifo s.fifo).queue.items := hfifo
  intro line hline
  rw [hitems] at hline
  cases a with
  | receive new =>
    change line ∈ ((s.nq.push? new.bytes).getD s.nq).items at hline
    cases hpush : s.nq.push? new.bytes with
    | none =>
      rw [hpush] at hline
      exact h line hline
    | some nq =>
      rw [hpush, Option.getD_some, (Arr.push?_eq_some.mp hpush).2, List.mem_append,
        List.mem_singleton] at hline
      rcases hline with hline | rfl
      · exact h line hline
      · exact new.fits
  | pop =>
    apply h line
    cases hq : s.nq.items with
    | nil =>
      rw [NetAction.fifo, Fifo.step_take_nil (show s.fifo.queue.items = [] from hq)] at hline
      exact absurd (hq ▸ hline : line ∈ ([] : List Bytes)) List.not_mem_nil
    | cons first rest =>
      rw [NetAction.fifo, Fifo.step_take_cons (show s.fifo.queue.items = first :: rest from hq)] at hline
      exact hq ▸ List.mem_of_mem_eraseIdx hline

/-- Runs of the link and of the queue, step by step. -/
theorem runNet_fifo {s : NetLink} (h : LinesFit s) (as : List NetAction) :
    (runNet s as).fifo = Runs.run Fifo.step s.fifo (as.map NetAction.fifo) ∧
      (Runs.AllSteps netStep FindsRoom s as ↔
        Runs.AllSteps Fifo.step Fifo.HasRoom s.fifo (as.map NetAction.fifo)) := by
  induction as generalizing s with
  | nil => exact ⟨rfl, Iff.rfl⟩
  | cons a as ih =>
    obtain ⟨hrun, hsteps⟩ := ih (linesFit_step h a)
    rw [netStep_fifo h a] at hrun hsteps
    have hroom : FindsRoom a s ↔ Fifo.HasRoom a.fifo s.fifo := by cases a <;> exact Iff.rfl
    exact ⟨hrun, and_congr hroom hsteps⟩

/-- In every interleaving of the two threads nothing is lost if and only if every received line finds
fewer than 128 lines in the queue. -/
theorem netLink_whole_iff (as : List NetAction) :
    NothingLost (runNet NetLink.init as) ↔
      Runs.AllSteps netStep FindsRoom NetLink.init as := by
  have hfit : LinesFit NetLink.init := fun line hline => nomatch hline
  obtain ⟨hrun, hsteps⟩ := runNet_fifo hfit as
  have hwhole := Fifo.whole_iff (Fifo.whole_init Bytes 128) (as.map NetAction.fifo)
  rw [hsteps]
  have hfifo : NothingLost (runNet NetLink.init as) ↔ Fifo.Whole (runNet NetLink.init as).fifo := Iff.rfl
  rw [hfifo, hrun]
  exact hwhole

/-- 129 lines come in before the first pop. -/
theorem netLink_loses : ¬ ∀ as, NothingLost (runNet NetLink.init as) := by
  intro hall
  have hlost := hall (List.replicate 129 (.receive ⟨lit "MENU_SYNC", by decide, by decide⟩))
  have hlen := congrArg List.length hlost
  revert hlen
  decide +kernel

end TableOrder
