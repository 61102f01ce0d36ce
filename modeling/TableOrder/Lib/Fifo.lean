import TableOrder.Lib.Arr
import TableOrder.Lib.Runs

/-!
# A bounded queue that drops

One side offers items, the other takes them from the front. An item that finds the queue full is
dropped, and nobody is told. `whole_iff` says when nothing is lost: every item has to find room.
-/

namespace Fifo

open CLib

variable {α : Type} {cap : Nat}

/-- The queue with what was offered and what was taken so far. -/
structure State (α : Type) (cap : Nat) where
  queue : Arr α cap
  offered : List α
  taken : List α

inductive Action (α : Type) where
  | offer (a : α)
  | take

def init (α : Type) (cap : Nat) : State α cap := ⟨Arr.empty α cap, [], []⟩

def step : Action α → State α cap → State α cap
  | .offer a, s => { s with queue := (s.queue.push? a).getD s.queue, offered := s.offered ++ [a] }
  | .take, s =>
    match s.queue.items with
    | [] => s
    | a :: _ => { s with queue := s.queue.eraseIdx 0, taken := s.taken ++ [a] }

theorem step_take_nil {s : State α cap} (h : s.queue.items = []) : step .take s = s := by
  rw [step, h]

theorem step_take_cons {s : State α cap} {a : α} {rest : List α} (h : s.queue.items = a :: rest) :
    step .take s = { s with queue := s.queue.eraseIdx 0, taken := s.taken ++ [a] } := by
  rw [step, h]

/-- What was offered has been taken, in order, or is in the queue. -/
def Whole (s : State α cap) : Prop := s.taken ++ s.queue.items = s.offered

def HasRoom : Action α → State α cap → Prop
  | .offer _, s => s.queue.items.length < cap
  | .take, _ => True

instance (a : Action α) (s : State α cap) : Decidable (HasRoom a s) := by
  cases a <;> unfold HasRoom <;> infer_instance

/-- More was offered than there is. -/
def Behind (s : State α cap) : Prop := s.taken.length + s.queue.items.length < s.offered.length

theorem whole_init (α : Type) (cap : Nat) : Whole (init α cap) := rfl

theorem Whole.not_behind {s : State α cap} (h : Whole s) : ¬ Behind s := by
  unfold Behind
  rw [← h, List.length_append]
  omega

theorem Whole.step {s : State α cap} (h : Whole s) {a : Action α} (hroom : HasRoom a s) :
    Whole (Fifo.step a s) := by
  cases a with
  | offer a =>
    have hlt : s.queue.items.length < cap := hroom
    show s.taken ++ ((s.queue.push? a).getD s.queue).items = s.offered ++ [a]
    rw [Arr.push?_of_lt hlt, Option.getD_some, Arr.push_items, ← List.append_assoc, h]
  | take =>
    cases hq : s.queue.items with
    | nil =>
      rw [step_take_nil hq]
      exact h
    | cons a rest =>
      rw [step_take_cons hq]
      show (s.taken ++ [a]) ++ s.queue.items.eraseIdx 0 = s.offered
      rw [← h, hq]
      simp

/-- Without room the item is dropped. -/
theorem Whole.behind_step {s : State α cap} (h : Whole s) {a : Action α} (hroom : ¬ HasRoom a s) :
    Behind (Fifo.step a s) := by
  cases a with
  | offer a =>
    have hfull : s.queue.push? a = none := dif_neg hroom
    show s.taken.length + ((s.queue.push? a).getD s.queue).items.length < (s.offered ++ [a]).length
    rw [hfull, Option.getD_none, ← h]
    simp
  | take => exact absurd trivial hroom

/-- A dropped item never comes back. -/
theorem Behind.step {s : State α cap} (h : Behind s) (a : Action α) : Behind (Fifo.step a s) := by
  unfold Behind at h
  cases a with
  | offer a =>
    show s.taken.length + ((s.queue.push? a).getD s.queue).items.length < (s.offered ++ [a]).length
    rw [List.length_append, List.length_singleton]
    cases hpush : s.queue.push? a with
    | none =>
      rw [Option.getD_none]
      omega
    | some q =>
      rw [Option.getD_some, (Arr.push?_eq_some.mp hpush).2, List.length_append, List.length_singleton]
      omega
  | take =>
    cases hq : s.queue.items with
    | nil =>
      rw [step_take_nil hq]
      exact h
    | cons a rest =>
      rw [step_take_cons hq]
      show (s.taken ++ [a]).length + (s.queue.items.eraseIdx 0).length < s.offered.length
      rw [hq] at h ⊢
      simp at h ⊢
      omega

/-- Over a run nothing is lost if and only if every offered item finds room. -/
theorem whole_iff {s : State α cap} (h : Whole s) (as : List (Action α)) :
    Whole (Runs.run step s as) ↔ Runs.AllSteps step HasRoom s as := by
  induction as generalizing s with
  | nil => exact ⟨fun _ => trivial, fun _ => h⟩
  | cons a as ih =>
    by_cases hroom : HasRoom a s
    · rw [Runs.run_cons, ih (h.step hroom)]
      exact ⟨fun hrest => ⟨hroom, hrest⟩, fun hall => hall.2⟩
    · have hbehind : Behind (Runs.run step (Fifo.step a s) as) := by
        apply Runs.run_invariant (P := fun _ => True) _ (h.behind_step hroom)
        · intro _ _
          trivial
        · intro b t _ ht
          exact ht.step b
      constructor
      · intro hwhole
        exact absurd hbehind hwhole.not_behind
      · intro hall
        exact absurd hall.1 hroom

end Fifo
