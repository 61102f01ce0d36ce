import Mathlib.Data.Int.ModEq
import TableOrder.Lib.Runs

/-!
# A cell of the state that is written now and then

Most actions leave a given cell of the state alone. `writes a s` is what the action `a` writes into it,
if it does. In the end of a run the cell holds what was written last (`run_read`), by an action of the
run after which nobody wrote (`lastWrite_eq_some`).

Some cells are kept together with a counter that goes up whenever they are written. A reader
remembers the counter and looks again only when it has changed. The counter has a limited number of
values, so it may come round to the remembered one; `Since` says that this takes as many steps as there
are values, and that the cell is the same before (`Since.same`).
-/

namespace Cell

open Runs (run run_cons)

/-! ## The last write -/

section LastWrite

variable {σ α β : Type}

/-- What the run writes last. -/
def lastWrite (step : α → σ → σ) (writes : α → σ → Option β) : σ → List α → Option β
  | _, [] => none
  | s, a :: as => (lastWrite step writes (step a s) as).or (writes a s)

variable {step : α → σ → σ} {writes : α → σ → Option β}

/-- The content at the end is what was written last, or the content at first. It may take an
invariant for what is read to be what was written. -/
theorem run_read_of {P : α → Prop} {I : σ → Prop} (read : σ → β)
    (hstep : ∀ a s, P a → I s → I (step a s))
    (h : ∀ a s, P a → I s → read (step a s) = (writes a s).getD (read s)) {s : σ} (hs : I s)
    {as : List α} (has : ∀ a ∈ as, P a) :
    read (run step s as) = (lastWrite step writes s as).getD (read s) := by
  induction as generalizing s with
  | nil => rfl
  | cons a as ih =>
    have ha := has a List.mem_cons_self
    rw [run_cons, ih (hstep a s ha hs) (fun b hb => has b (List.mem_cons_of_mem a hb)), lastWrite,
      h a s ha hs]
    cases lastWrite step writes (step a s) as <;> rfl

theorem run_read (read : σ → β) (h : ∀ a s, read (step a s) = (writes a s).getD (read s)) (s : σ)
    (as : List α) : read (run step s as) = (lastWrite step writes s as).getD (read s) :=
  run_read_of (P := fun _ => True) (I := fun _ => True) read (fun _ _ _ _ => trivial)
    (fun a s _ _ => h a s) trivial (fun _ _ => trivial)

/-- What is written may be looked at in another way. -/
theorem lastWrite_map {γ : Type} (f : β → γ) (s : σ) (as : List α) :
    lastWrite step (fun a s => (writes a s).map f) s as = (lastWrite step writes s as).map f := by
  induction as generalizing s with
  | nil => rfl
  | cons a as ih =>
    rw [lastWrite, lastWrite, ih, Option.map_or]

theorem lastWrite_eq_none {s : σ} {as : List α} : lastWrite step writes s as = none ↔
    ∀ pre a post, as = pre ++ a :: post → writes a (run step s pre) = none := by
  induction as generalizing s with
  | nil =>
    refine ⟨fun _ pre a post h => ?_, fun _ => rfl⟩
    simp at h
  | cons b as ih =>
    rw [lastWrite, Option.or_eq_none_iff, ih]
    constructor
    · rintro ⟨hlater, hfirst⟩ pre a post h
      cases pre with
      | nil =>
        obtain ⟨rfl, rfl⟩ := List.cons.inj h
        exact hfirst
      | cons c pre =>
        obtain ⟨rfl, rfl⟩ := List.cons.inj h
        exact hlater pre a post rfl
    · intro h
      refine ⟨fun pre a post has => ?_, h [] b as rfl⟩
      exact h (b :: pre) a post (by rw [has, List.cons_append])

/-- The last writer of the run. -/
theorem lastWrite_eq_some {s : σ} {as : List α} {b : β} : lastWrite step writes s as = some b ↔
    ∃ pre a post, as = pre ++ a :: post ∧ writes a (run step s pre) = some b ∧
      ∀ mid c rest, post = mid ++ c :: rest → writes c (run step s (pre ++ a :: mid)) = none := by
  induction as generalizing s with
  | nil => simp [lastWrite]
  | cons d as ih =>
    rw [lastWrite, Option.or_eq_some_iff, ih, lastWrite_eq_none]
    constructor
    · rintro (⟨pre, a, post, rfl, hwrites, hlast⟩ | ⟨hlater, hwrites⟩)
      · exact ⟨d :: pre, a, post, rfl, hwrites, hlast⟩
      · exact ⟨[], d, as, rfl, hwrites, hlater⟩
    · rintro ⟨pre, a, post, h, hwrites, hlast⟩
      cases pre with
      | nil =>
        obtain ⟨rfl, rfl⟩ := List.cons.inj h
        exact .inr ⟨hlast, hwrites⟩
      | cons c pre =>
        obtain ⟨rfl, rfl⟩ := List.cons.inj h
        exact .inl ⟨pre, a, post, rfl, hwrites, hlast⟩

end LastWrite

/-! ## A counter that goes round -/

/-- The counter was `seen` some time ago and has gone up to `now` since, by at most `n`. If it has not
gone up, then `P`. -/
def Since (m : Nat) (seen now : Int) (n : Nat) (P : Prop) : Prop :=
  ∃ k : Nat, k ≤ n ∧ now = (seen + k) % m ∧ (k = 0 → P)

variable {m n n' : Nat} {seen now : Int} {P P' : Prop}

/-- The reader looks at the counter. -/
theorem Since.look (h : 0 ≤ now ∧ now < m) (hP : P) : Since m now now n P := by
  refine ⟨0, Nat.zero_le n, ?_, fun _ => hP⟩
  rw [Int.natCast_zero, Int.add_zero, Int.emod_eq_of_lt h.1 h.2]

/-- Nothing is written. -/
theorem Since.quiet (h : Since m seen now n P) (hn : n ≤ n') (hP : P → P') :
    Since m seen now n' P' := by
  obtain ⟨k, hk, hnow, hzero⟩ := h
  exact ⟨k, hk.trans hn, hnow, fun hk0 => hP (hzero hk0)⟩

/-- The counter is as it was seen, and has had no time to go round. -/
theorem Since.same (h : Since m seen now n P) (hseen : 0 ≤ seen ∧ seen < m) (hn : n < m)
    (hnow : now = seen) : P := by
  obtain ⟨k, hk, hcount, hzero⟩ := h
  apply hzero
  subst hnow
  have hround : now ≡ now + k [ZMOD m] := by
    rw [Int.ModEq, ← hcount, Int.emod_eq_of_lt hseen.1 hseen.2]
  have hdvd : m ∣ k := by
    have hsub := hround.dvd
    rw [add_sub_cancel_left] at hsub
    exact Int.natCast_dvd_natCast.mp hsub
  exact Nat.eq_zero_of_dvd_of_lt hdvd (Nat.lt_of_le_of_lt hk hn)

end Cell
