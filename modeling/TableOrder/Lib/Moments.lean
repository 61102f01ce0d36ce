import Mathlib.Data.List.Infix

/-!
# The moments of a run

Somebody reads a log that grows with a run, and is behind. If each action appends at most one line, the
lines read so far are the whole log of some earlier moment (`moment_len`), and the moments come in
order (`moment_mono`).
-/

namespace Runs

variable {α : Type} (len : List α → Nat)

/-- The shortest part of the run, at least `pre`, after which the log has `k` lines. -/
def momentFrom (k : Nat) : List α → List α → List α
  | pre, [] => pre
  | pre, a :: as => if k ≤ len pre then pre else momentFrom k (pre ++ [a]) as

def moment (as : List α) (k : Nat) : List α := momentFrom len k [] as

variable {len}

theorem momentFrom_within (k : Nat) (pre as : List α) :
    pre <+: momentFrom len k pre as ∧ momentFrom len k pre as <+: pre ++ as := by
  induction as generalizing pre with
  | nil => simp [momentFrom]
  | cons a as ih =>
    rw [momentFrom]
    split
    · exact ⟨List.prefix_rfl, List.prefix_append pre _⟩
    · obtain ⟨hbefore, hafter⟩ := ih (pre ++ [a])
      rw [List.append_assoc, List.singleton_append] at hafter
      exact ⟨(List.prefix_append pre [a]).trans hbefore, hafter⟩

theorem moment_within (as : List α) (k : Nat) : moment len as k <+: as :=
  (momentFrom_within k [] as).2

theorem moment_mono (as : List α) {k k' : Nat} (h : k ≤ k') :
    moment len as k <+: moment len as k' := by
  unfold moment
  generalize ([] : List α) = pre
  induction as generalizing pre with
  | nil => exact List.prefix_rfl
  | cons a as ih =>
    rw [momentFrom, momentFrom]
    by_cases hk' : k' ≤ len pre
    · rw [if_pos (by omega), if_pos hk']
    · rw [if_neg hk']
      split
      · exact (List.prefix_append pre [a]).trans (momentFrom_within k' _ as).1
      · exact ih (pre ++ [a])

theorem momentFrom_len {pre as : List α}
    (hstep : ∀ p a, p ++ [a] <+: pre ++ as → len (p ++ [a]) ≤ len p + 1) {k : Nat}
    (hfirst : len pre ≤ k) (hlast : k ≤ len (pre ++ as)) : len (momentFrom len k pre as) = k := by
  induction as generalizing pre with
  | nil =>
    rw [List.append_nil] at hlast
    exact Nat.le_antisymm hfirst hlast
  | cons a as ih =>
    have hassoc : pre ++ [a] ++ as = pre ++ a :: as := by simp
    rw [momentFrom]
    split
    · omega
    · have hnext := hstep pre a ⟨as, hassoc⟩
      apply ih
      · rw [hassoc]
        exact hstep
      · omega
      · rw [hassoc]
        exact hlast

/-- No number of lines is jumped over. -/
theorem moment_len (len : List α → Nat) {as : List α}
    (hstep : ∀ p a, p ++ [a] <+: as → len (p ++ [a]) ≤ len p + 1) {k : Nat}
    (hfirst : len [] ≤ k) (hlast : k ≤ len as) : len (moment len as k) = k :=
  momentFrom_len hstep hfirst hlast

end Runs
