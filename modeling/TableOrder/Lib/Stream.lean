import Mathlib.Data.List.Basic
import Mathlib.Logic.Function.Basic

/-!
# Writers that share a stream

A writer sends a text by write calls, each of which takes a non-empty front part of what is left.
Several writers may be at it at once, and then their texts can come out mixed.

When no writer ever writes while another one is in the middle of its text, the stream is orderly
(`Orderly`): it is the finished texts one after the other, and the part of at most one more
(`Orderly.start`, `Orderly.write`). Between texts it is the finished texts alone
(`Orderly.flatten`).
-/

namespace Stream

variable {τ α : Type}

/-- A text on its way: the part that is out, and the rest. -/
structure Call (α : Type) where
  done : List α
  left : List α
  deriving DecidableEq

structure State (τ α : Type) where
  sent : List α
  /-- The texts that are out in full, in the order in which they were finished. -/
  finished : List (List α)
  writing : τ → Option (Call α)

def init : State τ α := ⟨[], [], fun _ => none⟩

/-- The writer is in the middle of its text. -/
def State.Midway (s : State τ α) (t : τ) : Prop := ∃ c, s.writing t = some c ∧ c.done ≠ []

section Steps

variable [DecidableEq τ]

/-- The writer takes a text in hand, unless it has one. -/
def start (t : τ) (text : List α) (s : State τ α) : State τ α :=
  match s.writing t, text with
  | none, _ :: _ => { s with writing := Function.update s.writing t (some ⟨[], text⟩) }
  | _, _ => s

/-- One write call, which takes `k + 1` items or all that is left. -/
def write (t : τ) (k : Nat) (s : State τ α) : State τ α :=
  match s.writing t with
  | none => s
  | some c =>
    match c.left.drop (k + 1) with
    | [] =>
      { sent := s.sent ++ c.left
        finished := s.finished ++ [c.done ++ c.left]
        writing := Function.update s.writing t none }
    | b :: rest =>
      { s with
        sent := s.sent ++ c.left.take (k + 1)
        writing := Function.update s.writing t (some ⟨c.done ++ c.left.take (k + 1), b :: rest⟩) }

/-- Everything a write call can do. -/
theorem write_cases (t : τ) (k : Nat) (s : State τ α) :
    (s.writing t = none ∧ write t k s = s) ∨
    ∃ c, s.writing t = some c ∧
      ((write t k s = ⟨s.sent ++ c.left, s.finished ++ [c.done ++ c.left],
          Function.update s.writing t none⟩) ∨
        ∃ piece rest, c.left = piece ++ rest ∧ rest ≠ [] ∧
          (c.left ≠ [] → piece ≠ []) ∧
          write t k s = ⟨s.sent ++ piece, s.finished,
            Function.update s.writing t (some ⟨c.done ++ piece, rest⟩)⟩) := by
  unfold write
  cases hw : s.writing t with
  | none => exact Or.inl ⟨rfl, rfl⟩
  | some c =>
    refine Or.inr ⟨c, rfl, ?_⟩
    simp only
    cases hrest : c.left.drop (k + 1) with
    | nil => exact Or.inl rfl
    | cons b rest =>
      refine Or.inr ⟨c.left.take (k + 1), b :: rest, ?_, by simp, ?_, rfl⟩
      · rw [← hrest, List.take_append_drop]
      · intro hne htake
        rcases List.take_eq_nil_iff.mp htake with h | h
        · omega
        · exact hne h

theorem start_cases (t : τ) (text : List α) (s : State τ α) :
    start t text s = s ∨ (s.writing t = none ∧ text ≠ [] ∧
      start t text s = { s with writing := Function.update s.writing t (some ⟨[], text⟩) }) := by
  unfold start
  split
  · next hw => exact Or.inr ⟨hw, by simp, rfl⟩
  · exact Or.inl rfl

/-- The calls after one writer's call was replaced. -/
theorem update_eq_some {f : τ → Option (Call α)} {t t' : τ} {x : Option (Call α)} {c : Call α}
    (h : Function.update f t x t' = some c) : (t' = t ∧ x = some c) ∨ (t' ≠ t ∧ f t' = some c) := by
  by_cases ht : t' = t
  · subst ht
    rw [Function.update_self] at h
    exact Or.inl ⟨rfl, h⟩
  · rw [Function.update_of_ne ht] at h
    exact Or.inr ⟨ht, h⟩

end Steps

/-! ## Orderly streams -/

structure Orderly (s : State τ α) : Prop where
  between : (∀ t, ¬ s.Midway t) → s.sent = s.finished.flatten
  within : ∀ t c, s.writing t = some c → c.done ≠ [] → s.sent = s.finished.flatten ++ c.done
  pending : ∀ t c, s.writing t = some c → c.left ≠ []

theorem Orderly.init : Orderly (init : State τ α) := by
  constructor
  · intro _
    rfl
  · intro t c h
    cases h
  · intro t c h
    cases h

/-- With no text on its way the stream is the finished texts. -/
theorem Orderly.flatten {s : State τ α} (h : Orderly s) (hidle : ∀ t, s.writing t = none) :
    s.sent = s.finished.flatten := by
  apply h.between
  rintro t ⟨c, hc, -⟩
  rw [hidle t] at hc
  cases hc

variable [DecidableEq τ]

theorem Orderly.start {s : State τ α} (h : Orderly s) (t : τ) (text : List α) :
    Orderly (start t text s) := by
  rcases start_cases t text s with hsame | ⟨hw, hne, heq⟩
  · rw [hsame]
    exact h
  rw [heq]
  constructor
  · intro hnone
    apply h.between
    rintro t' ⟨c, hc, hdone⟩
    refine hnone t' ⟨c, ?_, hdone⟩
    have ht : t' ≠ t := by
      rintro rfl
      rw [hw] at hc
      cases hc
    exact (Function.update_of_ne ht _ _).trans hc
  · intro t' c hc hdone
    rcases update_eq_some hc with ⟨-, hnew⟩ | ⟨-, hold⟩
    · -- the new call has sent nothing
      cases hnew
      exact absurd rfl hdone
    · exact h.within t' c hold hdone
  · intro t' c hc
    rcases update_eq_some hc with ⟨-, hnew⟩ | ⟨-, hold⟩
    · cases hnew
      exact hne
    · exact h.pending t' c hold

/-- A write call by a writer that is alone in the middle of a text, or starts one. -/
theorem Orderly.write {s : State τ α} (h : Orderly s) {t : τ}
    (halone : ∀ t', t' ≠ t → ¬ s.Midway t') (k : Nat) : Orderly (write t k s) := by
  rcases write_cases t k s with ⟨-, hsame⟩ | ⟨c, hc, hcases⟩
  · rw [hsame]
    exact h
  have hsent : s.sent = s.finished.flatten ++ c.done := by
    by_cases hdone : c.done = []
    · rw [hdone, List.append_nil]
      apply h.between
      intro t' hmid
      by_cases ht : t' = t
      · obtain ⟨c', hc', hdone'⟩ := hmid
        rw [ht, hc] at hc'
        cases hc'
        exact hdone' hdone
      · exact halone t' ht hmid
    · exact h.within t c hc hdone
  -- another writer is where it was: before its text
  have hother {t' : τ} (ht : t' ≠ t) {c' : Call α} (hc' : s.writing t' = some c') :
      c'.done = [] := by
    by_contra hdone
    exact halone t' ht ⟨c', hc', hdone⟩
  rcases hcases with heq | ⟨piece, rest, hleft, hrest, hpiece, heq⟩ <;> rw [heq]
  · constructor
    · intro _
      show s.sent ++ c.left = _
      rw [hsent]
      simp
    · intro t' c' hc' hdone
      rcases update_eq_some hc' with ⟨-, hnew⟩ | ⟨ht, hold⟩
      · cases hnew
      · exact absurd (hother ht hold) hdone
    · intro t' c' hc'
      rcases update_eq_some hc' with ⟨-, hnew⟩ | ⟨-, hold⟩
      · cases hnew
      · exact h.pending t' c' hold
  · have hpiece := hpiece (h.pending t c hc)
    constructor
    · intro hnone
      exact absurd ⟨⟨c.done ++ piece, rest⟩, Function.update_self _ _ _, by simp [hpiece]⟩ (hnone t)
    · intro t' c' hc' hdone
      rcases update_eq_some hc' with ⟨-, hnew⟩ | ⟨ht, hold⟩
      · cases hnew
        show s.sent ++ piece = _
        rw [hsent, List.append_assoc]
      · exact absurd (hother ht hold) hdone
    · intro t' c' hc'
      rcases update_eq_some hc' with ⟨-, hnew⟩ | ⟨-, hold⟩
      · cases hnew
        exact hrest
      · exact h.pending t' c' hold

/-! ## The texts -/

/-- Every text that is out or on its way satisfies `P`. -/
structure Texts (P : List α → Prop) (s : State τ α) : Prop where
  finished : ∀ text ∈ s.finished, P text
  writing : ∀ t c, s.writing t = some c → P (c.done ++ c.left)

omit [DecidableEq τ] in
theorem Texts.init (P : List α → Prop) : Texts P (Stream.init : State τ α) :=
  ⟨by simp [Stream.init], by simp [Stream.init]⟩

theorem Texts.start {P : List α → Prop} {s : State τ α} (h : Texts P s) (t : τ) {text : List α}
    (htext : P text) : Texts P (Stream.start t text s) := by
  rcases start_cases t text s with hsame | ⟨-, -, heq⟩
  · rw [hsame]
    exact h
  rw [heq]
  refine ⟨h.finished, ?_⟩
  intro t' c hc
  rcases update_eq_some hc with ⟨-, hnew⟩ | ⟨-, hold⟩
  · cases hnew
    exact htext
  · exact h.writing t' c hold

theorem Texts.write {P : List α → Prop} {s : State τ α} (h : Texts P s) (t : τ) (k : Nat) :
    Texts P (Stream.write t k s) := by
  rcases write_cases t k s with ⟨-, hsame⟩ | ⟨c, hc, hcases⟩
  · rw [hsame]
    exact h
  rcases hcases with heq | ⟨piece, rest, hleft, -, -, heq⟩ <;> rw [heq]
  · constructor
    · intro text htext
      rw [List.mem_append, List.mem_singleton] at htext
      rcases htext with htext | rfl
      · exact h.finished text htext
      · exact h.writing t c hc
    · intro t' c' hc'
      rcases update_eq_some hc' with ⟨-, hnew⟩ | ⟨-, hold⟩
      · cases hnew
      · exact h.writing t' c' hold
  · refine ⟨h.finished, ?_⟩
    intro t' c' hc'
    rcases update_eq_some hc' with ⟨-, hnew⟩ | ⟨-, hold⟩
    · cases hnew
      have hwhole := h.writing t c hc
      rw [hleft, ← List.append_assoc] at hwhole
      exact hwhole
    · exact h.writing t' c' hold

end Stream
