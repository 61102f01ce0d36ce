import Mathlib.Data.List.Induction
import Mathlib.Logic.Relation

/-!
# Runs of a transition system

`run step s as` is the state after the actions `as`, one at a time. An invariant of every step is
an invariant of every run (`run_invariant`), and a run is a chain of what its steps do to a part of
the state (`run_chain`).

Some invariants look back: what is on its way now was sent at an earlier point of the run. `Once` says
that something held at some point, and `run_history` is the induction for an invariant that mentions
the run so far.

The second half is about tables that only grow: a step leaves the table alone, appends an entry
that satisfies `init`, or replaces one entry by an `R`-related one. Along any number of such
steps every entry keeps its position and moves along `R` (`Grows.lookup`), and every entry found
later was there before or was appended with `init` (`Grows.origin`).
-/

namespace Runs

open Relation (ReflTransGen)

section Run

variable {σ α : Type}

/-- The state after the actions, from left to right. -/
def run (step : α → σ → σ) (s : σ) (as : List α) : σ := as.foldl (fun s a => step a s) s

@[simp] theorem run_nil (step : α → σ → σ) (s : σ) : run step s [] = s := rfl

@[simp] theorem run_cons (step : α → σ → σ) (s : σ) (a : α) (as : List α) :
    run step s (a :: as) = run step (step a s) as := rfl

theorem run_append (step : α → σ → σ) (s : σ) (as bs : List α) :
    run step s (as ++ bs) = run step (run step s as) bs := List.foldl_append

/-- What every allowed action preserves, every run of allowed actions preserves. -/
theorem run_invariant {step : α → σ → σ} {P : α → Prop} {I : σ → Prop}
    (hstep : ∀ a s, P a → I s → I (step a s)) {s : σ} (hs : I s) {as : List α}
    (has : ∀ a ∈ as, P a) : I (run step s as) := by
  induction as generalizing s with
  | nil => exact hs
  | cons a as ih =>
    exact ih (hstep a s (has a (by simp)) hs) (fun b hb => has b (by simp [hb]))

theorem run_concat (step : α → σ → σ) (s : σ) (as : List α) (a : α) :
    run step s (as ++ [a]) = step a (run step s as) := by
  rw [run_append, run_cons, run_nil]

/-- Every step of the run meets a condition on the action and the state before it. -/
def AllSteps (step : α → σ → σ) (P : α → σ → Prop) (s : σ) : List α → Prop
  | [] => True
  | a :: as => P a s ∧ AllSteps step P (step a s) as

instance AllSteps.decidable {step : α → σ → σ} {P : α → σ → Prop} [∀ a s, Decidable (P a s)] :
    (s : σ) → (as : List α) → Decidable (AllSteps step P s as)
  | _, [] => isTrue trivial
  | s, a :: as =>
    have : Decidable (AllSteps step P (step a s) as) := AllSteps.decidable (step a s) as
    inferInstanceAs (Decidable (P a s ∧ AllSteps step P (step a s) as))

/-- The condition at every point of the run. -/
theorem allSteps_iff {step : α → σ → σ} {P : α → σ → Prop} {s : σ} {as : List α} :
    AllSteps step P s as ↔ ∀ pre a post, as = pre ++ a :: post → P a (run step s pre) := by
  induction as generalizing s with
  | nil =>
    refine ⟨fun _ pre a post h => ?_, fun _ => trivial⟩
    simp at h
  | cons b as ih =>
    constructor
    · rintro ⟨hb, hrest⟩ pre a post h
      cases pre with
      | nil =>
        obtain ⟨rfl, rfl⟩ := List.cons.inj h
        exact hb
      | cons c pre =>
        obtain ⟨rfl, rfl⟩ := List.cons.inj h
        exact ih.mp hrest pre a post rfl
    · intro hall
      refine ⟨hall [] b as rfl, ih.mpr fun pre a post h => ?_⟩
      exact hall (b :: pre) a post (by rw [h, List.cons_append])

/-- An invariant of the steps that meet the condition, for allowed actions. -/
theorem AllSteps.invariant {step : α → σ → σ} {P : α → σ → Prop} {Q : α → Prop} {I : σ → Prop}
    (hstep : ∀ a s, Q a → P a s → I s → I (step a s)) {s : σ} (hs : I s) {as : List α}
    (hQ : ∀ a ∈ as, Q a) (hP : AllSteps step P s as) : I (run step s as) := by
  induction as generalizing s with
  | nil => exact hs
  | cons a as ih =>
    have hnext := hstep a s (hQ a List.mem_cons_self) hP.1 hs
    exact ih hnext (fun b hb => hQ b (List.mem_cons_of_mem a hb)) hP.2

/-- Where a step keeps `I` exactly under its condition, `I` holds all along exactly when every step
meets its condition. `J` is what the steps keep anyway. -/
theorem always_iff_allSteps {step : α → σ → σ} {P : α → σ → Prop} {Q : α → Prop} {I J : σ → Prop}
    (hkeep : ∀ a s, Q a → J s → J (step a s))
    (hstep : ∀ a s, Q a → J s → I s → (I (step a s) ↔ P a s)) {s : σ} (hJ : J s) {as : List α}
    (hQ : ∀ a ∈ as, Q a) :
    (∀ pre, pre <+: as → I (run step s pre)) ↔ I s ∧ AllSteps step P s as := by
  induction as generalizing s with
  | nil =>
    constructor
    · intro h
      exact ⟨h [] List.prefix_rfl, trivial⟩
    · rintro ⟨hs, -⟩ pre hpre
      rw [List.prefix_nil.mp hpre]
      exact hs
  | cons a as ih =>
    have ha := hQ a List.mem_cons_self
    have hlater := ih (hkeep a s ha hJ) fun b hb => hQ b (List.mem_cons_of_mem a hb)
    constructor
    · intro h
      have hs : I s := h [] List.nil_prefix
      have hnext : ∀ pre, pre <+: as → I (run step (step a s) pre) := fun pre hpre =>
        h (a :: pre) (List.prefix_cons_inj a |>.mpr hpre)
      obtain ⟨hI, hrest⟩ := hlater.mp hnext
      exact ⟨hs, (hstep a s ha hJ hs).mp hI, hrest⟩
    · rintro ⟨hs, hP, hrest⟩ pre hpre
      cases pre with
      | nil => exact hs
      | cons b pre =>
        obtain ⟨rfl, htail⟩ := List.cons_prefix_cons.mp hpre
        exact hlater.mpr ⟨(hstep b s ha hJ hs).mpr hP, hrest⟩ pre htail

/-- `P` held after some part of the run. -/
def Once (step : α → σ → σ) (s : σ) (as : List α) (P : σ → Prop) : Prop :=
  ∃ before, before <+: as ∧ P (run step s before)

theorem Once.now {step : α → σ → σ} {s : σ} {as : List α} {P : σ → Prop}
    (h : P (run step s as)) : Once step s as P := ⟨as, List.prefix_rfl, h⟩

theorem Once.later {step : α → σ → σ} {s : σ} {as bs : List α} {P : σ → Prop}
    (h : Once step s as P) (hle : as <+: bs) : Once step s bs P := by
  obtain ⟨before, hbefore, hP⟩ := h
  exact ⟨before, hbefore.trans hle, hP⟩

/-- An invariant that may look back at the run so far. -/
theorem run_history {step : α → σ → σ} {s : σ} {I : List α → σ → Prop} (hinit : I [] s)
    (hstep : ∀ as a, I as (run step s as) → I (as ++ [a]) (step a (run step s as)))
    (as : List α) : I as (run step s as) := by
  induction as using List.reverseRecOn with
  | nil => exact hinit
  | append_singleton as a ih =>
    rw [run_concat]
    exact hstep as a ih

/-- What does not hold at first and holds in the end comes to hold at one of the steps. -/
theorem exists_switch {step : α → σ → σ} {P : σ → Prop} {s : σ} {as : List α} (hfirst : ¬ P s)
    (hlast : P (run step s as)) : ∃ pre a post, as = pre ++ a :: post ∧ ¬ P (run step s pre) ∧
      P (step a (run step s pre)) := by
  induction as using List.reverseRecOn with
  | nil => exact absurd hlast hfirst
  | append_singleton as a ih =>
    by_cases hbefore : P (run step s as)
    · obtain ⟨pre, b, post, rfl, hpre, hb⟩ := ih hbefore
      exact ⟨pre, b, post ++ [a], by simp, hpre, hb⟩
    · rw [run_concat] at hlast
      exact ⟨as, a, [], rfl, hbefore, hlast⟩

/-- What the steps keep comes to hold at one of them only. -/
theorem switch_unique (step : α → σ → σ) {P : σ → Prop} (hkeep : ∀ a s, P s → P (step a s)) {s : σ}
    {pre pre' post post' : List α} {a a' : α} (h : pre ++ a :: post = pre' ++ a' :: post')
    (hbefore : ¬ P (run step s pre)) (hafter : P (step a (run step s pre)))
    (hbefore' : ¬ P (run step s pre')) (hafter' : P (step a' (run step s pre'))) :
    pre = pre' ∧ a = a' ∧ post = post' := by
  have hrun : ∀ {b : α} {as mid : List α}, P (step b (run step s as)) →
      P (run step s (as ++ b :: mid)) := by
    intro b as mid hb
    rw [run_append, run_cons]
    exact run_invariant (P := fun _ => True) (fun c v _ => hkeep c v) hb (fun _ _ => trivial)
  rcases List.append_eq_append_iff.mp h with ⟨mid, hpre, hmid⟩ | ⟨mid, hpre, hmid⟩
  · cases mid with
    | nil =>
      obtain ⟨rfl, rfl⟩ := List.cons.inj hmid
      exact ⟨by rw [hpre, List.append_nil], rfl, rfl⟩
    | cons b mid =>
      obtain ⟨rfl, -⟩ := List.cons.inj hmid
      rw [hpre] at hbefore'
      exact absurd (hrun hafter) hbefore'
  · cases mid with
    | nil =>
      obtain ⟨rfl, rfl⟩ := List.cons.inj hmid
      exact ⟨by rw [hpre, List.append_nil], rfl, rfl⟩
    | cons b mid =>
      obtain ⟨rfl, -⟩ := List.cons.inj hmid
      rw [hpre] at hbefore
      exact absurd (hrun hafter') hbefore

/-- A run is a chain of its steps, seen through `f`. -/
theorem run_chain {τ : Type} {step : α → σ → σ} {f : σ → τ} {r : τ → τ → Prop}
    (h : ∀ a s, r (f s) (f (step a s))) (s : σ) (as : List α) :
    ReflTransGen r (f s) (f (run step s as)) := by
  induction as generalizing s with
  | nil => exact ReflTransGen.refl
  | cons a as ih => exact ReflTransGen.head (h a s) (ih (step a s))

end Run

/-! ## Tables that only grow -/

section Growing

variable {α β : Type}

/-- One step on a table: nothing, a new entry at the end, or one entry replaced. -/
inductive Grow (init : α → Prop) (R : α → α → Prop) : List α → List α → Prop
  | same (l : List α) : Grow init R l l
  | push (l : List α) (a : α) : init a → Grow init R l (l ++ [a])
  | set (l : List α) (i : Nat) (a b : α) : l[i]? = some a → R a b → Grow init R l (l.set i b)

/-- Any number of steps. -/
abbrev Grows (init : α → Prop) (R : α → α → Prop) : List α → List α → Prop :=
  ReflTransGen (Grow init R)

variable {init : α → Prop} {R : α → α → Prop}

theorem Grow.mono {R' : α → α → Prop} (hR : ∀ a b, R a b → R' a b) {l l' : List α}
    (h : Grow init R l l') : Grow init R' l l' := by
  cases h with
  | same => exact .same _
  | push a ha => exact .push _ a ha
  | set i a b ha hab => exact .set _ i a b ha (hR a b hab)

theorem Grow.lookup {l l' : List α} (h : Grow init R l l') {k : Nat} {a : α}
    (ha : l[k]? = some a) : ∃ b, l'[k]? = some b ∧ (b = a ∨ R a b) := by
  cases h with
  | same => exact ⟨a, ha, Or.inl rfl⟩
  | push c _ =>
    obtain ⟨hlt, -⟩ := List.getElem?_eq_some_iff.mp ha
    exact ⟨a, by rw [List.getElem?_append_left hlt, ha], Or.inl rfl⟩
  | set i c d hc hR =>
    by_cases hik : i = k
    · subst hik
      obtain ⟨hlt, -⟩ := List.getElem?_eq_some_iff.mp ha
      rw [ha] at hc
      cases hc
      exact ⟨d, by simp [hlt], Or.inr hR⟩
    · exact ⟨a, by rw [List.getElem?_set_ne hik, ha], Or.inl rfl⟩

theorem Grow.origin {l l' : List α} (h : Grow init R l l') {k : Nat} {b : α}
    (hb : l'[k]? = some b) :
    (∃ a, l[k]? = some a ∧ (b = a ∨ R a b)) ∨ (l.length ≤ k ∧ init b) := by
  cases hk : l[k]? with
  | some a =>
    obtain ⟨b', hb', hR⟩ := h.lookup hk
    rw [hb] at hb'
    cases hb'
    exact Or.inl ⟨a, rfl, hR⟩
  | none =>
    have hle := List.getElem?_eq_none_iff.mp hk
    right
    refine ⟨hle, ?_⟩
    cases h with
    | same =>
      rw [hk] at hb
      cases hb
    | push a ha =>
      rw [List.getElem?_append_right hle] at hb
      have : b = a := by
        cases hj : k - l.length with
        | zero => simpa [hj] using hb.symm
        | succ j => simp [hj] at hb
      rw [this]
      exact ha
    | set i a c _ _ =>
      rw [List.getElem?_set] at hb
      split at hb
      · next hik =>
        rw [if_neg (by omega)] at hb
        cases hb
      · rw [hk] at hb
        cases hb

/-- Every entry keeps its position and moves along `R`. -/
theorem Grows.lookup {l l' : List α} (h : Grows init R l l') {k : Nat} {a : α}
    (ha : l[k]? = some a) : ∃ b, l'[k]? = some b ∧ ReflTransGen R a b := by
  induction h with
  | refl => exact ⟨a, ha, ReflTransGen.refl⟩
  | tail _ hstep ih =>
    obtain ⟨b, hb, hab⟩ := ih
    obtain ⟨c, hc, hbc⟩ := hstep.lookup hb
    rcases hbc with rfl | hbc
    · exact ⟨c, hc, hab⟩
    · exact ⟨c, hc, hab.tail hbc⟩

/-- Every entry was there before, or was appended and moved along `R` since. -/
theorem Grows.origin {l l' : List α} (h : Grows init R l l') {k : Nat} {b : α}
    (hb : l'[k]? = some b) :
    (∃ a, l[k]? = some a ∧ ReflTransGen R a b) ∨
      (l.length ≤ k ∧ ∃ a, init a ∧ ReflTransGen R a b) := by
  induction h generalizing b with
  | refl => exact Or.inl ⟨b, hb, ReflTransGen.refl⟩
  | @tail m l'' hlm hstep ih =>
    rcases hstep.origin hb with ⟨a, ha, hab⟩ | ⟨hle, hinit⟩
    · have hab' : ReflTransGen R a b := by
        rcases hab with rfl | hab
        · exact ReflTransGen.refl
        · exact ReflTransGen.single hab
      rcases ih ha with ⟨a0, ha0, h0⟩ | ⟨hk, a0, hi, h0⟩
      · exact Or.inl ⟨a0, ha0, h0.trans hab'⟩
      · exact Or.inr ⟨hk, a0, hi, h0.trans hab'⟩
    · refine Or.inr ⟨?_, b, hinit, ReflTransGen.refl⟩
      cases hk : l[k]? with
      | none => exact List.getElem?_eq_none_iff.mp hk
      | some a =>
        obtain ⟨c, hc, -⟩ := Grows.lookup hlm hk
        have := (List.getElem?_eq_some_iff.mp hc).1
        omega

theorem Grows.length_le {l l' : List α} (h : Grows init R l l') : l.length ≤ l'.length := by
  rcases Nat.lt_or_ge l'.length l.length with hlt | hge
  · obtain ⟨b, hb, -⟩ := h.lookup (List.getElem?_eq_getElem hlt)
    exact absurd hb (by simp)
  · exact hge

end Growing

end Runs
