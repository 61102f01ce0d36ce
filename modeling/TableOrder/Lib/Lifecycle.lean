import Mathlib.Data.List.Basic
import TableOrder.Lib.Runs

/-!
# Many things, each with a life of its own

A `Life` says how a thing may be born and how it may move on. A `Book` holds the state of every thing
under its key, and a `Trace` is a sequence of entries, each of which the life of its thing allows. The
things do not meet: key by key, the entries of a trace are a path (`Trace.path`).

A program that keeps such a book in some other form refines it when every step emits the entries of a
trace (`run_trace`), and a log that is written along with the steps holds what they emit (`run_log`).
-/

namespace Lifecycle

variable {κ τ : Type}

structure Life (τ : Type) where
  Birth : τ → Prop
  Edge : τ → τ → Prop

namespace Life

variable (L : Life τ)

/-- What may come next for a thing that is not there yet, or is in a state. -/
def Allows : Option τ → τ → Prop
  | none, t => L.Birth t
  | some s, t => L.Edge s t

/-- The states that one thing goes through. -/
inductive Path : Option τ → List τ → Option τ → Prop
  | nil (s : Option τ) : Path s [] s
  | cons {s s' : Option τ} {t : τ} {ts : List τ} : L.Allows s t → Path (some t) ts s' →
      Path s (t :: ts) s'

end Life

/-! ## Books -/

/-- The state of every thing that is there. -/
abbrev Book (κ τ : Type) := κ → Option τ

/-- Nothing is there. -/
def Book.empty : Book κ τ := fun _ => none

variable [DecidableEq κ]

def Book.record (b : Book κ τ) (k : κ) (t : τ) : Book κ τ := Function.update b k (some t)

namespace Life

variable (L : Life τ)

inductive Trace : Book κ τ → List (κ × τ) → Book κ τ → Prop
  | nil (b : Book κ τ) : Trace b [] b
  | cons {b b' : Book κ τ} {k : κ} {t : τ} {es : List (κ × τ)} : L.Allows (b k) t →
      Trace (b.record k t) es b' → Trace b ((k, t) :: es) b'

variable {L}

theorem Trace.append {b b' b'' : Book κ τ} {es es' : List (κ × τ)} (h : L.Trace b es b')
    (h' : L.Trace b' es' b'') : L.Trace b (es ++ es') b'' := by
  induction h with
  | nil => exact h'
  | cons hallows _ ih => exact .cons hallows (ih h')

theorem Trace.single {b : Book κ τ} {k : κ} {t : τ} (h : L.Allows (b k) t) :
    L.Trace b [(k, t)] (b.record k t) := .cons h (.nil _)

/-- The states that a sequence of entries gives to one key. -/
def statesOf (k : κ) (es : List (κ × τ)) : List τ := (es.filter fun e => e.1 = k).map (·.2)

omit L in
@[simp] theorem statesOf_cons_self (k : κ) (t : τ) (es : List (κ × τ)) :
    statesOf k ((k, t) :: es) = t :: statesOf k es := by simp [statesOf]

omit L in
theorem statesOf_cons_of_ne {k k' : κ} (h : k' ≠ k) (t : τ) (es : List (κ × τ)) :
    statesOf k ((k', t) :: es) = statesOf k es := by simp [statesOf, h]

theorem Trace.path {b b' : Book κ τ} {es : List (κ × τ)} (h : L.Trace b es b') (k : κ) :
    L.Path (b k) (statesOf k es) (b' k) := by
  induction h with
  | nil b => exact .nil _
  | @cons b b' k' t es hallows _ ih =>
    by_cases hk : k' = k
    · subst hk
      rw [statesOf_cons_self]
      rw [Book.record, Function.update_self] at ih
      exact .cons hallows ih
    · rw [statesOf_cons_of_ne hk]
      rwa [Book.record, Function.update_of_ne (Ne.symm hk)] at ih

end Life

/-! ## Programs that keep a book -/

section Refinement

variable {σ α ε : Type}

/-- What the steps of a run emit, one after the other. -/
def emitted (step : α → σ → σ) (emit : σ → σ → List ε) : σ → List α → List ε
  | _, [] => []
  | s, a :: as => emit s (step a s) ++ emitted step emit (step a s) as

/-- Each step emits the entries of a trace, so the run does. -/
theorem run_trace {L : Life τ} {step : α → σ → σ} {emit : σ → σ → List (κ × τ)}
    (book : σ → Book κ τ) (J : σ → Prop) (hkeep : ∀ a s, J s → J (step a s))
    (hstep : ∀ a s, J s → L.Trace (book s) (emit s (step a s)) (book (step a s))) {s : σ}
    (hs : J s) (as : List α) :
    L.Trace (book s) (emitted step emit s as) (book (Runs.run step s as)) := by
  induction as generalizing s with
  | nil => exact .nil _
  | cons a as ih => exact (hstep a s hs).append (ih (hkeep a s hs))

omit [DecidableEq κ] in
/-- A log that each step extends by what it emits, as seen through `view`. -/
theorem run_log {β γ : Type} {step : α → σ → σ} {emit : σ → σ → List ε} (log : σ → List β)
    {view : List β → List γ} {text : ε → γ} {P : α → Prop} (J : σ → Prop)
    (hview : ∀ xs ys, view (xs ++ ys) = view xs ++ view ys) (hnil : view [] = [])
    (hkeep : ∀ a s, P a → J s → J (step a s))
    (hstep : ∀ a s, P a → J s → ∃ out, log (step a s) = log s ++ out ∧
      view out = (emit s (step a s)).map text) {s : σ} (hs : J s) {as : List α}
    (has : ∀ a ∈ as, P a) :
    ∃ out, log (Runs.run step s as) = log s ++ out ∧
      view out = (emitted step emit s as).map text := by
  induction as generalizing s with
  | nil => exact ⟨[], by simp, hnil⟩
  | cons a as ih =>
    have ha := has a List.mem_cons_self
    obtain ⟨out, hlog, hout⟩ := hstep a s ha hs
    obtain ⟨rest, hrun, hrest⟩ := ih (hkeep a s ha hs) fun b hb => has b (List.mem_cons_of_mem a hb)
    refine ⟨out ++ rest, ?_, ?_⟩
    · rw [Runs.run_cons, hrun, hlog, List.append_assoc]
    · rw [hview, hout, hrest, emitted, List.map_append]

end Refinement

/-! ## What differs between two tables -/

section Changed

variable [DecidableEq τ]

/-- The rows of the second table that are not the same in the first. -/
def changed : List τ → List τ → List τ
  | _, [] => []
  | [], t :: ts => t :: changed [] ts
  | s :: ss, t :: ts => if t = s then changed ss ts else t :: changed ss ts

@[simp] theorem changed_self (ts : List τ) : changed ts ts = [] := by
  induction ts with
  | nil => rfl
  | cons t ts ih => rw [changed, if_pos rfl, ih]

theorem changed_push (ts : List τ) (t : τ) : changed ts (ts ++ [t]) = [t] := by
  induction ts with
  | nil => rfl
  | cons s ts ih => rw [List.cons_append, changed, if_pos rfl, ih]

theorem changed_set {ts : List τ} {i : Nat} {s t : τ} (hi : ts[i]? = some s) (hne : t ≠ s) :
    changed ts (ts.set i t) = [t] := by
  induction ts generalizing i with
  | nil => cases hi
  | cons u ts ih =>
    cases i with
    | zero =>
      obtain rfl : u = s := by simpa using hi
      rw [List.set_cons_zero, changed, if_neg hne, changed_self]
    | succ i =>
      have hi : ts[i]? = some s := by simpa using hi
      rw [List.set_cons_succ, changed, if_pos rfl, ih hi]

end Changed

end Lifecycle
