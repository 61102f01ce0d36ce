import Mathlib.Algebra.Order.BigOperators.Group.List
import Mathlib.Algebra.Ring.Int.Defs
import Mathlib.Data.Int.Basic
import Mathlib.Data.List.Forall2
import Mathlib.Tactic.Common

/-!
# C integers

A C `int` is kept as a mathematical integer. What an arithmetic expression gives when its exact
result leaves the 32-bit range is undefined in C, so it is a parameter: an `IntSem` maps exact
results to values and is only known to be right inside the range. A result that is the same
under every `IntSem` is one no overflow can reach.
-/

namespace CLib

/-- `x` is a value of a 32-bit `int`. -/
def FitsInt (x : Int) : Prop := -2147483648 ≤ x ∧ x ≤ 2147483647

/-- `x` is a value of a 64-bit `long long`. -/
def FitsLong (x : Int) : Prop := -9223372036854775808 ≤ x ∧ x ≤ 9223372036854775807

instance (x : Int) : Decidable (FitsInt x) := by unfold FitsInt; infer_instance

instance (x : Int) : Decidable (FitsLong x) := by unfold FitsLong; infer_instance

/-- The value a signed `int` expression takes from its exact result. -/
structure IntSem where
  norm : Int → Int
  norm_of_fits : ∀ x, FitsInt x → norm x = x

namespace IntSem

/-- Integers without bounds. -/
def exact : IntSem where
  norm x := x
  norm_of_fits _ _ := rfl

@[simp] theorem exact_norm (x : Int) : exact.norm x = x := rfl

/-- Two's complement, as the compiled program behaves. -/
def wrap : IntSem where
  norm x := x.bmod 4294967296
  norm_of_fits x hx := by
    obtain ⟨h1, h2⟩ := hx
    apply Int.bmod_eq_of_le <;> omega

theorem wrap_norm_fits (x : Int) : FitsInt (wrap.norm x) := by
  have h1 := Int.le_bmod (x := x) (m := 4294967296) (by omega)
  have h2 := Int.bmod_lt (x := x) (m := 4294967296) (by omega)
  show -2147483648 ≤ x.bmod 4294967296 ∧ x.bmod 4294967296 ≤ 2147483647
  omega

/-- A reading of overflow that is wrong by one: it tells every overflow from its exact result. -/
def offByOne : IntSem where
  norm x := if FitsInt x then x else x + 1
  norm_of_fits x hx := by simp [hx]

theorem le_offByOne_norm (x : Int) : x ≤ offByOne.norm x := by
  show x ≤ if FitsInt x then x else x + 1
  split <;> omega

theorem lt_offByOne_norm {x : Int} (hx : ¬ FitsInt x) : x < offByOne.norm x := by
  show x < if FitsInt x then x else x + 1
  rw [if_neg hx]
  omega

/-! ### Counting

A counter that starts in the range and is incremented fewer than `2 ^ 32` times never comes back
to an earlier value. -/

theorem wrap_norm_add_norm (x y : Int) : wrap.norm (wrap.norm x + y) = wrap.norm (x + y) := by
  show (x.bmod 4294967296 + y).bmod 4294967296 = (x + y).bmod 4294967296
  simp

theorem wrap_norm_add_inj {x : Int} {i j : Nat} (hi : i < 4294967296) (hj : j < 4294967296)
    (h : wrap.norm (x + i) = wrap.norm (x + j)) : i = j := by
  have hmod := congrArg (· % ((4294967296 : Nat) : Int)) h
  simp only [wrap, Int.bmod_emod] at hmod
  omega

theorem wrap_norm_eq_iff {x y : Int} :
    wrap.norm x = y ↔ FitsInt y ∧ (4294967296 : Int) ∣ y - x := by
  have hmod : (4294967296 : Int) ∣ wrap.norm x - x := Int.dvd_bmod_sub_self
  have hfits := wrap_norm_fits x
  constructor
  · rintro rfl
    exact ⟨hfits, hmod⟩
  · rintro ⟨⟨hlow, hhigh⟩, hdvd⟩
    obtain ⟨hlow', hhigh'⟩ := hfits
    omega

/-! ### Adding up

`accum` is the loop `acc = acc + x`. It gives the exact sum under every reading of overflow if and
only if no partial sum leaves the range: under `offByOne` an overflow adds one, and nothing later
takes it away again. -/

def accum (S : IntSem) (start : Int) (xs : List Int) : Int :=
  xs.foldl (fun acc x => S.norm (acc + x)) start

@[simp] theorem accum_nil (S : IntSem) (start : Int) : S.accum start [] = start := rfl

@[simp] theorem accum_cons (S : IntSem) (start x : Int) (xs : List Int) :
    S.accum start (x :: xs) = S.accum (S.norm (start + x)) xs := rfl

theorem accum_concat (S : IntSem) (start x : Int) (xs : List Int) :
    S.accum start (xs ++ [x]) = S.norm (S.accum start xs + x) := by
  rw [accum, List.foldl_append]
  rfl

@[simp] theorem accum_exact (start : Int) (xs : List Int) :
    exact.accum start xs = start + xs.sum := by
  induction xs generalizing start with
  | nil => simp
  | cons x xs ih =>
    rw [accum_cons, ih, exact_norm, List.sum_cons, Int.add_assoc]

/-- Only the last sum need be brought into the range. -/
theorem wrap_accum (start : Int) (xs : List Int) :
    wrap.accum (wrap.norm start) xs = wrap.norm (start + xs.sum) := by
  induction xs generalizing start with
  | nil => simp
  | cons x xs ih => rw [accum_cons, wrap_norm_add_norm, ih, List.sum_cons, Int.add_assoc]

/-- No partial sum leaves the range. -/
def SumsFit (start : Int) : List Int → Prop
  | [] => True
  | x :: xs => FitsInt (start + x) ∧ SumsFit (start + x) xs

instance decidableSumsFit (start : Int) : (xs : List Int) → Decidable (SumsFit start xs)
  | [] => inferInstanceAs (Decidable True)
  | x :: xs =>
    haveI := decidableSumsFit (start + x) xs
    inferInstanceAs (Decidable (FitsInt (start + x) ∧ SumsFit (start + x) xs))

theorem accum_of_sumsFit (S : IntSem) {start : Int} {xs : List Int} (h : SumsFit start xs) :
    S.accum start xs = start + xs.sum := by
  induction xs generalizing start with
  | nil => simp
  | cons x xs ih =>
    obtain ⟨hx, hxs⟩ := h
    rw [accum_cons, S.norm_of_fits _ hx, ih hxs, List.sum_cons, Int.add_assoc]

theorem SumsFit.sum_fits {start : Int} {xs : List Int} (hstart : FitsInt start)
    (h : SumsFit start xs) : FitsInt (start + xs.sum) := by
  induction xs generalizing start with
  | nil => simpa using hstart
  | cons x xs ih =>
    obtain ⟨hx, hxs⟩ := h
    rw [List.sum_cons, ← Int.add_assoc]
    exact ih hx hxs

/-- Summands that are at least the exact ones, from a start that is at least the exact one. -/
theorem le_accum_offByOne {s t : Int} {xs ys : List Int} (hst : s ≤ t)
    (h : List.Forall₂ (· ≤ ·) xs ys) : s + xs.sum ≤ offByOne.accum t ys := by
  induction h generalizing s t with
  | nil => simpa using hst
  | @cons x y xs ys hxy _ ih =>
    have hnorm := le_offByOne_norm (t + y)
    have hnext : s + x ≤ offByOne.norm (t + y) := by omega
    have hrest := ih hnext
    rw [List.sum_cons, accum_cons]
    omega

theorem lt_accum_offByOne {s t : Int} {xs ys : List Int} (hst : s < t)
    (h : List.Forall₂ (· ≤ ·) xs ys) : s + xs.sum < offByOne.accum t ys := by
  have := le_accum_offByOne (Int.add_one_le_of_lt hst) h
  omega

/-- An overflow on the way, or one summand above the exact one, shows in the result. -/
theorem forall₂_eq_of_accum_offByOne {start : Int} {xs ys : List Int}
    (h : List.Forall₂ (· ≤ ·) xs ys) (heq : offByOne.accum start ys = start + xs.sum) :
    xs = ys ∧ SumsFit start xs := by
  induction h generalizing start with
  | nil => exact ⟨rfl, trivial⟩
  | @cons x y xs ys hxy hrest ih =>
    rw [accum_cons, List.sum_cons, ← Int.add_assoc] at heq
    have hnorm := le_offByOne_norm (start + y)
    -- a strict step would carry over to the end
    have hexact : offByOne.norm (start + y) = start + x := by
      by_contra hne
      have hlt : start + x < offByOne.norm (start + y) := by omega
      have := lt_accum_offByOne hlt hrest
      omega
    have hfits : FitsInt (start + y) := by
      by_contra hno
      have := lt_offByOne_norm hno
      omega
    have hxy' : x = y := by
      rw [offByOne.norm_of_fits _ hfits] at hexact
      omega
    subst hxy'
    rw [hexact] at heq
    obtain ⟨hxs, hsums⟩ := ih heq
    exact ⟨by rw [hxs], hfits, hsums⟩

/-- Among summands that are not negative only the whole sum matters. -/
theorem sumsFit_of_sum_fits {start : Int} {xs : List Int} (hstart : 0 ≤ start)
    (hpos : ∀ x ∈ xs, 0 ≤ x) (hsum : FitsInt (start + xs.sum)) : SumsFit start xs := by
  induction xs generalizing start with
  | nil => trivial
  | cons x xs ih =>
    have hx := hpos x (by simp)
    have hxs : ∀ y ∈ xs, 0 ≤ y := fun y hy => hpos y (by simp [hy])
    have hrest : 0 ≤ xs.sum := List.sum_nonneg hxs
    rw [List.sum_cons, ← Int.add_assoc] at hsum
    refine ⟨?_, ih (by omega) hxs hsum⟩
    obtain ⟨h1, h2⟩ := hsum
    constructor <;> omega

end IntSem

end CLib
