import Mathlib.Tactic.Ring
import TableOrder.Client.MenuView
import TableOrder.Lib.Rows
import TableOrder.Menu

/-!
# Positions in the menu grid

The three counting loops of the grid agree: position `v` shows the item at `(positions …)[v]`, and the
two translations are inverse to each other (`menuGrid`). The search of the arrow keys runs from
position to position until one is outside the grid (`SearchRun`).
-/

namespace TableOrder

open CLib
open Rows (positions)

/-! ## The loops and the positions -/

theorem uiMenuVisibleCount_eq (cat : MenuCatalog) (currentCategory : Nat) :
    uiMenuVisibleCount cat currentCategory =
      (positions (uiMenuMatchCategory currentCategory) cat.items).length := by
  unfold uiMenuVisibleCount
  induction cat.items with
  | nil => rfl
  | cons m ms ih =>
    rw [Rows.positions_cons, List.length_append, List.length_map, List.countP_cons, ih]
    cases uiMenuMatchCategory currentCategory m <;> simp
    omega

theorem indexAtVisible_eq_some {currentCategory : Nat} {visibleIndex : Int} {i shown k : Nat}
    {ms : List MenuItem} :
    indexAtVisible currentCategory visibleIndex i shown ms = some k ↔
      ∃ n j : Nat, visibleIndex = shown + n ∧ k = i + j ∧
        (positions (uiMenuMatchCategory currentCategory) ms)[n]? = some j := by
  induction ms generalizing i shown with
  | nil => simp [indexAtVisible, positions]
  | cons m ms ih =>
    rw [indexAtVisible]
    cases hm : uiMenuMatchCategory currentCategory m with
    | false =>
      simp only [Bool.not_false, if_true, ih, Rows.getElem?_positions_cons_of_not hm]
      constructor
      · rintro ⟨n, j, hn, hk, hj⟩
        exact ⟨n, j + 1, hn, by omega, j, rfl, hj⟩
      · rintro ⟨n, _, hn, hk, j, rfl, hj⟩
        exact ⟨n, j, hn, by omega, hj⟩
    | true =>
      simp only [Bool.not_true, Bool.false_eq_true, if_false, Rows.getElem?_positions_cons_of hm]
      split
      · next heq =>
        constructor
        · rintro ⟨⟩
          exact ⟨0, 0, by omega, rfl, .inl ⟨rfl, rfl⟩⟩
        · rintro ⟨n, j, hn, rfl, ⟨rfl, rfl⟩ | ⟨m, j, rfl, rfl, -⟩⟩
          · rfl
          · omega
      · next hne =>
        rw [ih]
        constructor
        · rintro ⟨n, j, hn, hk, hj⟩
          exact ⟨n + 1, j + 1, by omega, by omega, .inr ⟨n, j, rfl, rfl, hj⟩⟩
        · rintro ⟨n, j, hn, hk, ⟨rfl, rfl⟩ | ⟨n, j, rfl, rfl, hj⟩⟩
          · omega
          · exact ⟨n, j, by omega, by omega, hj⟩

theorem visiblePosOfIndex_eq_some {currentCategory : Nat} {realIndex : Int} {i shown k : Nat}
    {ms : List MenuItem} :
    visiblePosOfIndex currentCategory realIndex i shown ms = some k ↔
      ∃ n j : Nat, realIndex = i + j ∧ k = shown + n ∧
        (positions (uiMenuMatchCategory currentCategory) ms)[n]? = some j := by
  induction ms generalizing i shown with
  | nil => simp [visiblePosOfIndex, positions]
  | cons m ms ih =>
    rw [visiblePosOfIndex]
    cases hm : uiMenuMatchCategory currentCategory m with
    | false =>
      simp only [Bool.not_false, if_true, ih, Rows.getElem?_positions_cons_of_not hm]
      constructor
      · rintro ⟨n, j, hj, hk, hn⟩
        exact ⟨n, j + 1, by omega, hk, j, rfl, hn⟩
      · rintro ⟨n, _, hj, hk, j, rfl, hn⟩
        exact ⟨n, j, by omega, hk, hn⟩
    | true =>
      simp only [Bool.not_true, Bool.false_eq_true, if_false, Rows.getElem?_positions_cons_of hm]
      split
      · next heq =>
        constructor
        · rintro ⟨⟩
          exact ⟨0, 0, by omega, rfl, .inl ⟨rfl, rfl⟩⟩
        · rintro ⟨n, j, hj, rfl, ⟨rfl, rfl⟩ | ⟨m, j, rfl, rfl, -⟩⟩
          · rfl
          · omega
      · next hne =>
        rw [ih]
        constructor
        · rintro ⟨n, j, hj, hk, hn⟩
          exact ⟨n + 1, j + 1, by omega, by omega, .inr ⟨n, j, rfl, rfl, hn⟩⟩
        · rintro ⟨n, j, hj, hk, ⟨rfl, rfl⟩ | ⟨n, j, rfl, rfl, hn⟩⟩
          · omega
          · exact ⟨n, j, by omega, by omega, hn⟩

theorem uiMenuIndexAtVisible_eq_some {cat : MenuCatalog} {currentCategory i : Nat}
    {visibleIndex : Int} : uiMenuIndexAtVisible cat currentCategory visibleIndex = some i ↔
      ∃ n : Nat, visibleIndex = n ∧
        (positions (uiMenuMatchCategory currentCategory) cat.items)[n]? = some i := by
  rw [uiMenuIndexAtVisible, indexAtVisible_eq_some]
  constructor
  · rintro ⟨n, j, hn, hi, hj⟩
    obtain rfl : i = j := by omega
    exact ⟨n, by omega, hj⟩
  · rintro ⟨n, hn, hi⟩
    exact ⟨n, i, by omega, by omega, hi⟩

theorem uiMenuVisiblePosOfIndex_eq_some {cat : MenuCatalog} {currentCategory v : Nat}
    {realIndex : Int} : uiMenuVisiblePosOfIndex cat currentCategory realIndex = some v ↔
      ∃ i : Nat, realIndex = i ∧
        (positions (uiMenuMatchCategory currentCategory) cat.items)[v]? = some i := by
  unfold uiMenuVisiblePosOfIndex
  split
  · next hout =>
    refine iff_of_false (by simp) ?_
    rintro ⟨i, rfl, hi⟩
    obtain ⟨m, hm, -⟩ := Rows.mem_positions.mp (List.mem_of_getElem? hi)
    have hlt := (List.getElem?_eq_some_iff.mp hm).1
    omega
  · rw [visiblePosOfIndex_eq_some]
    constructor
    · rintro ⟨n, j, hj, hv, hn⟩
      obtain rfl : v = n := by omega
      exact ⟨j, by omega, hn⟩
    · rintro ⟨i, hi, hv⟩
      exact ⟨v, i, by omega, by omega, hv⟩

/-! ## The two translations -/

/-- The positions of the grid and the items of the category, one for one and in the same order. -/
structure GridTranslates (cat : MenuCatalog) (currentCategory : Nat) : Prop where
  inverse : ∀ v i : Nat, uiMenuIndexAtVisible cat currentCategory v = some i ↔
    uiMenuVisiblePosOfIndex cat currentCategory i = some v
  position : ∀ v : Int, (uiMenuIndexAtVisible cat currentCategory v).isSome ↔
    0 ≤ v ∧ v < uiMenuVisibleCount cat currentCategory
  index : ∀ i : Int, (uiMenuVisiblePosOfIndex cat currentCategory i).isSome ↔
    0 ≤ i ∧ ∃ m, cat.items[i.toNat]? = some m ∧ uiMenuMatchCategory currentCategory m = true
  indexAscends : ∀ v v' i i', uiMenuIndexAtVisible cat currentCategory v = some i →
    uiMenuIndexAtVisible cat currentCategory v' = some i' → (v < v' ↔ i < i')
  positionAscends : ∀ i i' v v', uiMenuVisiblePosOfIndex cat currentCategory i = some v →
    uiMenuVisiblePosOfIndex cat currentCategory i' = some v' → (i < i' ↔ v < v')

theorem gridTranslates (cat : MenuCatalog) (currentCategory : Nat) :
    GridTranslates cat currentCategory where
  inverse v i := by
    rw [uiMenuIndexAtVisible_eq_some, uiMenuVisiblePosOfIndex_eq_some]
    constructor
    · rintro ⟨n, hn, hi⟩
      obtain rfl : v = n := by omega
      exact ⟨i, rfl, hi⟩
    · rintro ⟨j, hj, hi⟩
      obtain rfl : i = j := by omega
      exact ⟨v, rfl, hi⟩
  position v := by
    rw [uiMenuVisibleCount_eq, Option.isSome_iff_exists]
    simp only [uiMenuIndexAtVisible_eq_some]
    constructor
    · rintro ⟨i, n, rfl, hi⟩
      have hlt := (List.getElem?_eq_some_iff.mp hi).1
      omega
    · rintro ⟨hpos, hlt⟩
      exact ⟨_, v.toNat, by omega, List.getElem?_eq_getElem (by omega)⟩
  index i := by
    rw [Option.isSome_iff_exists]
    simp only [uiMenuVisiblePosOfIndex_eq_some]
    constructor
    · rintro ⟨v, j, rfl, hv⟩
      exact ⟨by omega, Rows.mem_positions.mp (List.mem_of_getElem? hv)⟩
    · rintro ⟨hpos, hitem⟩
      obtain ⟨v, hv⟩ := List.getElem?_of_mem (Rows.mem_positions.mpr hitem)
      exact ⟨v, i.toNat, by omega, hv⟩
  indexAscends := by
    intro v v' i i' h h'
    obtain ⟨n, rfl, hi⟩ := uiMenuIndexAtVisible_eq_some.mp h
    obtain ⟨n', rfl, hi'⟩ := uiMenuIndexAtVisible_eq_some.mp h'
    rw [← Rows.positions_lt_iff hi hi']
    omega
  positionAscends := by
    intro i i' v v' h h'
    obtain ⟨j, rfl, hv⟩ := uiMenuVisiblePosOfIndex_eq_some.mp h
    obtain ⟨j', rfl, hv'⟩ := uiMenuVisiblePosOfIndex_eq_some.mp h'
    rw [Rows.positions_lt_iff hv hv']
    omega

/-! ## The search -/

section Search

variable (cat : MenuCatalog) (currentCategory : Nat)

/-- A position of the grid. -/
def InGrid (v : Int) : Prop := 0 ≤ v ∧ v < uiMenuVisibleCount cat currentCategory

instance (v : Int) : Decidable (InGrid cat currentCategory v) := by
  unfold InGrid
  infer_instance

/-- The item at a position is on sale. -/
def OnSaleAt (v : Int) (i : Nat) : Prop :=
  uiMenuIndexAtVisible cat currentCategory v = some i ∧ uiMenuIsSelectable cat i = true

/-- The runs of the search loop: it stops outside the grid, or at an item on sale. -/
inductive SearchRun (step : Int) : Int → Option Nat → Prop
  | outside {v : Int} : ¬ InGrid cat currentCategory v → SearchRun step v none
  | found {v : Int} {i : Nat} : InGrid cat currentCategory v → OnSaleAt cat currentCategory v i →
      SearchRun step v (some i)
  | next {v : Int} {r : Option Nat} : InGrid cat currentCategory v →
      (∀ i, ¬ OnSaleAt cat currentCategory v i) → SearchRun step (v + step) r → SearchRun step v r

/-- The first item on sale among `start`, `start + step`, … up to the first of these outside the
grid. -/
structure FindsFirst (start step : Int) (r : Option Nat) : Prop where
  ends : SearchRun cat currentCategory step start r
  found : ∀ i, r = some i ↔ ∃ n : Nat,
    (∀ k : Nat, k ≤ n → InGrid cat currentCategory (start + k * step)) ∧
    OnSaleAt cat currentCategory (start + n * step) i ∧
    ∀ k : Nat, k < n → ∀ j, ¬ OnSaleAt cat currentCategory (start + k * step) j
  exhausted : r = none ↔ ∀ n : Nat,
    (∀ k : Nat, k ≤ n → InGrid cat currentCategory (start + k * step)) →
    ∀ j, ¬ OnSaleAt cat currentCategory (start + n * step) j

variable {cat currentCategory}

/-- The search has turns enough: each one inside the grid takes it nearer to its end. -/
theorem selectableVisibleFrom_run {step : Int} (hstep : step ≠ 0) {turns : Nat} {v : Int}
    (hturns : 0 < turns) (henough : InGrid cat currentCategory v →
      (if 0 < step then uiMenuVisibleCount cat currentCategory - v else v + 1) < turns) :
    SearchRun cat currentCategory step v
      (selectableVisibleFrom cat currentCategory step turns v) := by
  induction turns generalizing v with
  | zero => omega
  | succ turns ih =>
    rw [selectableVisibleFrom]
    split
    · next hin =>
      have henough := henough hin
      have hlater : SearchRun cat currentCategory step (v + step)
          (selectableVisibleFrom cat currentCategory step turns (v + step)) := by
        refine ih ?_ fun hnext => ?_
        · split at henough <;> omega
        · split at henough <;> omega
      cases hv : uiMenuIndexAtVisible cat currentCategory v with
      | none =>
        refine .next hin (fun i hi => ?_) hlater
        rw [hi.1] at hv
        cases hv
      | some i =>
        simp only
        split
        · next hsale => exact .found hin ⟨hv, hsale⟩
        · next hsold =>
          refine .next hin (fun j hj => ?_) hlater
          rw [hj.1] at hv
          cases hv
          exact hsold hj.2
    · next hout => exact .outside hout

/-- What holds at the first `n + 1` positions of the search holds at the first and at `n` from the
second on. -/
theorem forall_steps_succ {P : Int → Prop} {v step : Int} {n : Nat} :
    (∀ k : Nat, k < n + 1 → P (v + k * step)) ↔
      P v ∧ ∀ k : Nat, k < n → P (v + step + k * step) := by
  have hshift (k : Nat) : v + step + k * step = v + (k + 1 : Nat) * step := by
    push_cast
    ring
  constructor
  · intro h
    refine ⟨by simpa using h 0 (Nat.succ_pos n), fun k hk => ?_⟩
    rw [hshift]
    exact h (k + 1) (Nat.succ_lt_succ hk)
  · rintro ⟨hv, hlater⟩ k hk
    cases k with
    | zero => simpa using hv
    | succ k =>
      rw [← hshift]
      exact hlater k (Nat.lt_of_succ_lt_succ hk)

theorem findsFirst_outside {step v : Int} (hout : ¬ InGrid cat currentCategory v) :
    FindsFirst cat currentCategory v step none := by
  have hnot {n : Nat} (hin : ∀ k : Nat, k ≤ n → InGrid cat currentCategory (v + k * step)) : False :=
    hout (by simpa using hin 0 (Nat.zero_le n))
  refine ⟨.outside hout, fun i => iff_of_false (by simp) ?_, iff_of_true rfl ?_⟩
  · rintro ⟨n, hin, -⟩
    exact hnot hin
  · intro n hin
    exact absurd hin hnot

theorem findsFirst_found {step v : Int} {i : Nat} (hin : InGrid cat currentCategory v)
    (hsale : OnSaleAt cat currentCategory v i) :
    FindsFirst cat currentCategory v step (some i) := by
  have hfirst : OnSaleAt cat currentCategory (v + (0 : Nat) * step) i := by simpa using hsale
  have hgrid : ∀ k : Nat, k ≤ 0 → InGrid cat currentCategory (v + k * step) := by
    intro k hk
    obtain rfl : k = 0 := by omega
    simpa using hin
  refine ⟨.found hin hsale, fun j => ?_, iff_of_false (by simp) fun h => h 0 hgrid i hfirst⟩
  constructor
  · rintro ⟨⟩
    exact ⟨0, hgrid, hfirst, by simp⟩
  · rintro ⟨n, -, hj, hbefore⟩
    cases n with
    | zero =>
      have hsame := hj.1.symm.trans hfirst.1
      rw [Option.some.inj hsame]
    | succ n => exact absurd hfirst (hbefore 0 (Nat.succ_pos n) i)

/-- What the rest of the run finds from the next position on. -/
theorem findsFirst_next {step v : Int} {r : Option Nat} (hin : InGrid cat currentCategory v)
    (hnot : ∀ i, ¬ OnSaleAt cat currentCategory v i)
    (h : FindsFirst cat currentCategory (v + step) step r) :
    FindsFirst cat currentCategory v step r := by
  have hnotFirst (j : Nat) : ¬ OnSaleAt cat currentCategory (v + (0 : Nat) * step) j := by
    simpa using hnot j
  have hshift (n : Nat) : v + (n + 1 : Nat) * step = v + step + n * step := by
    push_cast
    ring
  have hgrid (n : Nat) : (∀ k : Nat, k ≤ n + 1 → InGrid cat currentCategory (v + k * step)) ↔
      ∀ k : Nat, k ≤ n → InGrid cat currentCategory (v + step + k * step) := by
    simp only [← Nat.lt_succ_iff]
    rw [Nat.succ_eq_add_one, forall_steps_succ]
    exact and_iff_right hin
  refine ⟨.next hin hnot h.ends, fun i => ?_, ?_⟩
  · rw [h.found i]
    constructor
    · rintro ⟨n, hin', hsale, hbefore⟩
      refine ⟨n + 1, (hgrid n).mpr hin', by rw [hshift]; exact hsale, ?_⟩
      exact (forall_steps_succ (P := fun v => ∀ j, ¬ OnSaleAt cat currentCategory v j)).mpr
        ⟨hnot, hbefore⟩
    · rintro ⟨n, hin', hsale, hbefore⟩
      cases n with
      | zero => exact absurd hsale (hnotFirst i)
      | succ n =>
        refine ⟨n, (hgrid n).mp hin', by rw [← hshift]; exact hsale, ?_⟩
        exact ((forall_steps_succ (P := fun v => ∀ j, ¬ OnSaleAt cat currentCategory v j)).mp
          hbefore).2
  · rw [h.exhausted]
    constructor
    · intro h n hin'
      cases n with
      | zero => exact hnotFirst
      | succ n =>
        rw [hshift]
        exact h n ((hgrid n).mp hin')
    · intro h n hin'
      rw [← hshift]
      exact h (n + 1) ((hgrid n).mpr hin')

/-- What a run of the loop returns. -/
theorem SearchRun.findsFirst {step v : Int} {r : Option Nat}
    (h : SearchRun cat currentCategory step v r) : FindsFirst cat currentCategory v step r := by
  induction h with
  | outside hout => exact findsFirst_outside hout
  | found hin hsale => exact findsFirst_found hin hsale
  | next hin hnot _ ih => exact findsFirst_next hin hnot ih

theorem uiFindSelectableVisibleFrom_finds {step : Int} (hstep : step ≠ 0) (start : Int) :
    FindsFirst cat currentCategory start step
      (uiFindSelectableVisibleFrom cat currentCategory start step) := by
  apply SearchRun.findsFirst
  unfold uiFindSelectableVisibleFrom
  split
  · next hnone =>
    refine .outside fun hin => ?_
    have hcount := hnone.resolve_right hstep
    unfold InGrid at hin
    omega
  · refine selectableVisibleFrom_run hstep (Nat.succ_pos _) fun hin => ?_
    unfold InGrid at hin
    split <;> omega

end Search

/-- The two translations are inverse to each other, and the search finds the first item on sale in its
direction, up to the edge of the grid. -/
theorem menuGrid (cat : MenuCatalog) (currentCategory : Nat) {step : Int} (hstep : step ≠ 0)
    (start : Int) : GridTranslates cat currentCategory ∧
      FindsFirst cat currentCategory start step
        (uiFindSelectableVisibleFrom cat currentCategory start step) :=
  ⟨gridTranslates cat currentCategory, uiFindSelectableVisibleFrom_finds hstep start⟩

/-- The drinks of the default menu, from the second one on. -/
theorem menuGrid_drinks :
    GridTranslates (menuLoadFile none).1 SIDEBAR_DRINK ∧
      FindsFirst (menuLoadFile none).1 SIDEBAR_DRINK 1 1
        (uiFindSelectableVisibleFrom (menuLoadFile none).1 SIDEBAR_DRINK 1 1) :=
  menuGrid (menuLoadFile none).1 SIDEBAR_DRINK (by decide) 1

/-- The first item on sale among all of `start`, `start + step`, … that are in the grid. -/
structure FindsInside (cat : MenuCatalog) (currentCategory : Nat) (start step : Int)
    (r : Option Nat) : Prop where
  found : ∀ i, r = some i ↔ ∃ n : Nat, InGrid cat currentCategory (start + n * step) ∧
    OnSaleAt cat currentCategory (start + n * step) i ∧
    ∀ k : Nat, k < n → ∀ j, ¬ OnSaleAt cat currentCategory (start + k * step) j
  exhausted : r = none ↔ ∀ n : Nat, InGrid cat currentCategory (start + n * step) →
    ∀ j, ¬ OnSaleAt cat currentCategory (start + n * step) j

/-- A search from before the grid does not come into it. -/
theorem menuGrid_fails : ¬ ∀ (cat : MenuCatalog) (currentCategory : Nat) (start step : Int),
    step ≠ 0 → GridTranslates cat currentCategory ∧ FindsInside cat currentCategory start step
      (uiFindSelectableVisibleFrom cat currentCategory start step) := by
  intro hall
  obtain ⟨-, -, hnone⟩ := hall (menuLoadFile none).1 SIDEBAR_ALL (-1) 1 (by decide)
  have hstops : uiFindSelectableVisibleFrom (menuLoadFile none).1 SIDEBAR_ALL (-1) 1 = none := by
    decide +kernel
  exact hnone.mp hstops 1 (by decide +kernel) 0 ⟨by decide +kernel, by decide +kernel⟩

end TableOrder
