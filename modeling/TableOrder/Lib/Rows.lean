import Mathlib.Data.List.Induction
import Mathlib.Data.List.Nodup
import Mathlib.Data.List.Range

/-!
# Rows of a filtered list

A screen shows the items of a table that satisfy a predicate, one a row; `positions p l` lists
their indices, so that row `n` is the item at index `(positions p l)[n]`. When the table changes,
row `n` may come to stand for another item. `row_same_iff` says when it does not: no item shown up
to that row has stopped satisfying the predicate.
-/

namespace Rows

variable {α : Type}

/-- The indices of the items that satisfy `p`. -/
def positions (p : α → Bool) (l : List α) : List Nat :=
  (List.range l.length).filter fun i => l[i]?.any p

theorem mem_positions {p : α → Bool} {l : List α} {i : Nat} :
    i ∈ positions p l ↔ ∃ a, l[i]? = some a ∧ p a = true := by
  rw [positions, List.mem_filter, List.mem_range]
  constructor
  · rintro ⟨hlt, hp⟩
    rw [List.getElem?_eq_getElem hlt] at hp
    exact ⟨l[i], List.getElem?_eq_getElem hlt, hp⟩
  · rintro ⟨a, ha, hp⟩
    exact ⟨(List.getElem?_eq_some_iff.mp ha).1, by rw [ha]; exact hp⟩

theorem nodup_positions (p : α → Bool) (l : List α) : (positions p l).Nodup :=
  List.nodup_range.filter _

theorem length_positions_le (p : α → Bool) (l : List α) : (positions p l).length ≤ l.length := by
  have := List.length_filter_le (fun i => l[i]?.any p) (List.range l.length)
  rwa [List.length_range] at this

theorem positions_concat (p : α → Bool) (l : List α) (a : α) :
    positions p (l ++ [a]) = positions p l ++ if p a then [l.length] else [] := by
  rw [positions, List.length_append, List.length_singleton, List.range_succ, List.filter_append]
  congr 1
  · apply List.filter_congr
    intro i hi
    rw [List.getElem?_append_left (List.mem_range.mp hi)]
  · cases hp : p a <;> simp [hp]

theorem positions_cons (p : α → Bool) (a : α) (l : List α) :
    positions p (a :: l) = (if p a then [0] else []) ++ (positions p l).map Nat.succ := by
  rw [positions, List.length_cons, List.range_succ_eq_map, List.filter_cons, List.filter_map]
  have htail : (fun i => (a :: l)[i]?.any p) ∘ Nat.succ = fun i => l[i]?.any p := rfl
  rw [htail]
  cases hp : p a <;> simp [hp, positions]

theorem getElem?_positions_zero {p : α → Bool} {l : List α} {a : α} (hl : l[0]? = some a)
    (ha : p a = true) : (positions p l)[0]? = some 0 := by
  cases l with
  | nil => cases hl
  | cons b l =>
    cases hl
    rw [positions_cons, if_pos ha]
    rfl

theorem getElem?_positions_cons_of_not {p : α → Bool} {a : α} (ha : p a = false) {l : List α}
    {n i : Nat} : (positions p (a :: l))[n]? = some i ↔
      ∃ j, i = j + 1 ∧ (positions p l)[n]? = some j := by
  rw [positions_cons, ha, if_neg Bool.false_ne_true, List.nil_append, List.getElem?_map,
    Option.map_eq_some_iff]
  constructor
  · rintro ⟨j, hj, rfl⟩
    exact ⟨j, rfl, hj⟩
  · rintro ⟨j, rfl, hj⟩
    exact ⟨j, hj, rfl⟩

/-- The first item is the first row, and every other one is a row further down. -/
theorem getElem?_positions_cons_of {p : α → Bool} {a : α} (ha : p a = true) {l : List α}
    {n i : Nat} : (positions p (a :: l))[n]? = some i ↔
      n = 0 ∧ i = 0 ∨ ∃ m j, n = m + 1 ∧ i = j + 1 ∧ (positions p l)[m]? = some j := by
  rw [positions_cons, ha, if_pos rfl, List.singleton_append]
  cases n with
  | zero => simp [eq_comm]
  | succ n =>
    rw [List.getElem?_cons_succ, List.getElem?_map, Option.map_eq_some_iff]
    constructor
    · rintro ⟨j, hj, rfl⟩
      exact .inr ⟨n, j, rfl, rfl, hj⟩
    · rintro (⟨hn, -⟩ | ⟨m, j, hn, rfl, hj⟩)
      · omega
      · cases hn
        exact ⟨j, hj, rfl⟩

/-- Later rows show later items. -/
theorem positions_lt_iff {p : α → Bool} {l : List α} {n m i j : Nat}
    (hi : (positions p l)[n]? = some i) (hj : (positions p l)[m]? = some j) : n < m ↔ i < j := by
  have hsorted : (positions p l).Pairwise (· < ·) := List.pairwise_lt_range.filter _
  have hlt {n m i j : Nat} (hi : (positions p l)[n]? = some i) (hj : (positions p l)[m]? = some j)
      (h : n < m) : i < j := by
    obtain ⟨hn, rfl⟩ := List.getElem?_eq_some_iff.mp hi
    obtain ⟨hm, rfl⟩ := List.getElem?_eq_some_iff.mp hj
    exact List.pairwise_iff_getElem.mp hsorted n m hn hm h
  refine ⟨hlt hi hj, fun h => ?_⟩
  rcases Nat.lt_trichotomy n m with hnm | rfl | hmn
  · exact hnm
  · rw [hi] at hj
    cases hj
    omega
  · have := hlt hj hi hmn
    omega

/-- Row `n` shows the item at the `n`-th position. -/
theorem getElem?_filter (p : α → Bool) (l : List α) (n : Nat) :
    (l.filter p)[n]? = (positions p l)[n]?.bind fun i => l[i]? := by
  induction l using List.reverseRecOn generalizing n with
  | nil => simp [positions]
  | append_singleton l a ih =>
    have hlen : (l.filter p).length = (positions p l).length := by
      apply Nat.le_antisymm
      · by_contra hlt
        have hn := ih (positions p l).length
        rw [List.getElem?_eq_none_iff.mpr (Nat.le_refl _), Option.bind_none,
          List.getElem?_eq_none_iff] at hn
        omega
      · by_contra hlt
        have hn := ih (l.filter p).length
        rw [List.getElem?_eq_none_iff.mpr (Nat.le_refl _)] at hn
        obtain ⟨i, hi⟩ : ∃ i, (positions p l)[(l.filter p).length]? = some i :=
          ⟨_, List.getElem?_eq_getElem (by omega)⟩
        obtain ⟨b, hb, -⟩ := mem_positions.mp (List.mem_of_getElem? hi)
        rw [hi, Option.bind_some, hb] at hn
        cases hn
    rw [List.filter_append, positions_concat]
    rcases Nat.lt_or_ge n (positions p l).length with hlt | hge
    · rw [List.getElem?_append_left (by omega), List.getElem?_append_left hlt, ih,
        List.getElem?_eq_getElem hlt, Option.bind_some, Option.bind_some]
      obtain ⟨b, hb, -⟩ := mem_positions.mp (List.getElem_mem hlt)
      rw [List.getElem?_append_left (List.getElem?_eq_some_iff.mp hb).1]
    · rw [List.getElem?_append_right (by omega), List.getElem?_append_right hge, hlen]
      cases hp : p a with
      | false => simp [hp]
      | true =>
        cases hk : n - (positions p l).length with
        | zero => simp [hp]
        | succ k => simp [hp]

/-! ## A filter on top of the rows -/

theorem getElem?_filter_of_forall {l : List α} {q : α → Bool} {n : Nat}
    (h : ∀ k ≤ n, ∀ x, l[k]? = some x → q x = true) (hn : n < l.length) :
    (l.filter q)[n]? = l[n]? := by
  induction l generalizing n with
  | nil => simp at hn
  | cons a l ih =>
    have ha : q a = true := h 0 (Nat.zero_le _) a rfl
    rw [List.filter_cons_of_pos ha]
    cases n with
    | zero => rfl
    | succ n =>
      rw [List.getElem?_cons_succ, List.getElem?_cons_succ]
      apply ih
      · intro k hk x hx
        exact h (k + 1) (by omega) x (by rw [List.getElem?_cons_succ]; exact hx)
      · rw [List.length_cons] at hn
        omega

/-- A filter never moves an item down. -/
theorem le_of_getElem?_filter {l : List α} {q : α → Bool} (hnd : l.Nodup) {m n : Nat} {x : α}
    (hf : (l.filter q)[m]? = some x) (hx : l[n]? = some x) : m ≤ n := by
  induction l generalizing m n with
  | nil => simp at hx
  | cons a l ih =>
    obtain ⟨hnot, hnd⟩ := List.nodup_cons.mp hnd
    by_cases ha : q a = true
    · rw [List.filter_cons_of_pos ha] at hf
      cases m with
      | zero => exact Nat.zero_le n
      | succ m =>
        rw [List.getElem?_cons_succ] at hf
        cases n with
        | zero =>
          -- `a` does not occur again
          cases hx
          exact absurd (List.mem_filter.mp (List.mem_of_getElem? hf)).1 hnot
        | succ n =>
          have := ih hnd hf (by rwa [List.getElem?_cons_succ] at hx)
          omega
    · rw [List.filter_cons_of_neg ha] at hf
      cases n with
      | zero =>
        cases hx
        exact absurd (List.mem_filter.mp (List.mem_of_getElem? hf)).1 hnot
      | succ n =>
        have := ih hnd hf (by rwa [List.getElem?_cons_succ] at hx)
        omega

/-- An item that keeps its row under a filter has lost nothing above it. -/
theorem forall_of_getElem?_filter {l : List α} {q : α → Bool} (hnd : l.Nodup) {n : Nat} {x : α}
    (hf : (l.filter q)[n]? = some x) (hx : l[n]? = some x) :
    ∀ k ≤ n, ∀ y, l[k]? = some y → q y = true := by
  induction l generalizing n with
  | nil => simp at hx
  | cons a l ih =>
    obtain ⟨hnot, hnd'⟩ := List.nodup_cons.mp hnd
    by_cases ha : q a = true
    · intro k hk y hy
      rw [List.filter_cons_of_pos ha] at hf
      cases k with
      | zero =>
        cases hy
        exact ha
      | succ k =>
        cases n with
        | zero => omega
        | succ n =>
          rw [List.getElem?_cons_succ] at hf hx hy
          exact ih hnd' hf hx k (by omega) y hy
    · exfalso
      rw [List.filter_cons_of_neg ha] at hf
      cases n with
      | zero =>
        cases hx
        exact hnot (List.mem_filter.mp (List.mem_of_getElem? hf)).1
      | succ n =>
        have := le_of_getElem?_filter hnd' hf (by rwa [List.getElem?_cons_succ] at hx)
        omega

/-! ## A table that changed -/

variable {p : α → Bool} {l l' : List α}

/-- The positions afterwards: those before that are still shown, then new ones. -/
theorem positions_of_grow (hlen : l.length ≤ l'.length)
    (hold : ∀ i, i < l.length → l'[i]?.any p = true → l[i]?.any p = true) :
    ∃ new, positions p l' = (positions p l).filter (fun i => l'[i]?.any p) ++ new ∧
      ∀ i ∈ new, l.length ≤ i := by
  obtain ⟨d, hd⟩ := Nat.exists_eq_add_of_le hlen
  refine ⟨((List.range d).map (l.length + ·)).filter fun i => l'[i]?.any p, ?_, ?_⟩
  · rw [positions, hd, List.range_add, List.filter_append, positions, List.filter_filter]
    congr 1
    apply List.filter_congr
    intro i hi
    cases h' : l'[i]?.any p with
    | false => rfl
    | true => rw [hold i (List.mem_range.mp hi) h', Bool.and_self]
  · intro i hi
    obtain ⟨k, -, rfl⟩ := List.mem_map.mp (List.mem_filter.mp hi).1
    exact Nat.le_add_right _ _

/-- Row `n`, which shows an item afterwards, shows the same one as before if and only if it
existed and nothing shown up to it is gone. -/
theorem row_same_iff (hlen : l.length ≤ l'.length)
    (hold : ∀ i, i < l.length → l'[i]?.any p = true → l[i]?.any p = true) {n i : Nat}
    (hrow : (positions p l')[n]? = some i) :
    (positions p l)[n]? = some i ↔ n < (positions p l).length ∧
      ∀ k ≤ n, ∀ j, (positions p l)[k]? = some j → l'[j]?.any p = true := by
  obtain ⟨new, hnew, hge⟩ := positions_of_grow hlen hold
  constructor
  · intro hi
    refine ⟨(List.getElem?_eq_some_iff.mp hi).1, ?_⟩
    rw [hnew] at hrow
    rcases Nat.lt_or_ge n ((positions p l).filter fun i => l'[i]?.any p).length with hlt | hle
    · rw [List.getElem?_append_left hlt] at hrow
      exact forall_of_getElem?_filter (nodup_positions p l) hrow hi
    · -- a new item is not an old one
      rw [List.getElem?_append_right hle] at hrow
      have hi' := hge i (List.mem_of_getElem? hrow)
      obtain ⟨a, ha, -⟩ := mem_positions.mp (List.mem_of_getElem? hi)
      have := (List.getElem?_eq_some_iff.mp ha).1
      omega
  · rintro ⟨hlt, hall⟩
    have hkeep := getElem?_filter_of_forall hall hlt
    have hlen' : n < ((positions p l).filter fun i => l'[i]?.any p).length := by
      by_contra hle
      rw [List.getElem?_eq_none_iff.mpr (by omega), List.getElem?_eq_getElem hlt] at hkeep
      cases hkeep
    rw [hnew, List.getElem?_append_left hlen', hkeep] at hrow
    exact hrow

end Rows
