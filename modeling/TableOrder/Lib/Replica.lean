import Mathlib.Data.List.Basic
import Mathlib.Data.List.Nodup
import Mathlib.Data.List.Perm.Subperm

/-!
# A replica that is merged by key

One side owns a table of records and publishes every record it adds or changes. The other side
starts from a snapshot and merges what it hears by key (`merge`): a known key is replaced in place,
a new one appended. A `View` says how a record looks on the other side and which records the
replica is meant to show.

`Mirrors` is the invariant: the replica shows exactly the records that it should, in the order of
the table, and every entry it holds, shown or not, is up to date. It holds after the snapshot
(`Mirrors.snapshot`) and after every published record (`Mirrors.push`, `Mirrors.update`). The replica
is never longer than the table (`Mirrors.room`), so it fits where the table does.
-/

namespace Replica

variable {α β κ : Type}

section Merge

variable [DecidableEq κ]

/-- Replace every entry under the key of `b` by `b`. -/
def put (key : β → κ) (b : β) (m : List β) : List β :=
  m.map fun x => if key x = key b then b else x

def merge (key : β → κ) (m : List β) (b : β) : List β :=
  if key b ∈ m.map key then put key b m else m ++ [b]

variable {key : β → κ}

@[simp] theorem map_key_put (b : β) (m : List β) : (put key b m).map key = m.map key := by
  rw [put, List.map_map]
  apply List.map_congr_left
  intro x _
  by_cases h : key x = key b
  · simp [h]
  · simp [h]

theorem put_put (b : β) (m : List β) : put key b (put key b m) = put key b m := by
  rw [put, put, List.map_map]
  apply List.map_congr_left
  intro x _
  by_cases h : key x = key b
  · simp [h]
  · simp [h]

theorem mem_put {b x : β} {m : List β} (h : x ∈ put key b m) :
    (x = b ∧ key b ∈ m.map key) ∨ (x ∈ m ∧ key x ≠ key b) := by
  obtain ⟨y, hy, rfl⟩ := List.mem_map.mp h
  by_cases hkey : key y = key b
  · rw [if_pos hkey]
    exact Or.inl ⟨rfl, hkey ▸ List.mem_map_of_mem hy⟩
  · rw [if_neg hkey]
    exact Or.inr ⟨hy, hkey⟩

theorem mem_put_self {b : β} {m : List β} (h : key b ∈ m.map key) : b ∈ put key b m := by
  obtain ⟨x, hx, hkey⟩ := List.mem_map.mp h
  exact List.mem_map.mpr ⟨x, hx, if_pos hkey⟩

theorem mem_put_of_ne {b x : β} {m : List β} (h : x ∈ m) (hne : key x ≠ key b) :
    x ∈ put key b m := List.mem_map.mpr ⟨x, h, if_neg hne⟩

theorem put_of_not_mem {b : β} {m : List β} (h : key b ∉ m.map key) : put key b m = m := by
  rw [put, List.map_congr_left (g := id), List.map_id]
  intro x hx
  rw [if_neg]
  · rfl
  · intro hkey
    exact h (hkey ▸ List.mem_map_of_mem hx)

/-- An entry that turns up after a replacement can be looked for among those there before. -/
theorem filter_put {p : β → Bool} {b : β} {m : List β}
    (hp : ∀ x ∈ m, key x = key b → p b = true → p x = true) :
    (put key b m).filter p = (put key b (m.filter p)).filter p := by
  rw [put, put, List.filter_map, List.filter_map, List.filter_filter]
  congr 1
  apply List.filter_congr
  intro x hx
  by_cases hkey : key x = key b
  · simp only [Function.comp, if_pos hkey]
    cases hb : p b with
    | false => rfl
    | true => simp [hp x hx hkey hb]
  · simp [hkey]

/-- With distinct keys, replacing by index is replacing by key. -/
theorem set_eq_put {m : List β} (hnd : (m.map key).Nodup) {i : Nat} {a b : β}
    (ha : m[i]? = some a) (hkey : key b = key a) : m.set i b = put key b m := by
  induction m generalizing i with
  | nil => cases ha
  | cons x m ih =>
    rw [List.map_cons, List.nodup_cons] at hnd
    cases i with
    | zero =>
      cases ha
      have hrest : put key b m = m := put_of_not_mem (by rw [hkey]; exact hnd.1)
      rw [List.set_cons_zero, put, List.map_cons, if_pos hkey.symm]
      rw [put] at hrest
      rw [hrest]
    | succ i =>
      have hne : key x ≠ key b := by
        intro h
        apply hnd.1
        rw [h, hkey]
        exact List.mem_map_of_mem (List.mem_of_getElem? ha)
      rw [List.set_cons_succ, ih hnd.2 ha, put, put, List.map_cons, if_neg hne]

/-- Hearing the same record again changes nothing. -/
theorem merge_merge (m : List β) (b : β) :
    merge key (merge key m b) b = merge key m b := by
  by_cases h : key b ∈ m.map key
  · rw [merge, merge, if_pos h, map_key_put, if_pos h, put_put]
  · have hm : merge key m b = m ++ [b] := if_neg h
    have hput : put key b m = m := put_of_not_mem h
    rw [hm, merge, if_pos (by simp), put, List.map_append, ← put, hput]
    simp

theorem mem_keys_merge (m : List β) (b : β) : key b ∈ (merge key m b).map key := by
  unfold merge
  split
  · next h => rwa [map_key_put]
  · simp

theorem nodup_merge {m : List β} (hnd : (m.map key).Nodup) (b : β) :
    ((merge key m b).map key).Nodup := by
  unfold merge
  split
  · rwa [map_key_put]
  · next h =>
    rw [List.map_append, List.map_singleton, ← List.concat_eq_append]
    exact hnd.concat h

/-- Records under new and distinct keys are appended. -/
theorem foldl_merge_of_nodup {m bs : List β} (hnd : ((m ++ bs).map key).Nodup) :
    bs.foldl (merge key) m = m ++ bs := by
  induction bs generalizing m with
  | nil => simp
  | cons b bs ih =>
    have hnew : key b ∉ m.map key := by
      rw [List.map_append, List.nodup_append] at hnd
      intro h
      exact hnd.2.2 _ h _ (by simp) rfl
    have hmerge : merge key m b = m ++ [b] := if_neg hnew
    rw [List.foldl_cons, hmerge, ih (by simpa using hnd)]
    simp

end Merge

/-! ## What the replica shows -/

structure View (α β κ : Type) where
  key : α → κ
  /-- The record as it is published. -/
  image : α → β
  keyOf : β → κ
  /-- The records to be shown, on either side. -/
  shows : α → Bool
  showsOf : β → Bool
  keyOf_image : ∀ a, keyOf (image a) = key a
  showsOf_image : ∀ a, showsOf (image a) = shows a

structure Mirrors (V : View α β κ) (m : List β) (l : List α) : Prop where
  nodup : (m.map V.keyOf).Nodup
  current : ∀ b ∈ m, ∃ a ∈ l, b = V.image a
  shown : m.filter V.showsOf = (l.filter V.shows).map V.image

namespace Mirrors

variable {V : View α β κ} {m : List β} {l : List α}

/-- Every key of the replica is one of the table. -/
theorem mem_keys (h : Mirrors V m l) {k : κ} (hk : k ∈ m.map V.keyOf) : k ∈ l.map V.key := by
  obtain ⟨b, hb, rfl⟩ := List.mem_map.mp hk
  obtain ⟨a, ha, rfl⟩ := h.current b hb
  rw [V.keyOf_image]
  exact List.mem_map_of_mem ha

theorem length_le (h : Mirrors V m l) : m.length ≤ l.length := by
  have hsub : (m.map V.keyOf).length ≤ (l.map V.key).length :=
    (List.subperm_of_subset h.nodup fun k hk => h.mem_keys hk).length_le
  simpa using hsub

/-- A record of the table that the replica does not hold leaves room for it. -/
theorem room (h : Mirrors V m l) {k : κ} (hl : k ∈ l.map V.key) (hm : k ∉ m.map V.keyOf) :
    m.length < l.length := by
  have hnd : (k :: m.map V.keyOf).Nodup := List.nodup_cons.mpr ⟨hm, h.nodup⟩
  have hsub : (k :: m.map V.keyOf) ⊆ l.map V.key := by
    intro j hj
    rcases List.mem_cons.mp hj with rfl | hj
    · exact hl
    · exact h.mem_keys hj
  have hlen := (List.subperm_of_subset hnd hsub).length_le
  rw [List.length_cons, List.length_map, List.length_map] at hlen
  exact hlen

/-- The entry under the key of a record is its image. -/
theorem eq_image (h : Mirrors V m l) (hnd : (l.map V.key).Nodup) {a : α} (ha : a ∈ l) {b : β}
    (hb : b ∈ m) (hkey : V.keyOf b = V.key a) : b = V.image a := by
  obtain ⟨a', ha', rfl⟩ := h.current b hb
  rw [V.keyOf_image] at hkey
  rw [List.inj_on_of_nodup_map hnd ha' ha hkey]

theorem filter_image (V : View α β κ) (l : List α) :
    (l.map V.image).filter V.showsOf = (l.filter V.shows).map V.image := by
  rw [List.filter_map]
  congr 1
  exact List.filter_congr fun a _ => V.showsOf_image a

variable [DecidableEq κ]

/-- The replica after the snapshot. -/
theorem snapshot (V : View α β κ) (hnd : (l.map V.key).Nodup) :
    Mirrors V (((l.filter V.shows).map V.image).foldl (merge V.keyOf) []) l := by
  have hkeys : (((l.filter V.shows).map V.image).map V.keyOf) = (l.filter V.shows).map V.key := by
    rw [List.map_map]
    exact List.map_congr_left fun a _ => V.keyOf_image a
  have hsnap : (((l.filter V.shows).map V.image).map V.keyOf).Nodup := by
    rw [hkeys]
    exact hnd.sublist ((List.filter_sublist).map V.key)
  rw [foldl_merge_of_nodup (by simpa using hsnap), List.nil_append]
  constructor
  · exact hsnap
  · intro b hb
    obtain ⟨a, ha, rfl⟩ := List.mem_map.mp hb
    exact ⟨a, (List.mem_filter.mp ha).1, rfl⟩
  · rw [List.filter_eq_self]
    intro b hb
    obtain ⟨a, ha, rfl⟩ := List.mem_map.mp hb
    rw [V.showsOf_image]
    exact (List.mem_filter.mp ha).2

/-- A record under a new key is published. -/
theorem push (h : Mirrors V m l) {a : α} (hnew : V.key a ∉ l.map V.key) :
    Mirrors V (merge V.keyOf m (V.image a)) (l ++ [a]) := by
  have hm : V.keyOf (V.image a) ∉ m.map V.keyOf := by
    rw [V.keyOf_image]
    exact fun hk => hnew (h.mem_keys hk)
  have hmerge : merge V.keyOf m (V.image a) = m ++ [V.image a] := if_neg hm
  refine ⟨nodup_merge h.nodup _, ?_, ?_⟩ <;> rw [hmerge]
  · intro b hb
    rw [List.mem_append, List.mem_singleton] at hb
    rcases hb with hb | rfl
    · obtain ⟨a', ha', rfl⟩ := h.current b hb
      exact ⟨a', List.mem_append_left _ ha', rfl⟩
    · exact ⟨a, by simp, rfl⟩
  · rw [List.filter_append, List.filter_append, List.map_append, h.shown]
    congr 1
    by_cases hs : V.shows a = true
    · rw [List.filter_cons_of_pos hs, List.filter_cons_of_pos (by rw [V.showsOf_image]; exact hs)]
      rfl
    · rw [List.filter_cons_of_neg hs, List.filter_cons_of_neg (by rw [V.showsOf_image]; exact hs)]
      rfl

theorem put_image (V : View α β κ) (a : α) (l : List α) :
    put V.keyOf (V.image a) (l.map V.image) = (put V.key a l).map V.image := by
  rw [put, put, List.map_map, List.map_map]
  apply List.map_congr_left
  intro x _
  by_cases hkey : V.key x = V.key a
  · simp [hkey, V.keyOf_image]
  · simp [hkey, V.keyOf_image]

/-- Replacing a record on both sides, where the replica may not hold it. -/
theorem shown_put (h : Mirrors V m l) {a a' : α} (hnd : (l.map V.key).Nodup) (ha : a ∈ l)
    (hkey : V.key a' = V.key a) (hshows : V.shows a' = true → V.shows a = true) :
    (put V.keyOf (V.image a') m).filter V.showsOf =
      ((put V.key a' l).filter V.shows).map V.image := by
  have hm : ∀ b ∈ m, V.keyOf b = V.keyOf (V.image a') → V.showsOf (V.image a') = true →
      V.showsOf b = true := by
    intro b hb hk hs
    rw [V.keyOf_image, hkey] at hk
    rw [h.eq_image hnd ha hb hk, V.showsOf_image]
    rw [V.showsOf_image] at hs
    exact hshows hs
  have hl : ∀ x ∈ l, V.key x = V.key a' → V.shows a' = true → V.shows x = true := by
    intro x hx hk hs
    rw [List.inj_on_of_nodup_map hnd hx ha (hk.trans hkey)]
    exact hshows hs
  rw [filter_put hm, h.shown, put_image, filter_image, ← filter_put hl]

/-- The record under a known key is replaced and published. -/
theorem update (h : Mirrors V m l) {a a' : α} (hnd : (l.map V.key).Nodup) (ha : a ∈ l)
    (hkey : V.key a' = V.key a) (hshows : V.shows a' = true → V.shows a = true) :
    Mirrors V (merge V.keyOf m (V.image a')) (put V.key a' l) := by
  have hmem : a' ∈ put V.key a' l := mem_put_self (by rw [hkey]; exact List.mem_map_of_mem ha)
  have hcurrent : ∀ b ∈ m, V.keyOf b ≠ V.key a' → ∃ x ∈ put V.key a' l, b = V.image x := by
    intro b hb hne
    obtain ⟨x, hx, rfl⟩ := h.current b hb
    rw [V.keyOf_image] at hne
    exact ⟨x, mem_put_of_ne hx hne, rfl⟩
  have hshown := h.shown_put hnd ha hkey hshows
  by_cases hm : V.keyOf (V.image a') ∈ m.map V.keyOf
  · have hmerge : merge V.keyOf m (V.image a') = put V.keyOf (V.image a') m := if_pos hm
    refine ⟨nodup_merge h.nodup _, ?_, by rw [hmerge]; exact hshown⟩
    rw [hmerge]
    intro b hb
    rcases mem_put hb with ⟨rfl, -⟩ | ⟨hb, hne⟩
    · exact ⟨a', hmem, rfl⟩
    · rw [V.keyOf_image] at hne
      exact hcurrent b hb hne
  · -- an entry that was not held was not shown, and is not shown now
    have hhidden : V.shows a' = false := by
      cases hs : V.shows a' with
      | false => rfl
      | true =>
        exfalso
        apply hm
        have himage : V.image a ∈ m.filter V.showsOf := by
          rw [h.shown]
          exact List.mem_map_of_mem (List.mem_filter.mpr ⟨ha, hshows hs⟩)
        rw [V.keyOf_image, hkey, ← V.keyOf_image]
        exact List.mem_map_of_mem (List.mem_filter.mp himage).1
    have hmerge : merge V.keyOf m (V.image a') = m ++ [V.image a'] := if_neg hm
    rw [put_of_not_mem hm] at hshown
    refine ⟨nodup_merge h.nodup _, ?_, ?_⟩ <;> rw [hmerge]
    · intro b hb
      rw [List.mem_append, List.mem_singleton] at hb
      rcases hb with hb | rfl
      · refine hcurrent b hb ?_
        intro hk
        apply hm
        rw [V.keyOf_image, ← hk]
        exact List.mem_map_of_mem hb
      · exact ⟨a', hmem, rfl⟩
    · rw [List.filter_append, hshown, List.filter_cons_of_neg (by rw [V.showsOf_image, hhidden]; simp),
        List.filter_nil, List.append_nil]

end Mirrors

end Replica
