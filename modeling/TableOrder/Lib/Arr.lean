import Mathlib.Data.List.Induction
import Mathlib.Data.List.Nodup
import Mathlib.Data.List.Perm.Basic
import Mathlib.Data.List.Forall2

/-!
# Arrays with a count

`T items[cap]; int count;` is the list of the first `count` items, with the proof that they fit.
The bound is a field, so a push past the end cannot be written: `push?` returns `none` there.

Below the type are the list facts that in-place updates need: what replacing one item does to a
projection it keeps and to a filter whose predicate it turns on; `eraseDups` keeps first
occurrences. A loop that stops at the first error is `mapM` in `Except`; `mapM_eq_ok`
is its specification.
-/

namespace CLib

structure Arr (α : Type) (cap : Nat) where
  items : List α
  bound : items.length ≤ cap
  deriving DecidableEq

namespace Arr

variable {α : Type} {cap : Nat}

theorem ext_items {a b : Arr α cap} (h : a.items = b.items) : a = b := by
  cases a
  cases b
  cases h
  rfl

/-- `count = 0`. -/
def empty (α : Type) (cap : Nat) : Arr α cap := ⟨[], Nat.zero_le cap⟩

/-- `items[count++] = x`. -/
def push (a : Arr α cap) (x : α) (h : a.items.length < cap) : Arr α cap :=
  ⟨a.items ++ [x], by rw [List.length_append]; exact h⟩

/-- A push behind the test `count >= cap`. -/
def push? (a : Arr α cap) (x : α) : Option (Arr α cap) :=
  if h : a.items.length < cap then some (a.push x h) else none

/-- `f(&items[i])` for an update through a pointer. -/
def modify (a : Arr α cap) (i : Nat) (f : α → α) : Arr α cap :=
  ⟨a.items.modify i f, by simpa using a.bound⟩

/-- Shift the items after `i` down by one and decrement the count. -/
def eraseIdx (a : Arr α cap) (i : Nat) : Arr α cap :=
  ⟨a.items.eraseIdx i, Nat.le_trans (List.length_eraseIdx_le a.items i) a.bound⟩

@[simp] theorem empty_items : (empty α cap).items = [] := rfl

@[simp] theorem push_items (a : Arr α cap) (x : α) (h : a.items.length < cap) :
    (a.push x h).items = a.items ++ [x] := rfl

@[simp] theorem modify_items (a : Arr α cap) (i : Nat) (f : α → α) :
    (a.modify i f).items = a.items.modify i f := rfl

@[simp] theorem eraseIdx_items (a : Arr α cap) (i : Nat) :
    (a.eraseIdx i).items = a.items.eraseIdx i := rfl

theorem push?_eq_some {a b : Arr α cap} {x : α} :
    a.push? x = some b ↔ a.items.length < cap ∧ b.items = a.items ++ [x] := by
  unfold push?
  constructor
  · intro h
    split at h
    · next hlt =>
      cases h
      exact ⟨hlt, rfl⟩
    · cases h
  · rintro ⟨hlt, hb⟩
    rw [dif_pos hlt]
    exact congrArg some (ext_items hb.symm)

theorem push?_of_lt {a : Arr α cap} {x : α} (h : a.items.length < cap) :
    a.push? x = some (a.push x h) := dif_pos h

end Arr

/-! ## Updating one item of a list -/

section Set

variable {α β : Type}

theorem modify_eq_set {l : List α} {i : Nat} {f : α → α} {x : α} (h : l[i]? = some x) :
    l.modify i f = l.set i (f x) := by
  apply List.ext_getElem?
  intro j
  rw [List.getElem?_modify, List.getElem?_set]
  by_cases hij : i = j
  · subst hij
    obtain ⟨hlt, hx⟩ := List.getElem?_eq_some_iff.mp h
    simp [hlt, hx]
  · simp [hij]

/-- A list split around the item that is replaced. -/
theorem set_split {l : List α} {i : Nat} {x : α} (h : l[i]? = some x) (y : α) :
    ∃ pre post, l = pre ++ x :: post ∧ pre.length = i ∧ l.set i y = pre ++ y :: post := by
  obtain ⟨hlt, hx⟩ := List.getElem?_eq_some_iff.mp h
  refine ⟨l.take i, l.drop (i + 1), ?_, ?_, ?_⟩
  · rw [← hx, List.getElem_cons_drop, List.take_append_drop]
  · rw [List.length_take]
    omega
  · rw [List.set_eq_take_append_cons_drop, if_pos hlt]

/-- A list split around the item that is deleted. -/
theorem eraseIdx_split {l : List α} {i : Nat} {x : α} (h : l[i]? = some x) :
    ∃ pre post, l = pre ++ x :: post ∧ l.eraseIdx i = pre ++ post := by
  obtain ⟨hlt, rfl⟩ := List.getElem?_eq_some_iff.mp h
  refine ⟨l.take i, l.drop (i + 1), ?_, List.eraseIdx_eq_take_drop_succ l i⟩
  rw [← List.drop_eq_getElem_cons hlt, List.take_append_drop]

/-- A projection that the new item shares is kept on the whole list. -/
theorem map_set_of_eq {l : List α} {i : Nat} {x y : α} {g : α → β} (h : l[i]? = some x)
    (hg : g y = g x) : (l.set i y).map g = l.map g := by
  obtain ⟨pre, post, hl, -, hset⟩ := set_split h y
  rw [hset, hl, List.map_append, List.map_append, List.map_cons, List.map_cons, hg]

/-- Replacing an item by one that satisfies `p` adds it to the items that do. -/
theorem filter_set_perm {l : List α} {i : Nat} {x y : α} {p : α → Bool} (h : l[i]? = some x)
    (hx : p x = false) (hy : p y = true) : ((l.set i y).filter p).Perm (y :: l.filter p) := by
  obtain ⟨pre, post, hl, -, hset⟩ := set_split h y
  rw [hset, hl, List.filter_append, List.filter_append, List.filter_cons_of_pos hy,
    List.filter_cons_of_neg (by simp [hx])]
  exact List.perm_middle

/-- Replacing an item that does not satisfy `p` by another such item. -/
theorem filter_set_of_not {l : List α} {i : Nat} {x y : α} {p : α → Bool} (h : l[i]? = some x)
    (hx : p x = false) (hy : p y = false) : (l.set i y).filter p = l.filter p := by
  obtain ⟨pre, post, hl, -, hset⟩ := set_split h y
  rw [hset, hl, List.filter_append, List.filter_append, List.filter_cons_of_neg (by simp [hy]),
    List.filter_cons_of_neg (by simp [hx])]

end Set

/-! ## Distinct items in order of first occurrence -/

section EraseDups

variable {α : Type} [BEq α] [LawfulBEq α]

theorem eraseDups_concat_of_mem {l : List α} {a : α} (h : a ∈ l) :
    (l ++ [a]).eraseDups = l.eraseDups := by
  rw [List.eraseDups_append]
  simp [List.removeAll, h]

theorem eraseDups_concat_of_not_mem {l : List α} {a : α} (h : a ∉ l) :
    (l ++ [a]).eraseDups = l.eraseDups ++ [a] := by
  rw [List.eraseDups_append]
  simp [List.removeAll, h, List.eraseDups_cons]

theorem nodup_eraseDups (l : List α) : l.eraseDups.Nodup := by
  induction l using List.reverseRecOn with
  | nil => simp
  | append_singleton l a ih =>
    by_cases h : a ∈ l
    · rw [eraseDups_concat_of_mem h]
      exact ih
    · rw [eraseDups_concat_of_not_mem h, List.nodup_append]
      refine ⟨ih, List.nodup_singleton a, ?_⟩
      intro b hb c hc hbc
      rw [List.mem_singleton] at hc
      subst hbc hc
      exact h (List.mem_eraseDups.mp hb)

theorem eraseDups_of_nodup {l : List α} (h : l.Nodup) : l.eraseDups = l := by
  induction l using List.reverseRecOn with
  | nil => rfl
  | append_singleton l a ih =>
    rw [List.nodup_append] at h
    have hfresh : a ∉ l := fun ha => h.2.2 a ha a (by simp) rfl
    rw [eraseDups_concat_of_not_mem hfresh, ih h.1]

end EraseDups

/-- Two lists that agree on a part of their items, where that part determines the item. -/
theorem eq_map_of_map_eq {α β γ : Type} {f : α → γ} {g : β → γ} {k : β → α} {as : List α}
    {bs : List β} (h : as.map f = bs.map g) (hk : ∀ a ∈ as, ∀ b ∈ bs, f a = g b → a = k b) :
    as = bs.map k := by
  induction as generalizing bs with
  | nil =>
    cases bs with
    | nil => rfl
    | cons b bs => cases h
  | cons a as ih =>
    cases bs with
    | nil => cases h
    | cons b bs =>
      rw [List.map_cons, List.map_cons] at h
      obtain ⟨hab, hrest⟩ := List.cons.inj h
      have htail := ih hrest fun x hx y hy => hk x (by simp [hx]) y (by simp [hy])
      rw [List.map_cons, hk a (by simp) b (by simp) hab, ← htail]

/-- A traversal succeeds with exactly the images of its items. -/
theorem mapM_eq_ok {α β ε : Type} {f : α → Except ε β} {as : List α} {bs : List β} :
    as.mapM f = .ok bs ↔ List.Forall₂ (fun a b => f a = .ok b) as bs := by
  induction as generalizing bs with
  | nil =>
    rw [List.mapM_nil, List.forall₂_nil_left_iff]
    exact ⟨fun h => by cases h; rfl, fun h => by cases h; rfl⟩
  | cons a as ih =>
    rw [List.mapM_cons, List.forall₂_cons_left_iff]
    constructor
    · intro h
      cases ha : f a with
      | error e =>
        rw [ha] at h
        cases h
      | ok b =>
        cases has : as.mapM f with
        | error e =>
          rw [ha, has] at h
          cases h
        | ok bs' =>
          rw [ha, has] at h
          cases h
          exact ⟨b, bs', rfl, ih.mp has, rfl⟩
    · rintro ⟨b, bs', ha, has, rfl⟩
      rw [ha, ih.mpr has]
      rfl

/-- An item has its counterpart. -/
theorem exists_zip_of_forall₂ {α β : Type} {R : α → β → Prop} {as : List α} {bs : List β}
    (h : List.Forall₂ R as bs) {a : α} (ha : a ∈ as) : ∃ b, (a, b) ∈ as.zip bs ∧ R a b := by
  induction h with
  | nil => cases ha
  | cons hab _ ih =>
    rcases List.mem_cons.mp ha with rfl | ha
    · exact ⟨_, by simp, hab⟩
    · obtain ⟨b, hmem, hb⟩ := ih ha
      exact ⟨b, by simp [hmem], hb⟩

/-- Every result of a traversal comes from one of its items. -/
theorem exists_of_mem_mapM {α β ε : Type} {f : α → Except ε β} {as : List α} {bs : List β}
    (h : as.mapM f = .ok bs) {b : β} (hb : b ∈ bs) : ∃ a ∈ as, f a = .ok b := by
  have hall := mapM_eq_ok.mp h
  clear h
  induction hall with
  | nil => cases hb
  | cons hab _ ih =>
    rcases List.mem_cons.mp hb with rfl | hb
    · exact ⟨_, by simp, hab⟩
    · obtain ⟨a, ha, hfa⟩ := ih hb
      exact ⟨a, by simp [ha], hfa⟩

end CLib
