import Mathlib.Data.List.Nodup
import TableOrder.Lib.Arr

/-!
# Ordered finite maps

A map keeps its keys in an order, each with one value. An array of records that is searched by a key
is such a map as long as no key occurs twice (`ofList`): appending a record under a new key, replacing
a record under its own key and deleting a record are `append`, `alter` and `erase` of the map.
-/

structure OrdMap (κ ν : Type) where
  keys : List κ
  get : κ → Option ν
  nodup : keys.Nodup
  mem_keys : ∀ k, k ∈ keys ↔ (get k).isSome = true

namespace OrdMap

variable {κ ν α : Type}

theorem ext_keys {m m' : OrdMap κ ν} (hkeys : m.keys = m'.keys) (hget : m.get = m'.get) : m = m' := by
  cases m
  cases m'
  simp only at hkeys hget
  subst hkeys hget
  rfl

section Ops

variable [DecidableEq κ]

/-- A new key, behind all others. -/
def append (m : OrdMap κ ν) (k : κ) (v : ν) (hnew : k ∉ m.keys) : OrdMap κ ν where
  keys := m.keys ++ [k]
  get := Function.update m.get k (some v)
  nodup := List.nodup_append.mpr ⟨m.nodup, List.nodup_singleton k, by
    intro a ha b hb hab
    rw [List.mem_singleton] at hb
    exact hnew (hb ▸ hab ▸ ha)⟩
  mem_keys := by
    intro k'
    by_cases hk : k' = k
    · simp [hk]
    · simp [hk, m.mem_keys k']

/-- Another value under one key; the other keys keep theirs. -/
def alter (m : OrdMap κ ν) (k : κ) (f : ν → ν) : OrdMap κ ν where
  keys := m.keys
  get := Function.update m.get k ((m.get k).map f)
  nodup := m.nodup
  mem_keys := by
    intro k'
    by_cases hk : k' = k
    · subst hk
      simp [m.mem_keys k']
    · simp [hk, m.mem_keys k']

/-- One key less; the others stay in their order. -/
def erase (m : OrdMap κ ν) (k : κ) : OrdMap κ ν where
  keys := m.keys.erase k
  get := Function.update m.get k none
  nodup := m.nodup.erase k
  mem_keys := by
    intro k'
    rw [m.nodup.mem_erase_iff]
    by_cases hk : k' = k
    · simp [hk]
    · simp [hk, m.mem_keys k']

end Ops

/-! ## Records under keys -/

/-- No key occurs twice, and something holds of every record. -/
structure Keyed (key : α → κ) (P : α → Prop) (l : List α) : Prop where
  nodup : (l.map key).Nodup
  all : ∀ a ∈ l, P a

section Keyed

variable {key : α → κ} {P : α → Prop} {l : List α}

theorem Keyed.of_nodup (hnd : (l.map key).Nodup) : Keyed key (fun _ => True) l :=
  ⟨hnd, fun _ _ => trivial⟩

theorem Keyed.concat (h : Keyed key P l) {a : α} (hnew : key a ∉ l.map key) (ha : P a) :
    Keyed key P (l ++ [a]) where
  nodup := by
    rw [List.map_append, List.nodup_append]
    refine ⟨h.nodup, List.nodup_singleton _, ?_⟩
    intro k hk k' hk' heq
    rw [List.map_singleton, List.mem_singleton] at hk'
    exact hnew (hk' ▸ heq ▸ hk)
  all := by
    intro x hx
    rw [List.mem_append, List.mem_singleton] at hx
    rcases hx with hx | rfl
    · exact h.all x hx
    · exact ha

theorem Keyed.set (h : Keyed key P l) {i : Nat} {a b : α} (ha : l[i]? = some a)
    (hkey : key b = key a) (hb : P b) : Keyed key P (l.set i b) where
  nodup := by
    rw [CLib.map_set_of_eq ha hkey]
    exact h.nodup
  all := by
    intro x hx
    rcases List.mem_or_eq_of_mem_set hx with hx | rfl
    · exact h.all x hx
    · exact hb

theorem Keyed.eraseIdx (h : Keyed key P l) (i : Nat) : Keyed key P (l.eraseIdx i) where
  nodup := h.nodup.sublist ((List.eraseIdx_sublist l i).map key)
  all := fun x hx => h.all x (List.mem_of_mem_eraseIdx hx)

end Keyed

section OfList

variable [DecidableEq κ] (key : α → κ) (val : α → ν)

/-- The map of a list of records. Of records under one key the first counts. -/
def ofList (l : List α) : OrdMap κ ν where
  keys := (l.map key).eraseDups
  get k := (l.find? (key · == k)).map val
  nodup := CLib.nodup_eraseDups _
  mem_keys := by
    intro k
    simp [List.find?_isSome]

variable {key} {l : List α}

theorem ofList_keys (hnd : (l.map key).Nodup) : (ofList key val l).keys = l.map key :=
  CLib.eraseDups_of_nodup hnd

theorem ofList_get_eq_some (hnd : (l.map key).Nodup) {k : κ} {v : ν} :
    (ofList key val l).get k = some v ↔ ∃ a ∈ l, key a = k ∧ val a = v := by
  show (l.find? (key · == k)).map val = some v ↔ _
  constructor
  · intro h
    obtain ⟨a, hfind, hval⟩ := Option.map_eq_some_iff.mp h
    exact ⟨a, List.mem_of_find?_eq_some hfind, by simpa using List.find?_some hfind, hval⟩
  · rintro ⟨a, ha, hkey, hval⟩
    cases hfind : l.find? (key · == k) with
    | none =>
      have hno := List.find?_eq_none.mp hfind a ha
      simp [hkey] at hno
    | some b =>
      have hb := List.mem_of_find?_eq_some hfind
      have hkeyb : key b = k := by simpa using List.find?_some hfind
      have hab : b = a := List.inj_on_of_nodup_map hnd hb ha (hkeyb.trans hkey.symm)
      rw [hab, Option.map_some, hval]

/-- Two lists of records under distinct keys are the same map when they have the same keys in order
and the same values. -/
theorem ofList_eq {m : OrdMap κ ν} (hnd : (l.map key).Nodup) (hkeys : l.map key = m.keys)
    (hget : ∀ k v, (∃ a ∈ l, key a = k ∧ val a = v) ↔ m.get k = some v) : ofList key val l = m := by
  apply ext_keys
  · rw [ofList_keys val hnd, hkeys]
  · funext k
    apply Option.ext
    intro v
    rw [ofList_get_eq_some val hnd, hget]

omit [DecidableEq κ] in
/-- Around a record there is no other under its key. -/
theorem ne_of_nodup_split {pre post : List α} {a : α} (hnd : ((pre ++ a :: post).map key).Nodup) :
    (∀ b ∈ pre, key b ≠ key a) ∧ ∀ b ∈ post, key b ≠ key a := by
  rw [List.map_append, List.map_cons, List.nodup_append, List.nodup_cons] at hnd
  obtain ⟨-, ⟨hpost, -⟩, happart⟩ := hnd
  constructor
  · intro b hb
    exact happart _ (List.mem_map_of_mem hb) _ (by simp)
  · intro b hb hkey
    exact hpost (hkey ▸ List.mem_map_of_mem hb)

/-- A record under a new key, behind the others. -/
theorem ofList_append (hnd : (l.map key).Nodup) {a : α} (hnew : key a ∉ (ofList key val l).keys) :
    ofList key val (l ++ [a]) = (ofList key val l).append (key a) (val a) hnew := by
  have hmap : (l ++ [a]).map key = ((ofList key val l).append (key a) (val a) hnew).keys := by
    rw [List.map_append, ← ofList_keys val hnd]
    rfl
  have hold := ofList_keys val hnd ▸ hnew
  apply ofList_eq val ((Keyed.of_nodup hnd).concat hold trivial).nodup hmap
  intro k v
  show _ ↔ Function.update _ _ _ k = _
  by_cases hk : k = key a
  · have hne : ∀ b ∈ l, key b ≠ key a := fun b hb hkey => hold (hkey ▸ List.mem_map_of_mem hb)
    rw [hk, Function.update_self]
    grind
  · rw [Function.update_of_ne hk, ofList_get_eq_some val hnd]
    grind

/-- Another record in the place of one with the same key. -/
theorem ofList_set (hnd : (l.map key).Nodup) {i : Nat} {a b : α} (ha : l[i]? = some a)
    (hkey : key b = key a) {f : ν → ν} (hval : val b = f (val a)) :
    ofList key val (l.set i b) = (ofList key val l).alter (key a) f := by
  have hmap : (l.set i b).map key = l.map key := CLib.map_set_of_eq ha hkey
  apply ofList_eq val (hmap ▸ hnd)
  · rw [hmap, ← ofList_keys val hnd]
    rfl
  · intro k v
    have hget := (ofList_get_eq_some val hnd).mpr
      ⟨a, List.mem_of_getElem? ha, rfl, rfl⟩
    obtain ⟨pre, post, hl, -, hset⟩ := CLib.set_split ha b
    show _ ↔ Function.update _ _ _ k = _
    by_cases hk : k = key a
    · obtain ⟨hpre, hpost⟩ := ne_of_nodup_split (hl ▸ hnd)
      rw [hk, Function.update_self, hget, hset]
      grind
    · rw [Function.update_of_ne hk, ofList_get_eq_some val hnd, hset, hl]
      grind

theorem ofList_eraseIdx (hnd : (l.map key).Nodup) {i : Nat} {a : α} (ha : l[i]? = some a) :
    ofList key val (l.eraseIdx i) = (ofList key val l).erase (key a) := by
  obtain ⟨pre, post, hl, herase⟩ := CLib.eraseIdx_split ha
  have hmap : (l.eraseIdx i).map key = ((ofList key val l).erase (key a)).keys := by
    show _ = (ofList key val l).keys.erase (key a)
    rw [ofList_keys val hnd, herase, hl]
    obtain ⟨hne, -⟩ := ne_of_nodup_split (hl ▸ hnd)
    have hpre : key a ∉ pre.map key := by
      intro hmem
      obtain ⟨b, hb, hkey⟩ := List.mem_map.mp hmem
      exact hne b hb hkey
    rw [List.map_append, List.map_append, List.map_cons, List.erase_append_right _ hpre,
      List.erase_cons_head]
  apply ofList_eq val (hmap ▸ OrdMap.nodup _) hmap
  intro k v
  show _ ↔ Function.update _ _ _ k = _
  by_cases hk : k = key a
  · obtain ⟨hpre, hpost⟩ := ne_of_nodup_split (hl ▸ hnd)
    rw [hk, Function.update_self, herase]
    grind
  · rw [Function.update_of_ne hk, ofList_get_eq_some val hnd, herase, hl]
    grind

end OfList

end OrdMap
