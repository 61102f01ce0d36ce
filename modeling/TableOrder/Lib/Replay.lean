import Mathlib.Data.List.Induction
import TableOrder.Lib.OrdMap

/-!
# Replaying a log

A log record sets the value of one key. `replay` is what a log says in the end; it is compared with a
table of records searched by a key (`OrdMap.ofList`). One log may be kept in two parts that are
replayed one after the other: a record that goes to the end of the first part counts as if it were
last, as long as the second part has none under its key (`replay_insert`).
-/

namespace Replay

variable {κ ν : Type} [DecidableEq κ]

/-- The values after the records, from left to right. -/
def replay (log : List (κ × ν)) : κ → Option ν :=
  log.foldl (fun m r => Function.update m r.1 (some r.2)) fun _ => none

theorem replay_concat (log : List (κ × ν)) (r : κ × ν) :
    replay (log ++ [r]) = Function.update (replay log) r.1 (some r.2) := by
  unfold replay
  rw [List.foldl_append]
  rfl

theorem replay_insert (log rest : List (κ × ν)) {r : κ × ν} (h : r.1 ∉ rest.map Prod.fst) :
    replay (log ++ [r] ++ rest) = Function.update (replay (log ++ rest)) r.1 (some r.2) := by
  induction rest using List.reverseRecOn with
  | nil =>
    rw [List.append_nil, List.append_nil]
    exact replay_concat log r
  | append_singleton rest s ih =>
    rw [List.map_append, List.mem_append, not_or] at h
    have hne : r.1 ≠ s.1 := by
      intro heq
      apply h.2
      rw [heq]
      exact List.mem_singleton_self _
    rw [← List.append_assoc, ← List.append_assoc, replay_concat, replay_concat, ih h.1]
    exact Function.update_comm hne _ _ _

/-! ## Tables that a log tells of -/

section Tells

variable {α : Type} {key : α → κ} {val : α → ν} {l : List α} {log rest : List (κ × ν)}

/-- The log has the keys of the table, with their values. -/
def Tells (key : α → κ) (val : α → ν) (log : List (κ × ν)) (l : List α) : Prop :=
  replay log = (OrdMap.ofList key val l).get

theorem Tells.nil : Tells key val [] [] := rfl

theorem tells_iff (hnd : (l.map key).Nodup) : Tells key val log l ↔
    ∀ k v, replay log k = some v ↔ ∃ a ∈ l, key a = k ∧ val a = v := by
  unfold Tells
  constructor
  · intro h k v
    rw [h]
    exact OrdMap.ofList_get_eq_some val hnd
  · intro h
    funext k
    apply Option.ext
    intro v
    rw [h, OrdMap.ofList_get_eq_some val hnd]

/-- A new entry and its record, which no later part mentions. -/
theorem Tells.push (h : Tells key val (log ++ rest) l) (hnd : (l.map key).Nodup) {a : α}
    (hnew : key a ∉ l.map key) (hrest : key a ∉ rest.map Prod.fst) :
    Tells key val (log ++ [(key a, val a)] ++ rest) (l ++ [a]) := by
  have hkeys : key a ∉ (OrdMap.ofList key val l).keys := by
    rw [OrdMap.ofList_keys val hnd]
    exact hnew
  unfold Tells
  rw [replay_insert log rest hrest, h, OrdMap.ofList_append val hnd hkeys]
  rfl

theorem ofList_set_get (hnd : (l.map key).Nodup) {i : Nat} {a b : α} (ha : l[i]? = some a)
    (hkey : key b = key a) : (OrdMap.ofList key val (l.set i b)).get =
      Function.update (OrdMap.ofList key val l).get (key a) (some (val b)) := by
  have hget : (OrdMap.ofList key val l).get (key a) = some (val a) :=
    (OrdMap.ofList_get_eq_some val hnd).mpr ⟨a, List.mem_of_getElem? ha, rfl, rfl⟩
  rw [OrdMap.ofList_set val hnd ha hkey (f := fun _ => val b) rfl]
  show Function.update (OrdMap.ofList key val l).get (key a)
    (((OrdMap.ofList key val l).get (key a)).map fun _ => val b) = _
  rw [hget]
  rfl

/-- Another value for an entry, and its record. -/
theorem Tells.set (h : Tells key val (log ++ rest) l) (hnd : (l.map key).Nodup) {i : Nat} {a b : α}
    (ha : l[i]? = some a) (hkey : key b = key a) (hrest : key a ∉ rest.map Prod.fst) :
    Tells key val (log ++ [(key a, val b)] ++ rest) (l.set i b) := by
  unfold Tells
  rw [replay_insert log rest hrest, h, ofList_set_get hnd ha hkey]

/-- The same value for an entry needs no record. -/
theorem Tells.set_same (h : Tells key val log l) (hnd : (l.map key).Nodup) {i : Nat} {a b : α}
    (ha : l[i]? = some a) (hkey : key b = key a) (hval : val b = val a) :
    Tells key val log (l.set i b) := by
  have hget : (OrdMap.ofList key val l).get (key a) = some (val b) :=
    (OrdMap.ofList_get_eq_some val hnd).mpr ⟨a, List.mem_of_getElem? ha, rfl, hval.symm⟩
  unfold Tells
  rw [h, ofList_set_get hnd ha hkey, ← hget, Function.update_eq_self]

/-- A log that tells of two readings of the values has them agree. -/
theorem Tells.val_eq {val' : α → ν} (h : Tells key val log l) (hnd : (l.map key).Nodup) :
    Tells key val' log l ↔ ∀ a ∈ l, val' a = val a := by
  unfold Tells at h ⊢
  rw [h]
  constructor
  · intro heq a ha
    have hget := (OrdMap.ofList_get_eq_some val hnd).mpr ⟨a, ha, rfl, rfl⟩
    rw [heq, OrdMap.ofList_get_eq_some val' hnd] at hget
    obtain ⟨b, hb, hkey, hval⟩ := hget
    rw [← hval, List.inj_on_of_nodup_map hnd ha hb hkey.symm]
  · intro hall
    funext k
    show (l.find? (key · == k)).map val = (l.find? (key · == k)).map val'
    cases hfind : l.find? (key · == k) with
    | none => rfl
    | some a => exact congrArg some (hall a (List.mem_of_find?_eq_some hfind)).symm

end Tells

end Replay
