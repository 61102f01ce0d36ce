import Mathlib.Data.List.DropRight
import Mathlib.Data.List.Nodup
import Mathlib.Data.List.TakeWhile

/-!
# The pieces of a text and where they begin

A text is cut into its maximal runs of elements that are not separators, each with its position
(`pieces`, `mem_pieces`). The pieces of a text that begin in a tail of it are those of the tail, but
for one that runs into the tail (`pieces_append`, `pieces_fresh`).
-/

namespace Pieces

variable {α : Type} {sep : α → Bool}

structure Piece (α : Type) where
  pos : Nat
  text : List α
  deriving DecidableEq

/-- The pieces of a text at position `k`; `fresh` if no piece runs into it. -/
def pieces (sep : α → Bool) : Bool → Nat → List α → List (Piece α)
  | _, _, [] => []
  | fresh, k, a :: l =>
    if sep a then pieces sep true (k + 1) l
    else if fresh then ⟨k, (a :: l).takeWhile (!sep ·)⟩ :: pieces sep false (k + 1) l
    else pieces sep false (k + 1) l

@[simp] theorem pieces_nil (fresh : Bool) (k : Nat) : pieces sep fresh k [] = [] := by
  rw [pieces]

theorem pieces_sep {a : α} (ha : sep a = true) (fresh : Bool) (k : Nat) (l : List α) :
    pieces sep fresh k (a :: l) = pieces sep true (k + 1) l := by
  rw [pieces, if_pos ha]

theorem pieces_fresh {a : α} (ha : sep a = false) (k : Nat) (l : List α) :
    pieces sep true k (a :: l) =
      ⟨k, (a :: l).takeWhile (!sep ·)⟩ :: pieces sep false (k + 1) l := by
  rw [pieces, if_neg (by simp [ha]), if_pos rfl]

theorem pieces_inside {a : α} (ha : sep a = false) (k : Nat) (l : List α) :
    pieces sep false k (a :: l) = pieces sep false (k + 1) l := by
  rw [pieces, if_neg (by simp [ha]), if_neg Bool.false_ne_true]

/-! ## Which pieces there are -/

/-- `p` is a maximal run without a separator. -/
def IsPiece (sep : α → Bool) (fresh : Bool) (k : Nat) (l : List α) (p : Piece α) : Prop :=
  ∃ before after, l = before ++ p.text ++ after ∧ p.pos = k + before.length ∧
    (p.text ≠ [] ∧ ∀ a ∈ p.text, sep a = false) ∧
    (before = [] → fresh = true) ∧ (∀ a ∈ before.getLast?, sep a = true) ∧
    ∀ a ∈ after.head?, sep a = true

theorem takeWhile_run {w rest : List α} (hw : ∀ a ∈ w, sep a = false)
    (hrest : ∀ a ∈ rest.head?, sep a = true) : (w ++ rest).takeWhile (!sep ·) = w := by
  rw [List.takeWhile_append_of_pos (fun a ha => by simp [hw a ha])]
  cases rest with
  | nil => rw [List.takeWhile_nil, List.append_nil]
  | cons b rest => simp [hrest b rfl]

theorem head_dropWhile_run (l : List α) : ∀ a ∈ (l.dropWhile (!sep ·)).head?, sep a = true := by
  intro a ha
  have := List.head?_dropWhile_not (!sep ·) l
  rw [Option.mem_def.mp ha] at this
  simpa using this

theorem isPiece_front {a : α} (ha : sep a = false) (k : Nat) (l : List α) :
    IsPiece sep true k (a :: l) ⟨k, (a :: l).takeWhile (!sep ·)⟩ := by
  refine ⟨[], (a :: l).dropWhile (!sep ·), ?_, rfl, ⟨?_, ?_⟩, fun _ => rfl, ?_, head_dropWhile_run _⟩
  · exact (List.takeWhile_append_dropWhile (p := (!sep ·)) (l := a :: l)).symm
  · simp [ha]
  · intro c hc
    simpa using List.mem_takeWhile_imp hc
  · rintro c ⟨⟩

theorem IsPiece.later {a : α} {k : Nat} {l : List α} {p : Piece α}
    (h : IsPiece sep (sep a) (k + 1) l p) (fresh : Bool) : IsPiece sep fresh k (a :: l) p := by
  obtain ⟨before, after, rfl, hpos, hrun, hfresh, hbefore, hafter⟩ := h
  refine ⟨a :: before, after, rfl, ?_, hrun, ?_, ?_, hafter⟩
  · rw [hpos, List.length_cons]
    omega
  · rintro ⟨⟩
  · intro c hc
    rw [List.getLast?_cons] at hc
    cases hlast : before.getLast? with
    | none =>
      rw [hlast] at hc
      cases hc
      exact hfresh (List.getLast?_eq_none_iff.mp hlast)
    | some d =>
      rw [hlast] at hc
      cases hc
      exact hbefore _ hlast

/-- A piece is the run in front, or begins later. -/
theorem isPiece_cons {fresh : Bool} {k : Nat} {a : α} {l : List α} {p : Piece α} :
    IsPiece sep fresh k (a :: l) p ↔
      (fresh = true ∧ sep a = false ∧ p = ⟨k, (a :: l).takeWhile (!sep ·)⟩) ∨
        IsPiece sep (sep a) (k + 1) l p := by
  constructor
  · rintro ⟨before, after, hl, hpos, ⟨hne, hrun⟩, hfresh, hbefore, hafter⟩
    cases before with
    | nil =>
      obtain ⟨b, w, htext⟩ := List.exists_cons_of_ne_nil hne
      have ha : a = b := by
        rw [htext] at hl
        exact (List.cons.inj hl).1
      refine .inl ⟨hfresh rfl, ha ▸ hrun b (by rw [htext]; exact List.mem_cons_self), ?_⟩
      rw [hl, List.nil_append, takeWhile_run hrun hafter, ← show p.pos = k from hpos]
    | cons b before =>
      obtain ⟨rfl, rfl⟩ := List.cons.inj hl
      refine .inr ⟨before, after, rfl, ?_, ⟨hne, hrun⟩, ?_, ?_, hafter⟩
      · rw [hpos, List.length_cons]
        omega
      · rintro rfl
        exact hbefore a rfl
      · intro c hc
        refine hbefore c ?_
        rw [List.getLast?_cons, Option.mem_def.mp hc]
        rfl
  · rintro (⟨rfl, ha, rfl⟩ | hlater)
    · exact isPiece_front ha k l
    · exact hlater.later fresh

theorem mem_pieces {fresh : Bool} {k : Nat} {l : List α} {p : Piece α} :
    p ∈ pieces sep fresh k l ↔ IsPiece sep fresh k l p := by
  induction l generalizing fresh k with
  | nil =>
    rw [pieces_nil]
    refine ⟨fun hp => absurd hp List.not_mem_nil, ?_⟩
    rintro ⟨before, after, hl, -, ⟨hne, -⟩, -⟩
    simp [hne] at hl
  | cons a l ih =>
    rw [isPiece_cons]
    cases ha : sep a with
    | true => simp [pieces_sep ha, ih]
    | false =>
      cases fresh with
      | true => simp [pieces_fresh ha, ih]
      | false => simp [pieces_inside ha, ih]

theorem le_pos {fresh : Bool} {k : Nat} {l : List α} {p : Piece α} (hp : p ∈ pieces sep fresh k l) :
    k ≤ p.pos := by
  obtain ⟨before, after, -, hpos, -⟩ := mem_pieces.mp hp
  omega

theorem end_le {fresh : Bool} {k : Nat} {l : List α} {p : Piece α} (hp : p ∈ pieces sep fresh k l) :
    p.pos + p.text.length ≤ k + l.length := by
  obtain ⟨before, after, rfl, hpos, -⟩ := mem_pieces.mp hp
  rw [List.length_append, List.length_append]
  omega

/-! ## Their order -/

/-- A piece that runs into the text ends before the others begin. -/
theorem pieces_false (k : Nat) (l : List α) :
    pieces sep false k l =
      pieces sep true (k + (l.takeWhile (!sep ·)).length + 1) ((l.dropWhile (!sep ·)).drop 1) := by
  induction l generalizing k with
  | nil => simp
  | cons a l ih =>
    cases ha : sep a with
    | true => simp [pieces_sep ha, ha]
    | false =>
      rw [pieces_inside ha, ih]
      simp only [List.takeWhile_cons, List.dropWhile_cons, ha, Bool.not_false, if_pos,
        List.length_cons]
      congr 1
      omega

theorem pieces_apart (sep : α → Bool) (fresh : Bool) (k : Nat) (l : List α) :
    (pieces sep fresh k l).Pairwise fun p q => p.pos + p.text.length < q.pos := by
  induction l generalizing fresh k with
  | nil => simp
  | cons a l ih =>
    cases ha : sep a with
    | true => simpa only [pieces_sep ha] using ih true (k + 1)
    | false =>
      cases fresh with
      | false => simpa only [pieces_inside ha] using ih false (k + 1)
      | true =>
        rw [pieces_fresh ha]
        refine List.pairwise_cons.mpr ⟨fun q hq => ?_, ih false (k + 1)⟩
        rw [← pieces_inside ha, pieces_false] at hq
        have hpos := le_pos hq
        show k + ((a :: l).takeWhile (!sep ·)).length < q.pos
        omega

theorem nodup_pieces (sep : α → Bool) (fresh : Bool) (k : Nat) (l : List α) : (pieces sep fresh k l).Nodup := by
  refine (pieces_apart sep fresh k l).imp fun {p q} hlt heq => ?_
  subst heq
  omega

/-- The separators in front make no difference. -/
theorem pieces_skip (k : Nat) (l : List α) :
    pieces sep true k l = pieces sep true (k + (l.takeWhile sep).length) (l.dropWhile sep) := by
  induction l generalizing k with
  | nil => rfl
  | cons a l ih =>
    cases ha : sep a with
    | false => simp [ha]
    | true =>
      rw [pieces_sep ha, ih]
      simp only [List.takeWhile_cons, List.dropWhile_cons, ha, if_pos, List.length_cons]
      congr 1
      omega

/-- The first piece, and what is left behind the separator that ends it. -/
theorem pieces_run (sep : α → Bool) {a : α} (ha : sep a = false) (k : Nat) (l : List α) :
    pieces sep true k (a :: l) = ⟨k, (a :: l).takeWhile (!sep ·)⟩ ::
      pieces sep true (k + ((a :: l).takeWhile (!sep ·)).length + 1)
        (((a :: l).dropWhile (!sep ·)).drop 1) := by
  rw [pieces_fresh ha, ← pieces_inside ha, pieces_false]

/-- An element that is no separator is in a piece, but for one that runs into the text. -/
theorem exists_piece (fresh : Bool) (k : Nat) {l : List α} {i : Nat} {a : α} (hi : l[i]? = some a)
    (ha : sep a = false) :
    (∃ p ∈ pieces sep fresh k l, p.pos ≤ k + i ∧ k + i < p.pos + p.text.length) ∨
      (fresh = false ∧ i < (l.takeWhile (!sep ·)).length) := by
  induction l generalizing fresh k i with
  | nil => simp at hi
  | cons b l ih =>
    cases hb : sep b with
    | true =>
      rw [pieces_sep hb]
      cases i with
      | zero =>
        rw [List.getElem?_cons_zero, Option.some_inj] at hi
        rw [hi, ha] at hb
        cases hb
      | succ i =>
        rcases ih true (k + 1) hi with ⟨p, hp, hpos, hend⟩ | ⟨⟨⟩, -⟩
        exact .inl ⟨p, hp, by omega, by omega⟩
    | false =>
      have hlen : ((b :: l).takeWhile (!sep ·)).length = (l.takeWhile (!sep ·)).length + 1 := by
        simp [hb]
      by_cases hrun : i < ((b :: l).takeWhile (!sep ·)).length
      · cases fresh with
        | false => exact .inr ⟨rfl, hrun⟩
        | true =>
          rw [pieces_fresh hb]
          exact .inl ⟨_, List.mem_cons_self, Nat.le_add_right k i, Nat.add_lt_add_left hrun k⟩
      · obtain ⟨i, rfl⟩ : ∃ j, i = j + 1 := ⟨i - 1, by omega⟩
        rcases ih false (k + 1) hi with ⟨p, hp, hpos, hend⟩ | ⟨-, hlt⟩
        · refine .inl ⟨p, ?_, by omega, by omega⟩
          cases fresh with
          | false => rwa [pieces_inside hb]
          | true =>
            rw [pieces_fresh hb]
            exact List.mem_cons_of_mem _ hp
        · omega

/-! ## The pieces of a tail -/

/-- No piece runs out of the text. -/
def closes (sep : α → Bool) (fresh : Bool) (l : List α) : Bool :=
  match l.getLast? with
  | none => fresh
  | some a => sep a

theorem closes_cons (fresh : Bool) (a : α) (l : List α) :
    closes sep fresh (a :: l) = closes sep (sep a) l := by
  rw [closes, closes, List.getLast?_cons]
  cases l.getLast? <;> rfl

theorem pieces_append (sep : α → Bool) (fresh : Bool) (k : Nat) (l m : List α) :
    ∃ older, (∀ p ∈ older, p.pos < k + l.length) ∧ pieces sep fresh k (l ++ m) =
      older ++ pieces sep (closes sep fresh l) (k + l.length) m := by
  induction l generalizing fresh k with
  | nil => exact ⟨[], by simp, rfl⟩
  | cons a l ih =>
    obtain ⟨older, holder, heq⟩ := ih (sep a) (k + 1)
    have hk : k + 1 + l.length = k + (a :: l).length := by
      rw [List.length_cons]
      omega
    rw [hk] at holder heq
    rw [closes_cons, List.cons_append]
    cases ha : sep a with
    | true =>
      rw [ha] at heq
      exact ⟨older, holder, by rw [pieces_sep ha, heq]⟩
    | false =>
      rw [ha] at heq
      cases fresh with
      | false => exact ⟨older, holder, by rw [pieces_inside ha, heq]⟩
      | true =>
        refine ⟨⟨k, (a :: (l ++ m)).takeWhile (!sep ·)⟩ :: older, ?_, ?_⟩
        · rintro p (_ | ⟨_, hp⟩)
          · show k < k + (a :: l).length
            rw [List.length_cons]
            omega
          · exact holder p hp
        · rw [pieces_fresh ha, heq]
          rfl

/-- The pieces that begin in a tail. -/
theorem filter_pieces_append (sep : α → Bool) (fresh : Bool) (k : Nat) (l m : List α) :
    (pieces sep fresh k (l ++ m)).filter (decide <| k + l.length ≤ ·.pos) =
      pieces sep (closes sep fresh l) (k + l.length) m := by
  obtain ⟨older, holder, heq⟩ := pieces_append sep fresh k l m
  rw [heq, List.filter_append, List.filter_eq_nil_iff.mpr, List.nil_append, List.filter_eq_self]
  · intro p hp
    exact decide_eq_true (le_pos hp)
  · intro p hp
    have := holder p hp
    simpa using this

theorem pieces_of_head {m : List α} (hm : ∀ a ∈ m.head?, sep a = true) (fresh : Bool) (k : Nat) :
    pieces sep fresh k m = pieces sep true k m := by
  cases m with
  | nil => rw [pieces_nil, pieces_nil]
  | cons a m => rw [pieces_sep (hm a rfl), pieces_sep (hm a rfl)]

/-- A run that goes on is no piece of the tail. -/
theorem not_mem_pieces_false {k : Nat} {a : α} {m : List α} (ha : sep a = false) {p : Piece α}
    (hpos : p.pos = k) : p ∉ pieces sep false k (a :: m) := by
  intro hp
  rw [pieces_inside ha] at hp
  have := le_pos hp
  omega

/-! ## The first of them, and the last of all -/

/-- The first `n` of the newer ones are the last `n` of all. -/
theorem take_eq_rtake_iff {β : Type} {older newer : List β} (hnd : (older ++ newer).Nodup) {n : Nat}
    (hn : 0 < n) : newer.take n = (older ++ newer).rtake n ↔
      newer.length = n ∨ newer.length < n ∧ older = [] := by
  rw [List.rtake, List.length_append]
  rcases Nat.lt_or_ge newer.length n with hlt | hge
  · rw [List.take_of_length_le (by omega)]
    constructor
    · intro heq
      have hlen := congrArg List.length heq
      rw [List.length_drop, List.length_append] at hlen
      exact .inr ⟨hlt, List.eq_nil_of_length_eq_zero (by omega)⟩
    · rintro (hlen | ⟨-, rfl⟩)
      · omega
      · rw [List.length_nil, Nat.zero_add, Nat.sub_eq_zero_of_le (by omega)]
        rfl
  · have hdrop : (older ++ newer).drop (older.length + newer.length - n) =
        newer.drop (newer.length - n) := by
      rw [Nat.add_sub_assoc hge, ← List.drop_drop, List.drop_left]
    rw [hdrop]
    constructor
    · intro heq
      have hhead := congrArg (·[0]?) heq
      simp only [List.getElem?_take_of_lt hn, List.getElem?_drop, Nat.add_zero] at hhead
      have := (List.getElem?_inj (by omega) (hnd.sublist (List.sublist_append_right _ _))).mp hhead
      omega
    · rintro (hlen | ⟨hlt, -⟩)
      · rw [hlen, Nat.sub_self, List.drop_zero, List.take_of_length_le (by omega)]
      · omega

/-- The first pieces of a tail are the last of the text if none runs into the tail and the tail has
the right number. -/
theorem take_tail_iff (sep : α → Bool) (l m : List α) {n : Nat} (hn : 0 < n) :
    let all := pieces sep true 0 (l ++ m)
    let newest := all.filter (decide <| l.length ≤ ·.pos)
    (pieces sep true l.length m).take n = all.rtake n ↔
      (closes sep true l = true ∨ ∀ a ∈ m.head?, sep a = true) ∧
        (newest.length = n ∨ newest.length < n ∧ all = newest) := by
  intro all newest
  obtain ⟨older, holder, hall⟩ := pieces_append sep true 0 l m
  have hnewest : newest = pieces sep (closes sep true l) l.length m := by
    have := filter_pieces_append sep true 0 l m
    rwa [Nat.zero_add] at this
  rw [Nat.zero_add] at holder hall
  rw [← hnewest] at hall
  replace hall : all = older ++ newest := hall
  by_cases huncut : closes sep true l = true ∨ ∀ a ∈ m.head?, sep a = true
  · have htail : pieces sep true l.length m = newest := by
      rw [hnewest]
      rcases huncut with hcloses | hhead
      · rw [hcloses]
      · exact (pieces_of_head hhead _ _).symm
    have hnodup : (older ++ newest).Nodup := hall ▸ nodup_pieces sep true 0 (l ++ m)
    rw [htail, hall, take_eq_rtake_iff hnodup hn, List.append_left_eq_self, and_iff_right huncut]
  · refine iff_of_false (fun heq => ?_) fun h => huncut h.1
    obtain ⟨hcloses, hhead⟩ := not_or.mp huncut
    rw [Bool.not_eq_true] at hcloses
    -- the rest of the piece that was cut is shown first
    cases m with
    | nil => exact absurd (by simp) hhead
    | cons a m =>
      have ha : sep a = false := by simpa using hhead
      obtain ⟨n, rfl⟩ : ∃ k, n = k + 1 := ⟨n - 1, by omega⟩
      have hmem : (⟨l.length, (a :: m).takeWhile (!sep ·)⟩ : Piece α) ∈ older ++ newest := by
        rw [← hall]
        refine List.mem_of_mem_drop (i := all.length - (n + 1)) ?_
        rw [← List.rtake, ← heq, pieces_fresh ha, List.take_succ_cons]
        exact List.mem_cons_self
      rcases List.mem_append.mp hmem with hold | hnew
      · exact absurd (holder _ hold) (Nat.lt_irrefl _)
      · rw [hnewest, hcloses] at hnew
        exact not_mem_pieces_false ha rfl hnew

/-- The last pieces reach the last element that is no separator. -/
theorem exists_mem_rtake (sep : α → Bool) {l : List α} {i : Nat} {a : α} (hi : l[i]? = some a)
    (ha : sep a = false) {n : Nat} (hn : 0 < n) :
    ∃ p ∈ (pieces sep true 0 l).rtake n, i < p.pos + p.text.length := by
  obtain ⟨p, hp, hpos, hend⟩ | ⟨⟨⟩, -⟩ := exists_piece true 0 hi ha
  rw [Nat.zero_add] at hpos hend
  have hsplit := List.take_append_drop ((pieces sep true 0 l).length - n) (pieces sep true 0 l)
  have hapart := pieces_apart sep true 0 l
  rw [← hsplit] at hp hapart
  rcases List.mem_append.mp hp with hearly | hlate
  · have hlen : 0 < ((pieces sep true 0 l).take ((pieces sep true 0 l).length - n)).length :=
      List.length_pos_of_mem hearly
    rw [List.length_take] at hlen
    have hne : (pieces sep true 0 l).rtake n ≠ [] := by
      rw [List.rtake, ne_eq, List.drop_eq_nil_iff]
      omega
    obtain ⟨q, hq⟩ := List.exists_mem_of_ne_nil _ hne
    have := (List.pairwise_append.mp hapart).2.2 p hearly q hq
    exact ⟨q, hq, by omega⟩
  · exact ⟨p, hlate, hend⟩

end Pieces
