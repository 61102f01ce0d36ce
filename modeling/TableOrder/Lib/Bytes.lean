import Mathlib.Algebra.GroupWithZero.Nat
import Mathlib.Data.List.TakeWhile

/-!
# C strings as byte lists

A NUL-terminated string is the list of the bytes before its terminator. The file has the
`string.h` functions a line protocol is written with:

* `lit` — the bytes of a string literal;
* `clip n` — what `snprintf`, or `strncpy` and a forced terminator, leave in a `char[n]`;
* `strtok`, `tokens` — one call of `strtok_r`, and all of them until it returns `NULL`;
* `strstr`, `field` — substring search, and the value after a `key=` prefix;
* `CStr n` — the contents of a `char[n]`, with the proof that they fit.
-/

namespace CLib

abbrev Bytes := List UInt8

/-- The bytes of a string literal in a UTF-8 source file. -/
def lit (s : String) : Bytes := s.toUTF8.data.toList

@[simp] theorem lit_eq_nil {s : String} : lit s = [] ↔ s = "" := by
  rw [lit, Array.toList_eq_nil_iff, ← Array.size_eq_zero_iff]
  exact String.utf8ByteSize_eq_zero_iff

/-- A character constant. -/
def ch (c : Char) : UInt8 := UInt8.ofNat c.toNat

/-! ## Fixed buffers -/

/-- What is left of `s` in a `char[size]` after a bounded copy that writes the terminator. -/
def clip (size : Nat) (s : Bytes) : Bytes := s.take (size - 1)

theorem clip_eq_self {size : Nat} {s : Bytes} (h : s.length < size) : clip size s = s :=
  List.take_of_length_le (by omega)

theorem length_clip_lt {size : Nat} (hsize : 0 < size) (s : Bytes) :
    (clip size s).length < size := by
  rw [clip, List.length_take]
  omega

theorem mem_of_mem_clip {size : Nat} {s : Bytes} {b : UInt8} (h : b ∈ clip size s) : b ∈ s :=
  List.mem_of_mem_take h

theorem ne_nul_of_mem {s : Bytes} (hnul : 0 ∉ s) : ∀ b ∈ s, decide (b ≠ 0) = true := by
  intro b hb
  have hne : b ≠ 0 := fun h => hnul (h ▸ hb)
  simpa using hne

/-- A text without NUL is a string up to its end. -/
theorem takeWhile_noNul {s : Bytes} (hnul : 0 ∉ s) : s.takeWhile (· ≠ 0) = s :=
  List.takeWhile_eq_self_iff.mpr (ne_nul_of_mem hnul)

/-- A text put together from pieces of at most `c` bytes. -/
theorem length_flatMap_le {α : Type} {l : List α} {f : α → Bytes} {c : Nat}
    (h : ∀ a ∈ l, (f a).length ≤ c) : (l.flatMap f).length ≤ c * l.length := by
  induction l with
  | nil => simp
  | cons a l ih =>
    have ha := h a (by simp)
    have hl := ih (fun b hb => h b (by simp [hb]))
    rw [List.flatMap_cons, List.length_append, List.length_cons, Nat.mul_add]
    omega

/-- The contents of a `char[size]`: a string without NUL that leaves room for the terminator. -/
structure CStr (size : Nat) where
  bytes : Bytes
  noNul : 0 ∉ bytes
  fits : bytes.length < size
  deriving DecidableEq

namespace CStr

theorem ext_bytes {size : Nat} {a b : CStr size} (h : a.bytes = b.bytes) : a = b := by
  cases a
  cases b
  cases h
  rfl

/-- The empty string. -/
def empty (size : Nat) [NeZero size] : CStr size where
  bytes := []
  noNul := List.not_mem_nil
  fits := Nat.pos_of_ne_zero (NeZero.ne size)

/-- `strncpy(dst, src, size - 1); dst[size - 1] = '\0'`. -/
def copy (size : Nat) [NeZero size] (src : Bytes) : CStr size where
  bytes := clip size (src.takeWhile (· ≠ 0))
  noNul := fun h => by simpa using List.mem_takeWhile_imp (mem_of_mem_clip h)
  fits := length_clip_lt (Nat.pos_of_ne_zero (NeZero.ne size)) _

theorem copy_bytes {size : Nat} [NeZero size] {src : Bytes} (hnul : 0 ∉ src)
    (hlen : src.length < size) : (copy size src).bytes = src := by
  show clip size (src.takeWhile (· ≠ 0)) = src
  rw [takeWhile_noNul hnul, clip_eq_self hlen]

theorem not_mem_copy {size : Nat} [NeZero size] {src : Bytes} {b : UInt8} (h : b ∉ src) :
    b ∉ (copy size src).bytes := by
  intro hb
  exact h ((List.takeWhile_sublist _).subset (mem_of_mem_clip hb))

/-- Copying a string into a buffer of its own size changes nothing. -/
@[simp] theorem copy_self {size : Nat} [NeZero size] (s : CStr size) : copy size s.bytes = s :=
  ext_bytes (copy_bytes s.noNul s.fits)

end CStr

/-! ## `strtok_r` -/

/-- One call of `strtok_r` with the single separator `sep`: the next token and the text after
the separator that ended it. -/
def strtok (sep : UInt8) (s : Bytes) : Option (Bytes × Bytes) :=
  match s.dropWhile (· == sep) with
  | [] => none
  | b :: r => some ((b :: r).takeWhile (· != sep), ((b :: r).dropWhile (· != sep)).drop 1)

/-- The tokens of the calls `strtok_r(s)`, `strtok_r(NULL)`, … up to the first `NULL`. Adjacent
separators count as one, so no token is empty. -/
def tokens (sep : UInt8) (s : Bytes) : List Bytes := (s.splitOn sep).filter (· ≠ [])

@[simp] theorem tokens_nil (sep : UInt8) : tokens sep [] = [] := rfl

@[simp] theorem tokens_sep_cons (sep : UInt8) (s : Bytes) :
    tokens sep (sep :: s) = tokens sep s := by
  rw [tokens, List.splitOn_cons_eq_if_modifyHead]
  simp [tokens]

theorem tokens_word_sep {sep : UInt8} {w : Bytes} (hw : w ≠ []) (hsep : sep ∉ w) (s : Bytes) :
    tokens sep (w ++ sep :: s) = w :: tokens sep s := by
  rw [tokens, List.splitOn_append_cons_self_of_not_mem hsep]
  simp [tokens, hw]

theorem tokens_word {sep : UInt8} {w : Bytes} (hw : w ≠ []) (hsep : sep ∉ w) :
    tokens sep w = [w] := by
  rw [tokens, List.splitOn_eq_singleton hsep]
  simp [hw]

/-- Words joined by `sep`, with `sep` also in front, split back into the words. -/
theorem tokens_flatMap {sep : UInt8} {ws : List Bytes} (hne : ∀ w ∈ ws, w ≠ [])
    (hsep : ∀ w ∈ ws, sep ∉ w) : tokens sep (ws.flatMap (sep :: ·)) = ws := by
  induction ws with
  | nil => rfl
  | cons w ws ih =>
    have hw := hne w (by simp)
    have hfree := hsep w (by simp)
    have htail := ih (fun v hv => hne v (by simp [hv])) (fun v hv => hsep v (by simp [hv]))
    rw [List.flatMap_cons, List.cons_append, tokens_sep_cons]
    cases ws with
    | nil => simpa using tokens_word hw hfree
    | cons v vs =>
      rw [List.flatMap_cons, List.cons_append] at htail ⊢
      rw [tokens_word_sep hw hfree, ← tokens_sep_cons, htail]

/-- Words that each end in `sep`, before a last piece. -/
theorem tokens_fields {sep : UInt8} {ws : List Bytes} (hne : ∀ w ∈ ws, w ≠ [])
    (hsep : ∀ w ∈ ws, sep ∉ w) (last : Bytes) :
    tokens sep (ws.flatMap (· ++ [sep]) ++ last) = ws ++ tokens sep last := by
  induction ws with
  | nil => rfl
  | cons w ws ih =>
    have htail := ih (fun v hv => hne v (by simp [hv])) (fun v hv => hsep v (by simp [hv]))
    rw [List.flatMap_cons, List.append_assoc, List.append_assoc, List.singleton_append,
      tokens_word_sep (hne w (by simp)) (hsep w (by simp)), htail]
    rfl

/-- A piece is without the separator, and what is left of the text when the rest is cut out. -/
theorem mem_splitOn {sep : UInt8} {s w : Bytes} (h : w ∈ s.splitOn sep) :
    sep ∉ w ∧ w.Sublist s := by
  induction s generalizing w with
  | nil =>
    rw [List.splitOn_nil, List.mem_singleton] at h
    subst h
    exact ⟨List.not_mem_nil, List.Sublist.slnil⟩
  | cons c s ih =>
    rw [List.splitOn_cons_eq_if_modifyHead] at h
    split at h
    · rcases List.mem_cons.mp h with rfl | h
      · exact ⟨List.not_mem_nil, List.nil_sublist _⟩
      · obtain ⟨hfree, hsub⟩ := ih h
        exact ⟨hfree, hsub.cons c⟩
    · next hc =>
      obtain ⟨v, vs, hsplit⟩ := List.exists_cons_of_ne_nil (List.splitOn_ne_nil sep s)
      rw [hsplit, List.modifyHead_cons] at h
      rcases List.mem_cons.mp h with rfl | h
      · obtain ⟨hfree, hsub⟩ := ih (w := v) (by rw [hsplit]; simp)
        refine ⟨?_, hsub.cons_cons c⟩
        simp only [List.mem_cons, not_or]
        exact ⟨fun heq => hc (by simp [heq]), hfree⟩
      · obtain ⟨hfree, hsub⟩ := ih (by rw [hsplit]; exact List.mem_cons_of_mem v h)
        exact ⟨hfree, hsub.cons c⟩

/-- A token is a word of the text without the separator. -/
theorem mem_tokens {sep : UInt8} {s w : Bytes} (h : w ∈ tokens sep s) :
    w ≠ [] ∧ sep ∉ w ∧ ∀ b ∈ w, b ∈ s := by
  obtain ⟨hw, hne⟩ := List.mem_filter.mp h
  obtain ⟨hfree, hsub⟩ := mem_splitOn hw
  exact ⟨by simpa using hne, hfree, fun b hb => hsub.subset hb⟩

theorem length_le_of_mem_tokens {sep : UInt8} {s w : Bytes} (h : w ∈ tokens sep s) :
    w.length ≤ s.length := (mem_splitOn (List.mem_filter.mp h).1).2.length_le

/-! ## Prefixes and substrings -/

/-- `strncmp(s, key, strlen(key)) == 0`. -/
def startsWith (key s : Bytes) : Bool := key.isPrefixOf s

@[simp] theorem startsWith_append (key v : Bytes) : startsWith key (key ++ v) = true := by
  simp [startsWith]

theorem eq_append_of_startsWith {key s : Bytes} (h : startsWith key s = true) :
    s = key ++ s.drop key.length := by
  obtain ⟨v, rfl⟩ := List.isPrefixOf_iff_prefix.mp h
  simp

/-- The text after `key` in a token that starts with it. -/
def field (key tok : Bytes) : Option Bytes :=
  if startsWith key tok then some (tok.drop key.length) else none

@[simp] theorem field_append (key v : Bytes) : field key (key ++ v) = some v := by
  simp [field]

/-- `strstr(s, pat)`: the suffix of `s` that starts at the first occurrence of `pat`. -/
def strstr (pat : Bytes) : Bytes → Option Bytes
  | [] => if pat = [] then some [] else none
  | b :: s => if startsWith pat (b :: s) then some (b :: s) else strstr pat s

/-- `strchr(s, c)`: the text before the first `c` and the text after it. -/
def strchr (c : UInt8) (s : Bytes) : Option (Bytes × Bytes) :=
  match s.dropWhile (· != c) with
  | [] => none
  | _ :: after => some (s.takeWhile (· != c), after)

theorem strchr_append {c : UInt8} {w : Bytes} (hw : c ∉ w) (s : Bytes) :
    strchr c (w ++ c :: s) = some (w, s) := by
  have hall : ∀ b ∈ w, (b != c) = true := by
    intro b hb
    simpa using fun h : b = c => hw (h ▸ hb)
  rw [strchr, List.dropWhile_append_of_pos hall, List.takeWhile_append_of_pos hall]
  simp

theorem strstr_of_startsWith {pat s : Bytes} (h : startsWith pat s = true) :
    strstr pat s = some s := by
  cases s with
  | nil =>
    have : pat = [] := by simpa [startsWith] using h
    simp [strstr, this]
  | cons b s => simp [strstr, h]

theorem strstr_cons_of_not {pat s : Bytes} {b : UInt8} (h : startsWith pat (b :: s) = false) :
    strstr pat (b :: s) = strstr pat s := by
  simp [strstr, h]

/-- Text without the first byte of the pattern holds no occurrence. -/
theorem strstr_append_of_not_mem {c : UInt8} {pat w : Bytes} (hw : c ∉ w) (s : Bytes) :
    strstr (c :: pat) (w ++ s) = strstr (c :: pat) s := by
  induction w with
  | nil => rfl
  | cons b w ih =>
    have hb : c ≠ b := fun h => hw (by simp [h])
    rw [List.cons_append, strstr_cons_of_not (by simp [startsWith, List.isPrefixOf, hb])]
    exact ih (fun h => hw (by simp [h]))

/-- In a sequence of fields that each end in `c`, the first occurrence of `c` and a pattern is at
the piece that starts with the pattern, when no field after the first does. -/
theorem strstr_fields {c : UInt8} {pat : Bytes} {w : Bytes} {ws : List Bytes} (hw : c ∉ w)
    (hws : ∀ v ∈ ws, c ∉ v) (hpat : ∀ v ∈ ws, ∀ s, startsWith pat (v ++ s) = false)
    {last : Bytes} (hlast : startsWith pat last = true) :
    strstr (c :: pat) ((w :: ws).flatMap (· ++ [c]) ++ last) = some (c :: last) := by
  induction ws generalizing w with
  | nil =>
    simp only [List.flatMap_cons, List.flatMap_nil, List.append_nil, List.append_assoc,
      List.singleton_append]
    rw [strstr_append_of_not_mem hw]
    exact strstr_of_startsWith (by simpa [startsWith, List.isPrefixOf] using hlast)
  | cons v ws ih =>
    have hv := hws v (by simp)
    have hstop := hpat v (by simp)
    have hrest := ih hv (fun u hu => hws u (by simp [hu])) (fun u hu => hpat u (by simp [hu]))
    rw [List.flatMap_cons, List.append_assoc, List.append_assoc, List.singleton_append,
      strstr_append_of_not_mem hw, strstr_cons_of_not]
    · exact hrest
    · rw [List.flatMap_cons, List.append_assoc, List.append_assoc]
      simpa [startsWith, List.isPrefixOf] using hstop ([c] ++ (ws.flatMap (· ++ [c]) ++ last))

end CLib
