import Mathlib.Data.List.TakeWhile
import TableOrder.Lib.Bytes
import TableOrder.Lib.Int

/-!
# Decimal numbers and words: `%d`, `atoi` and `sscanf`

`fmtInt` is what `%d` (or `%lld`) prints and `atoi`, `atoll` read a number back. Two facts carry
the protocol proofs: a printed number that fits is read back whatever follows it, as long as no
digit does (`atoi_fmtInt_append`), and two printed numbers followed by non-digits are equal only
when the numbers and the rests are (`fmtInt_append_inj`). `scanInt` and `scanWord` are `sscanf` with
`%d` and with a bounded `%s`.
-/

namespace CLib

/-! ## Printing -/

/-- The byte of an ASCII character. -/
def asciiByte (c : Char) : UInt8 := UInt8.ofNat c.toNat

def decimal (n : Nat) : Bytes := (Nat.toDigits 10 n).map asciiByte

/-- The text `%d` and `%lld` print. -/
def fmtInt (x : Int) : Bytes :=
  if x < 0 then ch '-' :: decimal x.natAbs else decimal x.natAbs

theorem decimal_ne_nil (n : Nat) : decimal n ≠ [] := by simp [decimal]

theorem length_fmtInt_le {x : Int} (h : FitsInt x) : (fmtInt x).length ≤ 11 := by
  obtain ⟨h1, h2⟩ := h
  have hlen : (decimal x.natAbs).length ≤ 10 := by
    rw [decimal, List.length_map, Nat.length_toDigits_le_iff (by omega) (by omega)]
    omega
  unfold fmtInt
  split
  · simp only [List.length_cons]
    omega
  · omega

theorem length_fmtLong_le {x : Int} (h : FitsLong x) : (fmtInt x).length ≤ 20 := by
  obtain ⟨h1, h2⟩ := h
  have hlen : (decimal x.natAbs).length ≤ 19 := by
    rw [decimal, List.length_map, Nat.length_toDigits_le_iff (by omega) (by omega)]
    omega
  unfold fmtInt
  split
  · simp only [List.length_cons]
    omega
  · omega

/-! ## Digits -/

def isDigit (b : UInt8) : Bool := 48 ≤ b && b ≤ 57

/-- `isspace` of the C locale. -/
def isSpace (b : UInt8) : Bool := b == 32 || (9 ≤ b && b ≤ 13)

theorem isDigit_iff {b : UInt8} : isDigit b = true ↔ 48 ≤ b.toNat ∧ b.toNat ≤ 57 := by
  simp [isDigit, UInt8.le_iff_toNat_le]

theorem isSpace_iff {b : UInt8} :
    isSpace b = true ↔ b.toNat = 32 ∨ (9 ≤ b.toNat ∧ b.toNat ≤ 13) := by
  simp [isSpace, UInt8.le_iff_toNat_le, ← UInt8.toNat_inj]

/-- A digit character keeps its code. -/
theorem toNat_asciiByte {c : Char} (hc : c.isDigit = true) : (asciiByte c).toNat = c.toNat := by
  have h : c.toNat ≤ 57 := (Char.isDigit_iff_toNat.mp hc).2
  rw [asciiByte, UInt8.toNat_ofNat']
  omega

theorem isDigit_asciiByte {c : Char} (hc : c.isDigit = true) : isDigit (asciiByte c) = true := by
  rw [isDigit_iff, toNat_asciiByte hc]
  exact Char.isDigit_iff_toNat.mp hc

theorem isDigit_of_mem_toDigits {n : Nat} {c : Char} (h : c ∈ Nat.toDigits 10 n) :
    c.isDigit = true :=
  Nat.isDigit_of_mem_toDigits (by omega) (by omega) h

theorem isDigit_of_mem_decimal {n : Nat} {b : UInt8} (hb : b ∈ decimal n) : isDigit b = true := by
  obtain ⟨c, hc, rfl⟩ := List.mem_map.mp hb
  exact isDigit_asciiByte (isDigit_of_mem_toDigits hc)

/-- The bytes of a printed number: digits and the minus sign. -/
theorem mem_fmtInt {x : Int} {b : UInt8} (h : b ∈ fmtInt x) : isDigit b = true ∨ b = ch '-' := by
  unfold fmtInt at h
  split at h
  · rcases List.mem_cons.mp h with rfl | h
    · exact Or.inr rfl
    · exact Or.inl (isDigit_of_mem_decimal h)
  · exact Or.inl (isDigit_of_mem_decimal h)

theorem fmtInt_ne_nil (x : Int) : fmtInt x ≠ [] := by
  unfold fmtInt
  split
  · simp
  · exact decimal_ne_nil _

theorem not_mem_fmtInt {b : UInt8} (hb : isDigit b = false) (hm : b ≠ ch '-') (x : Int) :
    b ∉ fmtInt x := by
  intro h
  rcases mem_fmtInt h with h | h
  · rw [hb] at h
    cases h
  · exact hm h

/-! ## Reading -/

/-- The value of the digits at the front of the text, on top of the digits read so far. -/
def readDigits (acc : Nat) : Bytes → Nat
  | [] => acc
  | b :: s => if isDigit b then readDigits (10 * acc + (b.toNat - 48)) s else acc

/-- `strtol`: blanks, a sign, digits; the value saturates at the bounds of the type. -/
def strtol (lo hi : Int) (s : Bytes) : Int :=
  match s.dropWhile isSpace with
  | [] => 0
  | b :: r =>
    if b = ch '-' then max lo (-(readDigits 0 r : Int))
    else if b = ch '+' then min hi (readDigits 0 r)
    else min hi (readDigits 0 (b :: r))

/-- `atoi`: `(int)strtol(s, NULL, 10)` with a 64-bit `long`. -/
def atoi (s : Bytes) : Int :=
  IntSem.wrap.norm (strtol (-9223372036854775808) 9223372036854775807 s)

/-- `atoll`. -/
def atoll (s : Bytes) : Int := strtol (-9223372036854775808) 9223372036854775807 s

theorem atoi_fits (s : Bytes) : FitsInt (atoi s) := IntSem.wrap_norm_fits _

/-- What follows a number so that reading it stops there. -/
def EndsNumber (s : Bytes) : Prop := ∀ b r, s = b :: r → isDigit b = false

theorem EndsNumber.nil : EndsNumber [] := by
  intro b r h
  cases h

theorem EndsNumber.cons {b : UInt8} (hb : isDigit b = false) (s : Bytes) :
    EndsNumber (b :: s) := by
  intro c r h
  cases h
  exact hb

/-- Reading stops at the first byte that is not a digit. -/
theorem readDigits_map_append {cs : List Char} (hcs : ∀ c ∈ cs, c.isDigit = true) (acc : Nat)
    {s : Bytes} (hs : EndsNumber s) :
    readDigits acc (cs.map asciiByte ++ s) = Nat.ofDigitChars 10 cs acc := by
  induction cs generalizing acc with
  | nil =>
    cases s with
    | nil => rfl
    | cons b r => simp [readDigits, hs b r rfl]
  | cons c cs ih =>
    have hc := hcs c (by simp)
    rw [List.map_cons, List.cons_append, Nat.ofDigitChars_cons,
      ← ih (fun d hd => hcs d (by simp [hd]))]
    simp [readDigits, isDigit_asciiByte hc, toNat_asciiByte hc]

theorem readDigits_decimal_append (n : Nat) {s : Bytes} (hs : EndsNumber s) :
    readDigits 0 (decimal n ++ s) = n := by
  rw [decimal, readDigits_map_append (fun c hc => isDigit_of_mem_toDigits hc) 0 hs]
  exact Nat.ofDigitChars_ten_toDigits

theorem not_space_of_digit {b : UInt8} (h : isDigit b = true) :
    isSpace b = false ∧ b ≠ ch '-' ∧ b ≠ ch '+' := by
  rw [isDigit_iff] at h
  refine ⟨?_, ?_, ?_⟩
  · rw [Bool.eq_false_iff, Ne, isSpace_iff]
    omega
  · rintro rfl
    exact absurd h (by decide)
  · rintro rfl
    exact absurd h (by decide)

theorem strtol_fmtInt_append {lo hi x : Int} (hlo : lo ≤ x) (hhi : x ≤ hi) {s : Bytes}
    (hs : EndsNumber s) : strtol lo hi (fmtInt x ++ s) = x := by
  unfold fmtInt
  split
  · next hneg =>
    have hspace : isSpace (ch '-') = false := by decide
    rw [List.cons_append, strtol, List.dropWhile_cons_of_neg (by simp [hspace])]
    simp only [if_true, readDigits_decimal_append _ hs]
    omega
  · next hpos =>
    obtain ⟨b, r, hbr⟩ := List.exists_cons_of_ne_nil (decimal_ne_nil x.natAbs)
    have hb : isDigit b = true := isDigit_of_mem_decimal (n := x.natAbs) (by rw [hbr]; simp)
    obtain ⟨hspace, hminus, hplus⟩ := not_space_of_digit hb
    have hread := readDigits_decimal_append x.natAbs hs
    rw [hbr, List.cons_append] at hread ⊢
    rw [strtol, List.dropWhile_cons_of_neg (by simp [hspace])]
    simp only [hminus, hplus, if_false, hread]
    omega

/-- A printed `int` is read back, whatever follows it except a digit. -/
theorem atoi_fmtInt_append {x : Int} (hx : FitsInt x) {s : Bytes} (hs : EndsNumber s) :
    atoi (fmtInt x ++ s) = x := by
  obtain ⟨h1, h2⟩ := hx
  rw [atoi, strtol_fmtInt_append (by omega) (by omega) hs]
  exact IntSem.wrap.norm_of_fits x ⟨h1, h2⟩

@[simp] theorem atoi_fmtInt {x : Int} (hx : FitsInt x) : atoi (fmtInt x) = x := by
  simpa using atoi_fmtInt_append hx EndsNumber.nil

theorem atoll_fmtInt_append {x : Int} (hx : FitsLong x) {s : Bytes} (hs : EndsNumber s) :
    atoll (fmtInt x ++ s) = x :=
  strtol_fmtInt_append hx.1 hx.2 hs

/-- Printed numbers followed by something that is not a digit are read apart. -/
theorem fmtInt_append_inj {x y : Int} {s t : Bytes} (hs : EndsNumber s) (ht : EndsNumber t)
    (h : fmtInt x ++ s = fmtInt y ++ t) : x = y ∧ s = t := by
  have hxy : x = y := by
    have hx : strtol (min x y) (max x y) (fmtInt x ++ s) = x :=
      strtol_fmtInt_append (Int.min_le_left x y) (Int.le_max_left x y) hs
    have hy : strtol (min x y) (max x y) (fmtInt y ++ t) = y :=
      strtol_fmtInt_append (Int.min_le_right x y) (Int.le_max_right x y) ht
    rw [← hx, h, hy]
  subst hxy
  exact ⟨rfl, List.append_cancel_left h⟩

/-! ## Formatted reading -/

/-- Digits, or a sign before digits. -/
def startsNumber : Bytes → Bool
  | [] => false
  | b :: r => isDigit b || ((b == ch '-' || b == ch '+') && r.head?.any isDigit)

/-- `sscanf(s, "%d", &x)`; without a number `x` keeps its value. -/
def scanInt (s : Bytes) : Option Int :=
  if startsNumber (s.dropWhile isSpace) then some (atoi s) else none

/-- `sscanf(s, "%15s", buf)` with a width for the 15; without a word `buf` keeps its content. -/
def scanWord (width : Nat) (s : Bytes) : Option Bytes :=
  match (s.dropWhile isSpace).takeWhile (!isSpace ·) with
  | [] => none
  | b :: w => some ((b :: w).take width)

theorem scanInt_fits {s : Bytes} {x : Int} (h : scanInt s = some x) : FitsInt x := by
  unfold scanInt at h
  split at h
  · cases h
    exact atoi_fits s
  · cases h

/-- A variable `%d` reads into stays an `int`. -/
theorem getD_scanInt_fits {x : Int} (hx : FitsInt x) (s : Bytes) : FitsInt ((scanInt s).getD x) := by
  cases hs : scanInt s with
  | none => exact hx
  | some y => exact scanInt_fits hs

theorem startsNumber_fmtInt_append (x : Int) (s : Bytes) :
    startsNumber ((fmtInt x ++ s).dropWhile isSpace) = true := by
  obtain ⟨b, r, hbr⟩ := List.exists_cons_of_ne_nil (decimal_ne_nil x.natAbs)
  have hb : isDigit b = true := isDigit_of_mem_decimal (n := x.natAbs) (by rw [hbr]; simp)
  unfold fmtInt
  split
  · have hspace : isSpace (ch '-') = false := by decide
    rw [List.cons_append, List.dropWhile_cons_of_neg (by simp [hspace]), hbr]
    simp [startsNumber, hb]
  · rw [hbr, List.cons_append, List.dropWhile_cons_of_neg (by simp [(not_space_of_digit hb).1])]
    simp [startsNumber, hb]

/-- A printed `int` is scanned back, whatever follows it except a digit. -/
theorem scanInt_fmtInt_append {x : Int} (hx : FitsInt x) {s : Bytes} (hs : EndsNumber s) :
    scanInt (fmtInt x ++ s) = some x := by
  rw [scanInt, if_pos (startsNumber_fmtInt_append x s), atoi_fmtInt_append hx hs]

theorem not_space_of_mem_fmtInt {x : Int} {b : UInt8} (h : b ∈ fmtInt x) : isSpace b = false := by
  rcases mem_fmtInt h with hdigit | rfl
  · exact (not_space_of_digit hdigit).1
  · decide

/-- A text that is not empty and has no white space. -/
structure OneWord (w : Bytes) : Prop where
  ne_nil : w ≠ []
  noSpace : ∀ b ∈ w, isSpace b = false

theorem OneWord.not_mem {w : Bytes} (h : OneWord w) {b : UInt8} (hspace : isSpace b = true) : b ∉ w := by
  intro hb
  rw [h.noSpace b hb] at hspace
  cases hspace

theorem scanWord_word {width : Nat} (hwidth : 0 < width) {s w : Bytes}
    (h : scanWord width s = some w) : OneWord w := by
  unfold scanWord at h
  split at h
  · cases h
  · next b r hread =>
    cases h
    refine ⟨by simp [hwidth.ne'], ?_⟩
    intro c hc
    have hmem : c ∈ (s.dropWhile isSpace).takeWhile (!isSpace ·) := hread ▸ List.mem_of_mem_take hc
    simpa using List.mem_takeWhile_imp hmem

theorem scanWord_subset {width : Nat} {s w : Bytes} (h : scanWord width s = some w) : w ⊆ s := by
  unfold scanWord at h
  split at h
  · cases h
  · next b r hread =>
    cases h
    intro c hc
    have hmem : c ∈ (s.dropWhile isSpace).takeWhile (!isSpace ·) := hread ▸ List.mem_of_mem_take hc
    exact (List.dropWhile_suffix _).subset ((List.takeWhile_prefix _).subset hmem)

/-- A word that fits is scanned back, when white space follows or nothing. -/
theorem scanWord_append {width : Nat} {w : Bytes} (hw : OneWord w) (hlen : w.length ≤ width)
    {s : Bytes} (hs : ∀ b r, s = b :: r → isSpace b = true) : scanWord width (w ++ s) = some w := by
  obtain ⟨hne, hspace⟩ := hw
  obtain ⟨b, r, rfl⟩ := List.exists_cons_of_ne_nil hne
  have hb := hspace b List.mem_cons_self
  have hread : (b :: r ++ s).takeWhile (!isSpace ·) = b :: r := by
    rw [List.takeWhile_append_of_pos (by simpa using hspace)]
    cases s with
    | nil => simp
    | cons c t => simp [hs c t rfl]
  rw [scanWord, List.cons_append, List.dropWhile_cons_of_neg (by simp [hb]), ← List.cons_append, hread]
  exact congrArg some (List.take_of_length_le hlen)

end CLib
