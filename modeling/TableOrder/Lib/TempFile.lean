import Mathlib.Data.List.Basic

/-!
# Replacing a file through a temporary one

The new text of a file is written under a second name, which is then renamed. A descriptor belongs to
an inode and not to a name: after the rename it is a descriptor of the file itself, and a second
`open` of the temporary name gives the same inode as the first while there was no rename.

`Owns` says that the temporary name still belongs to one writer. Its lemmas take a writer that is
not disturbed from `open` to `rename`; until then the file stays as it is.
-/

namespace TempFile

/-- The two names in a directory and the files they are links to. -/
structure Disk (α : Type) where
  inodes : List (List α)
  path : Option Nat
  tmp : Option Nat
  path_lt : ∀ i ∈ path, i < inodes.length
  tmp_lt : ∀ i ∈ tmp, i < inodes.length
  apart : ∀ i ∈ path, i ∉ tmp

variable {α : Type}

namespace Disk

def content (d : Disk α) (i : Nat) : List α := d.inodes.getD i []

/-- The text of the file, if there is one. -/
def read (d : Disk α) : Option (List α) := d.path.map d.content

/-- A directory with this file and no temporary one. -/
def ofFile (text : Option (List α)) : Disk α where
  inodes := text.toList
  path := text.map fun _ => 0
  tmp := none
  path_lt := by cases text <;> simp
  tmp_lt := by simp
  apart := by simp

/-- `open` of the temporary name with `O_CREAT` and `O_TRUNC`. -/
def openTmp (d : Disk α) : Nat × Disk α :=
  match h : d.tmp with
  | some i =>
    (i, { d with
      inodes := d.inodes.set i []
      path_lt := by simpa using d.path_lt
      tmp_lt := by simpa using d.tmp_lt })
  | none =>
    (d.inodes.length, { d with
      inodes := d.inodes ++ [[]]
      tmp := some d.inodes.length
      path_lt := fun i hi => by
        have hlt := d.path_lt i hi
        simp
        omega
      tmp_lt := by simp
      apart := fun i hi hlen => by
        have hlt := d.path_lt i hi
        simp at hlen
        omega })

/-- The first `write` through a descriptor, over what the file holds. -/
def write (d : Disk α) (fd : Nat) (text : List α) : Disk α :=
  { d with
    inodes := d.inodes.modify fd fun old => text ++ old.drop text.length
    path_lt := by simpa using d.path_lt
    tmp_lt := by simpa using d.tmp_lt }

/-- `rename` of the temporary name; it fails when there is none. -/
def rename (d : Disk α) : Bool × Disk α :=
  match h : d.tmp with
  | some i =>
    (true, { d with
      path := some i
      tmp := none
      path_lt := fun j hj => d.tmp_lt j (by rw [h]; exact hj)
      tmp_lt := by simp
      apart := by simp })
  | none => (false, d)

@[simp] theorem read_ofFile (text : Option (List α)) : (ofFile text).read = text := by
  cases text <;> rfl

theorem read_congr {d d' : Disk α} (hpath : d'.path = d.path)
    (h : ∀ i ∈ d.path, d'.content i = d.content i) : d'.read = d.read := by
  unfold read
  rw [hpath]
  exact Option.map_congr h

/-- Opening the temporary name leaves the file as it is. -/
@[simp] theorem read_openTmp (d : Disk α) : d.openTmp.2.read = d.read := by
  unfold openTmp
  split
  · next i h =>
    refine read_congr rfl ?_
    intro j hj
    have hne : i ≠ j := by
      rintro rfl
      exact d.apart i hj (by rw [h]; rfl)
    simp [content, List.getD_eq_getElem?_getD, List.getElem?_set_ne hne]
  · refine read_congr rfl ?_
    intro j hj
    have hlt := d.path_lt j hj
    simp [content, List.getD_eq_getElem?_getD, List.getElem?_append_left hlt]

end Disk

/-! ## One writer -/

/-- The temporary name is a link to this inode, which holds this text. -/
structure Owns (d : Disk α) (fd : Nat) (text : List α) : Prop where
  tmp : d.tmp = some fd
  content : d.content fd = text

theorem owns_openTmp (d : Disk α) : Owns d.openTmp.2 d.openTmp.1 [] := by
  unfold Disk.openTmp
  split
  · next i h =>
    refine ⟨h, ?_⟩
    have hlt := d.tmp_lt i (by rw [h]; rfl)
    simp [Disk.content, List.getD_eq_getElem?_getD, hlt]
  · refine ⟨rfl, ?_⟩
    simp [Disk.content, List.getD_eq_getElem?_getD]

section Writer

variable {d : Disk α} {fd : Nat} {old : List α}

theorem Owns.write (h : Owns d fd []) (text : List α) : Owns (d.write fd text) fd text where
  tmp := h.tmp
  content := by
    have hlt := d.tmp_lt fd (by rw [h.tmp]; rfl)
    have hempty := h.content
    unfold Disk.content at hempty
    rw [List.getD_eq_getElem?_getD, List.getElem?_eq_getElem hlt] at hempty
    have hnil : d.inodes[fd] = [] := hempty
    simp [Disk.content, Disk.write, List.getD_eq_getElem?_getD, hlt, hnil]

/-- What the owner writes is not in the file. -/
theorem Owns.read_write (h : Owns d fd old) (text : List α) : (d.write fd text).read = d.read := by
  refine Disk.read_congr rfl ?_
  intro j hj
  have hne : fd ≠ j := by
    rintro rfl
    exact d.apart fd hj (by rw [h.tmp]; rfl)
  simp [Disk.content, Disk.write, List.getD_eq_getElem?_getD, hne]

theorem Owns.rename (h : Owns d fd old) : d.rename.1 = true ∧ d.rename.2.read = some old := by
  unfold Disk.rename
  split
  · next i hi =>
    obtain rfl : i = fd := Option.some.inj (hi.symm.trans h.tmp)
    refine ⟨rfl, ?_⟩
    simpa [Disk.read, Disk.content] using h.content
  · next hi =>
    rw [h.tmp] at hi
    cases hi

end Writer

end TempFile
