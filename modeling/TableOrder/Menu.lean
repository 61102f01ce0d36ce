import TableOrder.Common
import TableOrder.Lib.Decimal

/-!
# The menu catalog (`menu.c`)

The catalog is an array of items looked up by id. `menuUpdateItem` and the setters are one
function, `menuModify`, at their own update. `menuLoadFile` and `menuSaveFile` are the CSV reader
and writer; a file is its content, or `none` where the path does not exist.
-/

namespace TableOrder

open CLib

/-! ## Items -/

/-- `x ? 1 : 0`. -/
def flag (x : Int) : Int := if x = 0 then 0 else 1

/-- The category "기타" of items that name none. -/
def defaultCategory : Category := CStr.copy MAX_CATEGORY (lit "기타")

def menuFillDefaults (m : MenuItem) : MenuItem :=
  { m with
    category := if m.category.bytes = [] then defaultCategory else m.category
    soldOut := flag m.soldOut
    popular := flag m.popular }

/-- The item of a row's fields; `none` when one of the first four is missing. Both readers of
menu rows fill the item this way and differ in the category of a row that has none. -/
def menuItemOfTokens (noCategory : Category) : List Bytes → Option MenuItem
  | idtok :: nametok :: pricetok :: sotok :: rest => some {
      id := atoi idtok
      name := CStr.copy MAX_NAME nametok
      price := atoi pricetok
      soldOut := flag (atoi sotok)
      category := match rest with
        | categorytok :: _ => CStr.copy MAX_CATEGORY categorytok
        | [] => noCategory
      popular := match rest with
        | _ :: populartok :: _ => flag (atoi populartok)
        | _ => 0 }
  | _ => none

theorem menuItemOfTokens_fits {noCategory : Category} {toks : List Bytes} {m : MenuItem}
    (h : menuItemOfTokens noCategory toks = some m) : FitsInt m.id ∧ FitsInt m.price := by
  unfold menuItemOfTokens at h
  split at h
  · cases h
    exact ⟨atoi_fits _, atoi_fits _⟩
  · cases h

/-- The texts of an item are made of bytes of its fields. -/
theorem menuItemOfTokens_texts {noCategory : Category} {toks : List Bytes} {m : MenuItem}
    (h : menuItemOfTokens noCategory toks = some m) {b : UInt8} (htoks : ∀ tok ∈ toks, b ∉ tok)
    (hno : b ∉ noCategory.bytes) : b ∉ m.name.bytes ∧ b ∉ m.category.bytes := by
  unfold menuItemOfTokens at h
  split at h
  · next idtok nametok pricetok sotok rest =>
    obtain rfl := Option.some.inj h
    refine ⟨CStr.not_mem_copy (htoks nametok (by simp)), ?_⟩
    cases rest with
    | nil => exact hno
    | cons categorytok rest => exact CStr.not_mem_copy (htoks categorytok (by simp))
  · cases h

/-! ## Lookup -/

def menuInitCatalog : MenuCatalog := Arr.empty MenuItem MAX_MENU_ITEMS

def menuIndexById (cat : MenuCatalog) (id : Int) : Option Nat :=
  cat.items.findIdx? (·.id == id)

def menuFindById (cat : MenuCatalog) (id : Int) : Option MenuItem :=
  match menuIndexById cat id with
  | none => none
  | some i => cat.items[i]?

theorem menuFindById_eq_some {cat : MenuCatalog} {id : Int} {m : MenuItem}
    (h : menuFindById cat id = some m) : m ∈ cat.items ∧ m.id = id := by
  unfold menuFindById at h
  split at h
  · cases h
  · next i hi =>
    obtain ⟨hlt, hid, -⟩ := List.findIdx?_eq_some_iff_getElem.mp hi
    obtain ⟨_, hm⟩ := List.getElem?_eq_some_iff.mp h
    subst hm
    exact ⟨List.getElem_mem hlt, by simpa using hid⟩

/-- The lookup is the linear search of the source. -/
theorem menuFindById_eq_find? (cat : MenuCatalog) (id : Int) :
    menuFindById cat id = cat.items.find? (·.id == id) := by
  unfold menuFindById menuIndexById
  rw [List.find?_eq_bind_findIdx?_getElem?]
  cases cat.items.findIdx? (·.id == id) <;> rfl

/-! ## Updates -/

/-- One past the largest id, at least 1. -/
def nextMenuId (S : IntSem) (cat : MenuCatalog) : Int :=
  S.norm (cat.items.foldl (fun maxId m => if maxId < m.id then m.id else maxId) 0 + 1)

def menuAddItem (S : IntSem) (cat : MenuCatalog) (item : MenuItem) : Except Bytes MenuCatalog :=
  if MAX_MENU_ITEMS ≤ cat.items.length then
    .error (lit "menu full")
  else
    let copy := menuFillDefaults item
    let copy := if copy.id ≤ 0 then { copy with id := nextMenuId S cat } else copy
    match menuIndexById cat copy.id with
    | some _ => .error (lit "duplicate id")
    | none =>
      match cat.push? copy with
      | some cat' => .ok cat'
      | none => .error (lit "menu full")

/-- Update the entry with this id in place. -/
def menuModify (cat : MenuCatalog) (id : Int) (f : MenuItem → MenuItem) :
    Except Bytes MenuCatalog :=
  match menuIndexById cat id with
  | none => .error (lit "menu id not found")
  | some i => .ok (cat.modify i f)

def menuUpdateItem (cat : MenuCatalog) (id : Int) (item : MenuItem) : Except Bytes MenuCatalog :=
  menuModify cat id fun _ => { menuFillDefaults item with id := id }

def menuSetSoldout (cat : MenuCatalog) (id soldOut : Int) : Except Bytes MenuCatalog :=
  menuModify cat id fun m => { m with soldOut := flag soldOut }

def menuSetCategory (cat : MenuCatalog) (id : Int) (category : Bytes) :
    Except Bytes MenuCatalog :=
  menuModify cat id fun m => { m with
    category := if category = [] then defaultCategory else CStr.copy MAX_CATEGORY category }

def menuSetPopular (cat : MenuCatalog) (id popular : Int) : Except Bytes MenuCatalog :=
  menuModify cat id fun m => { m with popular := flag popular }

def menuDeleteItem (cat : MenuCatalog) (id : Int) : Except Bytes MenuCatalog :=
  match menuIndexById cat id with
  | none => .error (lit "menu id not found")
  | some i => .ok (cat.eraseIdx i)

/-! ## What the updates do -/

theorem menuIndexById_eq_none {cat : MenuCatalog} {id : Int} :
    menuIndexById cat id = none ↔ id ∉ cat.items.map (·.id) := by
  simp [menuIndexById, List.findIdx?_eq_none_iff]

theorem menuIndexById_eq_some {cat : MenuCatalog} {id : Int} {i : Nat}
    (h : menuIndexById cat id = some i) : ∃ m, cat.items[i]? = some m ∧ m.id = id := by
  obtain ⟨hlt, hid, -⟩ := List.findIdx?_eq_some_iff_getElem.mp h
  exact ⟨cat.items[i], List.getElem?_eq_getElem hlt, by simpa using hid⟩

/-- The id an item is added under. -/
def addedId (S : IntSem) (cat : MenuCatalog) (item : MenuItem) : Int :=
  if item.id ≤ 0 then nextMenuId S cat else item.id

/-- Everything `menuAddItem` can do: refuse on a full catalog or a known id, or append the item. -/
theorem menuAddItem_cases (S : IntSem) (cat : MenuCatalog) (item : MenuItem) :
    (menuAddItem S cat item = .error (lit "menu full") ∧ MAX_MENU_ITEMS ≤ cat.items.length) ∨
    (menuAddItem S cat item = .error (lit "duplicate id") ∧
      addedId S cat item ∈ cat.items.map (·.id)) ∨
    ∃ cat', menuAddItem S cat item = .ok cat' ∧ cat.items.length < MAX_MENU_ITEMS ∧
      addedId S cat item ∉ cat.items.map (·.id) ∧
      cat'.items = cat.items ++ [{ menuFillDefaults item with id := addedId S cat item }] := by
  unfold menuAddItem
  split
  · next hfull => exact Or.inl ⟨rfl, hfull⟩
  · next hroom =>
    have hcopy : (if (menuFillDefaults item).id ≤ 0 then
        { menuFillDefaults item with id := nextMenuId S cat } else menuFillDefaults item) =
        { menuFillDefaults item with id := addedId S cat item } := by
      show (if item.id ≤ 0 then _ else _) = _
      unfold addedId
      split <;> rfl
    simp only [hcopy]
    cases hfind : menuIndexById cat (addedId S cat item) with
    | some i =>
      obtain ⟨m, hm, hid⟩ := menuIndexById_eq_some hfind
      exact Or.inr (Or.inl ⟨rfl, hid ▸ List.mem_map_of_mem (List.mem_of_getElem? hm)⟩)
    | none =>
      have hlt : cat.items.length < MAX_MENU_ITEMS := Nat.lt_of_not_le hroom
      refine Or.inr (Or.inr ⟨_, ?_, hlt, menuIndexById_eq_none.mp hfind, Arr.push_items _ _ hlt⟩)
      simp only [Arr.push?_of_lt hlt]

/-- An update changes the entry that the lookup finds, and fails without one. -/
theorem menuModify_cases (cat : MenuCatalog) (id : Int) (f : MenuItem → MenuItem) :
    (menuModify cat id f = .error (lit "menu id not found") ∧ id ∉ cat.items.map (·.id)) ∨
    ∃ cat' i m, menuModify cat id f = .ok cat' ∧ cat.items[i]? = some m ∧ m.id = id ∧
      cat'.items = cat.items.set i (f m) := by
  unfold menuModify
  cases hfind : menuIndexById cat id with
  | none => exact Or.inl ⟨rfl, menuIndexById_eq_none.mp hfind⟩
  | some i =>
    obtain ⟨m, hm, hid⟩ := menuIndexById_eq_some hfind
    exact Or.inr ⟨_, i, m, rfl, hm, hid, modify_eq_set hm⟩

theorem menuDeleteItem_cases (cat : MenuCatalog) (id : Int) :
    (menuDeleteItem cat id = .error (lit "menu id not found") ∧ id ∉ cat.items.map (·.id)) ∨
    ∃ cat' i m, menuDeleteItem cat id = .ok cat' ∧ cat.items[i]? = some m ∧ m.id = id ∧
      cat'.items = cat.items.eraseIdx i := by
  unfold menuDeleteItem
  cases hfind : menuIndexById cat id with
  | none => exact Or.inl ⟨rfl, menuIndexById_eq_none.mp hfind⟩
  | some i =>
    obtain ⟨m, hm, hid⟩ := menuIndexById_eq_some hfind
    exact Or.inr ⟨_, i, m, rfl, hm, hid, rfl⟩

/-- The largest id, from the largest so far. -/
theorem foldl_maxId (ms : List MenuItem) (maxId : Int) :
    let top := ms.foldl (fun maxId m => if maxId < m.id then m.id else maxId) maxId
    (top = maxId ∨ top ∈ ms.map (·.id)) ∧ maxId ≤ top ∧ ∀ m ∈ ms, m.id ≤ top := by
  induction ms generalizing maxId with
  | nil => simp
  | cons m ms ih =>
    obtain ⟨hfrom, hstart, hall⟩ := ih (if maxId < m.id then m.id else maxId)
    intro top
    refine ⟨?_, ?_, ?_⟩ <;> grind

/-- With exact integers the next id is a new one. -/
theorem nextMenuId_exact (cat : MenuCatalog) :
    0 < nextMenuId .exact cat ∧ ∀ m ∈ cat.items, m.id < nextMenuId .exact cat := by
  obtain ⟨-, hstart, hall⟩ := foldl_maxId cat.items 0
  rw [nextMenuId, IntSem.exact_norm]
  refine ⟨by omega, fun m hm => ?_⟩
  have hle := hall m hm
  omega

/-- With C integers it is too, up to the largest `int`, after which the smallest comes. -/
theorem nextMenuId_wrap {cat : MenuCatalog} (hfits : ∀ m ∈ cat.items, FitsInt m.id) :
    ((∀ m ∈ cat.items, m.id ≠ 2147483647) ∧ nextMenuId .wrap cat = nextMenuId .exact cat) ∨
      ((∃ m ∈ cat.items, m.id = 2147483647) ∧ nextMenuId .wrap cat = -2147483648) := by
  obtain ⟨hfrom, hstart, hall⟩ := foldl_maxId cat.items 0
  rw [nextMenuId, nextMenuId, IntSem.exact_norm]
  generalize cat.items.foldl (fun maxId m => if maxId < m.id then m.id else maxId) 0 = top at *
  have htop : top ≤ 2147483647 := by
    rcases hfrom with rfl | hmem
    · omega
    · obtain ⟨m, hm, rfl⟩ := List.mem_map.mp hmem
      exact (hfits m hm).2
  by_cases hmax : ∃ m ∈ cat.items, m.id = 2147483647
  · right
    obtain ⟨m, hm, hid⟩ := hmax
    have hle := hall m hm
    have htop : top = 2147483647 := by omega
    rw [htop]
    exact ⟨⟨m, hm, hid⟩, rfl⟩
  · left
    have hno : ∀ m ∈ cat.items, m.id ≠ 2147483647 := fun m hm hid => hmax ⟨m, hm, hid⟩
    refine ⟨hno, IntSem.wrap.norm_of_fits _ ⟨by omega, ?_⟩⟩
    rcases hfrom with rfl | hmem
    · omega
    · obtain ⟨m, hm, rfl⟩ := List.mem_map.mp hmem
      have hne := hno m hm
      omega

/-! ## The CSV file -/

/-- The file written when there is no menu, or none of its rows is good. -/
def defaultMenuFile : Bytes :=
  lit "id,name,price,soldout,category,popular\n" ++
  lit "1,Kimchi Fried Rice,9000,0,식사,1\n" ++
  lit "2,Soy Sauce Egg Rice,7500,0,식사,0\n" ++
  lit "3,Miso Soup,3000,0,사이드,0\n" ++
  lit "4,Ice Americano,4500,0,음료,1\n" ++
  lit "5,Latte,5000,0,음료,0\n"

def parseHeaderOk (line : Bytes) : Bool :=
  (strstr (lit "id") line).isSome && (strstr (lit "name") line).isSome &&
    (strstr (lit "price") line).isSome

/-- The loop over the rows after the header. A row with too few fields is skipped and so is one
without an id or a name; a full catalog ends the loop. -/
def menuLoadRows (cat : MenuCatalog) : List Bytes → MenuCatalog
  | [] => cat
  | line :: lines =>
    match menuItemOfTokens (CStr.empty MAX_CATEGORY) (tokens (ch ',') (clip 512 line)) with
    | none => menuLoadRows cat lines
    | some m =>
      let m := menuFillDefaults m
      match cat.push? m with
      | none => cat
      | some cat' =>
        if 0 < m.id ∧ m.name.bytes ≠ [] then menuLoadRows cat' lines else menuLoadRows cat lines

/-- The catalog of a file's text; the error leaves the catalog reset. -/
def menuLoadText (text : Bytes) : Except Bytes MenuCatalog :=
  match tokens (ch '\n') ((clip 65536 text).takeWhile (· ≠ 0)) with
  | [] => .ok menuInitCatalog
  | header :: rows =>
    if parseHeaderOk (clip 512 header) then .ok (menuLoadRows menuInitCatalog rows)
    else .error (lit "bad csv header")

/-- The catalog, the file afterwards, and the error text. A missing file and a file without a
good row are replaced by the default menu, which is then loaded. -/
def menuLoadFile (file : Option Bytes) : MenuCatalog × Bytes × Option Bytes :=
  let text := file.getD defaultMenuFile
  match menuLoadText text with
  | .error e => (menuInitCatalog, text, some e)
  | .ok cat =>
    if cat.items.length = 0 then
      match menuLoadText defaultMenuFile with
      | .error e => (menuInitCatalog, defaultMenuFile, some e)
      | .ok cat => (cat, defaultMenuFile, none)
    else (cat, text, none)

/-- The dishes of the default menu. -/
def defaultMenu : MenuCatalog where
  items :=
    let meal := CStr.copy MAX_CATEGORY (lit "식사")
    let side := CStr.copy MAX_CATEGORY (lit "사이드")
    let drink := CStr.copy MAX_CATEGORY (lit "음료")
    [⟨1, CStr.copy MAX_NAME (lit "Kimchi Fried Rice"), meal, 9000, 0, 1⟩,
      ⟨2, CStr.copy MAX_NAME (lit "Soy Sauce Egg Rice"), meal, 7500, 0, 0⟩,
      ⟨3, CStr.copy MAX_NAME (lit "Miso Soup"), side, 3000, 0, 0⟩,
      ⟨4, CStr.copy MAX_NAME (lit "Ice Americano"), drink, 4500, 0, 1⟩,
      ⟨5, CStr.copy MAX_NAME (lit "Latte"), drink, 5000, 0, 0⟩]
  bound := by decide

theorem menuLoadFile_none : menuLoadFile none = (defaultMenu, defaultMenuFile, none) := by
  decide +kernel

/-- What holds of every good row holds of every loaded item. The fields of a row hold neither a
comma nor a newline. -/
theorem menuLoadRows_forall {P : MenuItem → Prop}
    (hrow : ∀ toks m, (∀ tok ∈ toks, ch ',' ∉ tok ∧ ch '\n' ∉ tok) →
      menuItemOfTokens (CStr.empty MAX_CATEGORY) toks = some m → 0 < m.id → m.name.bytes ≠ [] →
      P (menuFillDefaults m)) {cat : MenuCatalog} (hcat : ∀ m ∈ cat.items, P m) {rows : List Bytes}
    (hrows : ∀ row ∈ rows, ch '\n' ∉ row) : ∀ m ∈ (menuLoadRows cat rows).items, P m := by
  induction rows generalizing cat with
  | nil => exact hcat
  | cons line rows ih =>
    have hlater : ∀ row ∈ rows, ch '\n' ∉ row := fun row h => hrows row (List.mem_cons_of_mem line h)
    unfold menuLoadRows
    split
    · exact ih hcat hlater
    · next m hm =>
      simp only
      split
      · exact hcat
      · next cat' hpush =>
        split
        · next hgood =>
          apply ih _ hlater
          obtain ⟨-, hitems⟩ := Arr.push?_eq_some.mp hpush
          intro v hv
          rw [hitems, List.mem_append, List.mem_singleton] at hv
          rcases hv with hv | rfl
          · exact hcat v hv
          · refine hrow _ m ?_ hm hgood.1 hgood.2
            intro tok htok
            obtain ⟨-, hcomma, hsub⟩ := mem_tokens htok
            refine ⟨hcomma, ?_⟩
            intro hnl
            exact hrows line List.mem_cons_self (mem_of_mem_clip (hsub _ hnl))
        · exact ih hcat hlater

theorem menuLoadFile_forall {P : MenuItem → Prop}
    (hrow : ∀ toks m, (∀ tok ∈ toks, ch ',' ∉ tok ∧ ch '\n' ∉ tok) →
      menuItemOfTokens (CStr.empty MAX_CATEGORY) toks = some m → 0 < m.id → m.name.bytes ≠ [] →
      P (menuFillDefaults m)) (file : Option Bytes) :
    ∀ m ∈ (menuLoadFile file).1.items, P m := by
  have htext : ∀ text cat, menuLoadText text = .ok cat → ∀ m ∈ cat.items, P m := by
    intro text cat h
    unfold menuLoadText at h
    split at h
    · cases h
      simp [menuInitCatalog]
    · next header rows heq =>
      split at h
      · cases h
        apply menuLoadRows_forall hrow (by simp [menuInitCatalog])
        intro row hmem
        exact (mem_tokens (by rw [heq]; exact List.mem_cons_of_mem header hmem)).2.1
      · cases h
  unfold menuLoadFile
  simp only
  split
  · simp [menuInitCatalog]
  · next cat hcat =>
    split
    · split
      · simp [menuInitCatalog]
      · next cat' hcat' => exact htext _ cat' hcat'
    · exact htext _ cat hcat

/-- One row as `snprintf` formats it. -/
def menuRow (m : MenuItem) : Bytes :=
  fmtInt m.id ++ lit "," ++ m.name.bytes ++ lit "," ++ fmtInt m.price ++ lit "," ++
    fmtInt (flag m.soldOut) ++ lit "," ++
    (if m.category.bytes = [] then lit "기타" else m.category.bytes) ++ lit "," ++
    fmtInt (flag m.popular) ++ lit "\n"

/-- The file `menu_save_file` writes. -/
def menuSaveFile (cat : MenuCatalog) : Bytes :=
  lit "id,name,price,soldout,category,popular\n" ++ cat.items.flatMap menuRow

/-! ## One row and back

The file and the menu response write an item as the same six fields between commas. An item whose
name and category hold no comma, and are there at all, is read back from them. -/

structure MenuItem.Fits (m : MenuItem) : Prop where
  id : FitsInt m.id
  price : FitsInt m.price

/-- The fields before the last comma. -/
def MenuItem.fields (m : MenuItem) : List Bytes :=
  [fmtInt m.id, m.name.bytes, fmtInt m.price, fmtInt m.soldOut, m.category.bytes]

/-- `"%d,%s,%d,%d,%s,%d"`. -/
def MenuItem.csv (m : MenuItem) : Bytes := m.fields.flatMap (· ++ [ch ',']) ++ fmtInt m.popular

/-- The fields of the item are found again in its row. -/
structure MenuItem.Readable (m : MenuItem) : Prop extends m.Fits where
  pos : 0 < m.id
  named : m.name.bytes ≠ []
  filled : menuFillDefaults m = m
  name : ch ',' ∉ m.name.bytes
  category : ch ',' ∉ m.category.bytes

@[simp] theorem flag_flag (x : Int) : flag (flag x) = flag x := by
  unfold flag
  split <;> simp

theorem flag_fits (x : Int) : FitsInt (flag x) := by
  unfold flag
  split <;> decide

theorem menuFillDefaults_category_ne_nil (m : MenuItem) : (menuFillDefaults m).category.bytes ≠ [] := by
  unfold menuFillDefaults
  simp only
  split
  · decide
  · assumption

theorem menuFillDefaults_category (m : MenuItem) : (menuFillDefaults m).category.bytes =
    if m.category.bytes = [] then lit "기타" else m.category.bytes := by
  unfold menuFillDefaults
  simp only
  split
  · rfl
  · rfl

theorem menuFillDefaults_of {m : MenuItem} (hcat : m.category.bytes ≠ [])
    (hsold : flag m.soldOut = m.soldOut) (hpop : flag m.popular = m.popular) :
    menuFillDefaults m = m := by
  unfold menuFillDefaults
  rw [if_neg hcat, hsold, hpop]

theorem menuFillDefaults_idem (m : MenuItem) :
    menuFillDefaults (menuFillDefaults m) = menuFillDefaults m :=
  menuFillDefaults_of (menuFillDefaults_category_ne_nil m) (flag_flag _) (flag_flag _)

theorem MenuItem.Readable.tokens_csv {m : MenuItem} (h : m.Readable) :
    tokens (ch ',') m.csv = m.fields ++ [fmtInt m.popular] := by
  have hnum (x : Int) : ch ',' ∉ fmtInt x := not_mem_fmtInt (by decide) (by decide) x
  have hcat : m.category.bytes ≠ [] := h.filled ▸ menuFillDefaults_category_ne_nil m
  rw [MenuItem.csv, tokens_fields, tokens_word (fmtInt_ne_nil _) (hnum _)]
  · intro w hw
    simp only [MenuItem.fields, List.mem_cons, List.not_mem_nil, or_false] at hw
    rcases hw with rfl | rfl | rfl | rfl | rfl
    · exact fmtInt_ne_nil _
    · exact h.named
    · exact fmtInt_ne_nil _
    · exact fmtInt_ne_nil _
    · exact hcat
  · intro w hw
    simp only [MenuItem.fields, List.mem_cons, List.not_mem_nil, or_false] at hw
    rcases hw with rfl | rfl | rfl | rfl | rfl
    · exact hnum _
    · exact h.name
    · exact hnum _
    · exact hnum _
    · exact h.category

/-- A row is read back, whatever a row without a category would get. -/
theorem MenuItem.Readable.of_tokens_csv {m : MenuItem} (h : m.Readable) (noCategory : Category) :
    menuItemOfTokens noCategory (tokens (ch ',') m.csv) = some m := by
  have hsold : flag m.soldOut = m.soldOut := congrArg MenuItem.soldOut h.filled
  have hpop : flag m.popular = m.popular := congrArg MenuItem.popular h.filled
  have hsoldFits : FitsInt m.soldOut := hsold ▸ flag_fits m.soldOut
  have hpopFits : FitsInt m.popular := hpop ▸ flag_fits m.popular
  rw [h.tokens_csv]
  simp only [MenuItem.fields, List.cons_append, List.nil_append, menuItemOfTokens, atoi_fmtInt h.id,
    atoi_fmtInt h.price, atoi_fmtInt hsoldFits, atoi_fmtInt hpopFits, CStr.copy_self, hsold, hpop]

/-- A row holds digits, signs, commas and the two texts. -/
theorem MenuItem.not_mem_csv {m : MenuItem} {b : UInt8} (hdigit : isDigit b = false)
    (hminus : b ≠ ch '-') (hcomma : b ≠ ch ',') (hname : b ∉ m.name.bytes)
    (hcat : b ∉ m.category.bytes) : b ∉ m.csv := by
  have hnum (x : Int) : b ∉ fmtInt x := not_mem_fmtInt hdigit hminus x
  simp [MenuItem.csv, MenuItem.fields, hnum, hcomma, hname, hcat]

theorem MenuItem.Fits.length_csv_le {m : MenuItem} (h : m.Fits)
    (hfilled : menuFillDefaults m = m) : m.csv.length ≤ 175 := by
  have hsold : FitsInt m.soldOut := congrArg MenuItem.soldOut hfilled ▸ flag_fits m.soldOut
  have hpop : FitsInt m.popular := congrArg MenuItem.popular hfilled ▸ flag_fits m.popular
  have h1 := length_fmtInt_le h.id
  have h2 := length_fmtInt_le h.price
  have h3 := length_fmtInt_le hsold
  have h4 := length_fmtInt_le hpop
  have h5 : m.name.bytes.length < 96 := m.name.fits
  have h6 : m.category.bytes.length < 32 := m.category.fits
  simp [MenuItem.csv, MenuItem.fields]
  omega

theorem MenuItem.csv_ne_nil (m : MenuItem) : m.csv ≠ [] := by
  simp [MenuItem.csv, MenuItem.fields]

/-! ## The file and back -/

theorem menuRow_eq (m : MenuItem) : menuRow m = (menuFillDefaults m).csv ++ [ch '\n'] := by
  have hcomma : lit "," = [ch ','] := by decide
  have hend : lit "\n" = [ch '\n'] := by decide
  simp only [menuRow, MenuItem.csv, MenuItem.fields, menuFillDefaults_category]
  simp [menuFillDefaults, hcomma, hend]

/-- Rows of readable items are appended to the catalog, as long as there is room. -/
theorem menuLoadRows_csv (cat : MenuCatalog) {ms : List MenuItem} (hms : ∀ m ∈ ms, m.Readable)
    (hroom : cat.items.length + ms.length ≤ MAX_MENU_ITEMS) :
    (menuLoadRows cat (ms.map MenuItem.csv)).items = cat.items ++ ms := by
  induction ms generalizing cat with
  | nil => simp [menuLoadRows]
  | cons m ms ih =>
    have hm := hms m (by simp)
    rw [List.length_cons] at hroom
    have hlen := hm.toFits.length_csv_le hm.filled
    have hpush := Arr.push?_of_lt (a := cat) (x := m) (by omega)
    rw [List.map_cons, menuLoadRows, clip_eq_self (by omega), hm.of_tokens_csv]
    simp only [hm.filled, hpush, hm.pos, hm.named, ne_eq, not_false_eq_true, and_self, if_true]
    rw [ih _ (fun v hv => hms v (by simp [hv])) (by simp; omega), Arr.push_items]
    simp

/-- The lines of a saved file: the header and one row for each item. -/
theorem menuSaveFile_eq (cat : MenuCatalog) : menuSaveFile cat =
    (lit "id,name,price,soldout,category,popular" ::
      (cat.items.map menuFillDefaults).map MenuItem.csv).flatMap (· ++ [ch '\n']) := by
  have hrows : cat.items.flatMap menuRow =
      ((cat.items.map menuFillDefaults).map MenuItem.csv).flatMap (· ++ [ch '\n']) := by
    rw [List.map_map, List.flatMap_map]
    exact List.flatMap_congr fun m _ => menuRow_eq m
  rw [menuSaveFile, hrows]
  rfl

theorem length_menuSaveFile_lt {cat : MenuCatalog} (hfits : ∀ m ∈ cat.items, m.Fits) :
    (menuSaveFile cat).length < 65536 := by
  have hrows : (cat.items.flatMap menuRow).length ≤ 176 * cat.items.length := by
    apply length_flatMap_le
    intro m hm
    have hfilled : (menuFillDefaults m).Fits := ⟨(hfits m hm).id, (hfits m hm).price⟩
    have hlen := hfilled.length_csv_le (menuFillDefaults_idem m)
    rw [menuRow_eq, List.length_append, List.length_singleton]
    omega
  have hheader : (lit "id,name,price,soldout,category,popular\n").length = 39 := by decide
  have hbound : cat.items.length ≤ 128 := cat.bound
  rw [menuSaveFile, List.length_append, hheader]
  omega

/-- A saved catalog of readable items whose texts are one line each is loaded again. -/
theorem menuLoadFile_saved {cat : MenuCatalog} (hne : cat.items ≠ [])
    (hread : ∀ m ∈ cat.items, (menuFillDefaults m).Readable)
    (hline : ∀ m ∈ cat.items, ch '\n' ∉ m.name.bytes ∧ ch '\n' ∉ m.category.bytes) :
    (menuLoadFile (some (menuSaveFile cat))).1.items = cat.items.map menuFillDefaults ∧
      (menuLoadFile (some (menuSaveFile cat))).2.2 = none := by
  let rows := (cat.items.map menuFillDefaults).map MenuItem.csv
  have hcategory {b : UInt8} {m : MenuItem} (hb : b ∉ m.category.bytes) (hdefault : b ∉ lit "기타") :
      b ∉ (menuFillDefaults m).category.bytes := by
    rw [menuFillDefaults_category]
    split
    · exact hdefault
    · exact hb
  have hrow {b : UInt8} (hdigit : isDigit b = false) (hminus : b ≠ ch '-') (hcomma : b ≠ ch ',')
      (hdefault : b ∉ lit "기타")
      (htexts : ∀ m ∈ cat.items, b ∉ m.name.bytes ∧ b ∉ m.category.bytes) : ∀ row ∈ rows, b ∉ row := by
    intro row hrow
    obtain ⟨_, hfilled, rfl⟩ := List.mem_map.mp hrow
    obtain ⟨m, hm, rfl⟩ := List.mem_map.mp hfilled
    obtain ⟨hname, hcat⟩ := htexts m hm
    exact MenuItem.not_mem_csv hdigit hminus hcomma hname (hcategory hcat hdefault)
  have hnul : ∀ b ∈ menuSaveFile cat, b ≠ 0 := by
    intro b hb h0
    subst h0
    rw [menuSaveFile_eq] at hb
    obtain ⟨line, hmem, hb⟩ := List.mem_flatMap.mp hb
    rcases List.mem_append.mp hb with hb | hb
    · rcases List.mem_cons.mp hmem with rfl | hmem
      · revert hb
        decide
      · exact hrow (by decide) (by decide) (by decide) (by decide)
          (fun m _ => ⟨m.name.noNul, m.category.noNul⟩) line hmem hb
    · revert hb
      decide
  have hlines : tokens (ch '\n') ((clip 65536 (menuSaveFile cat)).takeWhile (· ≠ 0)) =
      lit "id,name,price,soldout,category,popular" :: rows := by
    rw [clip_eq_self (length_menuSaveFile_lt fun m hm => ⟨(hread m hm).id, (hread m hm).price⟩),
      List.takeWhile_eq_self_iff.mpr (by simpa using hnul), menuSaveFile_eq,
      ← List.append_nil (List.flatMap _ _), tokens_fields]
    · simp [rows]
    · intro w hw
      rcases List.mem_cons.mp hw with rfl | hw
      · decide
      · obtain ⟨m, -, rfl⟩ := List.mem_map.mp hw
        exact m.csv_ne_nil
    · intro w hw
      rcases List.mem_cons.mp hw with rfl | hw
      · decide
      · exact hrow (by decide) (by decide) (by decide) (by decide) hline w hw
  have hloaded : (menuLoadRows menuInitCatalog rows).items = cat.items.map menuFillDefaults := by
    rw [menuLoadRows_csv]
    · simp [menuInitCatalog]
    · intro _ hfilled
      obtain ⟨m, hm, rfl⟩ := List.mem_map.mp hfilled
      exact hread m hm
    · simpa [menuInitCatalog] using cat.bound
  have htext : menuLoadText (menuSaveFile cat) = .ok (menuLoadRows menuInitCatalog rows) := by
    unfold menuLoadText
    rw [hlines]
    exact if_pos (by decide)
  have hcount : (menuLoadRows menuInitCatalog rows).items.length ≠ 0 := by
    rw [hloaded, List.length_map]
    simpa using hne
  unfold menuLoadFile
  simp only [Option.getD_some, htext, hcount, if_false]
  exact ⟨hloaded, trivial⟩

end TableOrder
