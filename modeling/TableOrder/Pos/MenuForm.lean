import TableOrder.Pos.MenuFile

/-!
# The form of the catalog (`menu_load_file`, `ui_run_pos`)

Distinct positive ids, names, flags: the loader asks each row for an id and a name, the add prompt
asks for a name, and no one looks at all of it. The catalog is well formed all along exactly when the
rows of the file have distinct ids, no edit clears a name, and nothing is added after the largest id
there is (`wellFormed_iff`).
-/

namespace TableOrder

open CLib

/-! ## The rows of the file -/

/-- The item of a row, if the row has an id and a name. -/
def goodRow (row : Bytes) : Option MenuItem :=
  ((menuItemOfTokens (CStr.empty MAX_CATEGORY) (tokens (ch ',') (clip 512 row))).map
    menuFillDefaults).filter fun m => 0 < m.id ∧ m.name.bytes ≠ []

/-- The rows behind the first line, which a file that loads has as its header (`menuFileRows` counts a
first line that is none). -/
def fileRows (text : Bytes) : List Bytes :=
  (tokens (ch '\n') ((clip 65536 text).takeWhile (· ≠ 0))).tail

/-- The items that a file has, as many as a catalog takes. -/
def fileItems (text : Bytes) : List MenuItem :=
  ((fileRows text).filterMap goodRow).take MAX_MENU_ITEMS

/-- No two of these rows have the same id. -/
def DistinctRows (file : Option Bytes) : Prop :=
  ((fileItems (file.getD defaultMenuFile)).map (·.id)).Nodup

theorem menuLoadRows_items (cat : MenuCatalog) (rows : List Bytes) :
    (menuLoadRows cat rows).items =
      cat.items ++ (rows.filterMap goodRow).take (MAX_MENU_ITEMS - cat.items.length) := by
  induction rows generalizing cat with
  | nil => simp [menuLoadRows]
  | cons row rows ih =>
    unfold menuLoadRows
    rw [List.filterMap_cons, goodRow]
    cases hrow : menuItemOfTokens (CStr.empty MAX_CATEGORY) (tokens (ch ',') (clip 512 row)) with
    | none => exact ih cat
    | some m =>
      simp only [Option.map_some]
      by_cases hroom : cat.items.length < MAX_MENU_ITEMS
      · rw [Arr.push?_of_lt hroom]
        by_cases hgood : 0 < (menuFillDefaults m).id ∧ (menuFillDefaults m).name.bytes ≠ []
        · have hleft : MAX_MENU_ITEMS - cat.items.length =
              (MAX_MENU_ITEMS - (cat.items.length + 1)) + 1 := by omega
          simp only [hgood, if_true, Option.filter_some, decide_true, ne_eq, not_false_eq_true,
            and_self]
          rw [ih, Arr.push_items, List.length_append, List.length_singleton, hleft,
            List.take_succ_cons, List.append_assoc, List.singleton_append]
        · simp only [hgood, if_false, Option.filter_some, decide_false, Bool.false_eq_true]
          exact ih cat
      · -- a full catalog ends the loop
        have hfull : cat.push? (menuFillDefaults m) = none := by
          cases hpush : cat.push? (menuFillDefaults m) with
          | none => rfl
          | some cat' => exact absurd (Arr.push?_eq_some.mp hpush).1 hroom
        rw [hfull, Nat.sub_eq_zero_of_le (Nat.le_of_not_lt hroom), List.take_zero, List.append_nil]

theorem menuLoadText_items {text : Bytes} {cat : MenuCatalog} (h : menuLoadText text = .ok cat) :
    cat.items = fileItems text := by
  unfold menuLoadText at h
  unfold fileItems fileRows
  cases hlines : tokens (ch '\n') ((clip 65536 text).takeWhile (· ≠ 0)) with
  | nil =>
    rw [hlines] at h
    obtain rfl := Except.ok.inj h
    rfl
  | cons header rows =>
    rw [hlines] at h
    simp only at h
    split at h
    · obtain rfl := Except.ok.inj h
      rw [menuLoadRows_items]
      rfl
    · cases h

/-- The catalog is the file's, or the default menu if the file has no items. -/
theorem started_menu {boot w : World} (h : serverLoadPersistent boot = (.ok (), w)) :
    w.ctx.menu.items = fileItems (boot.menuFile.getD defaultMenuFile) ∨
      (fileItems (boot.menuFile.getD defaultMenuFile) = [] ∧
        w.ctx.menu.items = fileItems defaultMenuFile) := by
  have hloaded : (menuLoadFile boot.menuFile).2.2 = none ∧
      w.ctx.menu = (menuLoadFile boot.menuFile).1 := by
    unfold serverLoadPersistent at h
    simp only at h
    split at h
    · cases h
    · next hnone =>
      obtain rfl := (Prod.mk.inj h).2
      exact ⟨hnone, rfl⟩
  obtain ⟨hok, hmenu⟩ := hloaded
  rw [hmenu]
  unfold menuLoadFile at hok ⊢
  simp only at hok ⊢
  cases htext : menuLoadText (boot.menuFile.getD defaultMenuFile) with
  | error e =>
    rw [htext] at hok
    cases hok
  | ok cat =>
    have hitems := menuLoadText_items htext
    rw [htext] at hok
    simp only at hok ⊢
    split at hok
    · next hempty =>
      rw [if_pos hempty]
      right
      refine ⟨hitems ▸ List.eq_nil_of_length_eq_zero hempty, ?_⟩
      cases hdefault : menuLoadText defaultMenuFile with
      | error e =>
        rw [hdefault] at hok
        cases hok
      | ok cat' => exact menuLoadText_items hdefault
    · next hsome =>
      rw [if_neg hsome]
      exact .inl hitems

/-! ## Well-formed catalogs -/

structure MenuItem.WellFormed (m : MenuItem) : Prop where
  id : 0 < m.id
  name : m.name.bytes ≠ []
  soldOut : m.soldOut = 0 ∨ m.soldOut = 1
  popular : m.popular = 0 ∨ m.popular = 1

structure WellFormed (cat : MenuCatalog) : Prop where
  count : cat.items.length ≤ MAX_MENU_ITEMS
  ids : (cat.items.map (·.id)).Nodup
  items : ∀ m ∈ cat.items, m.WellFormed

/-- Distinct ids, and well-formed items under them. -/
abbrev Formed (items : List MenuItem) : Prop := OrdMap.Keyed (·.id) MenuItem.WellFormed items

theorem wellFormed_iff_formed {cat : MenuCatalog} : WellFormed cat ↔ Formed cat.items :=
  ⟨fun h => ⟨h.ids, h.items⟩, fun h => ⟨cat.bound, h.nodup, h.all⟩⟩

theorem flag_cases (x : Int) : flag x = 0 ∨ flag x = 1 := by
  unfold flag
  split
  · exact .inl rfl
  · exact .inr rfl

theorem MenuItem.WellFormed.filled {m : MenuItem} (hid : 0 < m.id) (hname : m.name.bytes ≠ []) :
    (menuFillDefaults m).WellFormed where
  id := hid
  name := hname
  soldOut := flag_cases _
  popular := flag_cases _

/-- The loader asks a row for all of it. -/
theorem fileItems_forall {text : Bytes} {m : MenuItem} (h : m ∈ fileItems text) :
    m.WellFormed ∧ FitsInt m.id := by
  obtain ⟨row, -, hrow⟩ := List.mem_filterMap.mp (List.mem_of_mem_take h)
  obtain ⟨hitem, hgood⟩ := Option.filter_eq_some_iff.mp hrow
  obtain ⟨v, hv, rfl⟩ := Option.map_eq_some_iff.mp hitem
  obtain ⟨hid, hname⟩ := of_decide_eq_true hgood
  exact ⟨.filled hid hname, (menuItemOfTokens_fits hv).1⟩

/-- But it does not compare the rows. -/
theorem formed_fileItems {text : Bytes} :
    Formed (fileItems text) ↔ ((fileItems text).map (·.id)).Nodup :=
  ⟨fun h => h.nodup, fun h => ⟨h, fun _ hm => (fileItems_forall hm).1⟩⟩

theorem started_formed {boot w : World} (h : serverLoadPersistent boot = (.ok (), w)) :
    Formed w.ctx.menu.items ↔ DistinctRows boot.menuFile := by
  rcases started_menu h with hitems | ⟨hempty, hitems⟩
  · rw [hitems]
    exact formed_fileItems
  · have hdefault : ((fileItems defaultMenuFile).map (·.id)).Nodup := by decide +kernel
    have hdistinct : DistinctRows boot.menuFile := by
      rw [DistinctRows, hempty]
      exact List.nodup_nil
    rw [hitems]
    exact iff_of_true (formed_fileItems.mpr hdefault) hdistinct

/-! ## One call -/

/-- What the calls do not look at: a new id behind the largest `int`, and the name of an edit. -/
def MenuOp.Sound (cat : MenuCatalog) : MenuOp → Prop
  | .addItem _ => cat.items.length < MAX_MENU_ITEMS → ∀ m ∈ cat.items, m.id ≠ 2147483647
  | .updateItem _ item => item.name.bytes ≠ []
  | _ => True

/-- The calls of the POS add a named item without an id, and edit an item of the catalog. -/
structure MenuOp.FromPos (cat : MenuCatalog) (op : MenuOp) : Prop where
  added : ∀ item, op = .addItem item → item.id = 0 ∧ item.name.bytes ≠ []
  edited : ∀ id item, op = .updateItem id item → id ∈ cat.items.map (·.id)

def IdsFit (cat : MenuCatalog) : Prop := ∀ m ∈ cat.items, FitsInt m.id

theorem addedId_new (cat : MenuCatalog) {item : MenuItem} (h : item.id = 0) :
    addedId .wrap cat item = nextMenuId .wrap cat := if_pos (by omega)

/-- A change in place keeps the flags flags and an entry's own id, and a name unless it edits it. -/
theorem MenuOp.change_wellFormed {cat : MenuCatalog} {op : MenuOp} {m : MenuItem}
    {f : MenuItem → MenuItem} (hop : op.change = some (m.id, f)) (hm : m.WellFormed) :
    (f m).WellFormed ↔ op.Sound cat := by
  cases op with
  | addItem | deleteItem => cases hop
  | updateItem id item =>
    cases hop
    constructor
    · intro h
      exact h.name
    · intro hname
      exact ⟨hm.id, hname, flag_cases _, flag_cases _⟩
  | setSoldout id soldOut =>
    cases hop
    exact iff_of_true { hm with soldOut := flag_cases _ } trivial
  | setCategory id category =>
    cases hop
    exact iff_of_true ⟨hm.id, hm.name, hm.soldOut, hm.popular⟩ trivial
  | setPopular id popular =>
    cases hop
    exact iff_of_true { hm with popular := flag_cases _ } trivial

theorem MenuOp.Outcome.formed_iff {cat : MenuCatalog} {op : MenuOp} {failing : Bool}
    {items : List MenuItem} (h : op.Outcome .wrap cat failing items) (hcat : Formed cat.items)
    (hfits : IdsFit cat) (hpos : op.FromPos cat) : Formed items ↔ op.Sound cat := by
  cases h with
  | full item hfull => exact iff_of_true hcat fun hroom => absurd hroom (Nat.not_lt_of_le hfull)
  | duplicate item hmem =>
    -- the next id is a new one, or negative
    exfalso
    rw [addedId_new cat (hpos.added item rfl).1] at hmem
    obtain ⟨m, hm, hid⟩ := List.mem_map.mp hmem
    have hidpos := (hcat.all m hm).id
    rcases nextMenuId_wrap hfits with ⟨-, hnext⟩ | ⟨-, hnext⟩
    · have hlt := (nextMenuId_exact cat).2 m hm
      omega
    · omega
  | added item hroom hnew =>
    obtain ⟨hzero, hname⟩ := hpos.added item rfl
    have hid := addedId_new cat hzero
    rcases nextMenuId_wrap hfits with ⟨hno, hnext⟩ | ⟨⟨m, hm, hmax⟩, hnext⟩
    · refine iff_of_true (hcat.concat hnew ?_) fun _ => hno
      refine ⟨?_, hname, flag_cases _, flag_cases _⟩
      show 0 < addedId .wrap cat item
      rw [hid, hnext]
      exact (nextMenuId_exact cat).1
    · refine iff_of_false ?_ fun hsound => hsound hroom m hm hmax
      intro hformed
      have hneg := (hformed.all _ (List.mem_append_right _ (List.mem_singleton_self _))).id
      change 0 < addedId .wrap cat item at hneg
      rw [hid, hnext] at hneg
      cases hneg
  | changed op f i m hop hm hid =>
    have hwell := hcat.all m (List.mem_of_getElem? hm)
    rw [← MenuOp.change_wellFormed hop hwell]
    constructor
    · intro hformed
      have hlt := (List.getElem?_eq_some_iff.mp hm).1
      exact hformed.all (f m) (List.mem_set hlt (f m))
    · intro hchanged
      exact hcat.set hm hid hchanged
  | unchanged op id f hop hno =>
    cases op with
    | addItem | deleteItem => cases hop
    | updateItem id' item =>
      cases hop
      exact absurd (hpos.edited _ item rfl) hno
    | setSoldout | setCategory | setPopular => exact iff_of_true hcat trivial
  | deleted i m hm => exact iff_of_true (hcat.eraseIdx i) trivial
  | absent id hno => exact iff_of_true hcat trivial

theorem MenuOp.Outcome.idsFit {cat : MenuCatalog} {op : MenuOp} {failing : Bool}
    {items : List MenuItem} (h : op.Outcome .wrap cat failing items) (hfits : IdsFit cat)
    (hpos : op.FromPos cat) : ∀ m ∈ items, FitsInt m.id := by
  cases h with
  | full | duplicate | unchanged | absent => exact hfits
  | added item hroom hnew =>
    intro m hm
    rw [List.mem_append, List.mem_singleton] at hm
    rcases hm with hm | rfl
    · exact hfits m hm
    · show FitsInt (addedId .wrap cat item)
      rw [addedId_new cat (hpos.added item rfl).1]
      exact IntSem.wrap_norm_fits _
  | changed op f i v hop hv hid =>
    intro m hm
    rcases List.mem_or_eq_of_mem_set hm with hm | rfl
    · exact hfits m hm
    · rw [hid]
      exact hfits v (List.mem_of_getElem? hv)
  | deleted i v hv => exact fun m hm => hfits m (List.mem_of_mem_eraseIdx hm)

/-! ## Any keys -/

/-- The add prompt repeats until it has a name. -/
def MenuPress.Prompted (p : MenuPress) : Prop :=
  p.key = .char 'a' → (CStr.copy MAX_NAME p.typed.name).bytes ≠ []

/-- The key makes no call, or one that keeps the form. -/
def PressSound (p : MenuPress) (w : World) : Prop :=
  ∀ op, pressOp p w = some op → op.Sound w.ctx.menu

theorem pressOp_fromPos {p : MenuPress} (hp : p.Prompted) {w : World} {op : MenuOp}
    (h : pressOp p w = some op) : op.FromPos w.ctx.menu := by
  unfold pressOp at h
  split at h
  · obtain rfl := Option.some.inj h
    exact ⟨fun _ h => (by cases h), fun _ _ h => (by cases h)⟩
  · obtain rfl := Option.some.inj h
    exact ⟨fun _ h => (by cases h), fun _ _ h => (by cases h)⟩
  · obtain rfl := Option.some.inj h
    exact ⟨fun _ h => (by cases h), fun _ _ h => (by cases h)⟩
  · next hkey =>
    obtain rfl := Option.some.inj h
    refine ⟨?_, fun _ _ h => (by cases h)⟩
    rintro _ ⟨⟩
    exact ⟨rfl, hp hkey⟩
  · next m hm =>
    obtain rfl := Option.some.inj h
    refine ⟨fun _ h => (by cases h), ?_⟩
    rintro _ _ ⟨⟩
    exact List.mem_map_of_mem (List.mem_of_getElem? hm)
  · obtain rfl := Option.some.inj h
    exact ⟨fun _ h => (by cases h), fun _ _ h => (by cases h)⟩
  · obtain rfl := Option.some.inj h
    exact ⟨fun _ h => (by cases h), fun _ _ h => (by cases h)⟩
  · cases h

/-- One key keeps a well-formed catalog so if and only if its call does. -/
theorem menuPress_formed {p : MenuPress} (hp : p.Prompted) {w : World} (hfits : IdsFit w.ctx.menu)
    (hw : WellFormed w.ctx.menu) : WellFormed (menuPress p w).ctx.menu ↔ PressSound p w := by
  rw [menuPress_menu]
  unfold PressSound
  cases hcall : pressOp p w with
  | none => exact iff_of_true hw fun op hop => (by cases hop)
  | some op =>
    have hstep := (op.outcome .wrap w.ctx.menu).formed_iff (wellFormed_iff_formed.mp hw) hfits
      (pressOp_fromPos hp hcall)
    rw [Option.map_some, Option.getD_some, wellFormed_iff_formed, hstep]
    constructor
    · intro hsound _ hop
      obtain rfl := Option.some.inj hop
      exact hsound
    · intro hall
      exact hall op rfl

theorem menuPress_idsFit {p : MenuPress} (hp : p.Prompted) {w : World} (hw : IdsFit w.ctx.menu) :
    IdsFit (menuPress p w).ctx.menu := by
  rw [menuPress_menu]
  cases hcall : pressOp p w with
  | none => exact hw
  | some op => exact (op.outcome .wrap w.ctx.menu).idsFit hw (pressOp_fromPos hp hcall)

theorem started_idsFit {boot w : World} (h : serverLoadPersistent boot = (.ok (), w)) :
    IdsFit w.ctx.menu := by
  intro m hm
  rcases started_menu h with hitems | ⟨-, hitems⟩
  · exact (fileItems_forall (hitems ▸ hm)).2
  · exact (fileItems_forall (hitems ▸ hm)).2

/-- Over any file and any keys, the catalog is always well formed if and only if the rows of the file
have distinct ids and every call keeps it so. -/
theorem wellFormed_iff {boot w : World} (hload : serverLoadPersistent boot = (.ok (), w))
    {presses : List MenuPress} (hprompted : ∀ p ∈ presses, p.Prompted) :
    (∀ pre, pre <+: presses → WellFormed (runMenu w pre).ctx.menu) ↔
      DistinctRows boot.menuFile ∧ Runs.AllSteps menuPress PressSound w presses := by
  rw [← started_formed hload, ← wellFormed_iff_formed]
  exact Runs.always_iff_allSteps (I := fun w : World => WellFormed w.ctx.menu)
    (J := fun w : World => IdsFit w.ctx.menu) (fun _ _ hp hw => menuPress_idsFit hp hw)
    (fun _ _ hp hfits hw => menuPress_formed hp hfits hw) (started_idsFit hload) hprompted

theorem wellFormed_iff_bibimbap :
    (∀ pre, pre <+: [addDish "Bibimbap"] → WellFormed (runMenu teaHouse pre).ctx.menu) ↔
      DistinctRows (some (lit "id,name,price,soldout,category,popular\n1,Tea,900,0,음료,0\n")) ∧
        Runs.AllSteps menuPress PressSound teaHouse [addDish "Bibimbap"] :=
  wellFormed_iff (show serverLoadPersistent (World.boot none
    (some (lit "id,name,price,soldout,category,popular\n1,Tea,900,0,음료,0\n"))) = (.ok (), teaHouse)
    from rfl) (by
      intro p hp
      rw [List.mem_singleton.mp hp]
      intro _
      decide)

/-- The operator edits the first dish and leaves its new name empty. -/
def clearName : MenuPress where
  env := Env.fair 0
  typed := ⟨0, 0, 0, 900, 0, [], lit "음료", []⟩
  key := .char 'e'
  pos := ⟨.menu, 0, 0, 0, 0, 0, none, false, false, layoutInitDefault⟩

theorem wellFormed_fails :
    ¬ ∀ (boot w : World) (presses : List MenuPress), serverLoadPersistent boot = (.ok (), w) →
      (∀ p ∈ presses, p.Prompted) →
      ∀ pre, pre <+: presses → WellFormed (runMenu w pre).ctx.menu := by
  intro h
  have hprompted : ∀ p ∈ [clearName], p.Prompted := by
    intro p hp
    rw [List.mem_singleton.mp hp]
    intro hkey
    cases hkey
  have hform := h (World.boot none
    (some (lit "id,name,price,soldout,category,popular\n1,Tea,900,0,음료,0\n"))) teaHouse [clearName]
    rfl hprompted [clearName] List.prefix_rfl
  have hnames : (runMenu teaHouse [clearName]).ctx.menu.items.map (·.name.bytes) = [[]] := by
    decide +kernel
  obtain ⟨m, hitems, hname⟩ := List.map_eq_singleton_iff.mp hnames
  exact (hform.items m (by rw [hitems]; exact List.mem_singleton_self m)).name hname

-- a file with two rows of one id
example : ¬ DistinctRows (some (lit "id,name,price\n1,Tea,900,0\n1,Latte,900,0\n")) := by
  unfold DistinctRows
  decide +kernel

-- an item behind the largest `int`
example :
    let w := (serverLoadPersistent (World.boot none
      (some (lit "id,name,price\n2147483647,Tea,900,0\n")))).2
    (runMenu w [addDish "Bibimbap"]).ctx.menu.items.map (·.id) = [2147483647, -2147483648] := by
  decide +kernel

end TableOrder
