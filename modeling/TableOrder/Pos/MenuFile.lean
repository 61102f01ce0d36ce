import TableOrder.Keyed
import TableOrder.Pos.Keys

/-!
# The saved menu (`ui_run_pos`, `menu_save_file`)

Every key that changes the catalog saves it. What the operator types as a name or a category goes
into a row of the file as it is, between commas; so the file holds the catalog exactly as long as no
text has a comma in it (`reloads_iff`).
-/

namespace TableOrder

open CLib

/-! ## The catalogs of the POS -/

/-- A key on the menu tab, with what the prompts return and where the cursor is. -/
structure MenuPress where
  env : Env
  typed : Typed
  key : Key
  pos : Pos

/-- The prompts end at the newline, and a price goes through `atoi`. -/
structure Typed.Accepted (typed : Typed) : Prop where
  price : FitsInt typed.price
  name : ch '\n' ∉ typed.name
  category : ch '\n' ∉ typed.category

def menuPress (p : MenuPress) (w : World) : World :=
  (menuKeys .wrap p.env p.typed p.key p.pos w).2

def runMenu (w : World) (presses : List MenuPress) : World := Runs.run menuPress w presses

/-- The call that a key makes on the catalog. -/
def pressOp (p : MenuPress) (w : World) : Option MenuOp :=
  match p.key, w.ctx.menu.items[p.pos.selMenu]? with
  | .char 's', some m | .char 'S', some m =>
    some (.setSoldout m.id (if m.soldOut = 0 then 1 else 0))
  | .char 'd', some m => some (.deleteItem m.id)
  | .char 'a', _ => some (.addItem (addedItem p.typed))
  | .char 'e', some m => some (.updateItem m.id (editedItem p.typed m))
  | .char 'c', some m => some (.setCategory m.id
      (if p.typed.category = [] then lit "기타" else clip MAX_CATEGORY p.typed.category))
  | .char 'p', some m => some (.setPopular m.id (if m.popular = 0 then 1 else 0))
  | _, _ => none

theorem saveMenu_ctx (env : Env) (w : World) : (saveMenu env w).ctx = w.ctx := by
  unfold saveMenu
  split <;> rfl

theorem storeMenu_menu (w : World) (r : Except Bytes MenuCatalog) :
    (storeMenu w r).ctx.menu = r.toOption.getD w.ctx.menu := by
  cases r <;> rfl

/-- A key does to the catalog what its call does, and nothing without one. -/
theorem menuPress_menu (p : MenuPress) (w : World) : (menuPress p w).ctx.menu =
    ((pressOp p w).map fun op => menuOpStep .wrap op w.ctx.menu).getD w.ctx.menu := by
  -- what a key does after the call leaves the catalog alone
  have hsaved (v : World) : (broadcastMenuSync (saveMenu p.env v)).ctx.menu = v.ctx.menu :=
    congrArg (·.menu) (saveMenu_ctx p.env v)
  have hconfig (v : World) : (saveMenu p.env (serverSaveConfig p.env
      (broadcastMenuSync v))).ctx.menu = v.ctx.menu := by
    rw [saveMenu_ctx, serverSaveConfig_ctx]
    rfl
  obtain ⟨env, typed, key, pos⟩ := p
  unfold menuPress menuKeys
  simp only at hsaved hconfig ⊢
  generalize hitem : w.ctx.menu.items[pos.selMenu]? = item
  rw [pressOp, hitem]
  split
  · rfl
  · rfl
  · exact (hconfig _).trans (storeMenu_menu _ _)
  · exact (hconfig _).trans (storeMenu_menu _ _)
  · exact (hsaved _).trans (storeMenu_menu _ _)
  · exact (hsaved _).trans (storeMenu_menu _ _)
  · exact (hsaved _).trans (storeMenu_menu _ _)
  · exact (hsaved _).trans (storeMenu_menu _ _)
  · exact (hsaved _).trans (storeMenu_menu _ _)
  · -- the other keys make no call
    simp only
    rfl

/-- What holds of every item the POS can have. -/
structure MenuItem.Kept (m : MenuItem) : Prop extends m.Fits where
  soldOut : flag m.soldOut = m.soldOut
  popular : flag m.popular = m.popular
  name : ch '\n' ∉ m.name.bytes
  category : ch '\n' ∉ m.category.bytes

theorem MenuItem.Kept.menuFillDefaults {m : MenuItem} (h : m.Kept) : (menuFillDefaults m).Kept where
  id := h.id
  price := h.price
  soldOut := flag_flag _
  popular := flag_flag _
  name := h.name
  category := by
    rw [menuFillDefaults_category]
    split
    · decide
    · exact h.category

theorem categoryOr_oneLine {typed : Bytes} (h : ch '\n' ∉ typed) :
    ch '\n' ∉ (categoryOr typed).bytes := by
  unfold categoryOr
  split
  · decide
  · exact CStr.not_mem_copy h

theorem addedItem_kept {typed : Typed} (h : typed.Accepted) : (addedItem typed).Kept where
  id := (by decide : FitsInt 0)
  price := h.price
  soldOut := rfl
  popular := flag_flag _
  name := CStr.not_mem_copy h.name
  category := categoryOr_oneLine h.category

theorem editedItem_kept {typed : Typed} (h : typed.Accepted) {m : MenuItem} (hm : m.Kept) :
    (editedItem typed m).Kept where
  id := hm.id
  price := h.price
  soldOut := hm.soldOut
  popular := flag_flag _
  name := CStr.not_mem_copy h.name
  category := categoryOr_oneLine h.category

/-! ## One key -/

def AllKept (cat : MenuCatalog) : Prop := ∀ m ∈ cat.items, m.Kept

/-- The call puts no item into the catalog that the POS cannot have. -/
structure MenuOp.Keeps (op : MenuOp) : Prop where
  added : ∀ item, op = .addItem item → item.Kept
  changed : ∀ id f, op.change = some (id, f) → ∀ m : MenuItem, m.id = id → m.Kept → (f m).Kept

theorem MenuOp.Outcome.kept {cat : MenuCatalog} {op : MenuOp} {failing : Bool}
    {items : List MenuItem} (h : op.Outcome .wrap cat failing items) (hcat : AllKept cat)
    (hop : op.Keeps) : ∀ m ∈ items, m.Kept := by
  cases h with
  | full | duplicate | unchanged | absent => exact hcat
  | added item hroom hnew =>
    have hitem := hop.added item rfl
    have hfilled := hitem.menuFillDefaults
    intro m hm
    rw [List.mem_append, List.mem_singleton] at hm
    rcases hm with hm | rfl
    · exact hcat m hm
    · refine { hfilled with id := ?_ }
      show FitsInt (addedId .wrap cat item)
      unfold addedId
      split
      · exact IntSem.wrap_norm_fits _
      · exact hitem.id
  | changed _ f i v hchange hv hid =>
    intro m hm
    rcases List.mem_or_eq_of_mem_set hm with hm | rfl
    · exact hcat m hm
    · exact hop.changed v.id f hchange v rfl (hcat v (List.mem_of_getElem? hv))
  | deleted i v hv =>
    intro m hm
    exact hcat m (List.mem_of_mem_eraseIdx hm)

theorem pressOp_keeps {p : MenuPress} (hp : p.typed.Accepted) {w : World} (hw : AllKept w.ctx.menu)
    {op : MenuOp} (h : pressOp p w = some op) : op.Keeps := by
  have hitem {i : Nat} {m : MenuItem} (hm : w.ctx.menu.items[i]? = some m) : m.Kept :=
    hw m (List.mem_of_getElem? hm)
  have hsoldOut (id soldOut : Int) : (MenuOp.setSoldout id soldOut).Keeps := by
    refine ⟨fun _ h => (by cases h), ?_⟩
    rintro _ _ ⟨⟩ v _ hv
    exact { hv with soldOut := flag_flag _ }
  unfold pressOp at h
  split at h
  · obtain rfl := Option.some.inj h
    exact hsoldOut _ _
  · obtain rfl := Option.some.inj h
    exact hsoldOut _ _
  · obtain rfl := Option.some.inj h
    exact ⟨fun _ h => (by cases h), fun _ _ h => (by cases h)⟩
  · obtain rfl := Option.some.inj h
    refine ⟨?_, fun _ _ h => (by cases h)⟩
    rintro _ ⟨⟩
    exact addedItem_kept hp
  · next m hm =>
    obtain rfl := Option.some.inj h
    refine ⟨fun _ h => (by cases h), ?_⟩
    rintro _ _ ⟨⟩ v hid hv
    have hfilled := (editedItem_kept hp (hitem hm)).menuFillDefaults
    exact { hfilled with id := hid ▸ hv.id }
  · obtain rfl := Option.some.inj h
    have hline : ch '\n' ∉
        (if p.typed.category = [] then lit "기타" else clip MAX_CATEGORY p.typed.category) := by
      split
      · decide
      · exact fun h => hp.category (mem_of_mem_clip h)
    generalize (if p.typed.category = [] then lit "기타" else clip MAX_CATEGORY p.typed.category) =
      category at hline
    refine ⟨fun _ h => (by cases h), ?_⟩
    rintro _ _ ⟨⟩ v _ hv
    refine { hv with category := ?_ }
    show ch '\n' ∉ (if category = [] then defaultCategory else CStr.copy MAX_CATEGORY category).bytes
    split
    · decide
    · exact CStr.not_mem_copy hline
  · obtain rfl := Option.some.inj h
    refine ⟨fun _ h => (by cases h), ?_⟩
    rintro _ _ ⟨⟩ v _ hv
    exact { hv with popular := flag_flag _ }
  · cases h

/-- Every key keeps it so. -/
theorem menuPress_kept {p : MenuPress} (hp : p.typed.Accepted) {w : World}
    (hw : AllKept w.ctx.menu) : AllKept (menuPress p w).ctx.menu := by
  rw [menuPress_menu]
  cases hcall : pressOp p w with
  | none => exact hw
  | some op => exact (op.outcome .wrap w.ctx.menu).kept hw (pressOp_keeps hp hw hcall)

theorem started_kept {w : World} (h : Started w) : AllKept w.ctx.menu := by
  obtain ⟨boot, h⟩ := h
  have hloaded := menuLoadFile_forall (P := MenuItem.Kept) (fun toks m htoks hm _ _ => by
    have htexts := menuItemOfTokens_texts hm (fun tok htok => (htoks tok htok).2) (by decide)
    have hfits := menuItemOfTokens_fits hm
    refine ⟨⟨hfits.1, hfits.2⟩, flag_flag _, flag_flag _, htexts.1, ?_⟩
    rw [menuFillDefaults_category]
    split
    · decide
    · exact htexts.2) boot.menuFile
  unfold serverLoadPersistent at h
  simp only at h
  split at h
  · cases h
  · obtain rfl := (Prod.mk.inj h).2
    exact hloaded

theorem runMenu_kept {w : World} (hstart : Started w) {presses : List MenuPress}
    (hacc : ∀ p ∈ presses, p.typed.Accepted) : AllKept (runMenu w presses).ctx.menu :=
  Runs.run_invariant (P := fun p : MenuPress => p.typed.Accepted)
    (I := fun w : World => AllKept w.ctx.menu) (fun _ _ hp hw => menuPress_kept hp hw)
    (started_kept hstart) hacc

/-! ## The file -/

/-- An item with an empty category counted as the default one. -/
def MenuItem.categorized (m : MenuItem) : MenuItem :=
  { m with category := if m.category.bytes = [] then defaultCategory else m.category }

/-- Loading the saved file gives the catalog back. -/
def Reloads (cat : MenuCatalog) : Prop :=
  (menuLoadFile (some (menuSaveFile cat))).2.2 = none ∧
    (menuLoadFile (some (menuSaveFile cat))).1.items = cat.items.map MenuItem.categorized

def MenuItem.CommaFree (m : MenuItem) : Prop := ch ',' ∉ m.name.bytes ∧ ch ',' ∉ m.category.bytes

theorem menuFillDefaults_commaFree {m : MenuItem} (h : m.CommaFree) :
    (menuFillDefaults m).CommaFree := by
  refine ⟨h.1, ?_⟩
  rw [menuFillDefaults_category]
  split
  · decide
  · exact h.2

/-- No loaded item has a comma in it. -/
theorem menuLoadFile_commaFree (file : Option Bytes) :
    ∀ m ∈ (menuLoadFile file).1.items, m.CommaFree := by
  apply menuLoadFile_forall
  intro toks m htoks hm _ _
  exact menuFillDefaults_commaFree
    (menuItemOfTokens_texts hm (fun tok htok => (htoks tok htok).1) (by decide))

/-- A catalog of named items with positive ids that the POS can have is loaded again from its file
if and only if no name and no category has a comma. -/
theorem reloads_iff {w : World} (hstart : Started w) {presses : List MenuPress}
    (hacc : ∀ p ∈ presses, p.typed.Accepted) (hne : (runMenu w presses).ctx.menu.items ≠ [])
    (hpos : ∀ m ∈ (runMenu w presses).ctx.menu.items, 0 < m.id)
    (hnamed : ∀ m ∈ (runMenu w presses).ctx.menu.items, m.name.bytes ≠ []) :
    Reloads (runMenu w presses).ctx.menu ↔
      ∀ m ∈ (runMenu w presses).ctx.menu.items, m.CommaFree := by
  let cat := (runMenu w presses).ctx.menu
  have hkept : AllKept cat := runMenu_kept hstart hacc
  have hfilled : cat.items.map menuFillDefaults = cat.items.map MenuItem.categorized := by
    apply List.map_congr_left
    intro m hm
    unfold menuFillDefaults
    rw [(hkept m hm).soldOut, (hkept m hm).popular]
    rfl
  constructor
  · rintro ⟨-, hitems⟩ m hm
    have hloaded : m.categorized ∈ (menuLoadFile (some (menuSaveFile cat))).1.items := by
      rw [hitems]
      exact List.mem_map_of_mem hm
    obtain ⟨hname, hcategory⟩ := menuLoadFile_commaFree _ _ hloaded
    refine ⟨hname, ?_⟩
    by_cases hempty : m.category.bytes = []
    · rw [hempty]
      exact List.not_mem_nil
    · simpa only [MenuItem.categorized, hempty, if_false] using hcategory
  · intro hfree
    have hread : ∀ m ∈ cat.items, (menuFillDefaults m).Readable := by
      intro m hm
      obtain ⟨hname, hcategory⟩ := menuFillDefaults_commaFree (hfree m hm)
      exact ⟨⟨(hkept m hm).id, (hkept m hm).price⟩, hpos m hm, hnamed m hm, menuFillDefaults_idem m,
        hname, hcategory⟩
    obtain ⟨hitems, hok⟩ := menuLoadFile_saved hne hread
      fun m hm => ⟨(hkept m hm).name, (hkept m hm).category⟩
    exact ⟨hok, hitems.trans hfilled⟩

/-- The operator adds a dish with this name. -/
def addDish (name : String) : MenuPress where
  env := Env.fair 0
  typed := ⟨0, 0, 0, 8000, 0, lit name, lit "식사", []⟩
  key := .char 'a'
  pos := ⟨.menu, 0, 0, 0, 0, 0, none, false, false, layoutInitDefault⟩

theorem addDish_accepted {name : String} (h : ch '\n' ∉ lit name) :
    ∀ p ∈ [addDish name], p.typed.Accepted := by
  intro p hp
  rw [List.mem_singleton.mp hp]
  exact ⟨(by decide : FitsInt 8000), h, (by decide : ch '\n' ∉ lit "식사")⟩

/-- A server whose menu is one dish. -/
def teaHouse : World :=
  (serverLoadPersistent (World.boot none
    (some (lit "id,name,price,soldout,category,popular\n1,Tea,900,0,음료,0\n")))).2

theorem teaHouse_started : Started teaHouse :=
  ⟨World.boot none (some (lit "id,name,price,soldout,category,popular\n1,Tea,900,0,음료,0\n")), rfl⟩

theorem reloads_iff_bibimbap :
    let cat := (runMenu teaHouse [addDish "Bibimbap"]).ctx.menu
    Reloads cat ↔ ∀ m ∈ cat.items, m.CommaFree :=
  reloads_iff teaHouse_started (addDish_accepted (by decide)) (by decide +kernel)
    (by decide +kernel) (by decide +kernel)

theorem reloads_fails :
    ¬ ∀ (w : World) (presses : List MenuPress), Started w → (∀ p ∈ presses, p.typed.Accepted) →
      (runMenu w presses).ctx.menu.items ≠ [] →
      ((runMenu w presses).ctx.menu.items.map (·.id)).Nodup →
      (∀ m ∈ (runMenu w presses).ctx.menu.items, 0 < m.id) →
      (∀ m ∈ (runMenu w presses).ctx.menu.items, m.name.bytes ≠ []) →
      Reloads (runMenu w presses).ctx.menu := by
  intro h
  have hreload := h teaHouse [addDish "Bulgogi, spicy"] teaHouse_started
    (addDish_accepted (by decide)) (by decide +kernel) (by decide +kernel) (by decide +kernel)
    (by decide +kernel)
  have hdiffer : (menuLoadFile (some (menuSaveFile
      (runMenu teaHouse [addDish "Bulgogi, spicy"]).ctx.menu))).1.items ≠
        (runMenu teaHouse [addDish "Bulgogi, spicy"]).ctx.menu.items.map MenuItem.categorized := by
    decide +kernel
  exact hdiffer hreload.2

end TableOrder
