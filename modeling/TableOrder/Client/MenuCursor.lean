import TableOrder.Client.MenuGrid
import TableOrder.Client.Screens
import TableOrder.Lib.Runs
import TableOrder.Protocol.Request

/-!
# The cursor on the menu screen

The cursor is an index into the whole catalog, and only a key of the menu screen brings it back to
the category (`fixSel`). Where the category has something on sale, that succeeds (`menuKey_onSale`).
Otherwise the cursor may be left on an item of another category, and SPACE adds what the grid does
not show; `addsShown_iff` says which steps lead there.
-/

namespace TableOrder

open CLib
open Rows (positions)

/-! ## On sale in a category -/

/-- An item of the category that is on sale. -/
def OnSaleIn (currentCategory : Nat) (m : MenuItem) : Prop :=
  uiMenuMatchCategory currentCategory m = true ∧ m.soldOut = 0

instance (currentCategory : Nat) (m : MenuItem) : Decidable (OnSaleIn currentCategory m) :=
  inferInstanceAs (Decidable (_ ∧ _))

/-- The category has an item on sale. -/
def SellsIn (cat : MenuCatalog) (currentCategory : Nat) : Prop :=
  ∃ m ∈ cat.items, OnSaleIn currentCategory m

instance (cat : MenuCatalog) (currentCategory : Nat) : Decidable (SellsIn cat currentCategory) :=
  inferInstanceAs (Decidable (∃ m ∈ cat.items, OnSaleIn currentCategory m))

/-- The cursor is on an item of the category that is on sale. -/
def CursorOnSale (c : TableClient) : Prop :=
  ∃ m, c.cat.items[c.sel]? = some m ∧ OnSaleIn c.currentCategory m

theorem uiMenuIsSelectable_iff {cat : MenuCatalog} {i : Nat} :
    uiMenuIsSelectable cat i = true ↔ ∃ m, cat.items[i]? = some m ∧ m.soldOut = 0 := by
  unfold uiMenuIsSelectable
  cases cat.items[i]? with
  | none => simp
  | some m => simp

theorem onSaleAt_iff {cat : MenuCatalog} {currentCategory i : Nat} {v : Int} :
    OnSaleAt cat currentCategory v i ↔ (∃ n : Nat, v = n ∧
      (positions (uiMenuMatchCategory currentCategory) cat.items)[n]? = some i) ∧
      ∃ m, cat.items[i]? = some m ∧ OnSaleIn currentCategory m := by
  unfold OnSaleAt
  rw [uiMenuIndexAtVisible_eq_some, uiMenuIsSelectable_iff]
  refine and_congr_right ?_
  rintro ⟨n, -, hn⟩
  obtain ⟨m, hm, hmatch⟩ := Rows.mem_positions.mp (List.mem_of_getElem? hn)
  constructor
  · rintro ⟨m', hm', hsale⟩
    rw [hm] at hm'
    cases hm'
    exact ⟨m, hm, hmatch, hsale⟩
  · rintro ⟨m', hm', -, hsale⟩
    exact ⟨m', hm', hsale⟩

theorem uiMenuFirstSelectableInCategory_eq_some {cat : MenuCatalog} {currentCategory i : Nat}
    (h : uiMenuFirstSelectableInCategory cat currentCategory = some i) :
    ∃ m, cat.items[i]? = some m ∧ OnSaleIn currentCategory m := by
  obtain ⟨hlt, hi, -⟩ := List.findIdx?_eq_some_iff_getElem.mp h
  rw [Bool.and_eq_true, beq_iff_eq] at hi
  exact ⟨cat.items[i], List.getElem?_eq_getElem hlt, hi⟩

theorem uiMenuFirstSelectableInCategory_eq_none {cat : MenuCatalog} {currentCategory : Nat} :
    uiMenuFirstSelectableInCategory cat currentCategory = none ↔ ¬ SellsIn cat currentCategory := by
  simp [uiMenuFirstSelectableInCategory, List.findIdx?_eq_none_iff, SellsIn, OnSaleIn]

/-! ## The search from the cursor -/

/-- What the search finds is on sale in the category. -/
theorem search_onSale {cat : MenuCatalog} {currentCategory i : Nat} {start step : Int}
    (hstep : step ≠ 0) (h : uiFindSelectableVisibleFrom cat currentCategory start step = some i) :
    ∃ m, cat.items[i]? = some m ∧ OnSaleIn currentCategory m := by
  have hfinds : FindsFirst cat currentCategory start step (some i) := by
    rw [← h]
    exact uiFindSelectableVisibleFrom_finds hstep start
  obtain ⟨n, -, hsale, -⟩ := (hfinds.found i).mp rfl
  exact (onSaleAt_iff.mp hsale).2

theorem search_eq_none {cat : MenuCatalog} {currentCategory : Nat}
    (hsells : ¬ SellsIn cat currentCategory) {step : Int} (hstep : step ≠ 0) (start : Int) :
    uiFindSelectableVisibleFrom cat currentCategory start step = none := by
  rw [Option.eq_none_iff_forall_ne_some]
  intro i hi
  obtain ⟨m, hm, hsale⟩ := search_onSale hstep hi
  exact hsells ⟨m, List.mem_of_getElem? hm, hsale⟩

/-- The search does not come back without a position on sale that it would pass. -/
theorem FindsFirst.ne_none {cat : MenuCatalog} {currentCategory j : Nat} {start step : Int}
    {r : Option Nat} (h : FindsFirst cat currentCategory start step r) {n : Nat}
    (hgrid : ∀ k : Nat, k ≤ n → InGrid cat currentCategory (start + k * step))
    (hsale : OnSaleAt cat currentCategory (start + n * step) j) : r ≠ none := fun hr =>
  h.exhausted.mp hr n hgrid j hsale

/-- From any position, one of the two searches by one finds what there is on sale at another. -/
theorem search_both {cat : MenuCatalog} {currentCategory j : Nat} {v w : Nat}
    (hv : v < uiMenuVisibleCount cat currentCategory) (hne : v ≠ w)
    (hsale : OnSaleAt cat currentCategory w j) :
    uiFindSelectableVisibleFrom cat currentCategory ((v : Int) + 1) 1 ≠ none ∨
      uiFindSelectableVisibleFrom cat currentCategory ((v : Int) - 1) (-1) ≠ none := by
  have hw : (w : Int) < uiMenuVisibleCount cat currentCategory :=
    ((gridTranslates cat currentCategory).position w).mp (by rw [hsale.1]; rfl) |>.2
  rcases Nat.lt_or_gt_of_ne hne with hlt | hgt
  · left
    apply (uiFindSelectableVisibleFrom_finds (by decide) _).ne_none (n := w - v - 1) (j := j)
    · intro k hk
      unfold InGrid
      omega
    · rw [show (v : Int) + 1 + (w - v - 1 : Nat) * 1 = w by omega]
      exact hsale
  · right
    apply (uiFindSelectableVisibleFrom_finds (by decide) _).ne_none (n := v - w - 1) (j := j)
    · intro k hk
      unfold InGrid
      omega
    · rw [show (v : Int) - 1 + (v - w - 1 : Nat) * -1 = w by omega]
      exact hsale

/-! ## The fix-up -/

theorem selInCategory_matches {c : TableClient} (hsells : SellsIn c.cat c.currentCategory) :
    ∃ m, c.cat.items[(selInCategory c).sel]? = some m ∧
      uiMenuMatchCategory c.currentCategory m = true := by
  unfold selInCategory
  split
  · next hmatch => exact (Option.any_eq_true _ _).mp hmatch
  · cases hfirst : uiMenuFirstSelectableInCategory c.cat c.currentCategory with
    | none => exact absurd hsells (uiMenuFirstSelectableInCategory_eq_none.mp hfirst)
    | some i =>
      obtain ⟨m, hm, hmatch, -⟩ := uiMenuFirstSelectableInCategory_eq_some hfirst
      simp only [firstSelectable, hfirst, Option.getD_some]
      exact ⟨m, hm, hmatch⟩

/-- From an item of the category the cursor comes to one on sale. -/
theorem selOnSale_onSale {c : TableClient} (hsells : SellsIn c.cat c.currentCategory) {m : MenuItem}
    (hm : c.cat.items[c.sel]? = some m) (hmatch : uiMenuMatchCategory c.currentCategory m = true) :
    CursorOnSale (selOnSale c) := by
  have hlt := (List.getElem?_eq_some_iff.mp hm).1
  unfold selOnSale
  cases hsale : uiMenuIsSelectable c.cat c.sel with
  | true =>
    obtain ⟨m', hm', hsale⟩ := uiMenuIsSelectable_iff.mp hsale
    rw [hm] at hm'
    cases hm'
    exact ⟨m, hm, hmatch, hsale⟩
  | false =>
    rw [if_pos (by simpa using hlt)]
    -- the position of the cursor, and one of an item on sale
    obtain ⟨v, hv⟩ := List.getElem?_of_mem (Rows.mem_positions.mpr ⟨m, hm, hmatch⟩)
    obtain ⟨m', hm', hmatch', hsale'⟩ := hsells
    obtain ⟨j, hj⟩ := List.getElem?_of_mem hm'
    obtain ⟨w, hw⟩ := List.getElem?_of_mem (Rows.mem_positions.mpr ⟨m', hj, hmatch'⟩)
    have hpos : uiMenuVisiblePosOfIndex c.cat c.currentCategory c.sel = some v :=
      uiMenuVisiblePosOfIndex_eq_some.mpr ⟨c.sel, rfl, hv⟩
    have hgoal : OnSaleAt c.cat c.currentCategory w j :=
      onSaleAt_iff.mpr ⟨⟨w, rfl, hw⟩, m', hj, hmatch', hsale'⟩
    have hne : v ≠ w := by
      rintro rfl
      rw [hv] at hw
      cases hw
      rw [hgoal.2] at hsale
      cases hsale
    have hcount : v < uiMenuVisibleCount c.cat c.currentCategory := by
      rw [uiMenuVisibleCount_eq]
      exact (List.getElem?_eq_some_iff.mp hv).1
    have hboth := search_both hcount hne hgoal
    simp only [hpos]
    cases hr : uiFindSelectableVisibleFrom c.cat c.currentCategory ((v : Int) + 1) 1 with
    | some next => exact search_onSale (by decide) hr
    | none =>
      cases hl : uiFindSelectableVisibleFrom c.cat c.currentCategory ((v : Int) - 1) (-1) with
      | some next => exact search_onSale (by decide) hl
      | none => exact absurd hl (hboth.resolve_left fun h => h hr)

theorem fixSel_of_sells {c : TableClient} (hsells : SellsIn c.cat c.currentCategory) :
    fixSel c = selOnSale (selInCategory c) := by
  obtain ⟨m, hm, hmatch, -⟩ := hsells
  have hitems : 0 < c.cat.items.length := List.length_pos_of_mem hm
  have hvisible : 0 < uiMenuVisibleCount c.cat c.currentCategory :=
    List.countP_pos_iff.mpr ⟨m, hm, hmatch⟩
  unfold fixSel
  rw [if_neg (by omega)]

theorem fixSel_onSale {c : TableClient} (hsells : SellsIn c.cat c.currentCategory) :
    CursorOnSale (fixSel c) := by
  obtain ⟨m, hm, hmatch⟩ := selInCategory_matches hsells
  have hrest := selInCategory_rest c
  rw [fixSel_of_sells hsells]
  apply selOnSale_onSale (m := m)
  · rw [hrest]
    exact hsells
  · rw [hrest]
    exact hm
  · rw [hrest]
    exact hmatch

variable (S : IntSem)

/-- Where the category has nothing on sale, the cursor stays on an item of the category or goes to the
first item of the catalog. -/
theorem fixSel_sel {c : TableClient} (hsells : ¬ SellsIn c.cat c.currentCategory) :
    (fixSel c).sel =
      if c.cat.items[c.sel]?.any (uiMenuMatchCategory c.currentCategory) then c.sel else 0 := by
  have hfirst : firstSelectable c = 0 := by
    rw [firstSelectable, uiMenuFirstSelectableInCategory_eq_none.mpr hsells]
    rfl
  have hstays (i : Nat) : (selOnSale { c with sel := i }).sel = i := by
    unfold selOnSale
    split
    · split
      · rfl
      · simp only [search_eq_none hsells (by decide : (1 : Int) ≠ 0),
          search_eq_none hsells (by decide : (-1 : Int) ≠ 0)]
    · rfl
  unfold fixSel
  split
  · next hempty =>
    -- no item of the category at all
    rw [if_neg]
    intro hany
    obtain ⟨m, hm, hmatch⟩ := (Option.any_eq_true _ _).mp hany
    have hmem := List.mem_of_getElem? hm
    have hitems := List.length_pos_of_mem hmem
    have hcount : 0 < uiMenuVisibleCount c.cat c.currentCategory :=
      List.countP_pos_iff.mpr ⟨m, hmem, hmatch⟩
    omega
  · unfold selInCategory
    split
    · exact hstays c.sel
    · rw [hfirst]
      exact hstays 0

/-- After a key on the menu screen the cursor is on an item on sale, if the category has one. -/
theorem menuKey_onSale {c : TableClient} (hshaken : c.handshakeOk = true) (hscr : c.scr = .menu)
    (stray : CartItem) (key : Key) :
    let c' := (tableKey S stray key c).1
    SellsIn c'.cat c'.currentCategory → CursorOnSale c' := by
  intro c' hsells
  have hkey : c' = fixSel (menuScreenKey S key c).1 := tableKey_menu S hshaken hscr stray key
  rw [hkey, fixSel_rest] at hsells
  rw [hkey]
  exact fixSel_onSale hsells

/-- Two dishes, the first one sold out. -/
def firstSoldOutFile : Bytes := lit "id,name,price,soldout\n1,Rice,9000,1\n2,Soup,3000,0\n"

/-- Up from the first dish there is nothing, and the fix-up goes on to the second. -/
theorem menuKey_onSale_up :
    CursorOnSale (tableKey .wrap (pairItem (0, 0)) .up
      { TableClient.start 1 (some firstSoldOutFile) with handshakeOk := true }).1 :=
  menuKey_onSale .wrap rfl rfl _ _ (by decide +kernel)

/-! ## What SPACE adds -/

/-- A line for the item, or room for one. -/
def CartTakes (cart : Cart) (m : MenuItem) : Prop :=
  m.id ∈ cart.items.map (·.menuId) ∨ cart.items.length < MAX_ORDER_ITEMS

/-- What is on sale at the cursor, and fits the cart, is an item of the category. -/
def CursorShown (cat : MenuCatalog) (currentCategory : Nat) (cart : Cart) (sel : Nat) : Prop :=
  ∀ m ∈ cat.items[sel]?, m.soldOut = 0 → CartTakes cart m →
    uiMenuMatchCategory currentCategory m = true

/-- The keys go to the grid. -/
def TableClient.OnGrid (c : TableClient) : Prop :=
  c.handshakeOk = true ∧ c.scr = .menu ∧ c.focus = .menu

/-- What SPACE adds from the grid is on sale and is one of the items the grid shows. -/
def AddsShown (c : TableClient) : Prop :=
  c.OnGrid → ∀ stray, (tableKey .wrap stray (.char ' ') c).1.cart ≠ c.cart →
    ∃ m, c.cat.items[c.sel]? = some m ∧
      cartAdd .wrap c.cart (cartItemOf m) = .ok (tableKey .wrap stray (.char ' ') c).1.cart ∧
      OnSaleIn c.currentCategory m

theorem cartTakes_iff {cart : Cart} {m : MenuItem} :
    CartTakes cart m ↔ ∃ cart', cartAdd S cart (cartItemOf m) = .ok cart' := by
  constructor
  · intro h
    cases hadd : cartAdd S cart (cartItemOf m) with
    | ok cart' => exact ⟨cart', rfl⟩
    | error e =>
      rcases cartAdd_eq_error S hadd with hqty | ⟨hnew, hfull⟩
      · cases hqty
      · rcases h with hline | hroom
        · exact absurd hline hnew
        · omega
  · rintro ⟨cart', hadd⟩
    obtain ⟨-, ⟨i, it, hit, hid, -⟩ | ⟨-, hroom, -⟩⟩ := cartAdd_cases S hadd
    · exact .inl (List.mem_map.mpr ⟨it, List.mem_of_getElem? hit, hid⟩)
    · exact .inr hroom

/-- An addition shows in the cart. -/
theorem cartAdd_ne {cart cart' : Cart} {line : CartItem}
    (h : cartAdd .wrap cart line = .ok cart') (hone : line.qty = 1) : cart' ≠ cart := by
  rintro rfl
  obtain ⟨-, ⟨i, it, hit, -, hitems⟩ | ⟨-, -, hitems⟩⟩ := cartAdd_cases .wrap h
  · have hsame : cart'.items[i]? = some { it with qty := IntSem.wrap.norm (it.qty + line.qty) } := by
      rw [hitems, List.getElem?_set_self (List.getElem?_eq_some_iff.mp hit).1]
    rw [hit, hone] at hsame
    have hqty : it.qty = (it.qty + 1).bmod 4294967296 := congrArg CartItem.qty (Option.some.inj hsame)
    have hmod := Int.dvd_bmod_sub_self (x := it.qty + 1) (m := 4294967296)
    omega
  · have hlength := congrArg List.length hitems
    rw [List.length_append, List.length_singleton] at hlength
    omega

theorem menuScreenKey_space {c : TableClient} (hfocus : c.focus = .menu) :
    menuScreenKey S (.char ' ') c = (menuSpace S c, []) := by
  simp only [menuScreenKey, hfocus]

theorem addsShown_iff_cursorShown {c : TableClient} :
    AddsShown c ↔ (c.OnGrid → CursorShown c.cat c.currentCategory c.cart c.sel) := by
  refine forall_congr' fun hgrid => ?_
  obtain ⟨hshaken, hscr, hfocus⟩ := hgrid
  have hkey (stray : CartItem) :
      (tableKey .wrap stray (.char ' ') c).1.cart = (menuSpace .wrap c).cart := by
    rw [tableKey_menu .wrap hshaken hscr, menuScreenKey_space .wrap hfocus, fixSel_rest]
  simp only [hkey]
  unfold CursorShown menuSpace
  cases hm : c.cat.items[c.sel]? with
  | none => simp
  | some m =>
    by_cases hsale : m.soldOut = 0
    · cases hadd : cartAdd .wrap c.cart (cartItemOf m) with
      | error e =>
        have hfull : ¬ CartTakes c.cart m := by
          rw [cartTakes_iff .wrap, hadd]
          simp
        simp [hsale, hadd, tableBanner, hfull]
      | ok cart =>
        have htakes : CartTakes c.cart m := (cartTakes_iff .wrap).mpr ⟨cart, hadd⟩
        have hne := cartAdd_ne hadd rfl
        have : Nonempty CartItem := ⟨cartItemOf m⟩
        simp [hsale, hadd, tableBanner, htakes, hne, OnSaleIn]
    · simp [hsale, tableBanner]

/-! ### The steps that keep it -/

/-- The fix-up does not leave the cursor on an item of another category that can be added: the category
has something on sale, or the cursor is on one of its items anyway, or the first item of the catalog
cannot be added. -/
def FixesSel (key : Key) (c : TableClient) : Prop :=
  SellsIn c.cat (categoryAfter key c) ∨
    (¬ ChoosesCategory key c ∧ ∃ m ∈ c.cat.items[c.sel]?,
      uiMenuMatchCategory c.currentCategory m = true) ∨
    CursorShown c.cat (categoryAfter key c) c.cart 0

/-- A menu response does not put another item under the cursor, the fix-up succeeds, and the cursor
of the status screen is not taken for one of the grid. -/
def KeepsShown : TableInput → TableClient → Prop
  | .line line, c => c.OnGrid → startsWith (lit "MENU_RESPONSE|") line = true →
    CursorShown (uiApplyMenuResponse c.cat line) c.currentCategory c.cart c.sel
  | .key _ key, c => c.handshakeOk = true →
    (c.scr = .menu → GoesToGrid key c → FixesSel key c) ∧
    (c.scr = .status → key = .char 'm' →
      CursorShown c.cat c.currentCategory c.cart
        (min c.sel (uiTableCountOrders c.mirror c.tableId - 1)))

theorem moveSel_stuck {c : TableClient} (hsells : ¬ SellsIn c.cat c.currentCategory) {delta : Int}
    (hdelta : delta ≠ 0) : moveSel c delta = c := by
  unfold moveSel
  rw [search_eq_none hsells hdelta]

/-- SPACE adds nothing where the cursor is shown and the category has nothing on sale. -/
theorem menuSpace_stuck {c : TableClient} (hsells : ¬ SellsIn c.cat c.currentCategory)
    (hshown : CursorShown c.cat c.currentCategory c.cart c.sel) : (menuSpace S c).cart = c.cart := by
  unfold menuSpace
  split
  · rfl
  · next m hm =>
    split
    · next hsale =>
      cases hadd : cartAdd S c.cart (cartItemOf m) with
      | error e => rfl
      | ok cart =>
        have htakes : CartTakes c.cart m := (cartTakes_iff S).mpr ⟨cart, hadd⟩
        have hmatch := hshown m hm hsale htakes
        exact absurd ⟨m, List.mem_of_getElem? hm, hmatch, hsale⟩ hsells
    · rfl

/-- What the key does before the fix-up, where the category has nothing on sale. -/
theorem menuScreenKey_stuck {key : Key} {c : TableClient} (hgrid : GoesToGrid key c)
    (hsells : ¬ SellsIn c.cat (categoryAfter key c))
    (hshown : c.focus = .menu → CursorShown c.cat c.currentCategory c.cart c.sel) :
    let c' := (menuScreenKey S key c).1
    c'.cart = c.cart ∧ c'.sel = if ChoosesCategory key c then 0 else c.sel := by
  intro c'
  by_cases hcategory : ChoosesCategory key c
  · obtain ⟨rfl, hfocus, hside⟩ := hcategory
    rw [categoryAfter, if_pos ⟨rfl, hfocus, hside⟩] at hsells
    have hspace : c' = (sidebarSpace c).1 := by
      simp only [c', menuScreenKey, hfocus]
    have hfirst := uiMenuFirstSelectableInCategory_eq_none.mpr hsells
    rw [hspace, if_pos ⟨rfl, hfocus, hside⟩]
    simp [sidebarSpace, hside, tableBanner, firstSelectable, hfirst]
  · rw [categoryAfter, if_neg hcategory] at hsells
    have hmove {delta : Int} (hdelta : delta ≠ 0) := moveSel_stuck hsells hdelta
    rw [if_neg hcategory]
    unfold c' menuScreenKey
    split
    · split
      · exact ⟨rfl, rfl⟩
      · rw [hmove (by decide)]
        exact ⟨rfl, rfl⟩
    · exact ⟨rfl, rfl⟩
    · rw [hmove (by decide)]
      exact ⟨rfl, rfl⟩
    · exact ⟨rfl, rfl⟩
    · rw [hmove (by decide)]
      exact ⟨rfl, rfl⟩
    · next hfocus =>
      unfold GoesToGrid at hgrid
      rw [hfocus] at hgrid
      cases hgrid
    · rw [hmove (by decide)]
      exact ⟨rfl, rfl⟩
    · next hfocus =>
      unfold GoesToGrid at hgrid
      rw [hfocus] at hgrid
      exact absurd ⟨rfl, hfocus, hgrid⟩ hcategory
    · next hfocus =>
      refine ⟨menuSpace_stuck S hsells (hshown hfocus), ?_⟩
      rw [menuSpace_rest]
    · exact ⟨rfl, rfl⟩

theorem addsShown_line_iff {c : TableClient} (hscreens : TableScreens c) (hshown : AddsShown c)
    (line : Bytes) : AddsShown (tableLine c line).1 ↔ KeepsShown (.line line) c := by
  have hsame := tableLine_cursor c line
  rw [addsShown_iff_cursorShown] at hshown ⊢
  rw [hsame.currentCategory, hsame.cart, hsame.sel]
  cases hshaken : c.handshakeOk with
  | false =>
    -- before the handshake everything is shown
    refine iff_of_true (fun _ m _ _ _ => ?_) fun hgrid => ?_
    · rw [hscreens.waiting hshaken]
      rfl
    · rw [hgrid.1] at hshaken
      cases hshaken
  | true =>
    obtain ⟨hshaken', hcat⟩ := tableLine_shaken hshaken line
    have hgrid : (tableLine c line).1.OnGrid ↔ c.OnGrid := by
      unfold TableClient.OnGrid
      rw [hshaken', hshaken, hsame.scr, hsame.focus]
    rw [hgrid, hcat, KeepsShown]
    by_cases hmenu : startsWith (lit "MENU_RESPONSE|") line = true
    · rw [if_pos hmenu]
      exact forall_congr' fun _ => ⟨fun h _ => h, fun h => h hmenu⟩
    · rw [if_neg hmenu]
      exact iff_of_true hshown fun _ h => absurd h hmenu

theorem CursorOnSale.shown {c : TableClient} (h : CursorOnSale c) (cart : Cart) :
    CursorShown c.cat c.currentCategory cart c.sel := by
  obtain ⟨m, hm, hmatch, -⟩ := h
  intro m' hm' _ _
  rw [hm] at hm'
  cases hm'
  exact hmatch

/-- The fix-up and what it leaves the cursor on. -/
theorem fixSel_shown_iff {key : Key} {c : TableClient} (hscr : c.scr = .menu)
    (hgrid : GoesToGrid key c)
    (hshown : c.focus = .menu → CursorShown c.cat c.currentCategory c.cart c.sel) :
    let c' := fixSel (menuScreenKey S key c).1
    CursorShown c'.cat c'.currentCategory c'.cart c'.sel ↔ FixesSel key c := by
  have hcat : (menuScreenKey S key c).1.cat = c.cat := (menuScreenKey_effect S key c).rest.cat
  have hcategory := (menuScreenKey_onGrid S hscr key).2 hgrid
  intro c'
  by_cases hsells : SellsIn c.cat (categoryAfter key c)
  · refine iff_of_true (CursorOnSale.shown (fixSel_onSale ?_) _) (.inl hsells)
    rw [hcat, hcategory]
    exact hsells
  · obtain ⟨hcart, hsel⟩ := menuScreenKey_stuck S hgrid hsells hshown
    have hfix := fixSel_sel (c := (menuScreenKey S key c).1) (by rwa [hcat, hcategory])
    have hrest : c' = { (menuScreenKey S key c).1 with sel := c'.sel } := fixSel_rest _
    rw [hcat, hcategory, hsel] at hfix
    have hfix : c'.sel = _ := hfix
    rw [hrest]
    simp only [hcat, hcategory, hcart, hfix]
    by_cases hchooses : ChoosesCategory key c
    · simp only [if_pos hchooses, ite_self]
      simp [FixesSel, hsells, hchooses]
    · simp only [if_neg hchooses, categoryAfter]
      cases hany : c.cat.items[c.sel]?.any (uiMenuMatchCategory c.currentCategory) with
      | true =>
        obtain ⟨m, hm, hmatch⟩ := (Option.any_eq_true _ _).mp hany
        refine iff_of_true (fun m' hm' _ _ => ?_) (.inr (.inl ⟨hchooses, m, hm, hmatch⟩))
        rw [if_pos rfl, hm] at hm'
        cases hm'
        exact hmatch
      | false =>
        have hnone : ¬ ∃ m ∈ c.cat.items[c.sel]?, uiMenuMatchCategory c.currentCategory m = true := by
          rintro ⟨m, hm, hmatch⟩
          rw [(Option.any_eq_true _ _).mpr ⟨m, hm, hmatch⟩] at hany
          cases hany
        have hnot := hsells
        rw [categoryAfter, if_neg hchooses] at hnot
        simp only [Bool.false_eq_true, if_false, FixesSel, categoryAfter, if_neg hchooses, hnot, hnone,
          and_false, false_or]

theorem addsShown_key_iff {c : TableClient} (hscreens : TableScreens c) (hshown : AddsShown c)
    (stray : CartItem) (key : Key) :
    AddsShown (tableKey .wrap stray key c).1 ↔ KeepsShown (.key stray key) c := by
  cases hshaken : c.handshakeOk with
  | false =>
    rw [tableKey_waiting .wrap hshaken]
    refine iff_of_true hshown fun h => ?_
    rw [hshaken] at h
    cases h
  | true =>
    have hshaken' : (tableKey .wrap stray key c).1.handshakeOk = true :=
      (tableKey_effect .wrap stray key c).rest.handshakeOk.trans hshaken
    rw [addsShown_iff_cursorShown] at hshown ⊢
    cases hscr : c.scr with
    | menu =>
      have hkeeps : KeepsShown (.key stray key) c ↔ (GoesToGrid key c → FixesSel key c) := by
        simp [KeepsShown, hshaken, hscr]
      have honGrid : (tableKey .wrap stray key c).1.OnGrid ↔ GoesToGrid key c := by
        unfold TableClient.OnGrid
        rw [hshaken', tableKey_menu .wrap hshaken hscr, fixSel_rest,
          ← (menuScreenKey_onGrid .wrap hscr key).1]
        exact and_iff_right rfl
      rw [hkeeps, honGrid, tableKey_menu .wrap hshaken hscr]
      refine forall_congr' fun hgrid => ?_
      exact fixSel_shown_iff .wrap hscr hgrid fun hfocus => hshown ⟨hshaken, hscr, hfocus⟩
    | cart =>
      have hkeeps : KeepsShown (.key stray key) c := by
        simp [KeepsShown, hscr]
      refine iff_of_true (fun hgrid => ?_) hkeeps
      have hfocus := hgrid.2.2
      rw [tableKey_cart_focus .wrap hshaken hscr, hscreens.cart hscr] at hfocus
      cases hfocus
    | status =>
      have hkeeps : KeepsShown (.key stray key) c ↔ (key = .char 'm' →
          CursorShown c.cat c.currentCategory c.cart
            (min c.sel (uiTableCountOrders c.mirror c.tableId - 1))) := by
        simp [KeepsShown, hshaken, hscr]
      have hcat := (statusScreenKey_effect .wrap key c).rest.cat
      obtain ⟨hcategory, ⟨hm, hmenu, hfocus, hcart, hsel⟩ | ⟨hm, hstatus⟩⟩ :=
        statusScreenKey_view hscr key
      · rw [tableKey_status .wrap hshaken hscr] at hshaken' ⊢
        rw [hkeeps, hcat, hcategory, hcart, hsel, TableClient.OnGrid]
        exact ⟨fun h _ => h ⟨hshaken', hmenu, hfocus⟩, fun h _ => h hm⟩
      · rw [tableKey_status .wrap hshaken hscr, hkeeps]
        refine iff_of_true (fun hgrid => ?_) fun h => absurd h hm
        rw [TableClient.OnGrid, hstatus] at hgrid
        cases hgrid.2.1

/-- What SPACE adds from the grid is always an item the grid shows, exactly when no step lets the cursor
come to an item of another category. -/
theorem addsShown_iff (tableId : Int) (menuFile : Option Bytes) (inputs : List TableInput) :
    (∀ pre, pre <+: inputs →
      AddsShown (runTable .wrap (TableClient.start tableId menuFile) pre)) ↔
      Runs.AllSteps (fun input c => (tableInput .wrap input c).1) KeepsShown
        (TableClient.start tableId menuFile) inputs := by
  have hkeep (input : TableInput) (c : TableClient) (h : TableScreens c) :
      TableScreens (tableInput .wrap input c).1 := by
    cases input with
    | line line => exact h.line line
    | key stray key => exact h.key .wrap stray key
  have hstep (input : TableInput) (c : TableClient) (h : TableScreens c) (hshown : AddsShown c) :
      AddsShown (tableInput .wrap input c).1 ↔ KeepsShown input c := by
    cases input with
    | line line => exact addsShown_line_iff h hshown line
    | key stray key => exact addsShown_key_iff h hshown stray key
  have hstart : AddsShown (TableClient.start tableId menuFile) := by
    rintro ⟨⟨⟩, -⟩
  have hiff := Runs.always_iff_allSteps (Q := fun _ => True) (fun input c _ => hkeep input c)
    (fun input c _ => hstep input c) (tableScreens_start tableId menuFile)
    (fun a (_ : a ∈ inputs) => trivial)
  exact hiff.trans (and_iff_right hstart)

/-- "식사류" on the sidebar, which no dish of the default menu is in, then SPACE. -/
def emptyCategory : List TableInput :=
  .line (lit "OK|") :: [Key.left, .down, .down, .char ' '].map (.key (pairItem (0, 0)))

/-- The first dish is added, though the grid is empty. -/
theorem addsShown_fails : ¬ ∀ (tableId : Int) (menuFile : Option Bytes) (inputs : List TableInput),
    AddsShown (runTable .wrap (TableClient.start tableId menuFile) inputs) := by
  intro hall
  have hshown := hall 1 none emptyCategory
  generalize hc : runTable .wrap (TableClient.start 1 none) emptyCategory = c at hshown
  rw [TableClient.start_none] at hc
  have hgrid : c.OnGrid := by
    rw [← hc]
    exact ⟨by decide +kernel, by decide +kernel, by decide +kernel⟩
  have hadded : (tableKey .wrap (pairItem (0, 0)) (.char ' ') c).1.cart ≠ c.cart := by
    rw [← hc]
    decide +kernel
  obtain ⟨m, hm, -, hsale⟩ := hshown hgrid _ hadded
  have hempty : ¬ SellsIn c.cat c.currentCategory := by
    rw [← hc]
    decide +kernel
  exact hempty ⟨m, List.mem_of_getElem? hm, hsale⟩

end TableOrder
