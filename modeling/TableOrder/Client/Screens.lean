import TableOrder.Client.Table

/-!
# The screens of the table client

What a key or a line does to the screen, the focus, the category and the cursor. On the menu screen a
key goes to the grid or the sidebar (`GoesToGrid`); the cart is opened from the sidebar (`OpensCart`),
and is left there (`TableScreens`). A line moves nothing (`tableLine_cursor`).
-/

namespace TableOrder

open CLib

/-! ## What each part changes -/

theorem selInCategory_rest (c : TableClient) :
    selInCategory c = { c with sel := (selInCategory c).sel } := by
  unfold selInCategory
  split <;> rfl

theorem selOnSale_rest (c : TableClient) : selOnSale c = { c with sel := (selOnSale c).sel } := by
  unfold selOnSale
  repeat (first | rfl | split)

/-- The fix-up moves the cursor only. -/
theorem fixSel_rest (c : TableClient) : fixSel c = { c with sel := (fixSel c).sel } := by
  unfold fixSel
  split
  · rfl
  · rw [selOnSale_rest, selInCategory_rest]

theorem moveSel_rest (c : TableClient) (delta : Int) :
    moveSel c delta = { c with sel := (moveSel c delta).sel } := by
  unfold moveSel
  split <;> rfl

theorem setQty_rest (c : TableClient) (menuId qty : Int) :
    setQty c menuId qty = { c with cart := (setQty c menuId qty).cart } := by
  unfold setQty
  split <;> rfl

variable (S : IntSem)

theorem menuSpace_rest (c : TableClient) : menuSpace S c =
    { c with cart := (menuSpace S c).cart, banner := (menuSpace S c).banner } := by
  unfold menuSpace
  repeat (first | rfl | split)

/-! ## One key on each screen -/

theorem tableKey_waiting {c : TableClient} (hwaiting : c.handshakeOk = false) (stray : CartItem)
    (key : Key) : tableKey S stray key c = (c, []) := by
  rw [tableKey, hwaiting]
  rfl

theorem tableKey_menu {c : TableClient} (hshaken : c.handshakeOk = true) (hscr : c.scr = .menu)
    (stray : CartItem) (key : Key) :
    (tableKey S stray key c).1 = fixSel (menuScreenKey S key c).1 := by
  simp only [tableKey, hshaken, hscr]
  rfl

theorem tableKey_cart {c : TableClient} (hshaken : c.handshakeOk = true) (hscr : c.scr = .cart)
    (stray : CartItem) (key : Key) : tableKey S stray key c =
      if c.confirmPopup then popupKey key c else (cartScreenKey S stray key c, []) := by
  simp only [tableKey, hshaken, hscr]
  rfl

theorem tableKey_status {c : TableClient} (hshaken : c.handshakeOk = true) (hscr : c.scr = .status)
    (stray : CartItem) (key : Key) : tableKey S stray key c = statusScreenKey key c := by
  simp only [tableKey, hshaken, hscr]
  rfl

/-! ## The menu screen -/

/-- The key chooses a category on the sidebar. -/
def ChoosesCategory (key : Key) (c : TableClient) : Prop :=
  key = .char ' ' ∧ c.focus = .sidebar ∧ c.sidebarSel ≤ SIDEBAR_DRINK

instance (key : Key) (c : TableClient) : Decidable (ChoosesCategory key c) :=
  inferInstanceAs (Decidable (_ ∧ _ ∧ _))

/-- The key leaves the menu screen with its keys going to the grid. -/
def GoesToGrid (key : Key) (c : TableClient) : Prop :=
  match key, c.focus with
  | .left, .menu => visibleSel c % 3 ≠ 0
  | .right, .sidebar => True
  | .char ' ', .sidebar => c.sidebarSel ≤ SIDEBAR_DRINK
  | _, focus => focus = .menu

def categoryAfter (key : Key) (c : TableClient) : Nat :=
  if ChoosesCategory key c then c.sidebarSel else c.currentCategory

theorem menuScreenKey_onGrid {c : TableClient} (hscr : c.scr = .menu) (key : Key) :
    let c' := (menuScreenKey S key c).1
    (c'.scr = .menu ∧ c'.focus = .menu ↔ GoesToGrid key c) ∧
      (GoesToGrid key c → c'.currentCategory = categoryAfter key c) := by
  intro c'
  unfold c' menuScreenKey
  split
  · next hfocus =>
    by_cases hedge : visibleSel c % 3 = 0
    · simp [GoesToGrid, hfocus, hedge]
    · simp only [hedge, if_false]
      rw [moveSel_rest]
      simp [GoesToGrid, categoryAfter, ChoosesCategory, hscr, hfocus, hedge]
  · next hfocus => simp [GoesToGrid, categoryAfter, ChoosesCategory, hscr, hfocus]
  · next hfocus =>
    rw [moveSel_rest]
    simp [GoesToGrid, categoryAfter, ChoosesCategory, hscr, hfocus]
  · next hfocus => simp [GoesToGrid, hfocus]
  · next hfocus =>
    rw [moveSel_rest]
    simp [GoesToGrid, categoryAfter, ChoosesCategory, hscr, hfocus]
  · next hfocus =>
    simp only [apply_ite TableClient.scr, apply_ite TableClient.focus, hfocus, ite_self]
    simp [GoesToGrid, hfocus]
  · next hfocus =>
    rw [moveSel_rest]
    simp [GoesToGrid, categoryAfter, ChoosesCategory, hscr, hfocus]
  · next hfocus =>
    unfold sidebarSpace
    by_cases hcategory : c.sidebarSel ≤ SIDEBAR_DRINK
    · simp [GoesToGrid, categoryAfter, ChoosesCategory, tableBanner, hscr, hfocus, hcategory]
    · simp only [hcategory, if_false, GoesToGrid, hfocus]
      refine ⟨iff_of_false ?_ (by simp), by simp⟩
      split
      · simp
      · split
        · simp
        · split
          · simp [tableBanner, hfocus]
          · simp [hfocus]
  · next hfocus =>
    rw [menuSpace_rest]
    simp [GoesToGrid, categoryAfter, ChoosesCategory, hscr, hfocus]
  · next key _ _ hleft hright _ _ _ _ _ hspace _ =>
    have hgrid : GoesToGrid key c ↔ c.focus = .menu := by
      unfold GoesToGrid
      split
      · exact (hleft rfl ‹_›).elim
      · exact (hright rfl ‹_›).elim
      · exact (hspace rfl ‹_›).elim
      · rfl
    have hcategory : ¬ ChoosesCategory key c := fun h => hspace h.1 h.2.1
    rw [hgrid, categoryAfter, if_neg hcategory]
    simp [hscr]

/-- The key opens the cart from the sidebar. -/
def OpensCart (key : Key) (c : TableClient) : Prop :=
  key = .char ' ' ∧ c.focus = .sidebar ∧ c.sidebarSel = SIDEBAR_CART

instance (key : Key) (c : TableClient) : Decidable (OpensCart key c) :=
  inferInstanceAs (Decidable (_ ∧ _ ∧ _))

/-- The cart is opened with the cursor on its first line. -/
theorem menuScreenKey_opens {key : Key} {c : TableClient} (h : OpensCart key c) :
    (menuScreenKey S key c).1 = { c with scr := .cart, sel := 0 } := by
  obtain ⟨rfl, hfocus, hside⟩ := h
  simp only [menuScreenKey, hfocus, sidebarSpace, hside]
  rfl

theorem menuScreenKey_cart {c : TableClient} (hscr : c.scr = .menu) (key : Key)
    (hcart : (menuScreenKey S key c).1.scr = .cart) : OpensCart key c := by
  have hnot : c.scr ≠ .cart := by
    rw [hscr]
    decide
  unfold menuScreenKey at hcart
  split at hcart
  · split at hcart
    · exact absurd hcart hnot
    · rw [moveSel_rest] at hcart
      exact absurd hcart hnot
  · exact absurd hcart hnot
  · rw [moveSel_rest] at hcart
    exact absurd hcart hnot
  · exact absurd hcart hnot
  · rw [moveSel_rest] at hcart
    exact absurd hcart hnot
  · simp only [apply_ite TableClient.scr, ite_self] at hcart
    exact absurd hcart hnot
  · rw [moveSel_rest] at hcart
    exact absurd hcart hnot
  · next hfocus =>
    unfold sidebarSpace at hcart
    split at hcart
    · exact absurd hcart hnot
    · split at hcart
      · next hside => exact ⟨rfl, hfocus, hside⟩
      · split at hcart
        · cases hcart
        · split at hcart
          · exact absurd hcart hnot
          · exact absurd hcart hnot
  · rw [menuSpace_rest] at hcart
    exact absurd hcart hnot
  · exact absurd hcart hnot

/-! ## The other screens -/

/-- An order that is sent leads to the status screen; otherwise the popup moves nothing. -/
theorem popupKey_view (key : Key) (c : TableClient) :
    let c' := (popupKey key c).1
    c'.focus = c.focus ∧
      (c'.scr = .status ∨ c'.scr = c.scr ∧ c'.cart = c.cart ∧ c'.sel = c.sel) := by
  intro c'
  unfold c' popupKey uiSubmitCartOrder
  split
  · by_cases hempty : c.cart.items = []
    · rw [if_pos hempty]
      exact ⟨rfl, .inr ⟨rfl, rfl, rfl⟩⟩
    · rw [if_neg hempty]
      exact ⟨rfl, .inl rfl⟩
  · split <;> exact ⟨rfl, .inr ⟨rfl, rfl, rfl⟩⟩

theorem cartScreenKey_focus (stray : CartItem) (key : Key) (c : TableClient) :
    (cartScreenKey S stray key c).focus = c.focus := by
  have hqty (c : TableClient) (menuId qty : Int) : (setQty c menuId qty).focus = c.focus := by
    rw [setQty_rest]
  unfold cartScreenKey clampSel
  simp only
  split
  · split <;> rfl
  · split <;> rfl
  · split
    · exact hqty c _ _
    · rfl
  · split
    · exact hqty c _ _
    · rfl
  · split
    · exact hqty c _ _
    · rfl
  all_goals repeat (first | rfl | split)

theorem tableKey_cart_focus {c : TableClient} (hshaken : c.handshakeOk = true) (hscr : c.scr = .cart)
    (stray : CartItem) (key : Key) : (tableKey S stray key c).1.focus = c.focus := by
  rw [tableKey_cart S hshaken hscr]
  split
  · exact (popupKey_view key c).1
  · exact cartScreenKey_focus S stray key c

theorem statusScreenKey_view {c : TableClient} (hscr : c.scr = .status) (key : Key) :
    let c' := (statusScreenKey key c).1
    c'.currentCategory = c.currentCategory ∧
      (key = .char 'm' ∧ c'.scr = .menu ∧ c'.focus = .menu ∧ c'.cart = c.cart ∧
          c'.sel = min c.sel (uiTableCountOrders c.mirror c.tableId - 1) ∨
        key ≠ .char 'm' ∧ c'.scr = .status) := by
  intro c'
  unfold c' statusScreenKey statusDrawn
  simp only
  split
  · split <;> exact ⟨rfl, .inr ⟨by simp, hscr⟩⟩
  · split <;> exact ⟨rfl, .inr ⟨by simp, hscr⟩⟩
  · repeat (first | exact ⟨rfl, .inr ⟨by simp, hscr⟩⟩ | split)
  · repeat (first | exact ⟨rfl, .inr ⟨by simp, hscr⟩⟩ | split)
  · exact ⟨rfl, .inl ⟨rfl, rfl, rfl, rfl, rfl⟩⟩
  · next hm => exact ⟨rfl, .inr ⟨hm, hscr⟩⟩

/-! ## Lines -/

/-- What a line leaves alone. -/
structure SameCursor (c c' : TableClient) : Prop where
  scr : c'.scr = c.scr
  focus : c'.focus = c.focus
  currentCategory : c'.currentCategory = c.currentCategory
  sel : c'.sel = c.sel
  cart : c'.cart = c.cart

theorem tableLine_cursor (c : TableClient) (line : Bytes) : SameCursor c (tableLine c line).1 := by
  unfold tableLine handshakeLine
  repeat (first | exact ⟨rfl, rfl, rfl, rfl, rfl⟩ | split)

theorem tableLine_shaken {c : TableClient} (hshaken : c.handshakeOk = true) (line : Bytes) :
    (tableLine c line).1.handshakeOk = true ∧ (tableLine c line).1.cat =
      if startsWith (lit "MENU_RESPONSE|") line then uiApplyMenuResponse c.cat line else c.cat := by
  unfold tableLine
  rw [if_neg (by simp [hshaken])]
  by_cases hmenu : startsWith (lit "MENU_RESPONSE|") line = true
  · rw [if_pos hmenu, if_pos hmenu]
    exact ⟨hshaken, rfl⟩
  · rw [if_neg hmenu, if_neg hmenu]
    repeat (first | exact ⟨hshaken, rfl⟩ | split)

/-! ## Screens of a run -/

/-- From the first screens on: before the handshake the grid shows everything, and the cart is opened
from the sidebar. -/
structure TableScreens (c : TableClient) : Prop where
  waiting : c.handshakeOk = false → c.currentCategory = SIDEBAR_ALL
  cart : c.scr = .cart → c.focus = .sidebar

theorem tableScreens_start (tableId : Int) (menuFile : Option Bytes) :
    TableScreens (TableClient.start tableId menuFile) := ⟨fun _ => rfl, by rintro ⟨⟩⟩

theorem TableScreens.line {c : TableClient} (h : TableScreens c) (line : Bytes) :
    TableScreens (tableLine c line).1 := by
  have hsame := tableLine_cursor c line
  constructor
  · intro hwaiting
    rw [hsame.currentCategory]
    cases hshaken : c.handshakeOk with
    | false => exact h.waiting hshaken
    | true =>
      rw [(tableLine_shaken hshaken line).1] at hwaiting
      cases hwaiting
  · intro hcart
    rw [hsame.scr] at hcart
    rw [hsame.focus]
    exact h.cart hcart

theorem TableScreens.key {c : TableClient} (h : TableScreens c) (stray : CartItem) (key : Key) :
    TableScreens (tableKey S stray key c).1 := by
  cases hshaken : c.handshakeOk with
  | false =>
    rw [tableKey_waiting S hshaken]
    exact h
  | true =>
    constructor
    · intro hwaiting
      rw [(tableKey_effect S stray key c).rest.handshakeOk, hshaken] at hwaiting
      cases hwaiting
    · cases hscr : c.scr with
      | menu =>
        rw [tableKey_menu S hshaken hscr, fixSel_rest]
        intro hcart
        have hopens := menuScreenKey_cart S hscr key hcart
        show (menuScreenKey S key c).1.focus = .sidebar
        rw [menuScreenKey_opens S hopens]
        exact hopens.2.1
      | cart =>
        intro _
        rw [tableKey_cart_focus S hshaken hscr]
        exact h.cart hscr
      | status =>
        rw [tableKey_status S hshaken hscr]
        intro hcart
        rcases (statusScreenKey_view hscr key).2 with ⟨-, hmenu, -⟩ | ⟨-, hstatus⟩
        · rw [hmenu] at hcart
          cases hcart
        · rw [hstatus] at hcart
          cases hcart

end TableOrder
