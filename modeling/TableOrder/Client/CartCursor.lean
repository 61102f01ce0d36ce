import TableOrder.Client.MenuCursor

/-!
# The cursor on the cart screen

The cart screen uses its cursor as an index without a test. Its own keys keep it on a line of the
cart but for one overflow; the key that opens the cart sets it to 0, and then the fix-up of the menu
screen moves it to a dish of the category (`fixSel_zero`). `onCartLine_iff` says which steps keep it.
-/

namespace TableOrder

open CLib
open Rows (positions)

variable (S : IntSem)

/-- On the cart screen the cursor is on a line of the cart, unless there is none. -/
def OnCartLine (c : TableClient) : Prop :=
  c.scr = .cart → c.cart.items ≠ [] → c.sel < c.cart.items.length

/-! ## From the menu screen -/

theorem uiMenuFirstSelectableInCategory_le {cat : MenuCatalog} {currentCategory i j : Nat}
    (hfirst : uiMenuFirstSelectableInCategory cat currentCategory = some i) {m : MenuItem}
    (hm : cat.items[j]? = some m) (hsale : OnSaleIn currentCategory m) : i ≤ j := by
  obtain ⟨hi, -, hbefore⟩ := List.findIdx?_eq_some_iff_getElem.mp hfirst
  obtain ⟨hj, rfl⟩ := List.getElem?_eq_some_iff.mp hm
  by_contra hlt
  refine hbefore j (Nat.lt_of_not_le hlt) ?_
  rw [hsale.1, hsale.2]
  rfl

/-- From behind a position that is not on sale the search finds the first item on sale. -/
theorem search_first {cat : MenuCatalog} {currentCategory i : Nat}
    (hfirst : uiMenuFirstSelectableInCategory cat currentCategory = some i)
    (hsold : ∀ j, ¬ OnSaleAt cat currentCategory 0 j) :
    uiFindSelectableVisibleFrom cat currentCategory 1 1 = some i := by
  obtain ⟨m, hm, hsale⟩ := uiMenuFirstSelectableInCategory_eq_some hfirst
  obtain ⟨w, hw⟩ := List.getElem?_of_mem (Rows.mem_positions.mpr ⟨m, hm, hsale.1⟩)
  have hgoal : OnSaleAt cat currentCategory w i := onSaleAt_iff.mpr ⟨⟨w, rfl, hw⟩, m, hm, hsale⟩
  have hcount : w < uiMenuVisibleCount cat currentCategory := by
    rw [uiMenuVisibleCount_eq]
    exact (List.getElem?_eq_some_iff.mp hw).1
  obtain ⟨w, rfl⟩ : ∃ k, w = k + 1 := by
    cases w with
    | zero => exact absurd hgoal (hsold i)
    | succ k => exact ⟨k, rfl⟩
  refine ((uiFindSelectableVisibleFrom_finds (by decide) 1).found i).mpr ⟨w, ?_, ?_, ?_⟩
  · intro k hk
    unfold InGrid
    omega
  · rw [show (1 : Int) + w * 1 = (w + 1 : Nat) by omega]
    exact hgoal
  · -- an item on sale before it would be the first one
    intro k hk j hj
    obtain ⟨⟨n, hn, hjpos⟩, mj, hmj, hjsale⟩ := onSaleAt_iff.mp hj
    have hlt : j < i := (Rows.positions_lt_iff hjpos hw).mp (by omega)
    have hle := uiMenuFirstSelectableInCategory_le hfirst hmj hjsale
    omega

/-- From the first item of the catalog the fix-up goes to the first one on sale in the category. -/
theorem fixSel_zero {c : TableClient} (hsel : c.sel = 0) : (fixSel c).sel = firstSelectable c := by
  unfold firstSelectable
  cases hfirst : uiMenuFirstSelectableInCategory c.cat c.currentCategory with
  | none =>
    rw [fixSel_sel (uiMenuFirstSelectableInCategory_eq_none.mp hfirst), hsel, ite_self]
    rfl
  | some i =>
    have hsells : SellsIn c.cat c.currentCategory := by
      by_contra hno
      rw [uiMenuFirstSelectableInCategory_eq_none.mpr hno] at hfirst
      cases hfirst
    obtain ⟨m, hm, hmatch, hsale⟩ := uiMenuFirstSelectableInCategory_eq_some hfirst
    rw [fixSel_of_sells hsells]
    unfold selInCategory
    cases hany : c.cat.items[c.sel]?.any (uiMenuMatchCategory c.currentCategory) with
    | false =>
      -- the first one on sale itself
      have hselectable : uiMenuIsSelectable c.cat i = true := uiMenuIsSelectable_iff.mpr ⟨m, hm, hsale⟩
      simp [firstSelectable, hfirst, selOnSale, hselectable]
    | true =>
      obtain ⟨m0, hm0, hmatch0⟩ := (Option.any_eq_true _ _).mp hany
      rw [if_pos rfl]
      unfold selOnSale
      cases hselectable : uiMenuIsSelectable c.cat c.sel with
      | true =>
        obtain ⟨m', hm', hsale'⟩ := uiMenuIsSelectable_iff.mp hselectable
        rw [hm0] at hm'
        cases hm'
        have hle := uiMenuFirstSelectableInCategory_le hfirst hm0 ⟨hmatch0, hsale'⟩
        simp only [Bool.not_true, Bool.false_and, Bool.false_eq_true, if_false, Option.getD_some]
        omega
      | false =>
        have hlt := (List.getElem?_eq_some_iff.mp hm0).1
        -- the cursor is on the first position, which is sold out
        have hv : (positions (uiMenuMatchCategory c.currentCategory) c.cat.items)[0]? = some c.sel := by
          rw [hsel] at hm0 ⊢
          exact Rows.getElem?_positions_zero hm0 hmatch0
        have hpos : uiMenuVisiblePosOfIndex c.cat c.currentCategory c.sel = some 0 :=
          uiMenuVisiblePosOfIndex_eq_some.mpr ⟨c.sel, rfl, hv⟩
        have hsold (j : Nat) : ¬ OnSaleAt c.cat c.currentCategory 0 j := by
          rintro ⟨hj, hjsale⟩
          obtain ⟨n, hn, hjpos⟩ := uiMenuIndexAtVisible_eq_some.mp hj
          obtain rfl : n = 0 := by omega
          rw [hv] at hjpos
          cases hjpos
          rw [hselectable] at hjsale
          cases hjsale
        have hsearch : uiFindSelectableVisibleFrom c.cat c.currentCategory ((0 : Nat) + 1) 1 = some i :=
          search_first hfirst hsold
        rw [if_pos (by simpa using hlt)]
        simp only [hpos, hsearch, Option.getD_some]

/-! ## The steps that keep it -/

/-- The cart that is opened has a line for the cursor, and no quantity overflows. -/
def KeepsLine : TableInput → TableClient → Prop
  | .line _, _ => True
  | .key _ key, c => c.handshakeOk = true →
    (c.scr = .menu → OpensCart key c → c.cart.items ≠ [] →
      ∀ i ∈ uiMenuFirstSelectableInCategory c.cat c.currentCategory, i < c.cart.items.length) ∧
    (c.scr = .cart → c.confirmPopup = false → key = .char '+' ∨ key = .char '=' →
      ∀ it ∈ c.cart.items[c.sel]?, c.sel + 1 < c.cart.items.length ∨ c.cart.items.length = 1 ∨
        0 < S.norm (it.qty + 1))

/-- The line of an item of the cart is set or removed. -/
theorem setQty_length {c : TableClient} {i : Nat} {it : CartItem}
    (hit : c.cart.items[i]? = some it) (qty : Int) : (setQty c it.menuId qty).cart.items.length =
      if 0 < qty then c.cart.items.length else c.cart.items.length - 1 := by
  unfold setQty
  cases hset : cartSetQty c.cart it.menuId qty with
  | error e =>
    exact absurd (List.mem_map_of_mem (List.mem_of_getElem? hit)) (cartSetQty_eq_error hset)
  | ok cart =>
    obtain ⟨j, v, hv, -, ⟨hpos, hitems⟩ | ⟨hneg, hitems⟩⟩ := cartSetQty_cases hset
    · rw [if_pos hpos]
      simp only [hitems, List.length_set]
    · have hj := (List.getElem?_eq_some_iff.mp hv).1
      rw [if_neg (by omega)]
      simp only [hitems, List.length_eraseIdx_of_lt hj]

theorem onCartLine_iff_length {c : TableClient} (hscr : c.scr = .cart) :
    OnCartLine c ↔ (0 < c.cart.items.length → c.sel < c.cart.items.length) := by
  unfold OnCartLine
  rw [hscr, List.length_pos_iff]
  exact forall_prop_of_true rfl

/-- Without the clamp of the other keys. -/
theorem setQty_onCartLine_iff {c : TableClient} (hscr : c.scr = .cart) {it : CartItem}
    (hit : c.cart.items[c.sel]? = some it) (qty : Int) : OnCartLine (setQty c it.menuId qty) ↔
      c.sel + 1 < c.cart.items.length ∨ c.cart.items.length = 1 ∨ 0 < qty := by
  have hlt := (List.getElem?_eq_some_iff.mp hit).1
  have hrest := setQty_rest c it.menuId qty
  have hscr' : (setQty c it.menuId qty).scr = .cart := by
    rw [hrest]
    exact hscr
  have hsel : (setQty c it.menuId qty).sel = c.sel := by rw [hrest]
  rw [onCartLine_iff_length hscr', hsel, setQty_length hit]
  split <;> omega

theorem clampSel_onCartLine (c : TableClient) : OnCartLine (clampSel c) := by
  intro _ hne
  have hlines := List.length_pos_iff.mpr hne
  show min c.sel (c.cart.items.length - 1) < c.cart.items.length
  have hlines : 0 < c.cart.items.length := hlines
  omega

theorem onCartLine_plus_iff {c : TableClient} (hscr : c.scr = .cart) (hline : OnCartLine c)
    (stray : CartItem) {key : Key} (hplus : key = .char '+' ∨ key = .char '=') :
    OnCartLine (if 0 < c.cart.items.length then
        setQty c ((c.cart.items[c.sel]?).getD stray).menuId
          (S.norm (((c.cart.items[c.sel]?).getD stray).qty + 1))
      else c) ↔
      (key = .char '+' ∨ key = .char '=' → ∀ it ∈ c.cart.items[c.sel]?,
        c.sel + 1 < c.cart.items.length ∨ c.cart.items.length = 1 ∨ 0 < S.norm (it.qty + 1)) := by
  rw [forall_prop_of_true hplus]
  split
  · next hlines =>
    have hsel := (onCartLine_iff_length hscr).mp hline hlines
    have hit := List.getElem?_eq_getElem hsel
    rw [hit, Option.getD_some, setQty_onCartLine_iff hscr hit]
    simp
  · next hempty =>
    have hnone : c.cart.items[c.sel]? = none := by
      rw [List.getElem?_eq_none_iff]
      omega
    refine iff_of_true hline ?_
    rw [hnone]
    rintro it ⟨⟩

theorem onCartLine_cartKey_iff {c : TableClient} (hshaken : c.handshakeOk = true) (hscr : c.scr = .cart)
    (hpopup : c.confirmPopup = false) (hline : OnCartLine c) (stray : CartItem) (key : Key) :
    OnCartLine (cartScreenKey S stray key c) ↔ KeepsLine S (.key stray key) c := by
  have hkeeps : KeepsLine S (.key stray key) c ↔ (key = .char '+' ∨ key = .char '=' →
      ∀ it ∈ c.cart.items[c.sel]?, c.sel + 1 < c.cart.items.length ∨ c.cart.items.length = 1 ∨
        0 < S.norm (it.qty + 1)) := by
    simp [KeepsLine, hshaken, hscr, hpopup]
  rw [hkeeps]
  unfold cartScreenKey cartSlot
  simp only
  split
  · refine iff_of_true ?_ (by simp)
    split
    · next hlines => exact fun _ _ => Nat.mod_lt _ hlines
    · exact hline
  · refine iff_of_true ?_ (by simp)
    split
    · next hlines => exact fun _ _ => Nat.mod_lt _ hlines
    · exact hline
  · exact onCartLine_plus_iff S hscr hline stray (.inl rfl)
  · exact onCartLine_plus_iff S hscr hline stray (.inr rfl)
  · refine iff_of_true ?_ (by simp)
    split
    · exact clampSel_onCartLine _
    · exact hline
  · refine iff_of_true ?_ (by simp)
    split
    · exact clampSel_onCartLine _
    · exact hline
  · refine iff_of_true ?_ (by simp)
    rintro ⟨⟩
  · exact iff_of_true (by split <;> exact hline) (by simp)
  · exact iff_of_true (by split <;> exact hline) (by simp)
  · exact iff_of_true (by split <;> exact hline) (by simp)
  · next hplus heq _ _ _ _ _ _ => exact iff_of_true hline fun h => (h.elim hplus heq).elim

/-- The fix-up of the menu screen moves the cursor of the cart that was opened. -/
theorem onCartLine_menuKey_iff {c : TableClient} (hshaken : c.handshakeOk = true)
    (hscr : c.scr = .menu) (stray : CartItem) (key : Key) :
    OnCartLine (tableKey S stray key c).1 ↔ KeepsLine S (.key stray key) c := by
  have hkeeps : KeepsLine S (.key stray key) c ↔ (OpensCart key c → c.cart.items ≠ [] →
      ∀ i ∈ uiMenuFirstSelectableInCategory c.cat c.currentCategory, i < c.cart.items.length) := by
    simp [KeepsLine, hshaken, hscr]
  rw [hkeeps, tableKey_menu S hshaken hscr]
  by_cases hopens : OpensCart key c
  · have hzero := fixSel_zero (c := { c with scr := .cart, sel := 0 }) rfl
    rw [menuScreenKey_opens S hopens, forall_prop_of_true hopens]
    rw [fixSel_rest, hzero, onCartLine_iff_length rfl, ← List.length_pos_iff]
    refine forall_congr' fun hlines => ?_
    show firstSelectable c < c.cart.items.length ↔ _
    unfold firstSelectable
    cases uiMenuFirstSelectableInCategory c.cat c.currentCategory with
    | none => simpa using hlines
    | some i => simp
  · refine iff_of_true ?_ fun h => absurd h hopens
    rw [fixSel_rest]
    intro hcart
    exact absurd (menuScreenKey_cart S hscr key hcart) hopens

theorem onCartLine_key_iff {c : TableClient} (hline : OnCartLine c) (stray : CartItem) (key : Key) :
    OnCartLine (tableKey S stray key c).1 ↔ KeepsLine S (.key stray key) c := by
  cases hshaken : c.handshakeOk with
  | false =>
    rw [tableKey_waiting S hshaken]
    refine iff_of_true hline fun h => ?_
    rw [hshaken] at h
    cases h
  | true =>
    cases hscr : c.scr with
    | menu => exact onCartLine_menuKey_iff S hshaken hscr stray key
    | cart =>
      rw [tableKey_cart S hshaken hscr]
      cases hpopup : c.confirmPopup with
      | false =>
        simp only [Bool.false_eq_true, if_false]
        exact onCartLine_cartKey_iff S hshaken hscr hpopup hline stray key
      | true =>
        have hkeeps : KeepsLine S (.key stray key) c := by
          simp [KeepsLine, hscr, hpopup]
        refine iff_of_true ?_ hkeeps
        rw [if_pos rfl]
        intro hcart hne
        rcases (popupKey_view key c).2 with hstatus | ⟨-, hsame, hsel⟩
        · rw [hstatus] at hcart
          cases hcart
        · rw [hsame] at hne ⊢
          rw [hsel]
          exact hline hscr hne
    | status =>
      have hkeeps : KeepsLine S (.key stray key) c := by
        simp [KeepsLine, hscr]
      refine iff_of_true ?_ hkeeps
      rw [tableKey_status S hshaken hscr]
      intro hcart
      rcases (statusScreenKey_view hscr key).2 with ⟨-, hmenu, -⟩ | ⟨-, hstatus⟩
      · rw [hmenu] at hcart
        cases hcart
      · rw [hstatus] at hcart
        cases hcart

/-- The cursor of the cart screen is always on a line of the cart, exactly when every cart that is opened
has as many lines as the fix-up asks for and no quantity overflows on a last line. -/
theorem onCartLine_iff (tableId : Int) (menuFile : Option Bytes) (inputs : List TableInput) :
    (∀ pre, pre <+: inputs → OnCartLine (runTable S (TableClient.start tableId menuFile) pre)) ↔
      Runs.AllSteps (fun input c => (tableInput S input c).1) (KeepsLine S)
        (TableClient.start tableId menuFile) inputs := by
  have hstep (input : TableInput) (c : TableClient) (hline : OnCartLine c) :
      OnCartLine (tableInput S input c).1 ↔ KeepsLine S input c := by
    cases input with
    | line line =>
      have hsame := tableLine_cursor c line
      refine iff_of_true ?_ trivial
      show OnCartLine (tableLine c line).1
      unfold OnCartLine
      rw [hsame.scr, hsame.cart, hsame.sel]
      exact hline
    | key stray key => exact onCartLine_key_iff S hline stray key
  have hstart : OnCartLine (TableClient.start tableId menuFile) := by
    rintro ⟨⟩
  have hiff := Runs.always_iff_allSteps (Q := fun _ => True) (J := fun _ => True)
    (s := TableClient.start tableId menuFile) (fun _ _ _ _ => trivial) (fun input c _ _ => hstep input c) trivial
    (fun a (_ : a ∈ inputs) => trivial)
  exact hiff.trans (and_iff_right hstart)

/-- One dish in the cart, and the drinks on the grid, the first of which is the fourth item of the default
menu. -/
def cartFromDrinks : List TableInput :=
  .line (lit "OK|") :: [Key.char ' ', .left, .down, .down, .down, .down, .down, .char ' ', .left, .down,
    .char ' '].map (.key (pairItem (0, 0)))

/-- The cart with one line is opened with the cursor at 3. -/
theorem onCartLine_fails : ¬ ∀ (tableId : Int) (menuFile : Option Bytes) (inputs : List TableInput),
    OnCartLine (runTable .wrap (TableClient.start tableId menuFile) inputs) := by
  intro hall
  have hline := hall 1 none cartFromDrinks
  rw [TableClient.start_none] at hline
  revert hline
  unfold OnCartLine
  decide +kernel

end TableOrder
