import TableOrder.Client.MenuGrid
import TableOrder.Client.Screens
import TableOrder.Lib.Runs
import TableOrder.Protocol.Request

/-!
# The menu screen and its pictures (`ui_draw_table_menu`)

The menu screen shows the category page by page, six cards at a time. Their texts are printed in every
frame, but the pictures only when the page, the category or the size of the terminal is not what it was
in the last frame; whatever else may change them resets what is remembered (`ui_table_reset_images`).
Whatever lines come and keys are pressed, the pictures are those of the items on the cards, unless a
terminal that was too small for the grid has wiped them (`menu_screen_shown`).
-/

namespace TableOrder

open CLib
open Rows (positions)

/-! ## The grid -/

/-- `page_size`, two rows of three cards. -/
def PAGE_SIZE : Nat := 6

/-- `last_menu_*`. -/
structure LastMenu where
  page : Nat
  rows : Int
  cols : Int
  count : Nat
  category : Nat
  deriving DecidableEq

structure MenuCard where
  item : Option MenuItem
  selected : Bool

/-- A call of `ui_draw_chafa_image`. -/
structure Picture where
  y : Int
  x : Int
  w : Int
  h : Int
  menuId : Int
  deriving DecidableEq

/-- What of the menu screen is on the terminal. -/
structure MenuTerminal where
  cards : List MenuCard
  page : Nat
  totalPages : Nat
  /-- The item of the line below the grid. -/
  info : Option MenuItem
  pictures : List Picture
  /-- The message that asks for a larger terminal, or what later frames left of it. -/
  tooSmall : Bool

/-- After `clear`. -/
def MenuTerminal.blank : MenuTerminal := ⟨[], 0, 0, none, [], false⟩

def sidebarW : Int := 24

def cellW (cols : Int) : Int := (cols - (sidebarW + 1) - 4 - 2 * 2).tdiv 3

def cellH (rows : Int) : Int := (rows - 4 - 7 - 1).tdiv 2

/-- The picture on card `n`. -/
def cardPicture (rows cols : Int) (n : Nat) (menuId : Int) : Picture where
  y := 2 + 2 + (n / 3 : Nat) * (cellH rows + 1) + 1
  x := sidebarW + 1 + 2 + (n % 3 : Nat) * (cellW cols + 2) + 1
  w := cellW cols - 2
  h := cellH rows - 4
  menuId := menuId

/-- The catalog index of card `n`. -/
def cardIndex (cat : MenuCatalog) (currentCategory page n : Nat) : Option Nat :=
  uiMenuIndexAtVisible cat currentCategory (page * PAGE_SIZE + n : Nat)

def menuCard (c : TableClient) (page n : Nat) : MenuCard :=
  match cardIndex c.cat c.currentCategory page n with
  | none => ⟨none, false⟩
  | some idx => ⟨c.cat.items[idx]?, decide (idx = c.sel) && decide (c.focus = .menu)⟩

/-- The loop over the pictures. -/
def menuPictures (cat : MenuCatalog) (currentCategory page : Nat) (rows cols : Int) : List Picture :=
  (List.range PAGE_SIZE).filterMap fun n =>
    ((cardIndex cat currentCategory page n).bind (cat.items[·]?)).map fun m =>
      cardPicture rows cols n m.id

/-- The page of the cursor. -/
def pageOf (c : TableClient) : Nat := visibleSel c / PAGE_SIZE

def totalPages (c : TableClient) : Nat :=
  let pages := (uiMenuVisibleCount c.cat c.currentCategory + PAGE_SIZE - 1) / PAGE_SIZE
  if pages = 0 then 1 else pages

def infoLine (c : TableClient) : Option MenuItem :=
  (c.cat.items[c.sel]?).filter (uiMenuMatchCategory c.currentCategory)

/-- The sizes that get the message instead of the grid. -/
def MenuTooSmall (rows cols : Int) : Prop := cols < 95 ∨ rows < 28 ∨ cols - (sidebarW + 1) < 60

instance (rows cols : Int) : Decidable (MenuTooSmall rows cols) :=
  inferInstanceAs (Decidable (cols < 95 ∨ rows < 28 ∨ cols - (sidebarW + 1) < 60))

/-! ## The display -/

/-- A table client with its terminal. `last` is `none` after `ui_table_reset_images`. -/
structure TableDisplay where
  client : TableClient
  last : Option LastMenu
  term : MenuTerminal

def TableDisplay.start (tableId : Int) (menuFile : Option Bytes) : TableDisplay :=
  ⟨TableClient.start tableId menuFile, none, .blank⟩

/-- `ui_draw_table_menu` on the menu screen. -/
def uiDrawTableMenu (rows cols : Int) (d : TableDisplay) : TableDisplay :=
  let c := d.client
  if MenuTooSmall rows cols then
    { d with term := { MenuTerminal.blank with tooSmall := true } }
  else
    let last : LastMenu :=
      ⟨pageOf c, rows, cols, uiMenuVisibleCount c.cat c.currentCategory, c.currentCategory⟩
    let needImageRedraw := d.last ≠ some last
    let term := if needImageRedraw then .blank else d.term
    if cellW cols < 16 ∨ cellH rows < 8 then { d with term := term }
    else
      { d with
        last := some last
        term :=
          { cards := (List.range PAGE_SIZE).map (menuCard c (pageOf c))
            page := pageOf c
            totalPages := totalPages c
            info := infoLine c
            pictures :=
              if needImageRedraw then menuPictures c.cat c.currentCategory (pageOf c) rows cols
              else term.pictures
            tooSmall := term.tooSmall } }

/-- One frame of the loop. The other screens clear the terminal first, and the status screen clamps the
cursor. -/
def drawFrame (rows cols : Int) (d : TableDisplay) : TableDisplay :=
  match d.client.scr with
  | .menu => uiDrawTableMenu rows cols d
  | .cart => { d with term := .blank }
  | .status => { d with client := statusDrawn d.client, term := .blank }

/-- The key on the sidebar calls `ui_table_reset_images`. -/
def sidebarResets (key : Key) (c : TableClient) : Bool :=
  match key, c.focus with
  | .right, .sidebar => true
  | .char ' ', .sidebar =>
    decide (c.sidebarSel ≤ SIDEBAR_DRINK) || c.sidebarSel == SIDEBAR_CART || c.sidebarSel == SIDEBAR_ORDER
  | _, _ => false

/-- So does a key that turns the page, before the cursor is fixed up or then. -/
def menuKeyResets (last : Option LastMenu) (key : Key) (c : TableClient) : Bool :=
  let moved := (menuScreenKey .wrap key c).1
  sidebarResets key c || pageOf moved != pageOf c ||
    (last.map (·.page) != some (pageOf (fixSel moved)))

def keyResets (last : Option LastMenu) (key : Key) (c : TableClient) : Bool :=
  c.handshakeOk &&
    match c.scr with
    | .menu => menuKeyResets last key c
    | .cart =>
      if c.confirmPopup then (key == .char 'y' || key == .char 'Y') && !c.cart.items.isEmpty
      else key == .char 'm'
    | .status => key == .char 'm'

inductive DisplayAction where
  | line (line : Bytes)
  /-- The size of the terminal at a turn of the loop. -/
  | frame (rows cols : Int)
  | key (stray : CartItem) (key : Key)

def displayStep : DisplayAction → TableDisplay → TableDisplay
  | .line line, d =>
    { d with
      client := (tableLine d.client line).1
      last := if startsWith (lit "MENU_RESPONSE|") line then none else d.last }
  | .frame rows cols, d => if d.client.handshakeOk then drawFrame rows cols d else d
  | .key stray key, d =>
    { d with
      client := (tableKey .wrap stray key d.client).1
      last := if keyResets d.last key d.client then none else d.last }

/-! ## One frame of the menu -/

/-- The items of the category on display. -/
def inCategory (c : TableClient) : List MenuItem :=
  c.cat.items.filter (uiMenuMatchCategory c.currentCategory)

theorem cardIndex_eq (cat : MenuCatalog) (currentCategory page n : Nat) :
    cardIndex cat currentCategory page n =
      (positions (uiMenuMatchCategory currentCategory) cat.items)[page * PAGE_SIZE + n]? := by
  apply Option.ext
  intro i
  rw [cardIndex, uiMenuIndexAtVisible_eq_some]
  constructor
  · rintro ⟨v, hv, hi⟩
    rwa [Int.natCast_inj.mp hv]
  · intro hi
    exact ⟨_, rfl, hi⟩

theorem cardIndex_item (c : TableClient) (page n : Nat) :
    (cardIndex c.cat c.currentCategory page n).bind (c.cat.items[·]?) =
      (inCategory c)[page * PAGE_SIZE + n]? := by
  rw [cardIndex_eq, inCategory, Rows.getElem?_filter]

theorem menuCard_item (c : TableClient) (page n : Nat) :
    (menuCard c page n).item = (inCategory c)[page * PAGE_SIZE + n]? := by
  rw [← cardIndex_item, menuCard]
  cases cardIndex c.cat c.currentCategory page n <;> rfl

/-- The card of the cursor. -/
theorem menuCard_selected (c : TableClient) (page n : Nat) :
    (menuCard c page n).selected = true ↔ c.focus = .menu ∧
      uiMenuVisiblePosOfIndex c.cat c.currentCategory c.sel = some (page * PAGE_SIZE + n) := by
  have hcursor : cardIndex c.cat c.currentCategory page n = some c.sel ↔
      uiMenuVisiblePosOfIndex c.cat c.currentCategory c.sel = some (page * PAGE_SIZE + n) :=
    (gridTranslates c.cat c.currentCategory).inverse _ _
  rw [← hcursor, menuCard]
  cases cardIndex c.cat c.currentCategory page n with
  | none => simp
  | some idx => simp [and_comm]

/-! ## The pictures that were drawn -/

/-- Away from the menu nothing is remembered, and what is remembered is on the terminal as long as it
has room for the grid. -/
structure TableDisplay.Sound (d : TableDisplay) : Prop where
  hidden : d.client.scr ≠ .menu → d.last = none
  drawn : ∀ last, d.last = some last → d.term.pictures =
    if d.term.tooSmall then []
    else menuPictures d.client.cat last.category last.page last.rows last.cols

theorem display_sound_start (tableId : Int) (menuFile : Option Bytes) :
    (TableDisplay.start tableId menuFile).Sound := ⟨fun _ => rfl, nofun⟩

/-- A catalog that changes is forgotten. -/
theorem tableLine_cat_kept {line : Bytes} (h : startsWith (lit "MENU_RESPONSE|") line = false)
    (c : TableClient) : (tableLine c line).1.cat = c.cat := by
  unfold tableLine handshakeLine
  simp only [h, Bool.false_eq_true, if_false]
  repeat (first | rfl | split)

theorem display_sound_line {d : TableDisplay} (h : d.Sound) (line : Bytes) :
    (displayStep (.line line) d).Sound := by
  have hcursor := tableLine_cursor d.client line
  simp only [displayStep]
  cases hmenu : startsWith (lit "MENU_RESPONSE|") line with
  | true => exact ⟨fun _ => rfl, nofun⟩
  | false =>
    constructor
    · intro hscr
      rw [hcursor.scr] at hscr
      exact h.hidden hscr
    · intro last hlast
      rw [tableLine_cat_kept hmenu]
      exact h.drawn last hlast

/-- Where there is room for the grid, there is room for its cards. -/
theorem cards_fit {rows cols : Int} (h : ¬ MenuTooSmall rows cols) : 16 ≤ cellW cols ∧ 8 ≤ cellH rows := by
  have hside : sidebarW = 24 := rfl
  unfold MenuTooSmall at h
  unfold cellW cellH
  rw [Int.tdiv_eq_ediv_of_nonneg (by omega), Int.tdiv_eq_ediv_of_nonneg (by omega)]
  omega

theorem display_sound_menu {d : TableDisplay} (h : d.Sound) (hscr : d.client.scr = .menu)
    (rows cols : Int) : (uiDrawTableMenu rows cols d).Sound := by
  have hmenu {last : Option LastMenu} {term : MenuTerminal} :
      (⟨d.client, last, term⟩ : TableDisplay).client.scr ≠ .menu → last = none :=
    fun hne => absurd hscr hne
  unfold uiDrawTableMenu
  simp only
  split
  · exact ⟨hmenu, fun _ _ => rfl⟩
  · next hroom =>
    obtain ⟨hw, hh⟩ := cards_fit hroom
    rw [if_neg (by omega)]
    by_cases hsame : d.last = some ⟨pageOf d.client, rows, cols,
        uiMenuVisibleCount d.client.cat d.client.currentCategory, d.client.currentCategory⟩
    · -- the frame is like the last one
      simp only [ne_eq, hsame, not_true, if_false]
      exact ⟨hmenu, fun last hlast => h.drawn last (hsame.trans hlast)⟩
    · simp only [ne_eq, hsame, not_false_eq_true, if_true]
      refine ⟨hmenu, fun last hlast => ?_⟩
      obtain rfl := Option.some.inj hlast
      rfl

theorem display_sound_frame {d : TableDisplay} (h : d.Sound) (rows cols : Int) :
    (displayStep (.frame rows cols) d).Sound := by
  simp only [displayStep]
  split
  · unfold drawFrame
    split
    · next hscr => exact display_sound_menu h hscr rows cols
    all_goals
      next hscr =>
      have hnone : d.last = none := h.hidden (by rw [hscr]; decide)
      refine ⟨fun _ => hnone, fun last hlast => ?_⟩
      rw [hnone] at hlast
      cases hlast
  · exact h

/-- Who leaves the menu screen resets. -/
theorem menuScreenKey_leaves {key : Key} {c : TableClient} (hscr : c.scr = .menu)
    (h : (menuScreenKey .wrap key c).1.scr ≠ .menu) : sidebarResets key c = true := by
  unfold menuScreenKey at h
  unfold sidebarResets
  split at h
  · split at h
    · exact absurd hscr h
    · rw [moveSel_rest] at h
      exact absurd hscr h
  · next hfocus => rw [hfocus]
  · rw [moveSel_rest] at h
    exact absurd hscr h
  · exact absurd hscr h
  · rw [moveSel_rest] at h
    exact absurd hscr h
  · exact absurd (by simp only; split <;> exact hscr) h
  · rw [moveSel_rest] at h
    exact absurd hscr h
  · next hfocus =>
    rw [hfocus]
    unfold sidebarSpace at h
    simp only at h ⊢
    split at h
    · next hside => simp [hside]
    · split at h
      · next hside => simp [hside]
      · split at h
        · next hside => simp [hside]
        · split at h <;> exact absurd hscr h
  · rw [menuSpace_rest] at h
    exact absurd hscr h
  · exact absurd hscr h

/-- Whatever key leaves the menu screen, nothing is remembered after it. -/
theorem tableKey_hidden {d : TableDisplay} (h : d.Sound) (stray : CartItem) (key : Key)
    (hscr : (tableKey .wrap stray key d.client).1.scr ≠ .menu) :
    (if keyResets d.last key d.client then none else d.last) = none := by
  by_cases hmenu : d.client.scr = .menu
  · cases hshaken : d.client.handshakeOk with
    | false =>
      rw [tableKey_waiting .wrap hshaken] at hscr
      exact absurd hmenu hscr
    | true =>
      rw [tableKey_menu .wrap hshaken hmenu, fixSel_rest] at hscr
      have hreset := menuScreenKey_leaves hmenu hscr
      simp [keyResets, hshaken, hmenu, menuKeyResets, hreset]
  · rw [h.hidden hmenu, ite_self]

theorem tableKey_cat (stray : CartItem) (key : Key) (c : TableClient) :
    (tableKey .wrap stray key c).1.cat = c.cat := by
  cases tableKey_effect .wrap stray key c with
  | moved h _ => exact h.cat
  | added m _ _ _ h _ => exact h.cat
  | counted menuId qty _ h _ => exact h.cat
  | removed menuId _ h _ => exact h.cat
  | submitted _ _ _ h _ => exact h.cat

theorem display_sound_key {d : TableDisplay} (h : d.Sound) (stray : CartItem) (key : Key) :
    (displayStep (.key stray key) d).Sound := by
  refine ⟨tableKey_hidden h stray key, fun last hlast => ?_⟩
  simp only [displayStep] at hlast ⊢
  split at hlast
  · cases hlast
  · rw [tableKey_cat]
    exact h.drawn last hlast

theorem display_sound_step (a : DisplayAction) {d : TableDisplay} (h : d.Sound) :
    (displayStep a d).Sound := by
  cases a with
  | line line => exact display_sound_line h line
  | frame rows cols => exact display_sound_frame h rows cols
  | key stray key => exact display_sound_key h stray key

/-! ## What the screen shows -/

/-- The cursor is at position `v` of the grid, so it is on card `v % PAGE_SIZE` of its page. -/
theorem pageOf_cursor {c : TableClient} {v : Nat}
    (h : uiMenuVisiblePosOfIndex c.cat c.currentCategory c.sel = some v) :
    v = pageOf c * PAGE_SIZE + v % PAGE_SIZE := by
  rw [pageOf, visibleSel, h, Option.getD_some, Nat.mul_comm, Nat.div_add_mod]

theorem infoLine_eq_some {c : TableClient} {m : MenuItem} (h : infoLine c = some m) :
    c.cat.items[c.sel]? = some m ∧
      ∃ v, uiMenuVisiblePosOfIndex c.cat c.currentCategory c.sel = some v := by
  obtain ⟨hitem, hmatch⟩ := Option.filter_eq_some_iff.mp h
  obtain ⟨v, hv⟩ := List.getElem?_of_mem (Rows.mem_positions.mpr ⟨m, hitem, hmatch⟩)
  exact ⟨hitem, v, uiMenuVisiblePosOfIndex_eq_some.mpr ⟨c.sel, rfl, hv⟩⟩

theorem infoLine_of_cursor {c : TableClient} {v : Nat}
    (h : uiMenuVisiblePosOfIndex c.cat c.currentCategory c.sel = some v) :
    infoLine c = (inCategory c)[v]? ∧ (infoLine c).isSome := by
  obtain ⟨i, hi, hv⟩ := uiMenuVisiblePosOfIndex_eq_some.mp h
  obtain rfl : c.sel = i := Int.natCast_inj.mp hi
  obtain ⟨m, hm, hmatch⟩ := Rows.mem_positions.mp (List.mem_of_getElem? hv)
  have hinfo : infoLine c = some m := by
    rw [infoLine, hm, Option.filter_some, if_pos hmatch]
  rw [inCategory, Rows.getElem?_filter, hv, Option.bind_some, hm, hinfo]
  exact ⟨rfl, rfl⟩

/-- The menu screen of a client, on a terminal of this size. -/
structure MenuShown (c : TableClient) (rows cols : Int) (t : MenuTerminal) : Prop where
  /-- The cards are one page of the category, in the order of the catalog. -/
  items : t.cards.map (·.item) =
    (List.range PAGE_SIZE).map fun n => (inCategory c)[t.page * PAGE_SIZE + n]?
  pages : t.page < t.totalPages ∧ (inCategory c).length ≤ t.totalPages * PAGE_SIZE
  /-- The line below the grid is about the card of the cursor, which is on this page. -/
  info : ∀ m, t.info = some m →
    ∃ card ∈ t.cards, card.item = some m ∧ (card.selected = true ↔ c.focus = .menu)
  selected : ∀ card ∈ t.cards, card.selected = true → c.focus = .menu ∧ card.item = t.info ∧ t.info.isSome
  single : t.cards.Pairwise fun card card' => ¬ (card.selected = true ∧ card'.selected = true)
  /-- Each picture is on the card of its item, unless they were wiped. -/
  pictures : t.pictures =
    if t.tooSmall then []
    else (List.range PAGE_SIZE).filterMap fun n =>
      ((t.cards[n]?).bind (·.item)).map fun m => cardPicture rows cols n m.id

theorem menuPictures_cards (c : TableClient) (page : Nat) (rows cols : Int) :
    menuPictures c.cat c.currentCategory page rows cols =
      (List.range PAGE_SIZE).filterMap fun n =>
        ((((List.range PAGE_SIZE).map (menuCard c page))[n]?).bind (·.item)).map fun m =>
          cardPicture rows cols n m.id := by
  apply List.filterMap_congr
  intro n hn
  rw [cardIndex_item, List.getElem?_map, List.getElem?_range (List.mem_range.mp hn), Option.map_some,
    Option.bind_some, menuCard_item]

theorem pages_enough (c : TableClient) :
    pageOf c < totalPages c ∧ (inCategory c).length ≤ totalPages c * PAGE_SIZE := by
  have hsize : PAGE_SIZE = 6 := rfl
  have hlength : (inCategory c).length = uiMenuVisibleCount c.cat c.currentCategory :=
    List.countP_eq_length_filter.symm
  have hcursor : visibleSel c < uiMenuVisibleCount c.cat c.currentCategory ∨ visibleSel c = 0 := by
    unfold visibleSel
    cases hpos : uiMenuVisiblePosOfIndex c.cat c.currentCategory c.sel with
    | none => exact .inr rfl
    | some v =>
      obtain ⟨hinfo, hsome⟩ := infoLine_of_cursor hpos
      rw [hinfo, Option.isSome_iff_exists] at hsome
      obtain ⟨m, hm⟩ := hsome
      left
      rw [← hlength]
      exact (List.getElem?_eq_some_iff.mp hm).1
  rw [hlength]
  simp only [totalPages, pageOf, hsize]
  split <;> omega

/-- A frame with room for the grid draws the page of the cursor. -/
theorem uiDrawTableMenu_grid (d : TableDisplay) {rows cols : Int} (hroom : ¬ MenuTooSmall rows cols) :
    ∃ pictures tooSmall, (tooSmall = true → d.term.tooSmall = true) ∧
      uiDrawTableMenu rows cols d =
        { d with
          last := some ⟨pageOf d.client, rows, cols,
            uiMenuVisibleCount d.client.cat d.client.currentCategory, d.client.currentCategory⟩
          term :=
            { cards := (List.range PAGE_SIZE).map (menuCard d.client (pageOf d.client))
              page := pageOf d.client
              totalPages := totalPages d.client
              info := infoLine d.client
              pictures := pictures
              tooSmall := tooSmall } } := by
  obtain ⟨hw, hh⟩ := cards_fit hroom
  unfold uiDrawTableMenu
  simp only
  rw [if_neg hroom, if_neg (by omega)]
  refine ⟨_, _, fun hsmall => ?_, rfl⟩
  split at hsmall
  · cases hsmall
  · exact hsmall

/-- Two cards with the cursor are at the same position. -/
theorem selected_single {c : TableClient} {page n n' : Nat} (h : (menuCard c page n).selected = true)
    (h' : (menuCard c page n').selected = true) : n = n' := by
  obtain ⟨-, hpos⟩ := (menuCard_selected c page n).mp h
  obtain ⟨-, hpos'⟩ := (menuCard_selected c page n').mp h'
  have heq := Option.some.inj (hpos.symm.trans hpos')
  exact Nat.add_left_cancel heq

/-- The item of the line is on the card of the cursor. -/
theorem infoLine_card {c : TableClient} {m : MenuItem} (h : infoLine c = some m) :
    ∃ n < PAGE_SIZE, (menuCard c (pageOf c) n).item = some m ∧
      ((menuCard c (pageOf c) n).selected = true ↔ c.focus = .menu) := by
  obtain ⟨-, v, hv⟩ := infoLine_eq_some h
  obtain ⟨hitem, -⟩ := infoLine_of_cursor hv
  have hcard := pageOf_cursor hv
  refine ⟨v % PAGE_SIZE, Nat.mod_lt _ (by decide), ?_, ?_⟩
  · rw [menuCard_item, ← hcard, ← hitem, h]
  · rw [menuCard_selected, ← hcard]
    exact and_iff_left hv

/-- A frame with room for the grid. -/
theorem menuShown_frame {d : TableDisplay} (h : d.Sound) (hscr : d.client.scr = .menu) {rows cols : Int}
    (hroom : ¬ MenuTooSmall rows cols) : MenuShown d.client rows cols (uiDrawTableMenu rows cols d).term := by
  have hsound := display_sound_menu h hscr rows cols
  obtain ⟨pictures, tooSmall, -, hdrawn⟩ := uiDrawTableMenu_grid d hroom
  rw [hdrawn] at hsound ⊢
  constructor
  · rw [List.map_map]
    exact List.map_congr_left fun n _ => menuCard_item d.client _ n
  · exact pages_enough d.client
  · intro m hm
    obtain ⟨n, hn, hcard⟩ := infoLine_card hm
    exact ⟨_, List.mem_map_of_mem (List.mem_range.mpr hn), hcard⟩
  · intro card hcard hsel
    obtain ⟨n, -, rfl⟩ := List.mem_map.mp hcard
    obtain ⟨hfocus, hpos⟩ := (menuCard_selected _ _ _).mp hsel
    obtain ⟨hinfo, hsome⟩ := infoLine_of_cursor hpos
    exact ⟨hfocus, (menuCard_item _ _ _).trans hinfo.symm, hsome⟩
  · refine List.pairwise_map.mpr (List.nodup_range.imp ?_)
    exact fun hne hboth => hne (selected_single hboth.1 hboth.2)
  · rw [hsound.drawn _ rfl, menuPictures_cards]

/-! ## Whole runs -/

/-- The message comes with a frame of that size. -/
theorem displayStep_tooSmall {a : DisplayAction} {d : TableDisplay}
    (h : (displayStep a d).term.tooSmall = true) :
    d.term.tooSmall = true ∨ ∃ rows cols, a = .frame rows cols ∧ MenuTooSmall rows cols := by
  cases a with
  | line line => exact .inl h
  | key stray key => exact .inl h
  | frame rows cols =>
    simp only [displayStep] at h
    split at h
    · unfold drawFrame at h
      split at h
      · by_cases hroom : MenuTooSmall rows cols
        · exact .inr ⟨rows, cols, rfl, hroom⟩
        · obtain ⟨pictures, tooSmall, hsmall, hdrawn⟩ := uiDrawTableMenu_grid d hroom
          rw [hdrawn] at h
          exact .inl (hsmall h)
      all_goals cases h
    · exact .inl h

theorem runDisplay_tooSmall {d : TableDisplay} (hstart : d.term.tooSmall = false) (as : List DisplayAction)
    (h : (Runs.run displayStep d as).term.tooSmall = true) :
    ∃ rows cols, .frame rows cols ∈ as ∧ MenuTooSmall rows cols := by
  revert h
  apply Runs.run_history (I := fun as (d : TableDisplay) => d.term.tooSmall = true →
    ∃ rows cols, DisplayAction.frame rows cols ∈ as ∧ MenuTooSmall rows cols)
  · intro h
    rw [hstart] at h
    cases h
  · intro as a ih h
    obtain hearlier | ⟨rows, cols, rfl, hsmall⟩ := displayStep_tooSmall h
    · obtain ⟨rows, cols, hmem, hsmall⟩ := ih hearlier
      exact ⟨rows, cols, List.mem_append_left _ hmem, hsmall⟩
    · exact ⟨rows, cols, List.mem_append_right _ (List.mem_singleton.mpr rfl), hsmall⟩

/-- The menu screen after any run: the pictures of earlier frames are those of this one. -/
theorem menu_screen_shown (tableId : Int) (menuFile : Option Bytes) (as : List DisplayAction)
    (rows cols : Int) :
    let d := Runs.run displayStep (TableDisplay.start tableId menuFile) as
    let t := (displayStep (.frame rows cols) d).term
    d.client.handshakeOk = true → d.client.scr = .menu → ¬ MenuTooSmall rows cols →
      MenuShown d.client rows cols t ∧
        (t.tooSmall = true → ∃ r c, .frame r c ∈ as ∧ MenuTooSmall r c) := by
  intro d t hshaken hscr hroom
  have hsound : d.Sound := Runs.run_invariant (P := fun _ => True) (fun a _ _ h => display_sound_step a h)
    (display_sound_start tableId menuFile) (fun _ _ => trivial)
  have hframe : displayStep (.frame rows cols) d = uiDrawTableMenu rows cols d := by
    simp only [displayStep, drawFrame, hshaken, hscr, if_true]
  constructor
  · show MenuShown d.client rows cols (displayStep (.frame rows cols) d).term
    rw [hframe]
    exact menuShown_frame hsound hscr hroom
  · intro hsmall
    obtain hearlier | ⟨r, c, heq, hsmall'⟩ := displayStep_tooSmall hsmall
    · exact runDisplay_tooSmall rfl as hearlier
    · obtain ⟨rfl, rfl⟩ : rows = r ∧ cols = c := by simpa using heq
      exact absurd hsmall' hroom

/-- The terminal was too small for one frame, and is as large as before. -/
def resizedMenu : List DisplayAction :=
  [.line (lit "OK|hello"), .frame 30 100, .key (pairItem (0, 0)) .right, .frame 20 80]

/-- The pictures do not come back. -/
theorem menu_screen_shown_resized :
    let d := Runs.run displayStep (TableDisplay.start 1 none) resizedMenu
    let t := (displayStep (.frame 30 100) d).term
    MenuShown d.client 30 100 t ∧ t.pictures = [] ∧ t.info.isSome := by
  intro d t
  obtain ⟨hshown, -⟩ := menu_screen_shown 1 none resizedMenu 30 100
    (by decide +kernel) (by decide +kernel) (by decide +kernel)
  refine ⟨hshown, ?_, ?_⟩ <;> decide +kernel

end TableOrder
