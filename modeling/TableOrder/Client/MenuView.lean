import Mathlib.Data.List.DropRight
import TableOrder.Common

/-!
# The menu grid of the table client (`ui.c`)

The grid shows the items of one category; a position in the grid is the index among these. The
arrow keys move through the positions in steps of 1 or 3 and stop at the first item on sale.
-/

namespace TableOrder

open CLib

abbrev SIDEBAR_ALL : Nat := 0
abbrev SIDEBAR_POPULAR : Nat := 1
abbrev SIDEBAR_MEAL : Nat := 2
abbrev SIDEBAR_MEAT : Nat := 3
abbrev SIDEBAR_ALCOHOL : Nat := 4
abbrev SIDEBAR_DRINK : Nat := 5
abbrev SIDEBAR_CART : Nat := 6
abbrev SIDEBAR_ORDER : Nat := 7
abbrev SIDEBAR_CALL : Nat := 8
abbrev SIDEBAR_COUNT : Nat := 9

def TABLE_CATEGORY_NAMES : List Bytes :=
  [lit "전체 메뉴", lit "인기 메뉴", lit "식사류", lit "고기류", lit "주류", lit "음료"]

def uiMenuIsSelectable (cat : MenuCatalog) (idx : Nat) : Bool :=
  cat.items[idx]?.any fun m => m.soldOut == 0

def isBlank (b : UInt8) : Bool := b == ch ' ' || b == ch '\t'

/-- Blanks and line ends go at the end, blanks only at the front. -/
def uiTrimField (s : Bytes) : Bytes :=
  (s.rdropWhile fun b => isBlank b || b == ch '\r' || b == ch '\n').dropWhile isBlank

def uiCategoryValueFromSidebar (sidebarCategory : Nat) : Bytes :=
  if sidebarCategory = SIDEBAR_MEAL then lit "식사류"
  else if sidebarCategory = SIDEBAR_MEAT then lit "고기류"
  else if sidebarCategory = SIDEBAR_ALCOHOL then lit "주류"
  else if sidebarCategory = SIDEBAR_DRINK then lit "음료"
  else []

def uiMenuMatchCategory (currentCategory : Nat) (m : MenuItem) : Bool :=
  if currentCategory = SIDEBAR_ALL then true
  else if currentCategory = SIDEBAR_POPULAR then m.popular != 0
  else
    let saved := uiTrimField (clip MAX_CATEGORY m.category.bytes)
    let target := uiTrimField (clip MAX_CATEGORY (uiCategoryValueFromSidebar currentCategory))
    if target = [] then true else saved == target

def uiMenuVisibleCount (cat : MenuCatalog) (currentCategory : Nat) : Nat :=
  cat.items.countP (uiMenuMatchCategory currentCategory)

/-- The loop of `ui_menu_index_at_visible` from index `i`, with `shown` items counted so far. -/
def indexAtVisible (currentCategory : Nat) (visibleIndex : Int) (i shown : Nat) :
    List MenuItem → Option Nat
  | [] => none
  | m :: ms =>
    if !uiMenuMatchCategory currentCategory m then
      indexAtVisible currentCategory visibleIndex (i + 1) shown ms
    else if (shown : Int) = visibleIndex then some i
    else indexAtVisible currentCategory visibleIndex (i + 1) (shown + 1) ms

def uiMenuIndexAtVisible (cat : MenuCatalog) (currentCategory : Nat) (visibleIndex : Int) :
    Option Nat := indexAtVisible currentCategory visibleIndex 0 0 cat.items

/-- The loop of `ui_menu_visible_pos_of_index`. -/
def visiblePosOfIndex (currentCategory : Nat) (realIndex : Int) (i shown : Nat) :
    List MenuItem → Option Nat
  | [] => none
  | m :: ms =>
    if !uiMenuMatchCategory currentCategory m then
      visiblePosOfIndex currentCategory realIndex (i + 1) shown ms
    else if (i : Int) = realIndex then some shown
    else visiblePosOfIndex currentCategory realIndex (i + 1) (shown + 1) ms

def uiMenuVisiblePosOfIndex (cat : MenuCatalog) (currentCategory : Nat) (realIndex : Int) :
    Option Nat :=
  if realIndex < 0 ∨ cat.items.length ≤ realIndex then none
  else visiblePosOfIndex currentCategory realIndex 0 0 cat.items

def uiMenuFirstSelectableInCategory (cat : MenuCatalog) (currentCategory : Nat) : Option Nat :=
  cat.items.findIdx? fun m => uiMenuMatchCategory currentCategory m && m.soldOut == 0

/-- The loop of `ui_find_selectable_visible_from` at position `v`. Every turn moves on inside the
visible range, which bounds the turns. -/
def selectableVisibleFrom (cat : MenuCatalog) (currentCategory : Nat) (step : Int) :
    Nat → Int → Option Nat
  | 0, _ => none
  | turns + 1, v =>
    if 0 ≤ v ∧ v < uiMenuVisibleCount cat currentCategory then
      match uiMenuIndexAtVisible cat currentCategory v with
      | some i =>
        if uiMenuIsSelectable cat i then some i
        else selectableVisibleFrom cat currentCategory step turns (v + step)
      | none => selectableVisibleFrom cat currentCategory step turns (v + step)
    else none

def uiFindSelectableVisibleFrom (cat : MenuCatalog) (currentCategory : Nat)
    (visibleStart visibleStep : Int) : Option Nat :=
  if uiMenuVisibleCount cat currentCategory = 0 ∨ visibleStep = 0 then none
  else selectableVisibleFrom cat currentCategory visibleStep
    (uiMenuVisibleCount cat currentCategory + 1) visibleStart

end TableOrder
