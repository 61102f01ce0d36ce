import TableOrder.Lib.OrdMap
import TableOrder.Lib.Runs
import TableOrder.Menu
import TableOrder.Order

/-!
# The catalog and the cart as maps

Both are arrays that are searched by an id, and both are meant to be ordered finite maps: the catalog
from ids to items, the cart from menu ids to a name, a price and a quantity. `MenuOp.Spec` and
`CartOp.Spec` say what each operation does to the map. The arrays follow them over any sequence of
operations (`menu_behavesAsMap`, `cart_behavesAsMap`); what has to be kept on the way is that no id
occurs twice.
-/

namespace TableOrder

open CLib

variable (S : IntSem)

/-! ## The catalog -/

inductive MenuOp where
  | addItem (item : MenuItem)
  | updateItem (id : Int) (item : MenuItem)
  | deleteItem (id : Int)
  | setSoldout (id soldOut : Int)
  /-- An empty category also stands for `NULL`. -/
  | setCategory (id : Int) (category : Bytes)
  | setPopular (id popular : Int)

def MenuOp.run (cat : MenuCatalog) : MenuOp → Except Bytes MenuCatalog
  | .addItem item => menuAddItem S cat item
  | .updateItem id item => menuUpdateItem cat id item
  | .deleteItem id => menuDeleteItem cat id
  | .setSoldout id soldOut => menuSetSoldout cat id soldOut
  | .setCategory id category => menuSetCategory cat id category
  | .setPopular id popular => menuSetPopular cat id popular

/-- The operation returned -1. -/
def MenuOp.fails (cat : MenuCatalog) (op : MenuOp) : Bool := (op.run S cat).toOption.isNone

/-- A call that fails has written nothing. -/
def menuOpStep (op : MenuOp) (cat : MenuCatalog) : MenuCatalog := (op.run S cat).toOption.getD cat

def runMenuOps (cat : MenuCatalog) (ops : List MenuOp) : MenuCatalog :=
  Runs.run (menuOpStep S) cat ops

def menuMap (cat : MenuCatalog) : OrdMap Int MenuItem := OrdMap.ofList (·.id) (fun m => m) cat.items

/-- The entry an operation changes in place, and how. -/
def MenuOp.change : MenuOp → Option (Int × (MenuItem → MenuItem))
  | .updateItem id item => some (id, fun _ => { menuFillDefaults item with id := id })
  | .setSoldout id soldOut => some (id, fun m => { m with soldOut := flag soldOut })
  | .setCategory id category => some (id, fun m => { m with
      category := if category = [] then defaultCategory else CStr.copy MAX_CATEGORY category })
  | .setPopular id popular => some (id, fun m => { m with popular := flag popular })
  | _ => none

/-- What an operation does to the map, and whether it fails. -/
inductive MenuOp.Spec (m : OrdMap Int MenuItem) : MenuOp → Bool → OrdMap Int MenuItem → Prop
  | added (item : MenuItem) (id : Int) (hnew : id ∉ m.keys) : 0 < id → (0 < item.id → id = item.id) →
      m.keys.length < MAX_MENU_ITEMS → Spec m (.addItem item) false
        (m.append id { menuFillDefaults item with id := id } hnew)
  | full (item : MenuItem) : MAX_MENU_ITEMS ≤ m.keys.length → Spec m (.addItem item) true m
  | duplicate (item : MenuItem) : 0 < item.id → item.id ∈ m.keys → Spec m (.addItem item) true m
  | changed (op : MenuOp) (id : Int) (f : MenuItem → MenuItem) : op.change = some (id, f) →
      id ∈ m.keys → Spec m op false (m.alter id f)
  | unchanged (op : MenuOp) (id : Int) (f : MenuItem → MenuItem) : op.change = some (id, f) →
      id ∉ m.keys → Spec m op true m
  | deleted (id : Int) : id ∈ m.keys → Spec m (.deleteItem id) false (m.erase id)
  | absent (id : Int) : id ∉ m.keys → Spec m (.deleteItem id) true m

/-- The ids are distinct and positive. -/
abbrev IdsOk (cat : MenuCatalog) : Prop := OrdMap.Keyed (·.id) (fun m : MenuItem => 0 < m.id) cat.items

theorem menuMap_keys {cat : MenuCatalog} (h : IdsOk cat) :
    (menuMap cat).keys = cat.items.map (·.id) := OrdMap.ofList_keys _ h.nodup

/-- The calls that change an entry are `menuModify` at their own change. -/
theorem MenuOp.run_of_change {op : MenuOp} {id : Int} {f : MenuItem → MenuItem}
    (h : op.change = some (id, f)) (cat : MenuCatalog) :
    op.run S cat = menuModify cat id f ∧ ∀ m, m.id = id → (f m).id = id := by
  cases op <;> cases h <;> exact ⟨rfl, fun _ hm => by first | rfl | exact hm⟩

theorem menuOpStep_of_ok (op : MenuOp) {cat cat' : MenuCatalog} (h : op.run S cat = .ok cat') :
    op.fails S cat = false ∧ menuOpStep S op cat = cat' := by
  simp [MenuOp.fails, menuOpStep, h, Except.toOption]

theorem menuOpStep_of_error (op : MenuOp) {cat : MenuCatalog} {e : Bytes}
    (h : op.run S cat = .error e) : op.fails S cat = true ∧ menuOpStep S op cat = cat := by
  simp [MenuOp.fails, menuOpStep, h, Except.toOption]

theorem addedId_exact (cat : MenuCatalog) (item : MenuItem) :
    0 < addedId .exact cat item ∧ (0 < item.id → addedId .exact cat item = item.id) ∧
      (addedId .exact cat item ∈ cat.items.map (·.id) → 0 < item.id) := by
  obtain ⟨hpos, hlt⟩ := nextMenuId_exact cat
  unfold addedId
  split
  · next hid =>
    refine ⟨hpos, fun h => absurd h (by omega), fun hmem => ?_⟩
    obtain ⟨m, hm, heq⟩ := List.mem_map.mp hmem
    have hnew := hlt m hm
    omega
  · next hid => exact ⟨by omega, fun _ => rfl, fun _ => by omega⟩

/-! ### One operation -/

/-- Everything an operation can do: whether it fails, and the array afterwards. -/
inductive MenuOp.Outcome (cat : MenuCatalog) : MenuOp → Bool → List MenuItem → Prop
  | full (item : MenuItem) : MAX_MENU_ITEMS ≤ cat.items.length →
      Outcome cat (.addItem item) true cat.items
  | duplicate (item : MenuItem) : addedId S cat item ∈ cat.items.map (·.id) →
      Outcome cat (.addItem item) true cat.items
  | added (item : MenuItem) : cat.items.length < MAX_MENU_ITEMS →
      addedId S cat item ∉ cat.items.map (·.id) → Outcome cat (.addItem item) false
        (cat.items ++ [{ menuFillDefaults item with id := addedId S cat item }])
  | changed (op : MenuOp) (f : MenuItem → MenuItem) (i : Nat) (m : MenuItem) :
      op.change = some (m.id, f) → cat.items[i]? = some m → (f m).id = m.id →
      Outcome cat op false (cat.items.set i (f m))
  | unchanged (op : MenuOp) (id : Int) (f : MenuItem → MenuItem) : op.change = some (id, f) →
      id ∉ cat.items.map (·.id) → Outcome cat op true cat.items
  | deleted (i : Nat) (m : MenuItem) : cat.items[i]? = some m →
      Outcome cat (.deleteItem m.id) false (cat.items.eraseIdx i)
  | absent (id : Int) : id ∉ cat.items.map (·.id) → Outcome cat (.deleteItem id) true cat.items

theorem addItem_outcome (cat : MenuCatalog) (item : MenuItem) :
    (MenuOp.addItem item).Outcome S cat ((MenuOp.addItem item).fails S cat)
      (menuOpStep S (.addItem item) cat).items := by
  rcases menuAddItem_cases S cat item with ⟨herr, hfull⟩ | ⟨herr, hmem⟩ |
    ⟨cat', hok, hroom, hnew, hitems⟩
  · obtain ⟨hfails, hstep⟩ := menuOpStep_of_error S (.addItem item) herr
    rw [hfails, hstep]
    exact .full item hfull
  · obtain ⟨hfails, hstep⟩ := menuOpStep_of_error S (.addItem item) herr
    rw [hfails, hstep]
    exact .duplicate item hmem
  · obtain ⟨hfails, hstep⟩ := menuOpStep_of_ok S (.addItem item) hok
    rw [hfails, hstep, hitems]
    exact .added item hroom hnew

theorem change_outcome (cat : MenuCatalog) {op : MenuOp} {id : Int} {f : MenuItem → MenuItem}
    (hop : op.change = some (id, f)) :
    op.Outcome S cat (op.fails S cat) (menuOpStep S op cat).items := by
  obtain ⟨hrun, hid⟩ := op.run_of_change S hop cat
  rcases menuModify_cases cat id f with ⟨herr, hno⟩ | ⟨cat', i, m, hok, hm, rfl, hitems⟩
  · obtain ⟨hfails, hstep⟩ := menuOpStep_of_error S op (hrun.trans herr)
    rw [hfails, hstep]
    exact .unchanged op id f hop hno
  · obtain ⟨hfails, hstep⟩ := menuOpStep_of_ok S op (hrun.trans hok)
    rw [hfails, hstep, hitems]
    exact .changed op f i m hop hm (hid m rfl)

theorem deleteItem_outcome (cat : MenuCatalog) (id : Int) :
    (MenuOp.deleteItem id).Outcome S cat ((MenuOp.deleteItem id).fails S cat)
      (menuOpStep S (.deleteItem id) cat).items := by
  rcases menuDeleteItem_cases cat id with ⟨herr, hno⟩ | ⟨cat', i, m, hok, hm, rfl, hitems⟩
  · obtain ⟨hfails, hstep⟩ := menuOpStep_of_error S (.deleteItem id) herr
    rw [hfails, hstep]
    exact .absent id hno
  · obtain ⟨hfails, hstep⟩ := menuOpStep_of_ok S (.deleteItem m.id) hok
    rw [hfails, hstep, hitems]
    exact .deleted i m hm

theorem MenuOp.outcome (op : MenuOp) (cat : MenuCatalog) :
    op.Outcome S cat (op.fails S cat) (menuOpStep S op cat).items := by
  cases op with
  | addItem item => exact addItem_outcome S cat item
  | deleteItem id => exact deleteItem_outcome S cat id
  | updateItem id item => exact change_outcome S cat rfl
  | setSoldout id soldOut => exact change_outcome S cat rfl
  | setCategory id category => exact change_outcome S cat rfl
  | setPopular id popular => exact change_outcome S cat rfl

/-- One operation follows its specification and keeps the ids distinct and positive. -/
def MenuOp.Follows (op : MenuOp) (cat : MenuCatalog) : Prop :=
  op.Spec (menuMap cat) (op.fails .exact cat) (menuMap (menuOpStep .exact op cat)) ∧
    IdsOk (menuOpStep .exact op cat)

theorem menuOp_follows {cat : MenuCatalog} (h : IdsOk cat) (op : MenuOp) : op.Follows cat := by
  have hkeys := menuMap_keys h
  have hfound {i : Nat} {m : MenuItem} (hm : cat.items[i]? = some m) : m.id ∈ (menuMap cat).keys :=
    hkeys ▸ List.mem_map_of_mem (List.mem_of_getElem? hm)
  have hout := op.outcome .exact cat
  unfold MenuOp.Follows IdsOk
  rw [menuMap.eq_1 (menuOpStep .exact op cat)]
  -- both maps are read off the arrays
  generalize op.fails .exact cat = failing at hout ⊢
  generalize (menuOpStep .exact op cat).items = items at hout ⊢
  cases hout with
  | full item hfull => exact ⟨.full item (by rw [hkeys, List.length_map]; exact hfull), h⟩
  | duplicate item hmem =>
    obtain ⟨-, hgiven, hdup⟩ := addedId_exact cat item
    have hid := hdup hmem
    rw [hgiven hid] at hmem
    exact ⟨.duplicate item hid (hkeys ▸ hmem), h⟩
  | added item hroom hnew =>
    obtain ⟨hpos, hgiven, -⟩ := addedId_exact cat item
    have hnew' : addedId .exact cat item ∉ (menuMap cat).keys := hkeys ▸ hnew
    rw [OrdMap.ofList_append _ h.nodup hnew']
    refine ⟨.added item _ hnew' hpos hgiven ?_, h.concat hnew hpos⟩
    rw [hkeys, List.length_map]
    exact hroom
  | changed op f i m hop hm hid =>
    have hpos : 0 < (f m).id := by
      rw [hid]
      exact h.all m (List.mem_of_getElem? hm)
    rw [OrdMap.ofList_set (fun m : MenuItem => m) h.nodup hm hid (f := f) rfl]
    exact ⟨.changed op m.id f hop (hfound hm), h.set hm hid hpos⟩
  | unchanged op id f hop hno => exact ⟨.unchanged op id f hop (hkeys ▸ hno), h⟩
  | deleted i m hm =>
    rw [OrdMap.ofList_eraseIdx _ h.nodup hm]
    exact ⟨.deleted m.id (hfound hm), h.eraseIdx i⟩
  | absent id hno => exact ⟨.absent id (hkeys ▸ hno), h⟩

theorem runMenuOps_ids {cat : MenuCatalog} (h : IdsOk cat) (ops : List MenuOp) :
    IdsOk (runMenuOps .exact cat ops) := by
  apply Runs.run_invariant (P := fun _ => True) _ h
  · intro _ _
    trivial
  · intro op cat _ hcat
    exact (menuOp_follows hcat op).2

/-! ### Any sequence of operations -/

structure MenuBehaves (cat : MenuCatalog) : Prop where
  ids : IdsOk cat
  keys : (menuMap cat).keys = cat.items.map (·.id)
  lookup : ∀ id, menuFindById cat id = (menuMap cat).get id
  /-- The lookup returns the one entry with the id, or there is none. -/
  found : ∀ id m, menuFindById cat id = some m ↔ m ∈ cat.items ∧ m.id = id
  step : ∀ op : MenuOp,
    op.Spec (menuMap cat) (op.fails .exact cat) (menuMap (menuOpStep .exact op cat))
  failing : ∀ op : MenuOp, op.fails .exact cat = true → menuOpStep .exact op cat = cat

theorem menuBehaves_of_ids {cat : MenuCatalog} (h : IdsOk cat) : MenuBehaves cat where
  ids := h
  keys := menuMap_keys h
  lookup := by
    intro id
    rw [menuFindById_eq_find?]
    show _ = (cat.items.find? (·.id == id)).map fun m => m
    rw [Option.map_id']
  found := by
    intro id m
    rw [menuFindById_eq_find?]
    have hget := OrdMap.ofList_get_eq_some (fun m : MenuItem => m) h.nodup (k := id) (v := m)
    change (cat.items.find? (·.id == id)).map _ = _ ↔ _ at hget
    rw [Option.map_id'] at hget
    rw [hget]
    constructor
    · rintro ⟨a, ha, hid, rfl⟩
      exact ⟨ha, hid⟩
    · rintro ⟨hm, hid⟩
      exact ⟨m, hm, hid, rfl⟩
  step op := (menuOp_follows h op).1
  failing := by
    intro op hfails
    rw [MenuOp.fails, Option.isNone_iff_eq_none] at hfails
    rw [menuOpStep, hfails]
    rfl

/-- Whatever the operations and their arguments, a catalog of distinct positive ids behaves as an
ordered map from ids to items. -/
theorem menu_behavesAsMap {cat : MenuCatalog} (hids : IdsOk cat) (ops : List MenuOp) :
    MenuBehaves (runMenuOps .exact cat ops) := by
  apply menuBehaves_of_ids
  exact runMenuOps_ids hids ops

/-- Tea under an id, then a dish without one. -/
def teaMenu : MenuCatalog where
  items := [⟨7, CStr.copy MAX_NAME (lit "Tea"), defaultCategory, 900, 0, 0⟩]
  bound := by decide

theorem menu_behavesAsMap_tea :
    MenuBehaves (runMenuOps .exact teaMenu
      [.addItem ⟨0, CStr.copy MAX_NAME (lit "Soup"), CStr.empty MAX_CATEGORY, 3000, 2, 0⟩,
        .setSoldout 8 0, .deleteItem 7, .deleteItem 7]) := by
  apply menu_behavesAsMap
  exact ⟨by decide, by decide⟩

/-! ## The cart -/

inductive CartOp where
  | add (line : CartItem)
  | setQty (menuId qty : Int)
  | removeLine (menuId : Int)

def CartOp.run (cart : Cart) : CartOp → Option Cart
  | .add line => (cartAdd S cart line).toOption
  | .setQty menuId qty => (cartSetQty cart menuId qty).toOption
  | .removeLine menuId => cartRemoveLine cart menuId

/-- The operation returned -1. -/
def CartOp.fails (cart : Cart) (op : CartOp) : Bool := (op.run S cart).isNone

def cartOpStep (op : CartOp) (cart : Cart) : Cart := (op.run S cart).getD cart

def runCartOps (cart : Cart) (ops : List CartOp) : Cart := Runs.run (cartOpStep S) cart ops

structure CartEntry where
  name : Name
  price : Int
  qty : Int

def CartItem.entry (it : CartItem) : CartEntry := ⟨it.name, it.price, it.qty⟩

def cartMap (cart : Cart) : OrdMap Int CartEntry := OrdMap.ofList (·.menuId) CartItem.entry cart.items

/-- What an operation does to the map, and whether it fails. -/
inductive CartOp.Spec (m : OrdMap Int CartEntry) : CartOp → Bool → OrdMap Int CartEntry → Prop
  | merged (line : CartItem) : 0 < line.qty → line.menuId ∈ m.keys → Spec m (.add line) false
      (m.alter line.menuId fun e => { e with qty := e.qty + line.qty })
  | appended (line : CartItem) (hnew : line.menuId ∉ m.keys) : 0 < line.qty →
      m.keys.length < MAX_ORDER_ITEMS → Spec m (.add line) false
        (m.append line.menuId line.entry hnew)
  | badQty (line : CartItem) : line.qty ≤ 0 → Spec m (.add line) true m
  | full (line : CartItem) : line.menuId ∉ m.keys → MAX_ORDER_ITEMS ≤ m.keys.length →
      Spec m (.add line) true m
  | qtySet (menuId qty : Int) : 0 < qty → menuId ∈ m.keys → Spec m (.setQty menuId qty) false
      (m.alter menuId fun e => { e with qty := qty })
  | notSet (menuId qty : Int) : 0 < qty → menuId ∉ m.keys → Spec m (.setQty menuId qty) true m
  | removed (menuId : Int) : menuId ∈ m.keys → Spec m (.removeLine menuId) false (m.erase menuId)
  | notRemoved (menuId : Int) : menuId ∉ m.keys → Spec m (.removeLine menuId) true m
  /-- Without a positive quantity the line is removed. -/
  | noQty (menuId qty : Int) (fails : Bool) (m' : OrdMap Int CartEntry) : qty ≤ 0 →
      Spec m (.removeLine menuId) fails m' → Spec m (.setQty menuId qty) fails m'

/-- The ids are distinct and the quantities positive. -/
abbrev LinesOk (cart : Cart) : Prop :=
  OrdMap.Keyed (·.menuId) (fun it : CartItem => 0 < it.qty) cart.items

theorem cartMap_keys {cart : Cart} (h : LinesOk cart) :
    (cartMap cart).keys = cart.items.map (·.menuId) := OrdMap.ofList_keys _ h.nodup

theorem length_cartMap_keys {cart : Cart} (h : LinesOk cart) :
    (cartMap cart).keys.length = cart.items.length := by
  rw [cartMap_keys h, List.length_map]

theorem cartOpStep_of_some (op : CartOp) {cart cart' : Cart} (h : op.run S cart = some cart') :
    op.fails S cart = false ∧ cartOpStep S op cart = cart' := by
  simp [CartOp.fails, cartOpStep, h]

theorem cartOpStep_of_none (op : CartOp) {cart : Cart} (h : op.run S cart = none) :
    op.fails S cart = true ∧ cartOpStep S op cart = cart := by
  simp [CartOp.fails, cartOpStep, h]

/-- One operation follows its specification and keeps the lines as they are to be. -/
def CartOp.Follows (op : CartOp) (cart : Cart) : Prop :=
  op.Spec (cartMap cart) (op.fails .exact cart) (cartMap (cartOpStep .exact op cart)) ∧
    LinesOk (cartOpStep .exact op cart)

/-- A line that is there gets another quantity. -/
theorem cartMap_set {cart cart' : Cart} (h : LinesOk cart) {i : Nat} {it : CartItem} {qty : Int}
    (hit : cart.items[i]? = some it) (hitems : cart'.items = cart.items.set i { it with qty := qty })
    (hqty : 0 < qty) {f : CartEntry → CartEntry} (hf : f it.entry = { it.entry with qty := qty }) :
    cartMap cart' = (cartMap cart).alter it.menuId f ∧ LinesOk cart' ∧
      it.menuId ∈ (cartMap cart).keys := by
  refine ⟨?_, ?_, ?_⟩
  · rw [cartMap, hitems]
    have hid : CartItem.menuId { it with qty := qty } = it.menuId := rfl
    exact OrdMap.ofList_set CartItem.entry h.nodup hit hid hf.symm
  · rw [LinesOk, hitems]
    exact h.set hit rfl hqty
  · rw [cartMap_keys h]
    exact List.mem_map_of_mem (List.mem_of_getElem? hit)

theorem add_follows {cart : Cart} (h : LinesOk cart) (line : CartItem) :
    (CartOp.add line).Follows cart := by
  cases hadd : cartAdd .exact cart line with
  | error e =>
    have hrun : (CartOp.add line).run .exact cart = none := by
      rw [CartOp.run, hadd]
      rfl
    obtain ⟨hfails, hstep⟩ := cartOpStep_of_none .exact _ hrun
    rw [CartOp.Follows, hfails, hstep]
    refine ⟨?_, h⟩
    rcases cartAdd_eq_error .exact hadd with hq | ⟨hnew, hfull⟩
    · exact .badQty line hq
    · exact .full line (cartMap_keys h ▸ hnew) (length_cartMap_keys h ▸ hfull)
  | ok cart' =>
    have hrun : (CartOp.add line).run .exact cart = some cart' := by
      rw [CartOp.run, hadd]
      rfl
    obtain ⟨hfails, hstep⟩ := cartOpStep_of_some .exact _ hrun
    rw [CartOp.Follows, hfails, hstep]
    obtain ⟨hq, ⟨i, it, hit, hid, hitems⟩ | ⟨hnew, hroom, hitems⟩⟩ := cartAdd_cases .exact hadd
    · have hpos := h.all it (List.mem_of_getElem? hit)
      obtain ⟨hmap, hok, hmem⟩ := cartMap_set h hit hitems
        (by rw [IntSem.exact_norm]; omega) (f := fun e => { e with qty := e.qty + line.qty }) rfl
      rw [hid] at hmap hmem
      exact ⟨hmap ▸ .merged line hq hmem, hok⟩
    · have hnew' : line.menuId ∉ (cartMap cart).keys := cartMap_keys h ▸ hnew
      have hmap : cartMap cart' = (cartMap cart).append line.menuId line.entry hnew' := by
        rw [cartMap, hitems]
        exact OrdMap.ofList_append _ h.nodup hnew'
      refine ⟨hmap ▸ .appended line hnew' hq (length_cartMap_keys h ▸ hroom), ?_⟩
      rw [LinesOk, hitems]
      exact h.concat hnew hq

theorem removeLine_follows {cart : Cart} (h : LinesOk cart) (menuId : Int) :
    (CartOp.removeLine menuId).Follows cart := by
  cases hrem : cartRemoveLine cart menuId with
  | none =>
    obtain ⟨hfails, hstep⟩ := cartOpStep_of_none .exact (.removeLine menuId) hrem
    rw [CartOp.Follows, hfails, hstep]
    exact ⟨.notRemoved menuId (cartMap_keys h ▸ cartRemoveLine_eq_none.mp hrem), h⟩
  | some cart' =>
    obtain ⟨hfails, hstep⟩ := cartOpStep_of_some .exact (.removeLine menuId) hrem
    rw [CartOp.Follows, hfails, hstep]
    obtain ⟨i, it, hit, rfl, hitems⟩ := cartRemoveLine_eq_some hrem
    have hmap : cartMap cart' = (cartMap cart).erase it.menuId := by
      rw [cartMap, hitems]
      exact OrdMap.ofList_eraseIdx _ h.nodup hit
    have hmem : it.menuId ∈ (cartMap cart).keys :=
      cartMap_keys h ▸ List.mem_map_of_mem (List.mem_of_getElem? hit)
    refine ⟨hmap ▸ .removed it.menuId hmem, ?_⟩
    rw [LinesOk, hitems]
    exact h.eraseIdx i

/-- `cart_set_qty` without a positive quantity is `cart_remove_line`. -/
theorem setQty_eq_removeLine (menuId : Int) {qty : Int} (hqty : qty ≤ 0) (cart : Cart) :
    (CartOp.setQty menuId qty).run S cart = (CartOp.removeLine menuId).run S cart := by
  show (cartSetQty cart menuId qty).toOption = cartRemoveLine cart menuId
  rw [cartSetQty, if_pos hqty]
  cases cartRemoveLine cart menuId <;> rfl

theorem setQty_follows {cart : Cart} (h : LinesOk cart) (menuId qty : Int) :
    (CartOp.setQty menuId qty).Follows cart := by
  by_cases hqty : qty ≤ 0
  · have hrun := setQty_eq_removeLine .exact menuId hqty cart
    obtain ⟨hspec, hok⟩ := removeLine_follows h menuId
    rw [CartOp.Follows, CartOp.fails, cartOpStep, hrun]
    exact ⟨.noQty menuId qty _ _ hqty hspec, hok⟩
  · have hpos : 0 < qty := by omega
    cases hset : cartSetQty cart menuId qty with
    | error e =>
      have hrun : (CartOp.setQty menuId qty).run .exact cart = none := by
        rw [CartOp.run, hset]
        rfl
      obtain ⟨hfails, hstep⟩ := cartOpStep_of_none .exact _ hrun
      rw [CartOp.Follows, hfails, hstep]
      exact ⟨.notSet menuId qty hpos (cartMap_keys h ▸ cartSetQty_eq_error hset), h⟩
    | ok cart' =>
      have hrun : (CartOp.setQty menuId qty).run .exact cart = some cart' := by
        rw [CartOp.run, hset]
        rfl
      obtain ⟨hfails, hstep⟩ := cartOpStep_of_some .exact _ hrun
      rw [CartOp.Follows, hfails, hstep]
      obtain ⟨i, it, hit, rfl, ⟨-, hitems⟩ | ⟨hneg, -⟩⟩ := cartSetQty_cases hset
      · obtain ⟨hmap, hok, hmem⟩ := cartMap_set h hit hitems hpos
          (f := fun e => { e with qty := qty }) rfl
        exact ⟨hmap ▸ .qtySet it.menuId qty hpos hmem, hok⟩
      · omega

theorem cartOp_follows {cart : Cart} (h : LinesOk cart) (op : CartOp) : op.Follows cart := by
  cases op with
  | add line => exact add_follows h line
  | setQty menuId qty => exact setQty_follows h menuId qty
  | removeLine menuId => exact removeLine_follows h menuId

theorem runCartOps_lines {cart : Cart} (h : LinesOk cart) (ops : List CartOp) :
    LinesOk (runCartOps .exact cart ops) := by
  apply Runs.run_invariant (P := fun _ => True) _ h
  · intro _ _
    trivial
  · intro op cart _ hcart
    exact (cartOp_follows hcart op).2

/-! ### Any sequence of operations -/

/-- The order has the lines of the cart in the same order, and its total. -/
structure OrderOfCart (cart : Cart) (o : Order) : Prop where
  lines : o.items.items.map (fun li => (li.menuId, li.name, li.unitPrice, li.qty)) =
    cart.items.map fun it => (it.menuId, it.name, it.price, it.qty)
  total : o.totalPrice = cartTotal .exact cart

structure CartBehaves (cart : Cart) : Prop where
  lines : LinesOk cart
  count : cart.items.length ≤ MAX_ORDER_ITEMS
  keys : (cartMap cart).keys = cart.items.map (·.menuId)
  get : ∀ menuId e, (cartMap cart).get menuId = some e ↔
    ∃ it ∈ cart.items, it.menuId = menuId ∧ it.entry = e
  step : ∀ op : CartOp,
    op.Spec (cartMap cart) (op.fails .exact cart) (cartMap (cartOpStep .exact op cart))
  failing : ∀ op : CartOp, op.fails .exact cart = true → cartOpStep .exact op cart = cart
  noQty : ∀ menuId qty, qty ≤ 0 →
    cartOpStep .exact (.setQty menuId qty) cart = cartOpStep .exact (.removeLine menuId) cart
  order : cart.items ≠ [] → ∀ orderId tableId now, ∃ o,
    orderBuildFromCart .exact orderId tableId now cart = .ok o ∧ OrderOfCart cart o

theorem order_of_cart {cart : Cart} (hne : cart.items ≠ []) (orderId tableId now : Int) :
    ∃ o, orderBuildFromCart S orderId tableId now cart = .ok o ∧
      o.items.items.map (fun li => (li.menuId, li.name, li.unitPrice, li.qty)) =
        cart.items.map (fun it => (it.menuId, it.name, it.price, it.qty)) ∧
      o.totalPrice = cartTotal S cart := by
  rw [orderBuildFromCart_eq, if_neg hne]
  refine ⟨_, rfl, ?_, rfl⟩
  rw [orderLines_items, List.map_map]
  apply List.map_congr_left
  intro it _
  simp

theorem cartBehaves_of_lines {cart : Cart} (h : LinesOk cart) : CartBehaves cart where
  lines := h
  count := cart.bound
  keys := cartMap_keys h
  get _ _ := OrdMap.ofList_get_eq_some _ h.nodup
  step op := (cartOp_follows h op).1
  failing := by
    intro op hfails
    rw [CartOp.fails, Option.isNone_iff_eq_none] at hfails
    rw [cartOpStep, hfails]
    rfl
  noQty := by
    intro menuId qty hqty
    rw [cartOpStep, cartOpStep, setQty_eq_removeLine .exact menuId hqty]
  order := by
    intro hne orderId tableId now
    obtain ⟨o, hbuilt, hlines, htotal⟩ := order_of_cart .exact hne orderId tableId now
    exact ⟨o, hbuilt, hlines, htotal⟩

/-- Whatever the operations and their arguments, a cart behaves as an ordered map from menu ids to
names, prices and positive quantities, and it becomes an order with its lines and its total. -/
theorem cart_behavesAsMap (ops : List CartOp) : CartBehaves (runCartOps .exact cartInit ops) := by
  apply cartBehaves_of_lines
  apply runCartOps_lines
  exact ⟨List.nodup_nil, fun it hit => nomatch hit⟩

end TableOrder
