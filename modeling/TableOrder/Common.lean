import TableOrder.Lib.Arr
import TableOrder.Lib.Bytes
import TableOrder.Lib.Int

/-!
# The shared data types (`common.h`, `common.c`)

Orders, carts and the menu as the three programs exchange them. A `char[n]` is a `CStr n` and an
array with a count is an `Arr`; `int` fields are integers. `struct Order` keeps its `item_count`
as the length of `items`.
-/

namespace TableOrder

open CLib

abbrev MAX_MENU_ITEMS : Nat := 128
abbrev MAX_ORDER_ITEMS : Nat := 32
abbrev MAX_ORDERS : Nat := 256
abbrev MAX_CLIENTS : Nat := 64
abbrev MAX_PROTO_LINE : Nat := 16384
abbrev MAX_NAME : Nat := 96
abbrev MAX_CATEGORY : Nat := 32
abbrev MAX_TABLES : Nat := 64

instance : NeZero MAX_NAME := ⟨by decide⟩

instance : NeZero MAX_CATEGORY := ⟨by decide⟩

abbrev Name := CStr MAX_NAME
abbrev Category := CStr MAX_CATEGORY

inductive ClientKind where
  | none
  | table
  | kitchen
  deriving DecidableEq

inductive OrderStatus where
  | waiting
  | cooking
  | done
  | paid
  | cancelled
  deriving DecidableEq

structure OrderLineItem where
  menuId : Int
  name : Name
  unitPrice : Int
  qty : Int
  deriving DecidableEq

structure Order where
  orderId : Int
  tableId : Int
  status : OrderStatus
  items : Arr OrderLineItem MAX_ORDER_ITEMS
  totalPrice : Int
  createdAt : Int
  deriving DecidableEq

structure CartItem where
  menuId : Int
  name : Name
  price : Int
  qty : Int
  deriving DecidableEq

structure MenuItem where
  id : Int
  name : Name
  category : Category
  price : Int
  soldOut : Int
  popular : Int
  deriving DecidableEq

abbrev MenuCatalog := Arr MenuItem MAX_MENU_ITEMS

/-! ## Keys -/

/-- A key of `wgetch`; `enter` is both `'\n'` and `KEY_ENTER`. -/
inductive Key where
  | up
  | down
  | left
  | right
  | enter
  | f (n : Nat)
  | char (c : Char)
  | other
  deriving DecidableEq

/-! ## Status texts -/

def statusToString : OrderStatus → Bytes
  | .waiting => lit "WAITING"
  | .cooking => lit "COOKING"
  | .done => lit "DONE"
  | .paid => lit "PAID"
  | .cancelled => lit "CANCELLED"

/-- Every other text is read as `STATUS_WAITING`. -/
def statusFromString (s : Bytes) : OrderStatus :=
  if s = lit "WAITING" then .waiting
  else if s = lit "COOKING" then .cooking
  else if s = lit "DONE" then .done
  else if s = lit "PAID" then .paid
  else if s = lit "CANCELLED" then .cancelled
  else .waiting

@[simp] theorem statusFromString_toString (st : OrderStatus) :
    statusFromString (statusToString st) = st := by
  cases st <;> decide

/-- An order that no operation moves any more. -/
def OrderStatus.terminal : OrderStatus → Bool
  | .paid => true
  | .cancelled => true
  | _ => false

end TableOrder
