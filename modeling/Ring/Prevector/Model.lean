import Ring.Chain.Block
import Ring.Lib.Slots

/-!
# `prevector` (src/prevector.h)

`prevector<N, T>` keeps up to `N` elements inside the object and more in a
block on the heap. `_size` is also the tag: a value up to `N` is the size of
a direct prevector; above `N`, `_size - N - 1` is the size of an indirect one,
whose heap block has `_union.capacity` slots. `_union` overlays the inline
array with that capacity and the block's pointer; the model keeps the three
side by side, since the code only reads the one `_size` selects.

A block of memory is a list of slots (`Ring.Lib.Slots`): `memcpy`, `memmove`,
`fill` and placement `new` write runs of slots, and a run past the end of a
block is a fault; a freed block has no slots. Allocation is taken to succeed
(`malloc` and `realloc` are followed by an `assert`). An iterator is its index
from `item_ptr(0)`. `Size` is `uint32_t` and `Diff` is `int32_t`, the
defaults every instantiation uses (`CScriptBase` is
`prevector<28, unsigned char>`); `T{}` and an indeterminate slot are
`default`.

Every operation is the source's, step for step: the storage `item_ptr` points
into is chosen by `_size` at the time of the access, and `_size` is updated in
`uint32_t` arithmetic.
-/
namespace Ring.Prevector

open Ring.Lib Ring.Chain

/-- `_union`: the inline array, and the heap block with its capacity. -/
structure DirectOrIndirect (T : Type) where
  direct : List T
  capacity : UInt32
  indirect : List T
  deriving DecidableEq

/-- `prevector<N, T>`. -/
structure Prevector (N : UInt32) (T : Type) where
  _size : UInt32
  _union : DirectOrIndirect T
  deriving DecidableEq

/-- A block access that stays in the block, or the fault of one that leaves it. -/
def orOutOfRange {α : Type} : Option α → Except Fault α
  | some a => .ok a
  | none => .error .outOfRange

namespace Prevector

variable {N : UInt32} {T : Type} [Inhabited T]

/-- `prevector()`: size `0`, the union value-initialised, no heap block. -/
def empty : Prevector N T :=
  { _size := 0, _union := { direct := List.replicate N.toNat default, capacity := 0, indirect := [] } }

/-- `is_direct`. -/
def isDirect (v : Prevector N T) : Bool := v._size ≤ N

/-- `size`. -/
def size (v : Prevector N T) : UInt32 := if v.isDirect then v._size else v._size - N - 1

/-- `capacity`. -/
def capacity (v : Prevector N T) : Nat := if v.isDirect then N.toNat else v._union.capacity.toNat

/-- The storage `item_ptr` points into. -/
def items (v : Prevector N T) : List T := if v.isDirect then v._union.direct else v._union.indirect

/-- `v` with the storage `item_ptr` points into replaced. -/
def setItems (v : Prevector N T) (buf : List T) : Prevector N T :=
  if v.isDirect then { v with _union := { v._union with direct := buf } }
  else { v with _union := { v._union with indirect := buf } }

/-- The elements `begin()` to `end()` read. -/
def elements (v : Prevector N T) : Except Fault (List T) :=
  orOutOfRange (readSlots v.items 0 v.size.toNat)

/-- A write of `xs` from `item_ptr(pos)`: placement `new`, `fill`. -/
def writeItems (v : Prevector N T) (pos : Nat) (xs : List T) : Except Fault (Prevector N T) := do
  let buf ← orOutOfRange (writeSlots v.items pos xs)
  return v.setItems buf

/-- `memmove(item_ptr(dst), item_ptr(src), n)`. -/
def moveItems (v : Prevector N T) (dst src n : Nat) : Except Fault (Prevector N T) := do
  let block ← orOutOfRange (readSlots v.items src n)
  v.writeItems dst block

/-- `change_capacity`: a capacity up to `N` moves an indirect prevector back
into the inline array; a larger one moves a direct prevector to a new heap
block, or `realloc`s the block of an indirect one.
mirrors src/prevector.h:165-194 -/
def changeCapacity (v : Prevector N T) (new_capacity : UInt32) : Except Fault (Prevector N T) :=
  if new_capacity ≤ N then
    if !v.isDirect then do
      let src ← orOutOfRange (readSlots v._union.indirect 0 v.size.toNat)
      let direct ← orOutOfRange (writeSlots v._union.direct 0 src)
      return { _size := v._size - (N + 1), _union := { v._union with direct := direct, indirect := [] } }
    else .ok v
  else
    if !v.isDirect then
      .ok { v with _union := { v._union with indirect := reallocSlots v._union.indirect new_capacity.toNat,
                                             capacity := new_capacity } }
    else do
      let src ← orOutOfRange (readSlots v._union.direct 0 v.size.toNat)
      let indirect ← orOutOfRange (writeSlots (List.replicate new_capacity.toNat default) 0 src)
      return { _size := v._size + (N + 1), _union := { v._union with capacity := new_capacity, indirect := indirect } }

/-- The growth before an insertion: `if (capacity() < new_size)
change_capacity(new_size + (new_size >> 1))`. -/
def growFor (v : Prevector N T) (new_size : UInt32) : Except Fault (Prevector N T) :=
  if v.capacity < new_size.toNat then v.changeCapacity (new_size + (new_size >>> 1)) else .ok v

/-- `erase(first, last)`: the elements from `last` move down to `first` and
`_size` drops by `last - first`, at once for a trivially destructible `T` and
one destructor call at a time otherwise, to the same value.
mirrors src/prevector.h:385-405 -/
def erase (v : Prevector N T) (first last : Nat) : Except Fault (Prevector N T) := do
  let v' ← v.moveItems first last (v.size.toNat - last)
  return { v' with _size := v'._size - UInt32.ofNat (last - first) }

/-- `resize`: a shrink erases the tail; a growth makes room and fills the new
slots with `T{}`.
mirrors src/prevector.h:311-326 -/
def resize (v : Prevector N T) (new_size : UInt32) : Except Fault (Prevector N T) :=
  let cur_size := v.size
  if cur_size = new_size then .ok v
  else if cur_size > new_size then v.erase new_size.toNat cur_size.toNat
  else do
    let v ← if new_size.toNat > v.capacity then v.changeCapacity new_size else pure v
    let increase := new_size.toNat - cur_size.toNat
    let v ← v.writeItems cur_size.toNat (List.replicate increase default)
    return { v with _size := v._size + UInt32.ofNat increase }

/-- `reserve`.
mirrors src/prevector.h:328-332 -/
def reserve (v : Prevector N T) (new_capacity : UInt32) : Except Fault (Prevector N T) :=
  if new_capacity.toNat > v.capacity then v.changeCapacity new_capacity else .ok v

/-- `shrink_to_fit`.
mirrors src/prevector.h:334-336 -/
def shrinkToFit (v : Prevector N T) : Except Fault (Prevector N T) :=
  v.changeCapacity v.size

/-- `clear`.
mirrors src/prevector.h:338-340 -/
def clear (v : Prevector N T) : Except Fault (Prevector N T) :=
  v.resize 0

/-- The body both `assign`s share: clear, make room for `n`, count them in
`_size`, then fill from `item_ptr(0)`. -/
def assignItems (v : Prevector N T) (n : UInt32) (xs : List T) : Except Fault (Prevector N T) := do
  let v ← v.clear
  let v ← if v.capacity < n.toNat then v.changeCapacity n else pure v
  let v := { v with _size := v._size + n }
  v.writeItems 0 xs

/-- `assign(n, val)`.
mirrors src/prevector.h:213-220 -/
def assign (v : Prevector N T) (n : UInt32) (val : T) : Except Fault (Prevector N T) :=
  v.assignItems n (List.replicate n.toNat val)

/-- `assign(first, last)`: `n` is the range's `Diff` length as a `size_type`.
mirrors src/prevector.h:222-231 -/
def assignRange (v : Prevector N T) (xs : List T) : Except Fault (Prevector N T) :=
  v.assignItems (UInt32.ofNat xs.length) xs

/-- `insert(pos, first, last)` at `p = pos - begin()`: grow, move the tail up
by `count = last - first` (a `Diff`), then write the range at `item_ptr(p)`,
taken before `_size` grew.
mirrors src/prevector.h:367-379 -/
def insertRange (v : Prevector N T) (p : Nat) (xs : List T) : Except Fault (Prevector N T) := do
  let count : Int32 := Int32.ofNat xs.length
  let v ← v.growFor (v.size + count.toUInt32)
  let dst := (p : Int) + count.toInt
  if dst < 0 then .error .outOfRange
  else
    let v ← v.moveItems dst.toNat p (v.size - UInt32.ofNat p).toNat
    let v ← v.writeItems p xs
    return { v with _size := v._size + count.toUInt32 }

/-- `insert(pos, value)`: the range form with the one element; `ptr + 1`,
`_size++` and `new(ptr) T(value)` are its steps for `count = 1`.
mirrors src/prevector.h:342-353 -/
def insert (v : Prevector N T) (p : Nat) (value : T) : Except Fault (Prevector N T) :=
  v.insertRange p [value]

/-- `insert(pos, count, value)`: as the range form, but the copies are written
at `item_ptr(p)` read again after `_size` grew.
mirrors src/prevector.h:355-365 -/
def insertCount (v : Prevector N T) (p : Nat) (count : UInt32) (value : T) : Except Fault (Prevector N T) := do
  let v ← v.growFor (v.size + count)
  let v ← v.moveItems (p + count.toNat) p (v.size - UInt32.ofNat p).toNat
  let v := { v with _size := v._size + count }
  v.writeItems p (List.replicate count.toNat value)

/-- `erase(pos)`.
mirrors src/prevector.h:381-383 -/
def eraseOne (v : Prevector N T) (p : Nat) : Except Fault (Prevector N T) :=
  v.erase p (p + 1)

/-- `push_back`.
mirrors src/prevector.h:407-414 -/
def pushBack (v : Prevector N T) (value : T) : Except Fault (Prevector N T) := do
  let v ← v.growFor (v.size + 1)
  let v ← v.writeItems v.size.toNat [value]
  return { v with _size := v._size + 1 }

/-- `pop_back`: `erase(end() - 1, end())`; on an empty prevector `end() - 1`
lies before the storage.
mirrors src/prevector.h:416-418 -/
def popBack (v : Prevector N T) : Except Fault (Prevector N T) :=
  if v.size = 0 then .error .outOfRange else v.erase (v.size.toNat - 1) v.size.toNat

/-- The body the filling constructors share: room for `n` elements, counted
in `_size`, then the fill from `item_ptr(0)`. -/
def fillNew (n : UInt32) (xs : List T) : Except Fault (Prevector N T) := do
  let v ← (empty : Prevector N T).changeCapacity n
  let v := { v with _size := v._size + n }
  v.writeItems 0 xs

/-- `prevector(n)`.
mirrors src/prevector.h:235-237 -/
def ofSize (n : UInt32) : Except Fault (Prevector N T) :=
  (empty : Prevector N T).resize n

/-- `prevector(n, val)`.
mirrors src/prevector.h:239-243 -/
def ofFill (n : UInt32) (val : T) : Except Fault (Prevector N T) :=
  fillNew n (List.replicate n.toNat val)

/-- `prevector(first, last)`: `n` is the range's length as a `size_type`.
mirrors src/prevector.h:245-251 -/
def ofRange (xs : List T) : Except Fault (Prevector N T) :=
  fillNew (UInt32.ofNat xs.length) xs

/-- The copy constructor: an empty prevector with room for `other.size()`
elements, filled from `other`.
mirrors src/prevector.h:253-258 -/
def copyOf (other : Prevector N T) : Except Fault (Prevector N T) := do
  let n := other.size
  let v ← (empty : Prevector N T).changeCapacity n
  let v := { v with _size := v._size + n }
  let xs ← other.elements
  v.writeItems 0 xs

/-- The copy assignment: nothing for a self-assignment, else
`assign(other.begin(), other.end())`.
mirrors src/prevector.h:264-270 -/
def copyAssign (v other : Prevector N T) (self : Bool) : Except Fault (Prevector N T) :=
  if self then .ok v
  else do
    let xs ← other.elements
    v.assignRange xs

/-- `swap`: the two prevectors exchange `_union` and `_size`.
mirrors src/prevector.h:436-439 -/
def swap (v other : Prevector N T) : Prevector N T × Prevector N T :=
  (other, v)

/-- The move constructor: `prevector()` swapped with `other`; the new
prevector and what `other` is left holding.
mirrors src/prevector.h:260-262 -/
def moveOf (other : Prevector N T) : Prevector N T × Prevector N T :=
  (empty : Prevector N T).swap other

/-- The move assignment: `swap(other)`.
mirrors src/prevector.h:272-275 -/
def moveAssign (v other : Prevector N T) : Prevector N T × Prevector N T :=
  v.swap other

end Prevector

end Ring.Prevector
