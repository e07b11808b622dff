import Mathlib

/-!
# Associative containers with a defaulting subscript

The two lookups of `std::map` / `std::unordered_map`:

* `find` answers the mapped value of a key, if present, and never changes the
  container;
* `operator[]` answers the mapped value and, for a missing key, first inserts
  a value-initialised one (`nullptr` for a pointer, `0` for a number).

A container is its contents, a function to `Option`; its layout (buckets,
tree) is not observable through these operations.

Results:
* `subscript_of_find`: on a present key `operator[]` changes nothing.
* `subscript_of_find_none`: on a missing key it answers the default and the
  container gains exactly that key, mapped to the default.
-/
namespace Ring.Lib

/-- An associative container: the mapped value of each present key. -/
structure StdMap (κ ν : Type) where
  find : κ → Option ν

namespace StdMap

variable {κ ν : Type}

def empty : StdMap κ ν := ⟨fun _ => none⟩

instance : Inhabited (StdMap κ ν) := ⟨empty⟩

/-- The key is present (`m.count(k) == 1`). -/
def Mem (m : StdMap κ ν) (k : κ) : Prop := (m.find k).isSome = true

instance (m : StdMap κ ν) (k : κ) : Decidable (m.Mem k) :=
  inferInstanceAs (Decidable ((m.find k).isSome = true))

@[simp] theorem find_empty (k : κ) : (empty : StdMap κ ν).find k = none := rfl

variable [DecidableEq κ]

/-- `m[k] = v` as a statement: the key now maps to `v`. -/
def insert (m : StdMap κ ν) (k : κ) (v : ν) : StdMap κ ν :=
  ⟨fun j => if j = k then some v else m.find j⟩

/-- `operator[]` with value-initialised default `d`: the answer and the
container afterwards. -/
def subscript (m : StdMap κ ν) (d : ν) (k : κ) : ν × StdMap κ ν :=
  match m.find k with
  | some v => (v, m)
  | none => (d, m.insert k d)

@[simp] theorem find_insert (m : StdMap κ ν) (k j : κ) (v : ν) :
    (m.insert k v).find j = if j = k then some v else m.find j := rfl

theorem subscript_of_find {m : StdMap κ ν} {k : κ} {v : ν} (d : ν) (h : m.find k = some v) :
    m.subscript d k = (v, m) := by
  simp [subscript, h]

theorem subscript_of_find_none {m : StdMap κ ν} {k : κ} (d : ν) (h : m.find k = none) :
    m.subscript d k = (d, m.insert k d) := by
  simp [subscript, h]

end StdMap

end Ring.Lib
