import Mathlib

/-!
# Blocks of slots

A block of memory that holds `n` objects is a list of `n` slots. `memcpy`,
`memmove`, `fill` and placement `new` read a run of consecutive slots
(`readSlots`) and write one (`writeSlots`); a run that leaves the block is
`none`. `memmove` reads its whole source before it writes, so it is a read
followed by a write. `reallocSlots` is `realloc`: the first slots are kept and
the new ones are indeterminate (`default`).

A container keeps its elements in the first slots of a block: `buf.take s`
for `s` elements. A write at the end of those slots appends to them
(`take_writeSlots_end`). An insertion moves a tail up and writes into the gap
(`take_insertSlots`); an erasure moves a tail down (`take_eraseSlots`).
-/
namespace Ring.Lib

variable {α : Type}

/-- The `n` slots from `src`, if they lie in the block. -/
def readSlots (buf : List α) (src n : Nat) : Option (List α) :=
  if src + n ≤ buf.length then some ((buf.drop src).take n) else none

/-- The block with the slots from `dst` overwritten by `xs`, if they lie in it. -/
def writeSlots (buf : List α) (dst : Nat) (xs : List α) : Option (List α) :=
  if dst + xs.length ≤ buf.length then some (buf.take dst ++ xs ++ buf.drop (dst + xs.length)) else none

/-- `realloc` to `n` slots. -/
def reallocSlots [Inhabited α] (buf : List α) (n : Nat) : List α :=
  buf.take n ++ List.replicate (n - buf.length) default

theorem readSlots_of_le {buf : List α} {src n : Nat} (h : src + n ≤ buf.length) :
    readSlots buf src n = some ((buf.drop src).take n) :=
  if_pos h

theorem writeSlots_of_le {buf : List α} {dst : Nat} {xs : List α} (h : dst + xs.length ≤ buf.length) :
    writeSlots buf dst xs = some (buf.take dst ++ xs ++ buf.drop (dst + xs.length)) :=
  if_pos h

theorem length_written {buf : List α} {dst : Nat} {xs : List α} (h : dst + xs.length ≤ buf.length) :
    (buf.take dst ++ xs ++ buf.drop (dst + xs.length)).length = buf.length := by
  simp only [List.length_append, List.length_take, List.length_drop]
  omega

@[simp] theorem length_reallocSlots [Inhabited α] (buf : List α) (n : Nat) : (reallocSlots buf n).length = n := by
  simp only [reallocSlots, List.length_append, List.length_take, List.length_replicate]
  omega

/-- A write that ends at `n` leaves the slots before it and then the run. -/
theorem take_writeSlots_end {buf : List α} {dst : Nat} {xs : List α} (h : dst ≤ buf.length) :
    (buf.take dst ++ xs ++ buf.drop (dst + xs.length)).take (dst + xs.length) = buf.take dst ++ xs :=
  List.take_left' (by simp only [List.length_append, List.length_take]; omega)

/-- Insertion into the first `s` slots: the `s - p` slots from `p` move up by
`xs.length`, then `xs` is written into the gap. -/
theorem take_insertSlots {buf xs : List α} {p s : Nat} (hp : p ≤ s) (hs : s + xs.length ≤ buf.length)
    {moved : List α}
    (hmoved : moved = buf.take (p + xs.length) ++ (buf.drop p).take (s - p) ++ buf.drop (p + xs.length + (s - p))) :
    (moved.take p ++ xs ++ moved.drop (p + xs.length)).take (s + xs.length) =
      (buf.take s).take p ++ xs ++ (buf.take s).drop p := by
  have hhead : (buf.take (p + xs.length)).length = p + xs.length := by
    simp only [List.length_take]
    omega
  have htake : moved.take p = buf.take p := by
    rw [hmoved, List.append_assoc, List.take_append_of_le_length (by omega), List.take_take,
      Nat.min_eq_left (by omega)]
  have hdrop : moved.drop (p + xs.length) = (buf.drop p).take (s - p) ++ buf.drop (p + xs.length + (s - p)) := by
    rw [hmoved, List.append_assoc, List.drop_left' hhead]
  have hmid : ((buf.drop p).take (s - p)).length = s - p := by
    simp only [List.length_take, List.length_drop]
    omega
  rw [htake, hdrop, List.take_take, Nat.min_eq_left hp, List.drop_take, ← List.append_assoc]
  exact List.take_left' (by simp only [List.length_append, List.length_take, hmid]; omega)

/-- Erasure from the first `s` slots: the `s - last` slots from `last` move
down to `first`. -/
theorem take_eraseSlots {buf : List α} {first last s : Nat} (hf : first ≤ last) (hl : last ≤ s)
    (hs : s ≤ buf.length) :
    (buf.take first ++ (buf.drop last).take (s - last) ++ buf.drop (first + (s - last))).take (s - (last - first)) =
      (buf.take s).take first ++ (buf.take s).drop last := by
  rw [List.take_take, Nat.min_eq_left (by omega : first ≤ s), List.drop_take]
  exact List.take_left' (by simp only [List.length_append, List.length_take, List.length_drop]; omega)

/-- The first slots survive a `realloc` that keeps them. -/
theorem take_reallocSlots [Inhabited α] {buf : List α} {s n : Nat} (h : s ≤ n) (hs : s ≤ buf.length) :
    (reallocSlots buf n).take s = buf.take s := by
  rw [reallocSlots, List.take_append, List.take_take, Nat.min_eq_left h, List.length_take,
    Nat.sub_eq_zero_of_le (Nat.le_min.2 ⟨h, hs⟩), List.take_zero, List.append_nil]

end Ring.Lib
