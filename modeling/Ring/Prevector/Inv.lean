import Ring.Prevector.Model
import Ring.Lib.Wire

/-!
# The representation invariant of `prevector`

`toList` is what a prevector holds: the first `size()` slots of the storage
`item_ptr` points into. `Inv` is the representation invariant, for
prevectors of fewer than `2^31 - N` elements: the inline array has its `N`
slots, and an indirect prevector has a heap block of `_union.capacity ≥
size()` slots and `_size = size() + N + 1`. Under that bound no `Size` or
`Diff` computation of the code wraps.

The lemmas here are the steps every operation is made of: a write or a move
through `item_ptr` (`writeItems_eq`, `moveItems_eq`), a new `_size` that
encodes another size in the same mode (`setSize`), and `change_capacity`
(`changeCapacity_spec`), which keeps the elements and leaves a capacity of
`max new_capacity N`.
-/
namespace Ring.Prevector

open Ring.Lib Ring.Chain

namespace Prevector

/-! ### Sizes

Under the invariant every size is below `2^31`, so the `uint32_t` and
`int32_t` arithmetic on sizes is arithmetic on `Nat`. -/

theorem toNat_uadd {a b : UInt32} (h : a.toNat + b.toNat < 2 ^ 32) : (a + b).toNat = a.toNat + b.toNat := by
  rw [UInt32.toNat_add]
  exact Nat.mod_eq_of_lt h

theorem toNat_usub {a b : UInt32} (h : b.toNat ≤ a.toNat) : (a - b).toNat = a.toNat - b.toNat :=
  UInt32.toNat_sub_of_le _ _ (UInt32.le_iff_toNat_le.2 h)

/-- A count below `2^31` is the same number as a `Diff` and as a `Size`. -/
theorem count_ofNat {n : Nat} (h : n < 2 ^ 31) :
    (Int32.ofNat n).toInt = n ∧ (Int32.ofNat n).toUInt32.toNat = n := by
  refine ⟨?_, ?_⟩
  · rw [Int32.toInt_ofNat']
    exact Int.bmod_eq_of_le (by simp only [Int32.size]; omega) (by simp only [Int32.size]; omega)
  · rw [Int32.toUInt32_ofNat', UInt32.toNat_ofNat_of_lt' (by simp [UInt32.size]; omega)]

variable {N : UInt32} {T : Type} [Inhabited T]

/-- The elements: the first `size()` slots of the storage. -/
def toList (v : Prevector N T) : List T := v.items.take v.size.toNat

/-- The representation invariant, for fewer than `2^31 - N` elements. A
direct prevector has `size() = _size ≤ N` by `is_direct`. -/
structure Inv (v : Prevector N T) : Prop where
  direct_length : v._union.direct.length = N.toNat
  indirect : v.isDirect = false → v._union.indirect.length = v._union.capacity.toNat ∧
    v.size.toNat ≤ v._union.capacity.toNat ∧ v._size.toNat = v.size.toNat + N.toNat + 1
  fits : v.size.toNat + N.toNat < 2 ^ 31

theorem isDirect_eq_true_iff {v : Prevector N T} : v.isDirect = true ↔ v._size.toNat ≤ N.toNat := by
  simp [isDirect, UInt32.le_iff_toNat_le]

theorem isDirect_eq_false_iff {v : Prevector N T} : v.isDirect = false ↔ N.toNat < v._size.toNat := by
  simp [isDirect, UInt32.le_iff_toNat_le]

theorem size_of_isDirect {v : Prevector N T} (h : v.isDirect = true) : v.size = v._size := by
  simp [size, h]

theorem toNat_size_of_not_isDirect {v : Prevector N T} (h : v.isDirect = false) :
    v.size.toNat = v._size.toNat - N.toNat - 1 := by
  have hlt := isDirect_eq_false_iff.1 h
  have h1 : (1 : UInt32) ≤ v._size - N := by
    rw [UInt32.le_iff_toNat_le, UInt32.toNat_sub_of_le _ _ (UInt32.le_iff_toNat_le.2 hlt.le)]
    simp only [UInt32.toNat_one]
    omega
  simp only [size, h, Bool.false_eq_true, if_false]
  rw [UInt32.toNat_sub_of_le _ _ h1, UInt32.toNat_sub_of_le _ _ (UInt32.le_iff_toNat_le.2 hlt.le),
    UInt32.toNat_one]

@[simp] theorem isDirect_withUnion (v : Prevector N T) (u : DirectOrIndirect T) :
    ({ v with _union := u } : Prevector N T).isDirect = v.isDirect := rfl

@[simp] theorem size_setItems (v : Prevector N T) (buf : List T) : (v.setItems buf).size = v.size := by
  unfold setItems
  split <;> rfl

@[simp] theorem capacity_setItems (v : Prevector N T) (buf : List T) : (v.setItems buf).capacity = v.capacity := by
  cases h : v.isDirect <;> simp [setItems, capacity, h]

@[simp] theorem items_setItems (v : Prevector N T) (buf : List T) : (v.setItems buf).items = buf := by
  cases h : v.isDirect <;> simp [setItems, items, h]

namespace Inv

variable {v : Prevector N T}

theorem N_lt (hv : v.Inv) : N.toNat < 2 ^ 31 := by
  have := hv.fits
  omega

theorem length_items (hv : v.Inv) : v.items.length = v.capacity := by
  cases h : v.isDirect
  · simp [items, capacity, h, (hv.indirect h).1]
  · simp [items, capacity, h, hv.direct_length]

theorem size_le_capacity (hv : v.Inv) : v.size.toNat ≤ v.capacity := by
  cases h : v.isDirect
  · simp [capacity, h, (hv.indirect h).2.1]
  · rw [size_of_isDirect h]
    simpa [capacity, h] using isDirect_eq_true_iff.1 h

/-- `_size` in either mode. -/
theorem toNat_size_eq (hv : v.Inv) :
    v._size.toNat = if v.isDirect then v.size.toNat else v.size.toNat + N.toNat + 1 := by
  cases h : v.isDirect
  · exact (hv.indirect h).2.2
  · simp [size_of_isDirect h]

theorem length_toList (hv : v.Inv) : v.toList.length = v.size.toNat := by
  rw [toList, List.length_take, hv.length_items]
  exact Nat.min_eq_left hv.size_le_capacity

/-- A new storage of the same length keeps the invariant. -/
theorem setItems (hv : v.Inv) {buf : List T} (hb : buf.length = v.capacity) : (v.setItems buf).Inv := by
  cases h : v.isDirect
  · have hlen : buf.length = v._union.capacity.toNat := by simpa [capacity, h] using hb
    obtain ⟨-, hs, hsz⟩ := hv.indirect h
    simp only [Prevector.setItems, h, Bool.false_eq_true, if_false]
    exact ⟨hv.direct_length, fun _ => ⟨hlen, hs, hsz⟩, hv.fits⟩
  · have hlen : buf.length = N.toNat := by simpa [capacity, h] using hb
    simp only [Prevector.setItems, h, if_true]
    exact ⟨hlen, fun h' => by simp [h] at h', hv.fits⟩

end Inv

@[simp] theorem _size_setItems (v : Prevector N T) (buf : List T) : (v.setItems buf)._size = v._size := by
  unfold Prevector.setItems
  split <;> rfl

/-! ### Writes and moves through `item_ptr` -/

section Items

variable {v : Prevector N T}

theorem writeItems_eq (hv : v.Inv) {pos : Nat} {xs : List T} (h : pos + xs.length ≤ v.capacity) :
    v.writeItems pos xs = .ok (v.setItems (v.items.take pos ++ xs ++ v.items.drop (pos + xs.length))) := by
  rw [writeItems, writeSlots_of_le (by rw [hv.length_items]; exact h)]
  rfl

theorem Inv.written (hv : v.Inv) {pos : Nat} {xs : List T} (h : pos + xs.length ≤ v.capacity) :
    (v.setItems (v.items.take pos ++ xs ++ v.items.drop (pos + xs.length))).Inv :=
  hv.setItems (by rw [length_written (by rw [hv.length_items]; exact h), hv.length_items])

theorem moveItems_eq (hv : v.Inv) {dst src n : Nat} (hsrc : src + n ≤ v.capacity) (hdst : dst + n ≤ v.capacity) :
    v.moveItems dst src n = .ok (v.setItems (v.items.take dst ++ (v.items.drop src).take n ++ v.items.drop (dst + n))) := by
  have hlen : ((v.items.drop src).take n).length = n := by
    simp only [List.length_take, List.length_drop, hv.length_items]
    omega
  rw [moveItems, readSlots_of_le (by rw [hv.length_items]; exact hsrc)]
  show v.writeItems dst ((v.items.drop src).take n) = _
  rw [writeItems_eq hv (by rw [hlen]; exact hdst), hlen]

theorem Inv.moved (hv : v.Inv) {dst src n : Nat} (hsrc : src + n ≤ v.capacity) (hdst : dst + n ≤ v.capacity) :
    (v.setItems (v.items.take dst ++ (v.items.drop src).take n ++ v.items.drop (dst + n))).Inv := by
  have hlen : ((v.items.drop src).take n).length = n := by
    simp only [List.length_take, List.length_drop, hv.length_items]
    omega
  have hw := hv.written (show dst + ((v.items.drop src).take n).length ≤ v.capacity by rw [hlen]; exact hdst)
  rwa [hlen] at hw

end Items

/-- A `_size` that encodes another size `s'` in the same mode, within the
capacity, keeps the storage and the invariant. -/
theorem setSize {v : Prevector N T} (hv : v.Inv) {x : UInt32} {s' : Nat} (hs' : s' ≤ v.capacity)
    (hfit : s' + N.toNat < 2 ^ 31) (hx : x.toNat = if v.isDirect then s' else s' + N.toNat + 1) :
    let v' : Prevector N T := { _size := x, _union := v._union }
    v'.isDirect = v.isDirect ∧ v'.size.toNat = s' ∧ v'.items = v.items ∧ v'.capacity = v.capacity ∧ v'.Inv := by
  intro v'
  have hmode : v'.isDirect = v.isDirect := by
    cases h : v.isDirect
    · rw [h, if_neg (by simp)] at hx
      exact isDirect_eq_false_iff.2 (by simp only [v']; omega)
    · rw [h, if_pos rfl] at hx
      have hcap : v.capacity = N.toNat := by simp [capacity, h]
      exact isDirect_eq_true_iff.2 (by simp only [v']; omega)
  have hsize : v'.size.toNat = s' := by
    cases h : v.isDirect
    · rw [h, if_neg (by simp)] at hx
      rw [toNat_size_of_not_isDirect (hmode.trans h)]
      simp only [v']
      omega
    · rw [h, if_pos rfl] at hx
      rw [size_of_isDirect (hmode.trans h)]
      exact hx
  have hitems : v'.items = v.items := by simp only [items, hmode]; rfl
  have hcap : v'.capacity = v.capacity := by simp only [capacity, hmode]; rfl
  refine ⟨hmode, hsize, hitems, hcap, ⟨hv.direct_length, fun h => ?_, by omega⟩⟩
  have h' : v.isDirect = false := hmode ▸ h
  obtain ⟨hlen, -, -⟩ := hv.indirect h'
  have hc : v.capacity = v._union.capacity.toNat := by simp [capacity, h']
  rw [hc] at hs'
  rw [h', if_neg (by simp)] at hx
  exact ⟨hlen, by rw [hsize]; exact hs', by rw [hsize]; exact hx⟩

/-- `_size += k` for `k` more elements that fit in the capacity. -/
theorem addSize {v : Prevector N T} (hv : v.Inv) {k : UInt32} (hk : v.size.toNat + k.toNat ≤ v.capacity)
    (hfit : v.size.toNat + k.toNat + N.toNat < 2 ^ 31) :
    let v' : Prevector N T := { _size := v._size + k, _union := v._union }
    v'.isDirect = v.isDirect ∧ v'.size.toNat = v.size.toNat + k.toNat ∧ v'.items = v.items ∧
      v'.capacity = v.capacity ∧ v'.Inv := by
  have hsz := hv.toNat_size_eq
  refine setSize hv hk (by omega) ?_
  rw [toNat_uadd (by split at hsz <;> omega), hsz]
  split <;> omega

/-- `_size -= k` for `k` of the elements. -/
theorem subSize {v : Prevector N T} (hv : v.Inv) {k : UInt32} (hk : k.toNat ≤ v.size.toNat) :
    let v' : Prevector N T := { _size := v._size - k, _union := v._union }
    v'.isDirect = v.isDirect ∧ v'.size.toNat = v.size.toNat - k.toNat ∧ v'.items = v.items ∧
      v'.capacity = v.capacity ∧ v'.Inv := by
  have hsz := hv.toNat_size_eq
  have hcap := hv.size_le_capacity
  have hfit := hv.fits
  refine setSize hv (by omega) (by omega) ?_
  rw [toNat_usub (by split at hsz <;> omega), hsz]
  split <;> omega

/-! ### `change_capacity`

Each of the three moves keeps the elements: back into the inline array, a
`realloc` of the heap block, and out of the inline array into a new block. -/

section Capacity

variable {v : Prevector N T}

@[simp] theorem items_of_isDirect (h : v.isDirect = true) : v.items = v._union.direct := by
  simp [items, h]

@[simp] theorem items_of_not_isDirect (h : v.isDirect = false) : v.items = v._union.indirect := by
  simp [items, h]

theorem changeCapacity_toDirect (hv : v.Inv) (h : v.isDirect = false) {c : UInt32} (hcN : c ≤ N)
    (hc : v.size.toNat ≤ c.toNat) :
    ∃ v', v.changeCapacity c = .ok v' ∧ v'.Inv ∧ v'.size.toNat = v.size.toNat ∧ v'.toList = v.toList ∧
      v'.capacity = N.toNat := by
  obtain ⟨hlen, hs, hsz⟩ := hv.indirect h
  have hle : c.toNat ≤ N.toNat := UInt32.le_iff_toNat_le.1 hcN
  have hN := hv.N_lt
  set l := v._union.indirect.take v.size.toNat with hl
  have hll : l.length = v.size.toNat := by
    rw [hl, List.length_take]
    omega
  have hread : readSlots v._union.indirect 0 v.size.toNat = some l := by
    rw [readSlots_of_le (by omega), List.drop_zero]
  have hwrite : writeSlots v._union.direct 0 l = some (l ++ v._union.direct.drop v.size.toNat) := by
    rw [writeSlots_of_le (by rw [hll, hv.direct_length]; omega), hll, List.take_zero, List.nil_append,
      Nat.zero_add]
  have hsize : (v._size - (N + 1)).toNat = v.size.toNat := by
    rw [toNat_usub (by rw [toNat_uadd (by simp; omega)]; simp; omega), toNat_uadd (by simp; omega)]
    simp only [UInt32.toNat_one]
    omega
  set v' : Prevector N T := { _size := v._size - (N + 1), _union := { v._union with
    direct := l ++ v._union.direct.drop v.size.toNat, indirect := [] } } with hv'
  have hcc : v.changeCapacity c = .ok v' := by
    simp only [changeCapacity, hcN, h, hread, hwrite, orOutOfRange, Reader.ok_bind, Reader.pure_eq_ok,
      Bool.not_false, ↓reduceIte]
    rfl
  have hd : v'.isDirect = true := isDirect_eq_true_iff.2 (by rw [hv', hsize]; omega)
  have hsize' : v'.size.toNat = v.size.toNat := by
    rw [size_of_isDirect hd, hv', hsize]
  refine ⟨v', hcc, ⟨?_, fun h' => absurd (h'.symm.trans hd) (by simp), by rw [hsize']; exact hv.fits⟩,
    hsize', ?_, by rw [capacity, hd]; rfl⟩
  · simp only [hv', List.length_append, List.length_drop, hll, hv.direct_length]
    omega
  · rw [toList, toList, items_of_isDirect hd, items_of_not_isDirect h, hsize', ← hl, hv']
    exact List.take_left' hll

theorem changeCapacity_realloc (hv : v.Inv) (h : v.isDirect = false) {c : UInt32} (hcN : ¬c ≤ N)
    (hc : v.size.toNat ≤ c.toNat) :
    ∃ v', v.changeCapacity c = .ok v' ∧ v'.Inv ∧ v'.size.toNat = v.size.toNat ∧ v'.toList = v.toList ∧
      v'.capacity = c.toNat := by
  obtain ⟨hlen, hs, hsz⟩ := hv.indirect h
  set v' : Prevector N T := { v with _union := { v._union with
    indirect := reallocSlots v._union.indirect c.toNat, capacity := c } } with hv'
  have hcc : v.changeCapacity c = .ok v' := by
    simp only [changeCapacity, hcN, h, Bool.not_false, ↓reduceIte]
    rfl
  have hd : v'.isDirect = false := h
  have hsize' : v'.size.toNat = v.size.toNat := rfl
  refine ⟨v', hcc, ⟨hv.direct_length, fun _ => ⟨length_reallocSlots _ _, hc, hsz⟩, hv.fits⟩, hsize', ?_,
    by rw [capacity, hd]; rfl⟩
  rw [toList, toList, items_of_not_isDirect hd, items_of_not_isDirect h, hsize']
  exact take_reallocSlots hc (by omega)

theorem changeCapacity_toIndirect (hv : v.Inv) (h : v.isDirect = true) {c : UInt32} (hcN : ¬c ≤ N)
    (hc : v.size.toNat ≤ c.toNat) :
    ∃ v', v.changeCapacity c = .ok v' ∧ v'.Inv ∧ v'.size.toNat = v.size.toNat ∧ v'.toList = v.toList ∧
      v'.capacity = c.toNat := by
  have hN := hv.N_lt
  have hsN : v.size.toNat ≤ N.toNat := by
    rw [size_of_isDirect h]
    exact isDirect_eq_true_iff.1 h
  set l := v._union.direct.take v.size.toNat with hl
  have hll : l.length = v.size.toNat := by
    rw [hl, List.length_take, hv.direct_length]
    omega
  have hread : readSlots v._union.direct 0 v.size.toNat = some l := by
    rw [readSlots_of_le (by rw [hv.direct_length]; omega), List.drop_zero]
  have hwrite : writeSlots (List.replicate c.toNat default) 0 l =
      some (l ++ (List.replicate c.toNat (default : T)).drop v.size.toNat) := by
    rw [writeSlots_of_le (by rw [hll, List.length_replicate]; omega), hll, List.take_zero, List.nil_append,
      Nat.zero_add]
  have hsize : (v._size + (N + 1)).toNat = v.size.toNat + N.toNat + 1 := by
    rw [← size_of_isDirect h, toNat_uadd (by rw [toNat_uadd (by simp; omega)]; simp; omega),
      toNat_uadd (by simp; omega)]
    simp only [UInt32.toNat_one]
    omega
  set v' : Prevector N T := { _size := v._size + (N + 1), _union := { v._union with
    capacity := c, indirect := l ++ (List.replicate c.toNat (default : T)).drop v.size.toNat } } with hv'
  have hcc : v.changeCapacity c = .ok v' := by
    simp only [changeCapacity, hcN, h, hread, hwrite, orOutOfRange, Reader.ok_bind, Reader.pure_eq_ok,
      Bool.not_true, Bool.false_eq_true, ↓reduceIte]
    rfl
  have hd : v'.isDirect = false := isDirect_eq_false_iff.2 (by rw [hv', hsize]; omega)
  have hsize' : v'.size.toNat = v.size.toNat := by
    rw [toNat_size_of_not_isDirect hd, hv', hsize]
    omega
  have hlen : (l ++ (List.replicate c.toNat (default : T)).drop v.size.toNat).length = c.toNat := by
    simp only [List.length_append, List.length_drop, List.length_replicate, hll]
    omega
  refine ⟨v', hcc, ⟨hv.direct_length, fun _ => ⟨hlen, by rw [hsize']; exact hc, by rw [hsize', hv', hsize]⟩,
    by rw [hsize']; exact hv.fits⟩, hsize', ?_, by rw [capacity, hd]; rfl⟩
  rw [toList, toList, items_of_not_isDirect hd, items_of_isDirect h, hsize', ← hl, hv']
  exact List.take_left' hll

/-- `change_capacity(c)` for `c ≥ size()` keeps the elements and leaves a
capacity of `max c N`. -/
theorem changeCapacity_spec (hv : v.Inv) {c : UInt32} (hc : v.size.toNat ≤ c.toNat) :
    ∃ v', v.changeCapacity c = .ok v' ∧ v'.Inv ∧ v'.size.toNat = v.size.toNat ∧ v'.toList = v.toList ∧
      v'.capacity = max c.toNat N.toNat := by
  by_cases hcN : c ≤ N
  · have hle : c.toNat ≤ N.toNat := UInt32.le_iff_toNat_le.1 hcN
    rw [Nat.max_eq_right hle]
    cases h : v.isDirect
    · exact changeCapacity_toDirect hv h hcN hc
    · exact ⟨v, by simp only [changeCapacity, hcN, h, Bool.not_true, Bool.false_eq_true, ↓reduceIte], hv,
        rfl, rfl, by simp [capacity, h]⟩
  · have hlt : N.toNat < c.toNat := by
      rw [UInt32.le_iff_toNat_le] at hcN
      omega
    rw [Nat.max_eq_left hlt.le]
    cases h : v.isDirect
    · exact changeCapacity_realloc hv h hcN hc
    · exact changeCapacity_toIndirect hv h hcN hc

/-- The growth before an insertion leaves room for `n` elements. -/
theorem growFor_spec (hv : v.Inv) {n : UInt32} (hn : v.size.toNat ≤ n.toNat) (hfit : n.toNat + N.toNat < 2 ^ 31) :
    ∃ v', v.growFor n = .ok v' ∧ v'.Inv ∧ v'.size.toNat = v.size.toNat ∧ v'.toList = v.toList ∧
      n.toNat ≤ v'.capacity := by
  unfold growFor
  split
  · have hgrow : (n + (n >>> 1)).toNat = n.toNat + n.toNat / 2 := by
      rw [toNat_uadd (by rw [UInt32.toNat_shiftRight, Nat.shiftRight_eq_div_pow]; simp; omega),
        UInt32.toNat_shiftRight, Nat.shiftRight_eq_div_pow]
      simp
    obtain ⟨v', hcc, hv', hs, hl, hcap⟩ := changeCapacity_spec hv (c := n + (n >>> 1)) (by rw [hgrow]; omega)
    exact ⟨v', hcc, hv', hs, hl, by rw [hcap, hgrow]; omega⟩
  · exact ⟨v, rfl, hv, rfl, rfl, by omega⟩

end Capacity

end Prevector

end Ring.Prevector
