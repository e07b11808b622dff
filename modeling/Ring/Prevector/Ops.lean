import Ring.Prevector.Inv

/-!
# Each operation on the elements

From a prevector with the invariant, and within the bound on sizes, each
public operation of `prevector` returns, keeps the invariant, and does to the
elements (`toList`) what the `std::vector` operation of the same name does.
Every proof follows the operation's steps: a growth or `change_capacity`, the
writes and moves through `item_ptr`, and the new `_size`.
-/
namespace Ring.Prevector

open Ring.Lib Ring.Chain

namespace Prevector

variable {N : UInt32} {T : Type} [Inhabited T] {v : Prevector N T}

/-! ### Insertion -/

theorem pushBack_spec (hv : v.Inv) (hfit : v.toList.length + 1 + N.toNat < 2 ^ 31) (x : T) :
    ∃ v', v.pushBack x = .ok v' ∧ v'.Inv ∧ v'.toList = v.toList ++ [x] := by
  rw [hv.length_toList] at hfit
  have hn : (v.size + 1).toNat = v.size.toNat + 1 := by
    rw [toNat_uadd (by simp; omega)]
    simp
  obtain ⟨v1, hg, hv1, hs1, hl1, hc1⟩ := growFor_spec hv (n := v.size + 1) (by omega) (by omega)
  have hcap : v1.size.toNat + [x].length ≤ v1.capacity := by
    simp only [List.length_singleton]
    omega
  obtain ⟨-, hsize, hitems, -, hinv⟩ := addSize (hv1.written hcap) (k := 1) (by simp; omega) (by simp; omega)
  refine ⟨_, by simp only [pushBack, hg, writeItems_eq hv1 hcap, Reader.ok_bind, Reader.pure_eq_ok], hinv, ?_⟩
  rw [toList, hsize, hitems, items_setItems, size_setItems, UInt32.toNat_one, ← hl1, toList]
  exact @take_writeSlots_end T v1.items v1.size.toNat [x] (by rw [hv1.length_items]; exact hv1.size_le_capacity)

theorem insertRange_spec (hv : v.Inv) {p : Nat} (hp : p ≤ v.toList.length) (xs : List T)
    (hfit : v.toList.length + xs.length + N.toNat < 2 ^ 31) :
    ∃ v', v.insertRange p xs = .ok v' ∧ v'.Inv ∧ v'.toList = v.toList.take p ++ xs ++ v.toList.drop p := by
  rw [hv.length_toList] at hp hfit
  obtain ⟨hint, hcount⟩ := count_ofNat (n := xs.length) (by omega)
  have hn : (v.size + (Int32.ofNat xs.length).toUInt32).toNat = v.size.toNat + xs.length := by
    rw [toNat_uadd (by rw [hcount]; omega), hcount]
  obtain ⟨v1, hg, hv1, hs1, hl1, hc1⟩ :=
    growFor_spec hv (n := v.size + (Int32.ofNat xs.length).toUInt32) (by omega) (by omega)
  have hp32 : (UInt32.ofNat p).toNat = p := UInt32.toNat_ofNat_of_lt' (by simp only [UInt32.size]; omega)
  have hsub : (v1.size - UInt32.ofNat p).toNat = v.size.toNat - p := by
    rw [toNat_usub (by omega), hp32, hs1]
  have h1 : p + (v.size.toNat - p) ≤ v1.capacity := by omega
  have h2 : p + xs.length + (v.size.toNat - p) ≤ v1.capacity := by omega
  obtain ⟨M, hM⟩ : ∃ M, M = v1.items.take (p + xs.length) ++ (v1.items.drop p).take (v.size.toNat - p) ++
      v1.items.drop (p + xs.length + (v.size.toNat - p)) := ⟨_, rfl⟩
  have hm : v1.moveItems (p + xs.length) p (v.size.toNat - p) = .ok (v1.setItems M) := by
    rw [hM]
    exact moveItems_eq hv1 h1 h2
  have hv2 : (v1.setItems M).Inv := by
    rw [hM]
    exact hv1.moved h1 h2
  have h3 : p + xs.length ≤ (v1.setItems M).capacity := by
    rw [capacity_setItems]
    omega
  obtain ⟨-, hsize, hitems, -, hinv⟩ := addSize (hv2.written h3)
    (k := (Int32.ofNat xs.length).toUInt32) (by simp only [size_setItems, capacity_setItems]; omega)
    (by simp only [size_setItems]; omega)
  have hnn : ¬((p : Int) + (Int32.ofNat xs.length).toInt < 0) := by
    rw [hint]
    omega
  have hdst : ((p : Int) + (Int32.ofNat xs.length).toInt).toNat = p + xs.length := by
    rw [hint]
    omega
  refine ⟨_, ?_, hinv, ?_⟩
  · simp only [insertRange, hg, Reader.ok_bind, hnn, ↓reduceIte, hdst, hsub, hm, writeItems_eq hv2 h3,
      Reader.pure_eq_ok]
  · rw [toList, hsize, hitems, items_setItems, items_setItems, size_setItems, size_setItems, hs1, hcount,
      ← hl1, toList, hs1]
    exact take_insertSlots hp (by rw [hv1.length_items]; omega) hM

theorem insert_spec (hv : v.Inv) {p : Nat} (hp : p ≤ v.toList.length) (x : T)
    (hfit : v.toList.length + 1 + N.toNat < 2 ^ 31) :
    ∃ v', v.insert p x = .ok v' ∧ v'.Inv ∧ v'.toList = v.toList.take p ++ [x] ++ v.toList.drop p :=
  insertRange_spec hv hp [x] hfit

theorem insertCount_spec (hv : v.Inv) {p : Nat} (hp : p ≤ v.toList.length) (count : UInt32) (x : T)
    (hfit : v.toList.length + count.toNat + N.toNat < 2 ^ 31) :
    ∃ v', v.insertCount p count x = .ok v' ∧ v'.Inv ∧
      v'.toList = v.toList.take p ++ List.replicate count.toNat x ++ v.toList.drop p := by
  rw [hv.length_toList] at hp hfit
  have hn : (v.size + count).toNat = v.size.toNat + count.toNat := toNat_uadd (by omega)
  obtain ⟨v1, hg, hv1, hs1, hl1, hc1⟩ := growFor_spec hv (n := v.size + count) (by omega) (by omega)
  have hp32 : (UInt32.ofNat p).toNat = p := UInt32.toNat_ofNat_of_lt' (by simp only [UInt32.size]; omega)
  have hsub : (v1.size - UInt32.ofNat p).toNat = v.size.toNat - p := by
    rw [toNat_usub (by omega), hp32, hs1]
  have h1 : p + (v.size.toNat - p) ≤ v1.capacity := by omega
  have h2 : p + count.toNat + (v.size.toNat - p) ≤ v1.capacity := by omega
  obtain ⟨M, hM⟩ : ∃ M, M = v1.items.take (p + count.toNat) ++ (v1.items.drop p).take (v.size.toNat - p) ++
      v1.items.drop (p + count.toNat + (v.size.toNat - p)) := ⟨_, rfl⟩
  have hm : v1.moveItems (p + count.toNat) p (v.size.toNat - p) = .ok (v1.setItems M) := by
    rw [hM]
    exact moveItems_eq hv1 h1 h2
  have hv2 : (v1.setItems M).Inv := by
    rw [hM]
    exact hv1.moved h1 h2
  obtain ⟨-, hsize, hitems, hcap, hinv⟩ := addSize hv2 (k := count)
    (by simp only [size_setItems, capacity_setItems]; omega) (by simp only [size_setItems]; omega)
  have h3 : p + (List.replicate count.toNat x).length ≤
      ({ _size := (v1.setItems M)._size + count, _union := (v1.setItems M)._union } : Prevector N T).capacity := by
    rw [hcap, capacity_setItems, List.length_replicate]
    omega
  refine ⟨_, ?_, hinv.written h3, ?_⟩
  · simp only [insertCount, hg, Reader.ok_bind, hsub, hm, writeItems_eq hinv h3]
  · have hrep : (List.replicate count.toNat x).length = count.toNat := List.length_replicate
    rw [toList, items_setItems, size_setItems, hsize, hitems, items_setItems, size_setItems, hs1,
      ← hl1, toList, hs1, show v.size.toNat + count.toNat = v.size.toNat + (List.replicate count.toNat x).length by
        rw [hrep]]
    exact @take_insertSlots T v1.items (List.replicate count.toNat x) p v.size.toNat hp
      (by rw [hv1.length_items, hrep]; omega) M (by rw [hrep]; exact hM)

/-! ### Erasure -/

theorem erase_spec (hv : v.Inv) {first last : Nat} (hf : first ≤ last) (hl : last ≤ v.toList.length) :
    ∃ v', v.erase first last = .ok v' ∧ v'.Inv ∧ v'.toList = v.toList.take first ++ v.toList.drop last := by
  rw [hv.length_toList] at hl
  have hcap := hv.size_le_capacity
  have hfits := hv.fits
  have h1 : last + (v.size.toNat - last) ≤ v.capacity := by omega
  have h2 : first + (v.size.toNat - last) ≤ v.capacity := by omega
  have hk : (UInt32.ofNat (last - first)).toNat = last - first :=
    UInt32.toNat_ofNat_of_lt' (by simp only [UInt32.size]; omega)
  obtain ⟨-, hsize, hitems, -, hinv⟩ := subSize (hv.moved h1 h2) (k := UInt32.ofNat (last - first))
    (by rw [size_setItems, hk]; omega)
  refine ⟨_, by simp only [erase, moveItems_eq hv h1 h2, Reader.ok_bind, Reader.pure_eq_ok], hinv, ?_⟩
  rw [toList, hsize, hitems, items_setItems, size_setItems, hk, toList]
  exact take_eraseSlots hf hl (by rw [hv.length_items]; exact hcap)

theorem eraseOne_spec (hv : v.Inv) {p : Nat} (hp : p < v.toList.length) :
    ∃ v', v.eraseOne p = .ok v' ∧ v'.Inv ∧ v'.toList = v.toList.eraseIdx p := by
  rw [List.eraseIdx_eq_take_drop_succ]
  exact erase_spec hv (Nat.le_succ p) hp

theorem popBack_spec (hv : v.Inv) (hne : v.toList ≠ []) :
    ∃ v', v.popBack = .ok v' ∧ v'.Inv ∧ v'.toList = v.toList.dropLast := by
  have hlen := hv.length_toList
  have hpos : 0 < v.toList.length := List.length_pos_of_ne_nil hne
  have hs : v.size ≠ 0 := fun h => by
    rw [h] at hlen
    simp only [UInt32.toNat_zero] at hlen
    omega
  obtain ⟨v', he, hv', hl⟩ := erase_spec hv (Nat.sub_le v.size.toNat 1) (Nat.le_of_eq hlen.symm)
  refine ⟨v', by rw [popBack, if_neg hs]; exact he, hv', ?_⟩
  rw [hl, List.dropLast_eq_take, ← hlen, List.drop_length, List.append_nil]

/-! ### Size and capacity -/

theorem reserve_spec (hv : v.Inv) (c : UInt32) :
    ∃ v', v.reserve c = .ok v' ∧ v'.Inv ∧ v'.size.toNat = v.size.toNat ∧ v'.toList = v.toList ∧
      c.toNat ≤ v'.capacity := by
  unfold reserve
  split
  · obtain ⟨v', hc, hv', hs, hl, hcap⟩ := changeCapacity_spec hv (c := c) (by have := hv.size_le_capacity; omega)
    exact ⟨v', hc, hv', hs, hl, by omega⟩
  · exact ⟨v, rfl, hv, rfl, rfl, by omega⟩

theorem shrinkToFit_spec (hv : v.Inv) :
    ∃ v', v.shrinkToFit = .ok v' ∧ v'.Inv ∧ v'.toList = v.toList := by
  obtain ⟨v', hc, hv', -, hl, -⟩ := changeCapacity_spec hv (c := v.size) (Nat.le_refl _)
  exact ⟨v', hc, hv', hl⟩

/-- `if (capacity() < c) change_capacity(c)` before a continuation is
`reserve(c)` before it. -/
theorem reserve_bind {β : Type} {c : UInt32} {v' : Prevector N T} (hr : v.reserve c = .ok v')
    (k : Prevector N T → Except Fault β) :
    (if v.capacity < c.toNat then v.changeCapacity c >>= k else pure v >>= k) = k v' := by
  unfold reserve at hr
  split at hr
  · rename_i h
    rw [if_pos h, hr]
    rfl
  · rename_i h
    rw [if_neg h]
    cases hr
    rfl

/-- The growth branch of `resize`: room for `n`, then `T{}` in the new slots. -/
theorem resize_grow (hv : v.Inv) {n : UInt32} (hlt : v.size.toNat < n.toNat) (hfit : n.toNat + N.toNat < 2 ^ 31) :
    ∃ v', v.resize n = .ok v' ∧ v'.Inv ∧
      v'.toList = v.toList ++ List.replicate (n.toNat - v.size.toNat) default := by
  obtain ⟨v1, hr, hv1, hs1, hl1, hc1⟩ := reserve_spec hv n
  have hk : (UInt32.ofNat (n.toNat - v.size.toNat)).toNat = n.toNat - v.size.toNat :=
    UInt32.toNat_ofNat_of_lt' (by simp only [UInt32.size]; omega)
  have hrep : (List.replicate (n.toNat - v.size.toNat) (default : T)).length = n.toNat - v.size.toNat :=
    List.length_replicate
  have h1 : v.size.toNat + (List.replicate (n.toNat - v.size.toNat) (default : T)).length ≤ v1.capacity := by
    rw [hrep]
    omega
  obtain ⟨-, hsize, hitems, -, hinv⟩ := addSize (hv1.written h1) (k := UInt32.ofNat (n.toNat - v.size.toNat))
    (by rw [size_setItems, capacity_setItems, hk]; omega) (by rw [size_setItems, hk]; omega)
  have hne : v.size ≠ n := fun h => by rw [h] at hlt; omega
  have hng : ¬v.size > n := fun h => by rw [GT.gt, UInt32.lt_iff_toNat_lt] at h; omega
  refine ⟨_, ?_, hinv, ?_⟩
  · simp only [resize, hne, hng, ↓reduceIte, gt_iff_lt]
    rw [reserve_bind hr]
    simp only [writeItems_eq hv1 h1, Reader.ok_bind, Reader.pure_eq_ok]
  · rw [toList, hsize, hitems, items_setItems, size_setItems, hk, hs1, ← hl1, toList, hs1,
      show v.size.toNat + (n.toNat - v.size.toNat) =
        v.size.toNat + (List.replicate (n.toNat - v.size.toNat) (default : T)).length by rw [hrep]]
    exact take_writeSlots_end (by rw [hv1.length_items]; omega)

theorem resize_spec (hv : v.Inv) (n : UInt32) (hfit : n.toNat + N.toNat < 2 ^ 31) :
    ∃ v', v.resize n = .ok v' ∧ v'.Inv ∧
      v'.toList = v.toList.take n.toNat ++ List.replicate (n.toNat - v.toList.length) default := by
  have hlen := hv.length_toList
  rcases Nat.lt_trichotomy v.size.toNat n.toNat with hlt | heq | hgt
  · rw [hlen, List.take_of_length_le (by omega)]
    exact resize_grow hv hlt hfit
  · have he : v.size = n := UInt32.toNat_inj.1 heq
    refine ⟨v, by simp only [resize, he, ↓reduceIte], hv, ?_⟩
    rw [List.take_of_length_le (by omega), hlen, heq, Nat.sub_self, List.replicate_zero, List.append_nil]
  · obtain ⟨v', he, hv', hl⟩ := erase_spec hv (Nat.le_of_lt hgt) (Nat.le_of_eq hlen.symm)
    have hne : v.size ≠ n := fun h => by rw [h] at hgt; omega
    have hg : v.size > n := UInt32.lt_iff_toNat_lt.2 hgt
    refine ⟨v', by simp only [resize, hne, hg, ↓reduceIte]; exact he, hv', ?_⟩
    rw [hl, ← hlen, List.drop_length, Nat.sub_eq_zero_of_le (by omega), List.replicate_zero]

theorem clear_spec (hv : v.Inv) : ∃ v', v.clear = .ok v' ∧ v'.Inv ∧ v'.toList = [] := by
  obtain ⟨v', hr, hv', hl⟩ := resize_spec hv 0 (by simp only [UInt32.toNat_zero]; have := hv.N_lt; omega)
  refine ⟨v', hr, hv', ?_⟩
  simpa using hl

/-! ### Assignment and construction -/

theorem assignItems_spec (hv : v.Inv) (n : UInt32) (xs : List T) (hxs : xs.length = n.toNat)
    (hfit : n.toNat + N.toNat < 2 ^ 31) :
    ∃ v', v.assignItems n xs = .ok v' ∧ v'.Inv ∧ v'.toList = xs := by
  obtain ⟨v1, hc1, hv1, hl1⟩ := clear_spec hv
  have hs1 : v1.size.toNat = 0 := by rw [← hv1.length_toList, hl1, List.length_nil]
  obtain ⟨v2, hr2, hv2, hs2, -, hcap2⟩ := reserve_spec hv1 n
  obtain ⟨-, hsize, hitems, hcap, hinv⟩ := addSize hv2 (k := n) (by omega) (by omega)
  have h3 : 0 + xs.length ≤ ({ _size := v2._size + n, _union := v2._union } : Prevector N T).capacity := by
    rw [hcap]
    omega
  refine ⟨_, ?_, hinv.written h3, ?_⟩
  · simp only [assignItems, hc1, Reader.ok_bind]
    rw [reserve_bind hr2]
    simp only [writeItems_eq hinv h3]
  · have ht : v2.size.toNat + n.toNat = 0 + xs.length := by omega
    rw [toList, items_setItems, size_setItems, hsize, hitems, ht, take_writeSlots_end (Nat.zero_le _),
      List.take_zero, List.nil_append]

theorem assign_spec (hv : v.Inv) (n : UInt32) (val : T) (hfit : n.toNat + N.toNat < 2 ^ 31) :
    ∃ v', v.assign n val = .ok v' ∧ v'.Inv ∧ v'.toList = List.replicate n.toNat val :=
  assignItems_spec hv n _ List.length_replicate hfit

theorem assignRange_spec (hv : v.Inv) (xs : List T) (hfit : xs.length + N.toNat < 2 ^ 31) :
    ∃ v', v.assignRange xs = .ok v' ∧ v'.Inv ∧ v'.toList = xs :=
  assignItems_spec hv _ xs (UInt32.toNat_ofNat_of_lt' (by simp only [UInt32.size]; omega)).symm
    (by rw [UInt32.toNat_ofNat_of_lt' (by simp only [UInt32.size]; omega)]; exact hfit)

theorem elements_eq (hv : v.Inv) : v.elements = .ok v.toList := by
  rw [elements, readSlots_of_le (by rw [Nat.zero_add, hv.length_items]; exact hv.size_le_capacity), List.drop_zero]
  rfl

theorem empty_inv (hN : N.toNat < 2 ^ 31) : (empty : Prevector N T).Inv := by
  have hd : (empty : Prevector N T).isDirect = true := isDirect_eq_true_iff.2 (by simp [empty])
  refine ⟨List.length_replicate, fun h => absurd (h.symm.trans hd) (by simp), ?_⟩
  rw [size_of_isDirect hd]
  simpa [empty] using hN

@[simp] theorem toList_empty : (empty : Prevector N T).toList = [] := by
  simp [toList, size, empty, isDirect]

theorem fillNew_spec (hN : N.toNat < 2 ^ 31) (n : UInt32) (xs : List T) (hxs : xs.length = n.toNat)
    (hfit : n.toNat + N.toNat < 2 ^ 31) :
    ∃ v', (fillNew n xs : Except Fault (Prevector N T)) = .ok v' ∧ v'.Inv ∧ v'.toList = xs := by
  have he := empty_inv (T := T) hN
  have hs0 : (empty : Prevector N T).size.toNat = 0 := by
    rw [← he.length_toList, toList_empty, List.length_nil]
  obtain ⟨v1, hc1, hv1, hs1, -, hcap1⟩ := changeCapacity_spec he (c := n) (by omega)
  obtain ⟨-, hsize, hitems, hcap, hinv⟩ := addSize hv1 (k := n) (by omega) (by omega)
  have h3 : 0 + xs.length ≤ ({ _size := v1._size + n, _union := v1._union } : Prevector N T).capacity := by
    rw [hcap, hcap1]
    omega
  refine ⟨_, ?_, hinv.written h3, ?_⟩
  · simp only [fillNew, hc1, Reader.ok_bind, writeItems_eq hinv h3]
  · have ht : v1.size.toNat + n.toNat = 0 + xs.length := by omega
    rw [toList, items_setItems, size_setItems, hsize, hitems, ht, take_writeSlots_end (Nat.zero_le _),
      List.take_zero, List.nil_append]

theorem ofSize_spec (hN : N.toNat < 2 ^ 31) (n : UInt32) (hfit : n.toNat + N.toNat < 2 ^ 31) :
    ∃ v', (ofSize n : Except Fault (Prevector N T)) = .ok v' ∧ v'.Inv ∧ v'.toList = List.replicate n.toNat default := by
  obtain ⟨v', hr, hv', hl⟩ := resize_spec (empty_inv (T := T) hN) n hfit
  refine ⟨v', hr, hv', ?_⟩
  simpa using hl

theorem ofFill_spec (hN : N.toNat < 2 ^ 31) (n : UInt32) (val : T) (hfit : n.toNat + N.toNat < 2 ^ 31) :
    ∃ v', (ofFill n val : Except Fault (Prevector N T)) = .ok v' ∧ v'.Inv ∧ v'.toList = List.replicate n.toNat val :=
  fillNew_spec hN n _ List.length_replicate hfit

theorem ofRange_spec (hN : N.toNat < 2 ^ 31) (xs : List T) (hfit : xs.length + N.toNat < 2 ^ 31) :
    ∃ v', (ofRange xs : Except Fault (Prevector N T)) = .ok v' ∧ v'.Inv ∧ v'.toList = xs :=
  fillNew_spec hN _ xs (UInt32.toNat_ofNat_of_lt' (by simp only [UInt32.size]; omega)).symm
    (by rw [UInt32.toNat_ofNat_of_lt' (by simp only [UInt32.size]; omega)]; exact hfit)

theorem copyOf_spec {other : Prevector N T} (ho : other.Inv) :
    ∃ v', copyOf other = .ok v' ∧ v'.Inv ∧ v'.toList = other.toList := by
  have hcopy : copyOf other = fillNew other.size other.toList := by
    simp only [copyOf, fillNew, elements_eq ho, Reader.ok_bind]
  rw [hcopy]
  exact fillNew_spec ho.N_lt _ _ ho.length_toList ho.fits

theorem copyAssign_spec (hv : v.Inv) {other : Prevector N T} (ho : other.Inv) (self : Bool)
    (hself : self = true → other = v) :
    ∃ v', v.copyAssign other self = .ok v' ∧ v'.Inv ∧ v'.toList = other.toList := by
  cases self with
  | true => exact ⟨v, rfl, hv, by rw [hself rfl]⟩
  | false =>
    obtain ⟨v', ha, hv', hl⟩ := assignRange_spec hv other.toList (by rw [ho.length_toList]; exact ho.fits)
    exact ⟨v', by simp only [copyAssign, Bool.false_eq_true, ↓reduceIte, elements_eq ho, Reader.ok_bind]; exact ha,
      hv', hl⟩

end Prevector

end Ring.Prevector
