import Mathlib

/-!
# Greedy in-order matching

`greedyMatch r as bs` walks `bs` once and matches the first item of `as` still
open with the first element of `bs` it relates to. Matching an item as early
as possible never hurts: when `a` relates to `b`, any matching of `a :: as`
into `b :: bs` leaves one of `as` into `bs` (`sublistForall₂_of_cons_cons`).
So the walk succeeds exactly when `as` is related, item by item, to a sublist
of `bs` (`greedyMatch_iff`); and since such a sublist is no longer than `bs`,
a walk may give up as soon as fewer elements than items are left
(`greedyMatch_of_length_lt`). The relation is order-free, so matching both
lists from the back is the same question (`sublistForall₂_reverse_iff`).
-/
namespace Ring.Lib

open List

variable {α β : Type*}

section Walk

variable (r : α → β → Bool)

/-- Greedy in-order matching of the items `as` against the elements `bs`. -/
def greedyMatch : List α → List β → Bool
  | [], _ => true
  | _ :: _, [] => false
  | a :: as, b :: bs => if r a b then greedyMatch as bs else greedyMatch (a :: as) bs

@[simp] theorem greedyMatch_nil_left (bs : List β) : greedyMatch r [] bs = true := by
  cases bs <;> rfl

@[simp] theorem greedyMatch_cons_nil (a : α) (as : List α) : greedyMatch r (a :: as) [] = false := rfl

theorem greedyMatch_cons_cons (a : α) (as : List α) (b : β) (bs : List β) :
    greedyMatch r (a :: as) (b :: bs) =
      if r a b then greedyMatch r as bs else greedyMatch r (a :: as) bs := rfl

end Walk

variable {R : α → β → Prop}

/-- Dropping the first item keeps a matching. -/
theorem sublistForall₂_of_cons_left {a : α} {as : List α} {bs : List β}
    (h : SublistForall₂ R (a :: as) bs) : SublistForall₂ R as bs := by
  induction bs with
  | nil => cases h
  | cons b bs ih =>
    cases h with
    | cons _ h => exact .cons_right h
    | cons_right h => exact .cons_right (ih h)

/-- The exchange step: a matching of `a :: as` into `b :: bs` leaves one of
`as` into `bs`, whichever element `a` was matched with. -/
theorem sublistForall₂_of_cons_cons {a : α} {as : List α} {b : β} {bs : List β}
    (h : SublistForall₂ R (a :: as) (b :: bs)) : SublistForall₂ R as bs := by
  cases h with
  | cons _ h => exact h
  | cons_right h => exact sublistForall₂_of_cons_left h

theorem sublistForall₂_length_le {as : List α} {bs : List β} (h : SublistForall₂ R as bs) :
    as.length ≤ bs.length := by
  induction h with
  | nil => exact Nat.zero_le _
  | cons _ _ ih => simpa using ih
  | cons_right _ ih => simp only [length_cons]; omega

theorem greedyMatch_iff (r : α → β → Bool) (as : List α) (bs : List β) :
    greedyMatch r as bs = true ↔ SublistForall₂ (fun a b => r a b = true) as bs := by
  induction bs generalizing as with
  | nil =>
    cases as with
    | nil => exact ⟨fun _ => .nil, fun _ => rfl⟩
    | cons a as => exact ⟨fun h => (by simp at h), fun h => (by cases h)⟩
  | cons b bs ih =>
    cases as with
    | nil => exact ⟨fun _ => .nil, fun _ => greedyMatch_nil_left r _⟩
    | cons a as =>
      rw [greedyMatch_cons_cons]
      by_cases hab : r a b = true
      · rw [if_pos hab, ih]
        exact ⟨fun h => .cons hab h, sublistForall₂_of_cons_cons⟩
      · rw [if_neg hab, ih]
        refine ⟨.cons_right, fun h => ?_⟩
        cases h with
        | cons h _ => exact absurd h hab
        | cons_right h => exact h

/-- The walk can stop once fewer elements than items are left. -/
theorem greedyMatch_of_length_lt (r : α → β → Bool) {as : List α} {bs : List β}
    (h : bs.length < as.length) : greedyMatch r as bs = false := by
  by_contra hne
  have hle := sublistForall₂_length_le ((greedyMatch_iff r as bs).mp (Bool.not_eq_false _ ▸ hne))
  omega

theorem greedyMatch_decide_iff [DecidableRel R] (as : List α) (bs : List β) :
    greedyMatch (fun a b => decide (R a b)) as bs = true ↔ SublistForall₂ R as bs := by
  simp only [greedyMatch_iff, decide_eq_true_eq]

instance instDecidableRelSublistForall₂ [DecidableRel R] : DecidableRel (SublistForall₂ R) := fun as bs =>
  decidable_of_iff _ (greedyMatch_decide_iff as bs)

theorem sublistForall₂_reverse_iff {as : List α} {bs : List β} :
    SublistForall₂ R as.reverse bs.reverse ↔ SublistForall₂ R as bs := by
  simp only [sublistForall₂_iff]
  constructor
  · rintro ⟨l, hf, hs⟩
    exact ⟨l.reverse, forall₂_reverse_iff.mp (by rwa [reverse_reverse]),
      reverse_sublist.mp (by rwa [reverse_reverse])⟩
  · rintro ⟨l, hf, hs⟩
    exact ⟨l.reverse, forall₂_reverse_iff.mpr hf, reverse_sublist.mpr hs⟩

example : greedyMatch (fun a b : Nat => a == b) [1, 3] [1, 2, 3] = true := by decide
example : greedyMatch (fun a b : Nat => a == b) [3, 1] [1, 2, 3] = false := by decide

end Ring.Lib
