import Mathlib

/-!
# What a depth-first visit does to its visited set

A depth-first search that marks a key when it first reaches it and then
visits the key's successors leaves two traces on its visited set: every key
it adds is reachable from the key it started on, and every key it adds has
all its successors visited by the time the visit returns.
`VisitGrows step root V V'` says this of a visit from `root` that turned `V`
into `V'`.

For a fixed root the relation is a preorder (`refl`, `trans`); a visit from a
successor of the root counts as a visit from the root (`of_step`); marking the
root and then visiting until all its successors are visited is a visit from the
root (`of_mark`). Started on the empty set, a visit that marks its root has
visited exactly the keys reachable from the root (`eq_reach`).
-/
namespace Ring.Lib

open Relation

variable {κ : Type} {step : κ → κ → Prop}

/-- A visit from `root` turned the visited set `V` into `V'`: it added only
keys reachable from `root`, and every key it added has its successors in `V'`. -/
def VisitGrows (step : κ → κ → Prop) (root : κ) (V V' : Set κ) : Prop :=
  V ⊆ V' ∧ ∀ j ∈ V', j ∉ V → (∀ j', step j j' → j' ∈ V') ∧ ReflTransGen step root j

namespace VisitGrows

theorem refl (root : κ) (V : Set κ) : VisitGrows step root V V :=
  ⟨subset_rfl, fun _ hj hn => absurd hj hn⟩

theorem trans {root : κ} {V V' V'' : Set κ} (h : VisitGrows step root V V')
    (h' : VisitGrows step root V' V'') : VisitGrows step root V V'' := by
  refine ⟨h.1.trans h'.1, fun j hj hn => ?_⟩
  by_cases hj' : j ∈ V'
  · obtain ⟨hsucc, hreach⟩ := h.2 j hj' hn
    exact ⟨fun j' hs => h'.1 (hsucc j' hs), hreach⟩
  · exact h'.2 j hj hj'

theorem subset {root : κ} {V V' : Set κ} (h : VisitGrows step root V V') : V ⊆ V' := h.1

/-- A visit from a successor of `root` is a visit from `root`. -/
theorem of_step {root root' : κ} {V V' : Set κ} (hs : step root root')
    (h : VisitGrows step root' V V') : VisitGrows step root V V' :=
  ⟨h.1, fun j hj hn => ⟨(h.2 j hj hn).1, ReflTransGen.head hs (h.2 j hj hn).2⟩⟩

/-- Marking `root`, then visiting from it until all its successors are
visited, is a visit from `root`. -/
theorem of_mark {root : κ} {V V' : Set κ} (h : VisitGrows step root (insert root V) V')
    (hsucc : ∀ j', step root j' → j' ∈ V') : VisitGrows step root V V' := by
  refine ⟨(Set.subset_insert root V).trans h.1, fun j hj hn => ?_⟩
  by_cases hr : j = root
  · subst hr
    exact ⟨hsucc, ReflTransGen.refl⟩
  · exact h.2 j hj (by simp [hr, hn])

/-- Marking a root that has no successors is a visit from it. -/
theorem mark_of_no_step {root : κ} (V : Set κ) (hsucc : ∀ j', ¬ step root j') :
    VisitGrows step root V (insert root V) :=
  of_mark (refl root _) fun j' hs => absurd hs (hsucc j')

/-- A visit from the empty set that visits its root has visited exactly the
keys reachable from the root. -/
theorem eq_reach {root : κ} {V : Set κ} (h : VisitGrows step root ∅ V) (hroot : root ∈ V) :
    V = {j | ReflTransGen step root j} := by
  ext j
  constructor
  · intro hj
    exact (h.2 j hj (Set.notMem_empty j)).2
  · intro hj
    induction hj with
    | refl => exact hroot
    | tail _ hs ih => exact (h.2 _ ih (Set.notMem_empty _)).1 _ hs

end VisitGrows

end Ring.Lib
