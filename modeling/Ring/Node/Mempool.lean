import Mathlib
import Ring.Node.Policy

/-!
# The mempool as block assembly reads it

A mempool entry is a transaction with its own figures (fee, weight, signature
operation cost) and the cached figures of its package: itself and all its
in-mempool ancestors (`nCountWithAncestors`, `nSizeWithAncestors`,
`nSigOpCostWithAncestors`, `nModFeesWithAncestors`). Sizes are virtual sizes
(`GetVirtualTransactionSize`), at least a quarter of the weight.

`T` is the type of the mempool's entries (a `txiter` points at one of
them). The parent links and the two walks over them the block assembler
calls (`CalculateMemPoolAncestors`, `CalculateDescendants`) are taken as the
lists they return. `CTxMemPool.Consistent` is what the mempool keeps true of
them (`CTxMemPool::check` asserts it): ancestors are closed under parents and
under ancestors, no transaction is its own ancestor, descendants are the
converse relation, and the cached package figures are the sums over the
package.

Results:
* `nSizeWithAncestors_eq_sum`, `nSigOpCostWithAncestors_eq_sum`: the cached
  figures are sums over the package as a set.
* `count_lt_of_mem_ancestors`: an ancestor has fewer ancestors, which is why
  sorting a package by ancestor count puts parents first.
-/
namespace Ring.Node

open Ring.Arith Ring.Chain

/-- `GetVirtualTransactionSize(nWeight, nSigOpCost)`: the weight, or the
signature operations priced at `nBytesPerSigOp` bytes if that is more, in
virtual bytes rounded up.
mirrors src/policy/policy.cpp:255-258 -/
def getVirtualTransactionSize (nWeight nSigOpCost nBytesPerSigOp : Nat) : Nat :=
  (max nWeight (nSigOpCost * nBytesPerSigOp) + WITNESS_SCALE_FACTOR - 1) / WITNESS_SCALE_FACTOR

theorem weight_le_virtualTransactionSize (nWeight nSigOpCost nBytesPerSigOp : Nat) :
    nWeight ≤ WITNESS_SCALE_FACTOR * getVirtualTransactionSize nWeight nSigOpCost nBytesPerSigOp := by
  unfold getVirtualTransactionSize WITNESS_SCALE_FACTOR
  omega

/-- `CTxMemPoolEntry`, with the fields block assembly reads.
mirrors src/txmempool.h:66-133 -/
structure CTxMemPoolEntry where
  tx : CTransaction
  nFee : Int
  /-- `prioritisetransaction`'s delta -/
  feeDelta : Int
  nTxWeight : Nat
  sigOpCost : Nat
  nCountWithAncestors : Nat
  nSizeWithAncestors : Nat
  nModFeesWithAncestors : Int
  nSigOpCostWithAncestors : Nat
  deriving DecidableEq

/-- `CTxMemPoolEntry::GetModifiedFee`. -/
def CTxMemPoolEntry.getModifiedFee (e : CTxMemPoolEntry) : Int := e.nFee + e.feeDelta

/-- The mempool's entries `T`, in the order of the `ancestor_score` index
(best package fee rate first), with each entry's links and the global
`nBytesPerSigOp` that `GetTxSize` reads. -/
structure CTxMemPool (T : Type) where
  /-- `mapTx.get<ancestor_score>()`, from `begin()` to `end()` -/
  mapTx : List T
  entry : T → CTxMemPoolEntry
  /-- `GetMemPoolParents` -/
  parents : T → List T
  /-- `CalculateMemPoolAncestors(entry, ...)` with no limits -/
  ancestors : T → List T
  /-- `CalculateDescendants(it, ...)`: `it` and its descendants -/
  descendants : T → List T
  /-- `GetTx().GetHash()` -/
  getHash : T → Uint256
  nBytesPerSigOp : Nat

namespace CTxMemPool

variable {T : Type} (M : CTxMemPool T)

/-- `CTxMemPoolEntry::GetTxSize`: the virtual size.
mirrors src/txmempool.cpp:51-54 -/
def getTxSize (x : T) : Nat :=
  getVirtualTransactionSize (M.entry x).nTxWeight (M.entry x).sigOpCost M.nBytesPerSigOp

/-- `GetSigOpCost`. -/
def getSigOpCost (x : T) : Nat := (M.entry x).sigOpCost

/-- What the mempool keeps true of its links and cached figures. -/
structure Consistent : Prop where
  parents_subset : ∀ x, ∀ p ∈ M.parents x, p ∈ M.ancestors x
  ancestors_trans : ∀ x, ∀ a ∈ M.ancestors x, ∀ b ∈ M.ancestors a, b ∈ M.ancestors x
  not_mem_ancestors : ∀ x, x ∉ M.ancestors x
  ancestors_nodup : ∀ x, (M.ancestors x).Nodup
  mem_descendants : ∀ x y, y ∈ M.descendants x ↔ y = x ∨ x ∈ M.ancestors y
  descendants_nodup : ∀ x, (M.descendants x).Nodup
  count : ∀ x, (M.entry x).nCountWithAncestors = (M.ancestors x).length + 1
  size : ∀ x, (M.entry x).nSizeWithAncestors = M.getTxSize x + ((M.ancestors x).map M.getTxSize).sum
  sigOpCost : ∀ x, (M.entry x).nSigOpCostWithAncestors =
    M.getSigOpCost x + ((M.ancestors x).map M.getSigOpCost).sum
  /-- a mempool transaction has outputs (`CheckTransaction`) -/
  vout_ne_nil : ∀ x, (M.entry x).tx.vout ≠ []

variable [DecidableEq T]

/-- A transaction's package: itself and its ancestors. -/
def package (x : T) : Finset T := insert x (M.ancestors x).toFinset

theorem mem_package {x y : T} : y ∈ M.package x ↔ y = x ∨ y ∈ M.ancestors x := by
  simp [package]

variable {M} (hM : M.Consistent)
include hM

theorem sum_package (f : T → Nat) (x : T) :
    ∑ a ∈ M.package x, f a = f x + ((M.ancestors x).map f).sum := by
  rw [package, Finset.sum_insert (by simpa using hM.not_mem_ancestors x), List.sum_toFinset _ (hM.ancestors_nodup x)]

theorem nSizeWithAncestors_eq_sum (x : T) :
    (M.entry x).nSizeWithAncestors = ∑ a ∈ M.package x, M.getTxSize a := by
  rw [sum_package hM, hM.size]

theorem nSigOpCostWithAncestors_eq_sum (x : T) :
    (M.entry x).nSigOpCostWithAncestors = ∑ a ∈ M.package x, M.getSigOpCost a := by
  rw [sum_package hM, hM.sigOpCost]

/-- The package of an ancestor lies in the package. -/
theorem package_subset_of_mem_ancestors {x a : T} (ha : a ∈ M.ancestors x) : M.package a ⊆ M.package x := by
  intro b hb
  rw [mem_package] at hb ⊢
  rcases hb with rfl | hb
  · exact .inr ha
  · exact .inr (hM.ancestors_trans x a ha b hb)

theorem package_subset_of_mem_package {x a : T} (ha : a ∈ M.package x) : M.package a ⊆ M.package x := by
  rcases (mem_package M).mp ha with rfl | ha
  · exact subset_rfl
  · exact package_subset_of_mem_ancestors hM ha

theorem count_lt_of_mem_ancestors {x a : T} (ha : a ∈ M.ancestors x) :
    (M.entry a).nCountWithAncestors < (M.entry x).nCountWithAncestors := by
  have hsub : (M.ancestors a).toFinset ⊂ (M.ancestors x).toFinset := by
    refine Finset.ssubset_iff_of_subset (fun b hb => ?_) |>.mpr ⟨a, by simpa using ha, ?_⟩
    · simp only [List.mem_toFinset] at hb ⊢
      exact hM.ancestors_trans x a ha b hb
    · simpa using hM.not_mem_ancestors a
  have := Finset.card_lt_card hsub
  rw [List.toFinset_card_of_nodup (hM.ancestors_nodup a), List.toFinset_card_of_nodup (hM.ancestors_nodup x)] at this
  rw [hM.count, hM.count]
  omega

end CTxMemPool

end Ring.Node
