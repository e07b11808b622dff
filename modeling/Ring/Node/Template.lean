import Mathlib
import Ring.Node.Assembler

/-!
# The block template `addPackageTxs` builds

On a consistent mempool (`CTxMemPool.Consistent`), `addPackageTxs` keeps an
invariant (`AssemblerInv`) from a fresh block to the end of its loop: the
block holds each transaction once, with all its in-mempool ancestors and
after them; the block's weight and signature operation cost stay below their
limits and are the coinbase's reserve plus the transactions'; without DCTs
allowed no transaction in the block is a DCT; and every modified entry's
figures are at least those of its package's transactions still outside the
block (`Covers`).

The last part carries the weight bound. `TestPackage` checks a package's
figures, not the package: the cached figures of a mempool entry count every
ancestor, some of which may be in the block already, and a modified entry's
figures have had only the ancestors added since it was created taken off.
Either way they are at least the package's own, so a package that passes
fits. Keeping this for the modified entries through `UpdatePackagesForAdded`,
whose inner loop updates some entries for an added transaction before it
has reached others, is the work of `innerInv_updateDescendant` and
`updatePackagesForAdded_covers`.

Results:
* `addPackageStep_inv`, `addPackageTxs_inv`: one run of the loop body from a
  state with the invariant does not fail and keeps it, so the whole loop ends
  without failing and with the invariant.
* `addPackageTxs_valid`: the block template from a fresh block.
-/
namespace Ring.Node

open Ring.Chain Ring.Lib

variable {T : Type} [DecidableEq T]

/-! ## Sums over what is left of a package -/

theorem sum_sdiff_insert {A S : Finset T} {a : T} (f : T → Nat) (ha : a ∈ A) (haS : a ∉ S) :
    ∑ x ∈ A \ S, f x = f a + ∑ x ∈ A \ insert a S, f x := by
  have hsplit : A \ S = insert a (A \ insert a S) := by
    ext x
    by_cases hx : x = a
    · subst hx
      simp [ha, haS]
    · simp [hx]
  rw [hsplit, Finset.sum_insert (by simp)]

theorem sum_sdiff_anti {A S S' : Finset T} (f : T → Nat) (h : S ⊆ S') :
    ∑ x ∈ A \ S', f x ≤ ∑ x ∈ A \ S, f x :=
  Finset.sum_le_sum_of_subset (Finset.sdiff_subset_sdiff subset_rfl h)

/-- The figures of a modified entry cover its package outside `S`: they are
at least the size and the signature operation cost of the package's
transactions that are not in `S`. -/
def Covers (M : CTxMemPool T) (S : Finset T) (m : CTxMemPoolModifiedEntry T) : Prop :=
  ∑ a ∈ M.package m.iter \ S, M.getTxSize a ≤ m.nSizeWithAncestors ∧
    ∑ a ∈ M.package m.iter \ S, M.getSigOpCost a ≤ m.nSigOpCostWithAncestors

variable {M : CTxMemPool T}

theorem Covers.mono {S S' : Finset T} {m : CTxMemPoolModifiedEntry T} (h : Covers M S m) (hS : S ⊆ S') :
    Covers M S' m :=
  ⟨(sum_sdiff_anti _ hS).trans h.1, (sum_sdiff_anti _ hS).trans h.2⟩

/-- `update_for_parent_inclusion(it)` for an `it` of the package not yet
counted keeps the figures covering, with `it` counted. -/
theorem Covers.update {S : Finset T} {m : CTxMemPoolModifiedEntry T} {it : T} (h : Covers M S m)
    (hit : it ∈ M.package m.iter) (hitS : it ∉ S) :
    Covers M (insert it S) (updateForParentInclusion M it m) := by
  have hsize := sum_sdiff_insert M.getTxSize hit hitS
  have hsig := sum_sdiff_insert M.getSigOpCost hit hitS
  obtain ⟨h1, h2⟩ := h
  constructor <;> simp only [updateForParentInclusion] <;> omega

section Consistent

variable (hM : M.Consistent)
include hM

/-- A new modified entry for a descendant `d` of the added `it` covers its
package with `it` counted. -/
theorem covers_newEntry (S : Finset T) {d it : T} (hit : it ∈ M.ancestors d) :
    Covers M (insert it S) { M.modifiedEntry d with
      nSizeWithAncestors := (M.entry d).nSizeWithAncestors - M.getTxSize it
      nModFeesWithAncestors := (M.entry d).nModFeesWithAncestors - (M.entry it).getModifiedFee
      nSigOpCostWithAncestors := (M.entry d).nSigOpCostWithAncestors - M.getSigOpCost it } := by
  have hpkg : it ∈ M.package d := (CTxMemPool.mem_package M).mpr (.inr hit)
  have hsub : ({it} : Finset T) ⊆ insert it S := by simp
  have hsize := sum_sdiff_insert M.getTxSize hpkg (Finset.notMem_empty it)
  have hsig := sum_sdiff_insert M.getSigOpCost hpkg (Finset.notMem_empty it)
  have hsize' := sum_sdiff_anti (A := M.package d) M.getTxSize hsub
  have hsig' := sum_sdiff_anti (A := M.package d) M.getSigOpCost hsub
  rw [Finset.sdiff_empty, ← CTxMemPool.nSizeWithAncestors_eq_sum hM] at hsize
  rw [Finset.sdiff_empty, ← CTxMemPool.nSigOpCostWithAncestors_eq_sum hM] at hsig
  simp only [insert_empty_eq] at hsize hsig
  constructor <;> simp only [CTxMemPool.modifiedEntry] <;> omega

/-! ## `UpdatePackagesForAdded` keeps the figures covering -/

/-- During the inner loop of `UpdatePackagesForAdded` for the added `it`:
every modified entry is outside the block `V` and the package `P`, covers
its package with `it` counted, and without it while the loop has not reached
it (`done` is what it has reached). -/
def InnerInv (V P : List T) (S : Finset T) (it : T) (done : List T)
    (mods : List (CTxMemPoolModifiedEntry T)) : Prop :=
  ∀ m ∈ mods, m.iter ∉ V ∧ m.iter ∉ P ∧ Covers M (insert it S) m ∧ (m.iter ∉ done → Covers M S m)

omit hM in
theorem InnerInv.cons {V P : List T} {S : Finset T} {it d : T} {done : List T}
    {mods : List (CTxMemPoolModifiedEntry T)} (h : InnerInv (M := M) V P S it done mods) :
    ∀ m ∈ mods, m.iter ∉ V ∧ m.iter ∉ P ∧ Covers M (insert it S) m ∧ (m.iter ∉ d :: done → Covers M S m) :=
  fun m hm => ⟨(h m hm).1, (h m hm).2.1, (h m hm).2.2.1,
    fun hnd => (h m hm).2.2.2 fun hd => hnd (List.mem_cons_of_mem d hd)⟩

/-- One descendant `d` of the added `it`, not reached before. -/
theorem innerInv_updateDescendant {V P : List T} {S : Finset T} {it d : T} {done : List T}
    {acc : List (CTxMemPoolModifiedEntry T) × Nat} (hitP : it ∈ P) (hitS : it ∉ S)
    (hd : d ∈ M.descendants it) (hdone : d ∉ done) (hdV : d ∉ P → d ∉ V)
    (h : InnerInv (M := M) V P S it done acc.1) :
    InnerInv (M := M) V P S it (d :: done) (updateDescendant M P it acc d).1 := by
  unfold updateDescendant
  split_ifs with hdP hany
  · exact h.cons
  · -- the entries for `d` have `it` taken off
    have hanc : it ∈ M.ancestors d :=
      ((hM.mem_descendants it d).mp hd).resolve_left fun hdit => hdP (hdit ▸ hitP)
    intro m hm
    obtain ⟨m₀, hm₀, rfl⟩ := List.mem_map.mp hm
    split_ifs with hkey
    · obtain ⟨hV, hP, -, hS⟩ := h m₀ hm₀
      have hpkg : it ∈ M.package m₀.iter := (CTxMemPool.mem_package M).mpr (.inr (hkey ▸ hanc))
      exact ⟨hV, hP, (hS (hkey ▸ hdone)).update hpkg hitS, fun hnd => absurd (hkey ▸ List.mem_cons_self) hnd⟩
    · exact h.cons m₀ hm₀
  · -- a new entry for `d`
    have hanc : it ∈ M.ancestors d :=
      ((hM.mem_descendants it d).mp hd).resolve_left fun hdit => hdP (hdit ▸ hitP)
    intro m hm
    rcases List.mem_append.mp hm with hm | hm
    · exact h.cons m hm
    · rw [List.mem_singleton] at hm
      subst hm
      exact ⟨hdV hdP, hdP, covers_newEntry hM S hanc, fun hnd => absurd List.mem_cons_self hnd⟩

/-- The inner loop over the descendants of the added `it` (each reached
once: the list has no duplicates). -/
theorem innerInv_foldl {V P : List T} {S : Finset T} {it : T} (hitP : it ∈ P) (hitS : it ∉ S)
    (hdV : ∀ d ∈ M.descendants it, d ∉ P → d ∉ V) :
    ∀ (L done : List T) (acc : List (CTxMemPoolModifiedEntry T) × Nat), (∀ d ∈ L, d ∈ M.descendants it) →
      L.Nodup → (∀ d ∈ L, d ∉ done) → InnerInv (M := M) V P S it done acc.1 →
      InnerInv (M := M) V P S it (L.reverse ++ done) (L.foldl (updateDescendant M P it) acc).1
  | [], _, _, _, _, _, h => h
  | d :: L, done, acc, hL, hnd, hdone, h => by
    rw [List.foldl_cons, List.reverse_cons, List.append_assoc, List.singleton_append]
    have hd : d ∈ M.descendants it := hL d List.mem_cons_self
    obtain ⟨hdL, hnd'⟩ := List.nodup_cons.mp hnd
    refine innerInv_foldl hitP hitS hdV L (d :: done) _ (fun x hx => hL x (List.mem_cons_of_mem d hx)) hnd'
      (fun x hx hxd => ?_) (innerInv_updateDescendant hM hitP hitS hd (hdone d List.mem_cons_self)
        (hdV d hd) h)
    rcases List.mem_cons.mp hxd with rfl | hxd
    · exact hdL hx
    · exact hdone x (List.mem_cons_of_mem d hx) hxd

/-- All of `UpdatePackagesForAdded` for the package `P` added to the block
`V`: the modified entries stay outside both and cover their packages outside
both. -/
theorem updatePackagesForAdded_covers {V P : List T} (hP : P.Nodup) (hPV : ∀ p ∈ P, p ∉ V)
    (hclosed : ∀ x ∈ V, ∀ a ∈ M.ancestors x, a ∈ V) {mods : List (CTxMemPoolModifiedEntry T)}
    (hmods : ∀ m ∈ mods, m.iter ∉ V ∧ m.iter ∉ P ∧ Covers M V.toFinset m) :
    ∀ m ∈ (updatePackagesForAdded M P mods).1, m.iter ∉ V ∧ m.iter ∉ P ∧ Covers M (V ++ P).toFinset m := by
  -- the outer loop, from the added transactions `Q` already processed
  have houter : ∀ (R Q : List T) (acc : List (CTxMemPoolModifiedEntry T) × Nat), Q ++ R = P →
      (∀ m ∈ acc.1, m.iter ∉ V ∧ m.iter ∉ P ∧ Covers M (V ++ Q).toFinset m) →
      ∀ m ∈ (R.foldl (fun acc it => (M.descendants it).foldl (updateDescendant M P it) acc) acc).1,
        m.iter ∉ V ∧ m.iter ∉ P ∧ Covers M (V ++ P).toFinset m := by
    intro R
    induction R with
    | nil => intro Q acc hQ h; simpa [← hQ] using h
    | cons it R ih =>
      intro Q acc hQ h
      have hitP : it ∈ P := hQ ▸ List.mem_append_right Q List.mem_cons_self
      have hitQ : it ∉ Q := by
        rw [← hQ] at hP
        exact fun hq => (List.nodup_append.mp hP).2.2 it hq it List.mem_cons_self rfl
      have hitS : it ∉ (V ++ Q).toFinset := by simpa using ⟨hPV it hitP, hitQ⟩
      have hdV : ∀ d ∈ M.descendants it, d ∉ P → d ∉ V := by
        intro d hd hdP hdV
        have hanc : it ∈ M.ancestors d :=
          ((hM.mem_descendants it d).mp hd).resolve_left fun hdit => hdP (hdit ▸ hitP)
        exact hPV it hitP (hclosed d hdV it hanc)
      have hinit : InnerInv (M := M) V P (V ++ Q).toFinset it [] acc.1 := fun m hm =>
        ⟨(h m hm).1, (h m hm).2.1, (h m hm).2.2.mono (Finset.subset_insert _ _), fun _ => (h m hm).2.2⟩
      have hinner := innerInv_foldl hM hitP hitS hdV (M.descendants it) [] acc (fun _ hd => hd)
        (hM.descendants_nodup it) (fun _ _ h => List.not_mem_nil h) hinit
      refine ih (Q ++ [it]) _ (by simp [← hQ]) fun m hm => ?_
      obtain ⟨hV, hP', hcov, -⟩ := hinner m hm
      refine ⟨hV, hP', ?_⟩
      have hS : insert it (V ++ Q).toFinset = (V ++ (Q ++ [it])).toFinset := by
        ext x
        simp
      exact hS ▸ hcov
  exact houter P [] (mods, 0) rfl (by simpa using hmods)

/-! ## The package and its order -/

omit hM in
theorem mem_unconfirmedAncestors {s : AssemblerState T} {iter y : T} (hiter : iter ∉ s.vtx) :
    y ∈ unconfirmedAncestors M s iter ↔ y ∈ M.package iter ∧ y ∉ s.vtx := by
  simp only [unconfirmedAncestors, List.mem_cons, List.mem_filter, decide_eq_true_eq, CTxMemPool.mem_package]
  constructor
  · rintro (rfl | ⟨h1, h2⟩)
    exacts [⟨.inl rfl, hiter⟩, ⟨.inr h1, h2⟩]
  · rintro ⟨rfl | h1, h2⟩
    exacts [.inl rfl, .inr ⟨h1, h2⟩]

theorem nodup_unconfirmedAncestors (s : AssemblerState T) (iter : T) :
    (unconfirmedAncestors M s iter).Nodup :=
  List.nodup_cons.mpr ⟨fun h => hM.not_mem_ancestors iter (List.mem_of_mem_filter h),
    (hM.ancestors_nodup iter).filter _⟩

/-- The package adds exactly what is left of `iter`'s package outside the
block, so its own figures are sums over that. -/
theorem sum_unconfirmedAncestors {s : AssemblerState T} {iter : T} (hiter : iter ∉ s.vtx) (f : T → Nat) :
    ((unconfirmedAncestors M s iter).map f).sum = ∑ a ∈ M.package iter \ s.vtx.toFinset, f a := by
  have hset : (unconfirmedAncestors M s iter).toFinset = M.package iter \ s.vtx.toFinset := by
    ext y
    simp [mem_unconfirmedAncestors hiter]
  rw [← hset, List.sum_toFinset _ (nodup_unconfirmedAncestors hM s iter)]

/-- An ancestor of a transaction of the package is in the block or in the
package. -/
theorem ancestors_unconfirmedAncestors {s : AssemblerState T} {iter y a : T} (hiter : iter ∉ s.vtx)
    (hy : y ∈ unconfirmedAncestors M s iter) (ha : a ∈ M.ancestors y) :
    a ∈ s.vtx ∨ a ∈ unconfirmedAncestors M s iter := by
  have hpkg : a ∈ M.package iter :=
    CTxMemPool.package_subset_of_mem_package hM ((mem_unconfirmedAncestors hiter).mp hy).1
      ((CTxMemPool.mem_package M).mpr (.inr ha))
  by_cases hav : a ∈ s.vtx
  · exact .inl hav
  · exact .inr ((mem_unconfirmedAncestors hiter).mpr ⟨hpkg, hav⟩)

omit hM [DecidableEq T] in
/-- `SortForBlock`'s order: fewer ancestors, then the lower hash. -/
theorem sortForBlock_le_iff (a b : T) :
    (!compareTxIterByAncestorCount M b a) = true ↔
      (M.entry a).nCountWithAncestors < (M.entry b).nCountWithAncestors ∨
        ((M.entry a).nCountWithAncestors = (M.entry b).nCountWithAncestors ∧
          (M.getHash a).memcmpKey ≤ (M.getHash b).memcmpKey) := by
  unfold compareTxIterByAncestorCount
  split_ifs <;> simp <;> omega

/-- Sorted by ancestor count, a package has no transaction before one of its
ancestors. -/
theorem pairwise_sortForBlock (package : List T) :
    (sortForBlock M package).Pairwise fun a b => b ∉ M.ancestors a := by
  have hsorted := @List.pairwise_mergeSort T (fun a b => !compareTxIterByAncestorCount M b a)
    (fun a b c hab hbc => by
      rw [sortForBlock_le_iff] at hab hbc ⊢
      omega)
    (fun a b => by
      rw [Bool.or_eq_true, sortForBlock_le_iff, sortForBlock_le_iff]
      omega) package
  refine hsorted.imp fun {a b} hab hb => ?_
  have hlt := CTxMemPool.count_lt_of_mem_ancestors hM hb
  rw [sortForBlock_le_iff] at hab
  omega

/-! ## `TestPackageTransactions` -/

omit hM in
theorem isDCT_ok {tx : CTransaction} (scriptPubKeyBCF : Ring.Script.CScript) (h : tx.vout ≠ []) :
    ∃ d, tx.isDCT scriptPubKeyBCF = .ok d := by
  obtain ⟨out, outs, hv⟩ := List.exists_cons_of_ne_nil h
  exact ⟨_, by simp [CTransaction.isDCT, at!, hv]; rfl⟩

omit [DecidableEq T] in
/-- On mempool transactions, which have outputs, the test does not fail. -/
theorem testPackageTransactions_ok (opts : AssemblerOptions) :
    ∀ package : List T, ∃ b, testPackageTransactions M opts package = .ok b
  | [] => ⟨true, rfl⟩
  | it :: package => by
    obtain ⟨d, hd⟩ := isDCT_ok opts.scriptPubKeyBCF (hM.vout_ne_nil it)
    obtain ⟨b, hb⟩ := testPackageTransactions_ok opts package
    simp only [testPackageTransactions]
    cases d <;> split_ifs <;> simp [hd, hb]

omit hM [DecidableEq T] in
/-- A package that passes the test, without DCTs allowed, holds no DCT. -/
theorem testPackageTransactions_noDCT {opts : AssemblerOptions} (hdct : opts.fIncludeDCTs = false) :
    ∀ {package : List T}, testPackageTransactions M opts package = .ok true →
      ∀ y ∈ package, (M.entry y).tx.isDCT opts.scriptPubKeyBCF = .ok none
  | [], _ => by simp
  | it :: package, h => by
    simp only [testPackageTransactions, hdct, Bool.not_false, ↓reduceIte] at h
    split_ifs at h
    · cases h
    · cases h
    · rcases hd : (M.entry it).tx.isDCT opts.scriptPubKeyBCF with e | d
      · simp [hd] at h
      · cases d with
        | some d => simp [hd] at h
        | none =>
          simp only [hd] at h
          intro y hy
          rcases List.mem_cons.mp hy with rfl | hy
          · exact hd
          · exact testPackageTransactions_noDCT hdct (by simpa using h) y hy

end Consistent

/-! ## The invariant -/

omit [DecidableEq T] in
/-- `TestPackage` passes exactly when the package fits both limits. -/
theorem testPackage_eq_true {opts : AssemblerOptions} {s : AssemblerState T} {packageSize packageSigOpsCost : Nat} :
    testPackage opts s packageSize packageSigOpsCost = true ↔
      s.nBlockWeight + WITNESS_SCALE_FACTOR * packageSize < opts.nBlockMaxWeight ∧
        s.nBlockSigOpsCost + packageSigOpsCost < MAX_BLOCK_SIGOPS_COST := by
  unfold testPackage
  split_ifs <;> simp <;> omega

variable (M) (opts : AssemblerOptions)

/-- What `addPackageTxs` keeps true of the block and of `mapModifiedTx`. -/
structure AssemblerInv (s : AssemblerState T) : Prop where
  nodup : s.vtx.Nodup
  closed : ∀ x ∈ s.vtx, ∀ a ∈ M.ancestors x, a ∈ s.vtx
  ordered : s.vtx.Pairwise fun a b => b ∉ M.ancestors a
  weight : s.nBlockWeight < opts.nBlockMaxWeight ∨ s.vtx = []
  sigOps : s.nBlockSigOpsCost < MAX_BLOCK_SIGOPS_COST
  weight_eq : s.nBlockWeight = 4000 + (s.vtx.map fun x => (M.entry x).nTxWeight).sum
  sigOps_eq : s.nBlockSigOpsCost = 400 + (s.vtx.map M.getSigOpCost).sum
  modified : ∀ m ∈ s.mapModifiedTx, m.iter ∉ s.vtx ∧ Covers M s.vtx.toFinset m
  noDCT : opts.fIncludeDCTs = false → ∀ x ∈ s.vtx, (M.entry x).tx.isDCT opts.scriptPubKeyBCF = .ok none

variable {M opts}

/-- The invariant reads the block, its totals and `mapModifiedTx`; a state
with the same block and totals and fewer modified entries keeps it. -/
theorem AssemblerInv.of_subset {s s' : AssemblerState T} (h : AssemblerInv M opts s) (hv : s'.vtx = s.vtx)
    (hw : s'.nBlockWeight = s.nBlockWeight) (hg : s'.nBlockSigOpsCost = s.nBlockSigOpsCost)
    (hm : ∀ m ∈ s'.mapModifiedTx, m ∈ s.mapModifiedTx) : AssemblerInv M opts s' where
  nodup := hv ▸ h.nodup
  closed := hv ▸ h.closed
  ordered := hv ▸ h.ordered
  weight := hv ▸ hw ▸ h.weight
  sigOps := hg ▸ h.sigOps
  weight_eq := hv ▸ hw ▸ h.weight_eq
  sigOps_eq := hv ▸ hg ▸ h.sigOps_eq
  modified := fun m hm' => hv ▸ h.modified m (hm m hm')
  noDCT := hv ▸ h.noDCT

theorem AssemblerInv.dropFailed {s : AssemblerState T} {iter : T} {modit : Option (CTxMemPoolModifiedEntry T)}
    (h : AssemblerInv M opts s) : AssemblerInv M opts (dropFailed s iter modit) := by
  cases modit with
  | none => exact h
  | some m => exact h.of_subset rfl rfl rfl fun _ hm' => List.mem_of_mem_erase hm'

section Consistent

variable (hM : M.Consistent)
include hM

/-- An added package keeps the invariant: it fits, it brings what its
transactions need, sorted, and no DCT when DCTs are not allowed. -/
theorem AssemblerInv.addPackage {s : AssemblerState T} {iter : T} (h : AssemblerInv M opts s)
    (hiter : iter ∉ s.vtx)
    (hweight : s.nBlockWeight + WITNESS_SCALE_FACTOR * ∑ a ∈ M.package iter \ s.vtx.toFinset, M.getTxSize a <
      opts.nBlockMaxWeight)
    (hsig : s.nBlockSigOpsCost + ∑ a ∈ M.package iter \ s.vtx.toFinset, M.getSigOpCost a < MAX_BLOCK_SIGOPS_COST)
    (htest : testPackageTransactions M opts (unconfirmedAncestors M s iter) = .ok true) :
    AssemblerInv M opts (addPackage M s (unconfirmedAncestors M s iter)) := by
  have hperm : (sortForBlock M (unconfirmedAncestors M s iter)).Perm (unconfirmedAncestors M s iter) :=
    List.mergeSort_perm _ _
  have hPV : ∀ y ∈ unconfirmedAncestors M s iter, y ∉ s.vtx := fun y hy =>
    ((mem_unconfirmedAncestors hiter).mp hy).2
  have hsum : ∀ f : T → Nat, ((sortForBlock M (unconfirmedAncestors M s iter)).map f).sum =
      ∑ a ∈ M.package iter \ s.vtx.toFinset, f a := fun f => by
    rw [(hperm.map f).sum_eq, sum_unconfirmedAncestors hM hiter]
  -- a transaction weighs at most four times its virtual size
  have hw : ∑ a ∈ M.package iter \ s.vtx.toFinset, (M.entry a).nTxWeight ≤
      WITNESS_SCALE_FACTOR * ∑ a ∈ M.package iter \ s.vtx.toFinset, M.getTxSize a := by
    rw [Finset.mul_sum]
    exact Finset.sum_le_sum fun a _ => weight_le_virtualTransactionSize _ _ _
  refine ⟨?_, ?_, ?_, ?_, ?_, ?_, ?_, ?_, ?_⟩
  · rw [addPackage_vtx]
    exact List.nodup_append.mpr ⟨h.nodup, hperm.nodup_iff.mpr (nodup_unconfirmedAncestors hM s iter),
      fun a ha b hb hab => hPV b (hperm.mem_iff.mp hb) (hab ▸ ha)⟩
  · intro x hx a ha
    rw [addPackage_vtx, List.mem_append] at hx ⊢
    rcases hx with hx | hx
    · exact .inl (h.closed x hx a ha)
    · rcases ancestors_unconfirmedAncestors hM hiter (hperm.mem_iff.mp hx) ha with ha' | ha'
      · exact .inl ha'
      · exact .inr (hperm.mem_iff.mpr ha')
  · rw [addPackage_vtx, List.pairwise_append]
    exact ⟨h.ordered, pairwise_sortForBlock hM _,
      fun a ha b hb hba => hPV b (hperm.mem_iff.mp hb) (h.closed a ha b hba)⟩
  · left
    rw [addPackage_nBlockWeight, hsum]
    omega
  · rw [addPackage_nBlockSigOpsCost, hsum]
    exact hsig
  · rw [addPackage_nBlockWeight, addPackage_vtx, List.map_append, List.sum_append, h.weight_eq]
    omega
  · rw [addPackage_nBlockSigOpsCost, addPackage_vtx, List.map_append, List.sum_append, h.sigOps_eq]
    omega
  · intro m hm
    rw [addPackage_mapModifiedTx] at hm
    have hmods : ∀ m ∈ s.mapModifiedTx.filter (fun m => m.iter ∉ sortForBlock M (unconfirmedAncestors M s iter)),
        m.iter ∉ s.vtx ∧ m.iter ∉ unconfirmedAncestors M s iter ∧ Covers M s.vtx.toFinset m := by
      intro m hm
      rw [List.mem_filter, decide_eq_true_eq, hperm.mem_iff] at hm
      exact ⟨(h.modified m hm.1).1, hm.2, (h.modified m hm.1).2⟩
    obtain ⟨hV, hP, hcov⟩ :=
      updatePackagesForAdded_covers hM (nodup_unconfirmedAncestors hM s iter) hPV h.closed hmods m hm
    have hset : (s.vtx ++ sortForBlock M (unconfirmedAncestors M s iter)).toFinset =
        (s.vtx ++ unconfirmedAncestors M s iter).toFinset := by
      ext y
      simp [hperm.mem_iff]
    rw [addPackage_vtx, hset, List.mem_append, hperm.mem_iff]
    exact ⟨fun h' => h'.elim hV hP, hcov⟩
  · intro hdct x hx
    rw [addPackage_vtx, List.mem_append] at hx
    rcases hx with hx | hx
    · exact h.noDCT hdct x hx
    · exact testPackageTransactions_noDCT hdct htest x (hperm.mem_iff.mp hx)

/-! ## One run of the loop body -/

variable (byAncestorFee : CTxMemPoolModifiedEntry T → CTxMemPoolModifiedEntry T → Bool)

omit hM [DecidableEq T] in
/-- While the loop's condition holds there is a package to turn to. -/
theorem selectPackage_ok {s : AssemblerState T} (hc : addPackageCond s = true) :
    ∃ p, selectPackage M byAncestorFee s = .ok p := by
  unfold selectPackage
  split
  · exact ⟨_, rfl⟩
  · next hmi hbest =>
    rw [bestModified_eq_none] at hbest
    simp [addPackageCond, hmi, hbest] at hc
  · split <;> exact ⟨_, rfl⟩
  · exact ⟨_, rfl⟩

/-- The figures the package is tested with cover what it adds. -/
theorem packageFigures_covers {s : AssemblerState T} (h : AssemblerInv M opts s) {iter : T}
    {modit : Option (CTxMemPoolModifiedEntry T)} {mi : List T}
    (hsel : selectPackage M byAncestorFee s = .ok (iter, modit, mi)) :
    ∑ a ∈ M.package iter \ s.vtx.toFinset, M.getTxSize a ≤ (packageFigures M iter modit).1 ∧
      ∑ a ∈ M.package iter \ s.vtx.toFinset, M.getSigOpCost a ≤ (packageFigures M iter modit).2.2 := by
  rcases selectPackage_spec M byAncestorFee hsel with ⟨m, rfl, hm, rfl, -⟩ | ⟨rfl, -⟩
  · exact (h.modified m hm).2
  · -- the cached figures count the whole package
    simp only [packageFigures]
    rw [CTxMemPool.nSizeWithAncestors_eq_sum hM, CTxMemPool.nSigOpCostWithAncestors_eq_sum hM]
    exact ⟨Finset.sum_le_sum_of_subset Finset.sdiff_subset, Finset.sum_le_sum_of_subset Finset.sdiff_subset⟩

theorem tryPackage_inv {s : AssemblerState T} (h : AssemblerInv M opts s) {iter : T}
    {modit : Option (CTxMemPoolModifiedEntry T)} (hiter : iter ∉ s.vtx)
    (hcov : ∑ a ∈ M.package iter \ s.vtx.toFinset, M.getTxSize a ≤ (packageFigures M iter modit).1 ∧
      ∑ a ∈ M.package iter \ s.vtx.toFinset, M.getSigOpCost a ≤ (packageFigures M iter modit).2.2) :
    ∃ r, tryPackage M opts s iter modit = .ok r ∧ AssemblerInv M opts r.state := by
  obtain ⟨b, hb⟩ := testPackageTransactions_ok hM opts (unconfirmedAncestors M s iter)
  simp only [tryPackage]
  split_ifs with hfee htest
  · exact ⟨_, rfl, h⟩
  · exact ⟨_, rfl, h.dropFailed.of_subset rfl rfl rfl fun _ hm => hm⟩
  · exact ⟨_, rfl, h.dropFailed.of_subset rfl rfl rfl fun _ hm => hm⟩
  · rw [hb]
    cases b with
    | false => exact ⟨_, rfl, h.dropFailed⟩
    | true =>
      simp only [Bool.not_eq_true', Bool.not_eq_false, testPackage_eq_true] at htest
      refine ⟨_, rfl, h.addPackage hM hiter ?_ ?_ hb⟩
      · have := Nat.mul_le_mul_left WITNESS_SCALE_FACTOR hcov.1
        omega
      · have := hcov.2
        omega

/-- The body once `mi`'s entry is not stale: the entry at `mi`, if the
package comes from there, is not in the block. -/
theorem considerPackage_inv {s : AssemblerState T} (h : AssemblerInv M opts s) (hc : addPackageCond s = true)
    (hfresh : ∀ x mi', s.mi = x :: mi' → x ∉ s.vtx) :
    ∃ r, considerPackage M opts byAncestorFee s = .ok r ∧ AssemblerInv M opts r.state := by
  obtain ⟨⟨iter, modit, mi⟩, hsel⟩ := selectPackage_ok byAncestorFee hc
  have hiter : iter ∉ s.vtx := by
    rcases selectPackage_spec M byAncestorFee hsel with ⟨m, -, hm, rfl, -⟩ | ⟨-, hmi⟩
    · exact (h.modified m hm).1
    · exact hfresh _ _ hmi
  unfold considerPackage
  rw [hsel]
  simp only [hiter, ↓reduceIte]
  exact tryPackage_inv (s := { s with mi := mi }) hM (h.of_subset rfl rfl rfl fun _ hm => hm) hiter
    (packageFigures_covers hM byAncestorFee h hsel)

/-- One run of the loop body from a state with the invariant does not fail
and keeps the invariant. -/
theorem addPackageStep_inv {s : AssemblerState T} (h : AssemblerInv M opts s) (hc : addPackageCond s = true) :
    ∃ r, addPackageStep M opts byAncestorFee s = .ok r ∧ AssemblerInv M opts r.state := by
  unfold addPackageStep
  split
  · next it mi' hmi =>
    split
    · exact ⟨_, rfl, h.of_subset rfl rfl rfl fun _ hm => hm⟩
    · next hskip =>
      refine considerPackage_inv hM byAncestorFee h hc fun x mi'' hx => ?_
      rw [hmi, List.cons.injEq] at hx
      obtain ⟨rfl, -⟩ := hx
      simp only [skipMapTxEntry, Bool.or_eq_true, decide_eq_true_eq, not_or] at hskip
      exact hskip.1.2
  · next hmi =>
    exact considerPackage_inv hM byAncestorFee h hc fun x mi' hx => by simp [hmi] at hx

/-- The whole loop, from a state with the invariant, ends without failing
and with the invariant. -/
theorem addPackageTxs_inv [Fintype T] (s : AssemblerState T)
    (h : AssemblerInv M opts { s with
      mapModifiedTx := (updatePackagesForAdded M s.vtx []).1
      failedTx := []
      mi := M.mapTx
      nConsecutiveFailed := 0 }) :
    ∃ s', addPackageTxs M opts byAncestorFee s = .ok s' ∧ AssemblerInv M opts s' :=
  loopWhile_inv _ _ _ _ (AssemblerInv M opts) (fun _ hs hc => addPackageStep_inv hM byAncestorFee hs hc) _ h

end Consistent

/-! ## The template from a fresh block -/

/-- `resetBlock` with the loop's start: no modified entries, none failed. -/
theorem assemblerInv_resetBlock (opts : AssemblerOptions) :
    AssemblerInv M opts { (resetBlock : AssemblerState T) with
      mapModifiedTx := (updatePackagesForAdded M (resetBlock : AssemblerState T).vtx []).1
      failedTx := []
      mi := M.mapTx
      nConsecutiveFailed := 0 } where
  nodup := List.nodup_nil
  closed := by simp [resetBlock]
  ordered := List.Pairwise.nil
  weight := .inr rfl
  sigOps := by simp [resetBlock, MAX_BLOCK_SIGOPS_COST]
  weight_eq := rfl
  sigOps_eq := rfl
  modified := by simp [resetBlock, updatePackagesForAdded]
  noDCT := by simp [resetBlock]

omit [DecidableEq T] in
theorem containsDCT_eq_false {bcf : Ring.Script.CScript} :
    ∀ {txs : List CTransaction}, (∀ tx ∈ txs, tx.isDCT bcf = .ok none) → containsDCT bcf txs = .ok false
  | [], _ => rfl
  | tx :: txs, h => by
    simp only [containsDCT, h tx List.mem_cons_self, containsDCT_eq_false fun t ht => h t (List.mem_cons_of_mem tx ht)]
    rfl

/-- What a block template made by `addPackageTxs` satisfies: each transaction
once, every in-mempool parent before its child, the totals below their limits,
and, without DCTs allowed, no DCT and no descendant of one, so that
`CheckHiveProof` and `CheckPopProof` find none. -/
structure ValidTemplate (M : CTxMemPool T) (opts : AssemblerOptions) (s : AssemblerState T) : Prop where
  nodup : s.vtx.Nodup
  parents_first : ∀ x ∈ s.vtx, ∀ p ∈ M.parents x, ∃ pre post, s.vtx = pre ++ x :: post ∧ p ∈ pre
  weight_eq : s.nBlockWeight = 4000 + (s.vtx.map fun x => (M.entry x).nTxWeight).sum
  weight_lt : s.vtx ≠ [] → s.nBlockWeight < opts.nBlockMaxWeight
  sigOps_eq : s.nBlockSigOpsCost = 400 + (s.vtx.map M.getSigOpCost).sum
  sigOps_lt : s.nBlockSigOpsCost < MAX_BLOCK_SIGOPS_COST
  noDCT : opts.fIncludeDCTs = false →
    ∀ x ∈ s.vtx, ∀ a ∈ x :: M.ancestors x, (M.entry a).tx.isDCT opts.scriptPubKeyBCF = .ok none
  containsDCT : opts.fIncludeDCTs = false →
    containsDCT opts.scriptPubKeyBCF (s.vtx.map fun x => (M.entry x).tx) = .ok false

section Consistent

variable (hM : M.Consistent)
include hM

/-- A block closed under ancestors and ordered by them has each parent
before its child. -/
theorem AssemblerInv.parents_first {opts : AssemblerOptions} {s : AssemblerState T} (h : AssemblerInv M opts s)
    {x p : T} (hx : x ∈ s.vtx) (hp : p ∈ M.parents x) :
    ∃ pre post, s.vtx = pre ++ x :: post ∧ p ∈ pre := by
  obtain ⟨pre, post, hsplit⟩ := List.append_of_mem hx
  refine ⟨pre, post, hsplit, ?_⟩
  have hanc : p ∈ M.ancestors x := hM.parents_subset x p hp
  have hpv := h.closed x hx p hanc
  have hord := h.ordered
  rw [hsplit] at hpv hord
  rw [List.pairwise_append, List.pairwise_cons] at hord
  rcases List.mem_append.mp hpv with hpre | hpost
  · exact hpre
  · rcases List.mem_cons.mp hpost with rfl | hpost
    · exact absurd hanc (hM.not_mem_ancestors p)
    · exact absurd hanc (hord.2.1.1 p hpost)

theorem AssemblerInv.validTemplate {opts : AssemblerOptions} {s : AssemblerState T} (h : AssemblerInv M opts s) :
    ValidTemplate M opts s where
  nodup := h.nodup
  parents_first := fun _ hx _ hp => h.parents_first hM hx hp
  weight_eq := h.weight_eq
  weight_lt := fun hne => h.weight.resolve_right hne
  sigOps_eq := h.sigOps_eq
  sigOps_lt := h.sigOps
  noDCT := fun hdct x hx a ha => by
    rcases List.mem_cons.mp ha with rfl | ha
    · exact h.noDCT hdct a hx
    · exact h.noDCT hdct a (h.closed x hx a ha)
  containsDCT := fun hdct => containsDCT_eq_false fun tx htx => by
    obtain ⟨x, hx, rfl⟩ := List.mem_map.mp htx
    exact h.noDCT hdct x hx

theorem addPackageTxs_valid [Fintype T] (opts : AssemblerOptions)
    (byAncestorFee : CTxMemPoolModifiedEntry T → CTxMemPoolModifiedEntry T → Bool) :
    ∃ s, addPackageTxs M opts byAncestorFee resetBlock = .ok s ∧ ValidTemplate M opts s := by
  obtain ⟨s, hrun, hs⟩ := addPackageTxs_inv hM byAncestorFee resetBlock (assemblerInv_resetBlock opts)
  exact ⟨s, hrun, hs.validTemplate hM⟩

end Consistent

/-- A parent and its child, each with one output and weight 400. -/
def parentChildPool : CTxMemPool (Fin 2) where
  mapTx := [1, 0]
  entry := fun i =>
    { tx := { nVersion := 1, vin := [], vout := [⟨0, []⟩], nLockTime := 0 }
      nFee := 1000, feeDelta := 0, nTxWeight := 400, sigOpCost := 1
      nCountWithAncestors := i.val + 1
      nSizeWithAncestors := 100 * (i.val + 1)
      nModFeesWithAncestors := 1000 * (i.val + 1)
      nSigOpCostWithAncestors := i.val + 1 }
  parents := fun i => if i = 1 then [0] else []
  ancestors := fun i => if i = 1 then [0] else []
  descendants := fun i => if i = 0 then [0, 1] else [1]
  getHash := fun _ => default
  nBytesPerSigOp := 20

/-- A hive template: DCTs not allowed. -/
def hiveTemplateOptions : AssemblerOptions :=
  ⟨3992000, 1000, true, false, 1, 0, []⟩

theorem addPackageTxs_valid_parentChild :
    ∃ s, addPackageTxs parentChildPool hiveTemplateOptions (fun _ _ => false) resetBlock = .ok s ∧
      ValidTemplate parentChildPool hiveTemplateOptions s :=
  addPackageTxs_valid ⟨by decide, by decide, by decide, by decide, by decide, by decide, by decide, by decide,
    by decide, by decide⟩ hiveTemplateOptions (fun _ _ => false)

end Ring.Node
