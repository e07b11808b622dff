import Mathlib
import Ring.Chain.Merkle
import Ring.Lib.Bytes
import Ring.Node.TxVerify

/-!
# Partial merkle trees (`CPartialMerkleTree`, src/merkleblock.cpp)

A partial merkle tree proves which transactions of a block match a filter.
`TraverseAndBuild` walks the tree depth first and stores, for each node it
visits, a flag bit (is a matched transaction below?) and, where it stops (a
leaf, or no match below), the node's hash. `TraverseAndExtract` walks the
same way over the stored bits and hashes, with a cursor into each, recomputes
the root and collects the matched transactions and their positions.
`ExtractMatches` checks the sizes first and that both cursors end at the end.

The pair hash is a parameter `H`, as in `ComputeMerkleRoot`; `CalcHash` is
the recursive root of a subtree, the missing right child of a node on an odd
width standing for a copy of the left one.

Results:
* `computeMerkleRoot_calcHash`: the recursive `CalcHash` of the whole tree is
  the root `ComputeMerkleRoot` computes level by level.
* `traverseAndExtract_build`: over the bits and hashes `TraverseAndBuild`
  stored for a subtree, `TraverseAndExtract` returns the subtree's hash, the
  matches below it in order, and moves each cursor past them.
* `extractMatches_partialMerkleTree`: `ExtractMatches` on a tree built from a
  block's transactions returns their merkle root and exactly the matched
  transactions with their positions, in increasing order.
-/
namespace Ring.Node

open Ring.Chain

/-- `MIN_TRANSACTION_WEIGHT`: the weight of the smallest valid transaction. -/
def MIN_TRANSACTION_WEIGHT : Nat := WITNESS_SCALE_FACTOR * 60

/-- `CPartialMerkleTree::CalcTreeWidth(height)`: the number of nodes at
`height` over `nTransactions` leaves. -/
def calcTreeWidth (nTransactions height : Nat) : Nat := (nTransactions + (1 <<< height) - 1) >>> height

/-- The loop `while (CalcTreeWidth(nHeight) > 1) nHeight++` from `nHeight`, for
at most `fuel` rounds; `nTransactions` rounds are enough. -/
def treeHeightLoop (nTransactions : Nat) : Nat → Nat → Nat
  | 0, nHeight => nHeight
  | fuel + 1, nHeight =>
    if calcTreeWidth nTransactions nHeight > 1 then treeHeightLoop nTransactions fuel (nHeight + 1)
    else nHeight

/-- The height of the tree over `nTransactions` leaves, as the constructor and
`ExtractMatches` compute it. -/
def treeHeight (nTransactions : Nat) : Nat := treeHeightLoop nTransactions nTransactions 0

section PartialMerkleTree

variable {α : Type} [DecidableEq α] [Inhabited α] (H : α → α → α)

/-- `CPartialMerkleTree`: the number of transactions, the flag bits, the
hashes, and `fBad`. -/
structure CPartialMerkleTree (α : Type) where
  nTransactions : Nat
  vBits : List Bool
  vHash : List α
  fBad : Bool

/-- `CPartialMerkleTree::CalcHash(height, pos, vTxid)`; the traversals call it
on nodes that exist only, so `vTxid[pos]` is in range.
mirrors src/merkleblock.cpp:40-58 -/
def calcHash (vTxid : List α) : Nat → Nat → α
  | 0, pos => vTxid.getD pos default
  | height + 1, pos =>
    let left := calcHash vTxid height (pos * 2)
    let right :=
      if pos * 2 + 1 < calcTreeWidth vTxid.length height then calcHash vTxid height (pos * 2 + 1) else left
    H left right

/-- The leaves below the node at `height`, `pos`: from `pos << height` on,
below `(pos + 1) << height` and `nTransactions`. -/
def leavesBelow (nTransactions height pos : Nat) : List Nat :=
  List.range' (pos <<< height) (min ((pos + 1) <<< height) nTransactions - pos <<< height)

/-- The loop of `TraverseAndBuild` over the leaves below a node:
`fParentOfMatch |= vMatch[p]`. -/
def parentOfMatch (nTransactions : Nat) (vMatch : List Bool) (height pos : Nat) : Bool :=
  (leavesBelow nTransactions height pos).any (vMatch.getD · false)

/-- `CPartialMerkleTree::TraverseAndBuild(height, pos, vTxid, vMatch)`: the flag
bits and the hashes it appends.
mirrors src/merkleblock.cpp:60-76 -/
def traverseAndBuild (vTxid : List α) (vMatch : List Bool) : Nat → Nat → List Bool × List α
  | 0, pos =>
    let fParentOfMatch := parentOfMatch vTxid.length vMatch 0 pos
    ([fParentOfMatch], [calcHash H vTxid 0 pos])
  | height + 1, pos =>
    let fParentOfMatch := parentOfMatch vTxid.length vMatch (height + 1) pos
    if !fParentOfMatch then ([fParentOfMatch], [calcHash H vTxid (height + 1) pos])
    else
      let (bitsLeft, hashesLeft) := traverseAndBuild vTxid vMatch height (pos * 2)
      let (bitsRight, hashesRight) :=
        if pos * 2 + 1 < calcTreeWidth vTxid.length height then traverseAndBuild vTxid vMatch height (pos * 2 + 1)
        else ([], [])
      (fParentOfMatch :: (bitsLeft ++ bitsRight), hashesLeft ++ hashesRight)

/-- `CPartialMerkleTree(vTxid, vMatch)`.
mirrors src/merkleblock.cpp:116-128 -/
def CPartialMerkleTree.ofMatches (vTxid : List α) (vMatch : List Bool) : CPartialMerkleTree α :=
  let (vBits, vHash) := traverseAndBuild H vTxid vMatch (treeHeight vTxid.length) 0
  ⟨vTxid.length, vBits, vHash, false⟩

/-- The tree `txn` of `CMerkleBlock(block, txids)`: over the hashes of the
block's transactions, those in `txids` matched.
mirrors src/merkleblock.cpp:13-38 -/
def CMerkleBlock.txnOf (vHashes txids : List α) : CPartialMerkleTree α :=
  CPartialMerkleTree.ofMatches H vHashes (vHashes.map fun hash => decide (hash ∈ txids))

/-- What `TraverseAndExtract` reads and writes besides the tree: the two
cursors, the matches and their positions, and `fBad`. -/
structure ExtractState (α : Type) where
  nBitsUsed : Nat
  nHashUsed : Nat
  vMatch : List α
  vnIndex : List Nat
  fBad : Bool

/-- `CPartialMerkleTree::TraverseAndExtract(height, pos, nBitsUsed, nHashUsed,
vMatch, vnIndex)`: the hash it returns, and the state it leaves. A failure
returns `uint256()` with `fBad` set, and the caller goes on.
mirrors src/merkleblock.cpp:78-114 -/
def traverseAndExtract (t : CPartialMerkleTree α) : Nat → Nat → ExtractState α → α × ExtractState α
  | height, pos, st =>
    if st.nBitsUsed ≥ t.vBits.length then (default, { st with fBad := true })
    else
      let fParentOfMatch := t.vBits.getD st.nBitsUsed false
      let st := { st with nBitsUsed := st.nBitsUsed + 1 }
      match height with
      | height + 1 =>
        if fParentOfMatch then
          let (left, st) := traverseAndExtract t height (pos * 2) st
          if pos * 2 + 1 < calcTreeWidth t.nTransactions height then
            let (right, st) := traverseAndExtract t height (pos * 2 + 1) st
            -- the two branches must differ, their transactions being distinct
            let st := if right = left then { st with fBad := true } else st
            (H left right, st)
          else (H left left, st)
        else
          if st.nHashUsed ≥ t.vHash.length then (default, { st with fBad := true })
          else (t.vHash.getD st.nHashUsed default, { st with nHashUsed := st.nHashUsed + 1 })
      | 0 =>
        if st.nHashUsed ≥ t.vHash.length then (default, { st with fBad := true })
        else
          let hash := t.vHash.getD st.nHashUsed default
          let st := { st with nHashUsed := st.nHashUsed + 1 }
          -- a leaf with its flag set is a matched transaction
          if fParentOfMatch then (hash, { st with vMatch := st.vMatch ++ [hash], vnIndex := st.vnIndex ++ [pos] })
          else (hash, st)

/-- `CPartialMerkleTree::ExtractMatches(vMatch, vnIndex)`: the root, or
`uint256()` on a failure, with `vMatch` (cleared first) and `vnIndex` (not
cleared) as the traversal left them. The `fBad` the traversal leaves on the
tree is not returned.
mirrors src/merkleblock.cpp:132-163 -/
def extractMatches (t : CPartialMerkleTree α) (vnIndex : List Nat) : α × List α × List Nat :=
  if t.nTransactions = 0 then (default, [], vnIndex)
  else if t.nTransactions > MAX_BLOCK_WEIGHT / MIN_TRANSACTION_WEIGHT then (default, [], vnIndex)
  else if t.vHash.length > t.nTransactions then (default, [], vnIndex)
  else if t.vBits.length < t.vHash.length then (default, [], vnIndex)
  else
    let (hashMerkleRoot, st) :=
      traverseAndExtract H t (treeHeight t.nTransactions) 0 ⟨0, 0, [], vnIndex, t.fBad⟩
    if st.fBad then (default, st.vMatch, st.vnIndex)
    -- all bits but the padding of the byte they are sent in, and all hashes, used
    else if (st.nBitsUsed + 7) / 8 ≠ (t.vBits.length + 7) / 8 then (default, st.vMatch, st.vnIndex)
    else if st.nHashUsed ≠ t.vHash.length then (default, st.vMatch, st.vnIndex)
    else (hashMerkleRoot, st.vMatch, st.vnIndex)

end PartialMerkleTree

/-! ## Widths and the height -/

theorem calcTreeWidth_eq (n h : Nat) : calcTreeWidth n h = (n + 2 ^ h - 1) / 2 ^ h := by
  rw [calcTreeWidth, Nat.shiftLeft_eq, Nat.one_mul, Nat.shiftRight_eq_div_pow]

theorem calcTreeWidth_zero (n : Nat) : calcTreeWidth n 0 = n := by
  simp [calcTreeWidth_eq]

/-- A node exists at `pos` exactly when its first leaf does. -/
theorem lt_calcTreeWidth_iff {n h pos : Nat} : pos < calcTreeWidth n h ↔ pos * 2 ^ h < n := by
  rw [calcTreeWidth_eq, Nat.lt_div_iff_mul_lt (Nat.two_pow_pos h)]
  have := Nat.two_pow_pos h
  omega

/-- Each level is half the one below, rounded up. -/
theorem calcTreeWidth_succ (n h : Nat) : calcTreeWidth n (h + 1) = (calcTreeWidth n h + 1) / 2 := by
  have hpos := Nat.two_pow_pos h
  rw [calcTreeWidth_eq, calcTreeWidth_eq, ← Nat.add_div_right _ hpos, Nat.div_div_eq_div_mul,
    ← Nat.pow_succ]
  congr 1
  rw [Nat.pow_succ]
  omega

theorem one_le_calcTreeWidth {n : Nat} (hn : 0 < n) (h : Nat) : 1 ≤ calcTreeWidth n h := by
  have := (@lt_calcTreeWidth_iff n h 0).mpr (by simpa using hn)
  omega

theorem calcTreeWidth_le_one {n h : Nat} (hn : n ≤ 2 ^ h) : calcTreeWidth n h ≤ 1 := by
  have := (@lt_calcTreeWidth_iff n h 1).not.mpr (by omega)
  omega

/-- The height loop stops at the first level of width one. -/
theorem treeHeightLoop_spec (n : Nat) :
    ∀ fuel h, (∀ k < h, 1 < calcTreeWidth n k) → calcTreeWidth n (h + fuel) ≤ 1 →
      (∀ k < treeHeightLoop n fuel h, 1 < calcTreeWidth n k) ∧ calcTreeWidth n (treeHeightLoop n fuel h) ≤ 1 := by
  intro fuel
  induction fuel with
  | zero => intro h hbelow htop; exact ⟨hbelow, htop⟩
  | succ fuel ih =>
    intro h hbelow htop
    rw [treeHeightLoop]
    split_ifs with hwide
    · apply ih (h + 1)
      · intro k hk
        rcases Nat.lt_succ_iff_lt_or_eq.mp hk with hk | rfl
        · exact hbelow k hk
        · exact hwide
      · rwa [Nat.add_right_comm, Nat.add_assoc]
    · exact ⟨hbelow, by omega⟩

theorem treeHeight_spec {n : Nat} (hn : 0 < n) :
    (∀ k < treeHeight n, 1 < calcTreeWidth n k) ∧ calcTreeWidth n (treeHeight n) = 1 := by
  have hfuel : calcTreeWidth n (0 + n) ≤ 1 := calcTreeWidth_le_one (by rw [Nat.zero_add]; exact Nat.lt_two_pow_self.le)
  obtain ⟨hbelow, htop⟩ := treeHeightLoop_spec n n 0 (fun _ h => absurd h (Nat.not_lt_zero _)) hfuel
  exact ⟨hbelow, le_antisymm htop (one_le_calcTreeWidth hn _)⟩

/-- The leaves fit under the top of the tree. -/
theorem le_two_pow_treeHeight {n : Nat} (hn : 0 < n) : n ≤ 2 ^ treeHeight n := by
  have htop := (treeHeight_spec hn).2
  have := (@lt_calcTreeWidth_iff n (treeHeight n) 1).not.mp (by omega)
  omega


/-! ## `CalcHash` and `ComputeMerkleRoot` -/

section Levels

variable {α : Type} [DecidableEq α] [Inhabited α] (H : α → α → α)

omit [DecidableEq α] in
theorem padLevel_cons_cons (a b : α) (l : List α) : padLevel (a :: b :: l) = a :: b :: padLevel l := by
  unfold padLevel
  rcases List.eq_nil_or_concat' l with rfl | ⟨l', z, rfl⟩
  · simp
  · rw [show a :: b :: (l' ++ [z]) = (a :: b :: l') ++ [z] from rfl, List.getLast?_concat, List.getLast?_concat]
    simp only [List.length_append, List.length_cons]
    split_ifs <;> first | omega | simp

omit [DecidableEq α] in
/-- A round of `ComputeMerkleRoot` on a level given by its values `f` from
`s` on: node `i` of the next level hashes `f (s + i * 2)` with the value after
it, or with itself past the end. -/
theorem hashPairs_padLevel_range' :
    ∀ (w s : Nat) (f : Nat → α), hashPairs H (padLevel ((List.range' s w).map f)) =
      (List.range' 0 ((w + 1) / 2)).map fun i =>
        H (f (s + i * 2)) (if i * 2 + 1 < w then f (s + i * 2 + 1) else f (s + i * 2))
  | 0, s, f => by simp [padLevel, hashPairs]
  | 1, s, f => by simp [padLevel, hashPairs]
  | w + 2, s, f => by
    rw [show (w + 2 + 1) / 2 = (w + 1) / 2 + 1 by omega, @List.range'_succ 0 ((w + 1) / 2) 1,
      show List.range' (0 + 1) ((w + 1) / 2) = (List.range' 0 ((w + 1) / 2)).map (1 + ·) from
        (List.map_add_range' 0 _ 1).symm, List.map_cons, List.map_map]
    simp only [List.range'_succ, List.map_cons, padLevel_cons_cons, hashPairs]
    rw [hashPairs_padLevel_range' w (s + 1 + 1) f]
    simp only [Nat.zero_mul, Nat.add_zero, Nat.zero_add, show 1 < w + 2 by omega, if_true]
    congr 1
    apply List.map_congr_left
    intro i _
    simp only [Function.comp_apply]
    rw [show s + 1 + 1 + i * 2 = s + (1 + i) * 2 by omega, show s + (1 + i) * 2 + 1 = s + 1 + 1 + i * 2 + 1 by omega]
    simp only [show (1 + i) * 2 + 1 < w + 2 ↔ i * 2 + 1 < w by omega]

/-- The nodes at `height`, left to right. -/
def level (vTxid : List α) (height : Nat) : List α :=
  (List.range (calcTreeWidth vTxid.length height)).map (calcHash H vTxid height)

omit [DecidableEq α] in
theorem level_zero (vTxid : List α) : level H vTxid 0 = vTxid := by
  apply List.ext_getElem
  · simp [level, calcTreeWidth_zero]
  · intro i h1 h2
    simp [level, calcHash, h2]

omit [DecidableEq α] in
/-- Each level is a round of `ComputeMerkleRoot` on the one below. -/
theorem level_succ (vTxid : List α) (height : Nat) :
    level H vTxid (height + 1) = hashPairs H (padLevel (level H vTxid height)) := by
  simp only [level, List.range_eq_range']
  rw [hashPairs_padLevel_range', calcTreeWidth_succ]
  congr 1
  funext i
  simp [calcHash]

/-- `ComputeMerkleRoot` from a level on ends at the node at the top. -/
theorem computeMerkleRoot_level {vTxid : List α} (hne : vTxid ≠ []) :
    ∀ d k, k + d = treeHeight vTxid.length →
      (computeMerkleRoot H (level H vTxid k)).1 = calcHash H vTxid (treeHeight vTxid.length) 0 := by
  have hn : 0 < vTxid.length := List.length_pos_of_ne_nil hne
  intro d
  induction d with
  | zero =>
    intro k hk
    rw [Nat.add_zero] at hk
    subst hk
    rw [level, (treeHeight_spec hn).2, List.range_one, List.map_singleton, computeMerkleRoot_single]
  | succ d ih =>
    intro k hk
    have hwide : 1 < (level H vTxid k).length := by
      simpa [level] using (treeHeight_spec hn).1 k (by omega)
    rw [computeMerkleRoot_eq H hwide, ← level_succ]
    exact ih (k + 1) (by omega)

/-- The recursive `CalcHash` of the whole tree is the root `ComputeMerkleRoot`
computes level by level. -/
theorem computeMerkleRoot_calcHash {vTxid : List α} (hne : vTxid ≠ []) :
    (computeMerkleRoot H vTxid).1 = calcHash H vTxid (treeHeight vTxid.length) 0 := by
  have := computeMerkleRoot_level H hne (treeHeight vTxid.length) 0 (by omega)
  rwa [level_zero] at this

end Levels


/-! ## The leaves below a node -/

/-- The matched leaves below a node, left to right. -/
def matchesBelow (nTransactions : Nat) (vMatch : List Bool) (height pos : Nat) : List Nat :=
  (leavesBelow nTransactions height pos).filter (vMatch.getD · false)

theorem length_leavesBelow (n h pos : Nat) :
    (leavesBelow n h pos).length = min ((pos + 1) * 2 ^ h) n - pos * 2 ^ h := by
  simp [leavesBelow, Nat.shiftLeft_eq]

/-- A node has leaves below it exactly when it exists. -/
theorem leavesBelow_ne_nil_iff {n h pos : Nat} : leavesBelow n h pos ≠ [] ↔ pos < calcTreeWidth n h := by
  rw [lt_calcTreeWidth_iff, Ne, ← List.length_eq_zero_iff, length_leavesBelow, Nat.add_mul, Nat.one_mul]
  have := Nat.two_pow_pos h
  omega

theorem leavesBelow_zero {n pos : Nat} (hpos : pos < n) : leavesBelow n 0 pos = [pos] := by
  simp [leavesBelow, show min (pos + 1) n - pos = 1 by omega]

/-- The leaves below a node are those below its left child, then those below
its right one. -/
theorem leavesBelow_succ (n h pos : Nat) :
    leavesBelow n (h + 1) pos = leavesBelow n h (pos * 2) ++ leavesBelow n h (pos * 2 + 1) := by
  simp only [leavesBelow, Nat.shiftLeft_eq]
  have hu : pos * 2 ^ (h + 1) = pos * 2 * 2 ^ h := by rw [Nat.pow_succ]; ring
  have hv : (pos * 2 + 1) * 2 ^ h = pos * 2 * 2 ^ h + 2 ^ h := by ring
  have hw : (pos + 1) * 2 ^ (h + 1) = pos * 2 * 2 ^ h + 2 ^ h + 2 ^ h := by rw [Nat.pow_succ]; ring
  rw [hu, hv, hw, show (pos * 2 + 1 + 1) * 2 ^ h = pos * 2 * 2 ^ h + 2 ^ h + 2 ^ h by ring]
  -- the left child's leaves start at `u`, the right child's at `u + v`
  generalize pos * 2 * 2 ^ h = u
  generalize 2 ^ h = v
  by_cases hn : n ≤ u + v
  · rw [show min (u + v + v) n - (u + v) = 0 by omega, List.range'_zero, List.append_nil]
    congr 1
    omega
  · have hsplit := @List.range'_append u v (min (u + v + v) n - (u + v)) 1
    rw [Nat.one_mul] at hsplit
    rw [show min (u + v) n - u = v by omega, hsplit]
    congr 1
    omega

theorem matchesBelow_succ (n : Nat) (vMatch : List Bool) (h pos : Nat) :
    matchesBelow n vMatch (h + 1) pos = matchesBelow n vMatch h (pos * 2) ++ matchesBelow n vMatch h (pos * 2 + 1) := by
  simp only [matchesBelow, leavesBelow_succ, List.filter_append]

theorem matchesBelow_of_not_lt {n h pos : Nat} (vMatch : List Bool) (hpos : ¬ pos < calcTreeWidth n h) :
    matchesBelow n vMatch h pos = [] := by
  rw [matchesBelow, not_not.mp (leavesBelow_ne_nil_iff.not.mpr hpos), List.filter_nil]

/-- A node's flag bit is clear exactly when no leaf below it is matched. -/
theorem parentOfMatch_eq_false_iff {n : Nat} {vMatch : List Bool} {h pos : Nat} :
    parentOfMatch n vMatch h pos = false ↔ matchesBelow n vMatch h pos = [] := by
  simp [parentOfMatch, matchesBelow, List.filter_eq_nil_iff]

/-- A leaf is matched exactly when its flag bit is set. -/
theorem matchesBelow_zero {n pos : Nat} (vMatch : List Bool) (hpos : pos < n) :
    matchesBelow n vMatch 0 pos = if parentOfMatch n vMatch 0 pos then [pos] else [] := by
  simp only [matchesBelow, parentOfMatch, leavesBelow_zero hpos, List.filter_cons, List.filter_nil,
    List.any_cons, List.any_nil, Bool.or_false]

/-- Below the top of the tree lie all the leaves. -/
theorem matchesBelow_treeHeight {n : Nat} (hn : 0 < n) (vMatch : List Bool) :
    matchesBelow n vMatch (treeHeight n) 0 = (List.range n).filter (vMatch.getD · false) := by
  rw [matchesBelow, leavesBelow, Nat.zero_shiftLeft, Nat.zero_add, Nat.shiftLeft_eq, Nat.one_mul,
    Nat.min_eq_right (le_two_pow_treeHeight hn), Nat.sub_zero, List.range_eq_range']


/-- The left child of a node exists. -/
theorem left_lt_calcTreeWidth {n h pos : Nat} (hpos : pos < calcTreeWidth n (h + 1)) :
    pos * 2 < calcTreeWidth n h := by
  rw [lt_calcTreeWidth_iff] at hpos ⊢
  have : pos * 2 * 2 ^ h = pos * 2 ^ (h + 1) := by rw [Nat.pow_succ]; ring
  omega

/-! ## `TraverseAndExtract` reads what `TraverseAndBuild` wrote -/

section Traversals

variable {α : Type} [DecidableEq α] [Inhabited α] (H : α → α → α)

omit [DecidableEq α] in
/-- `TraverseAndBuild` at a leaf: its flag and its hash. -/
theorem traverseAndBuild_zero (vTxid : List α) (vMatch : List Bool) (pos : Nat) :
    traverseAndBuild H vTxid vMatch 0 pos = ([parentOfMatch vTxid.length vMatch 0 pos], [calcHash H vTxid 0 pos]) :=
  rfl

omit [DecidableEq α] in
/-- `TraverseAndBuild` at an inner node: with no match below, the flag and the
node's hash; otherwise the flag, then the left subtree, then the right one
where it exists. The lemmas below unfold the traversal through this one. -/
theorem traverseAndBuild_succ (vTxid : List α) (vMatch : List Bool) (height pos : Nat) :
    traverseAndBuild H vTxid vMatch (height + 1) pos =
      if parentOfMatch vTxid.length vMatch (height + 1) pos then
        (true :: ((traverseAndBuild H vTxid vMatch height (pos * 2)).1 ++
            if pos * 2 + 1 < calcTreeWidth vTxid.length height then (traverseAndBuild H vTxid vMatch height (pos * 2 + 1)).1
            else []),
          (traverseAndBuild H vTxid vMatch height (pos * 2)).2 ++
            if pos * 2 + 1 < calcTreeWidth vTxid.length height then (traverseAndBuild H vTxid vMatch height (pos * 2 + 1)).2
            else [])
      else ([false], [calcHash H vTxid (height + 1) pos]) := by
  rw [traverseAndBuild]
  cases parentOfMatch vTxid.length vMatch (height + 1) pos with
  | false => rfl
  | true =>
    simp only [Bool.not_true, Bool.false_eq_true, ↓reduceIte]
    split_ifs <;> rfl

omit [DecidableEq α] in
/-- `TraverseAndBuild` stores a flag bit with each hash. -/
theorem length_hashes_le_bits (vTxid : List α) (vMatch : List Bool) :
    ∀ height pos,
      (traverseAndBuild H vTxid vMatch height pos).2.length ≤ (traverseAndBuild H vTxid vMatch height pos).1.length
  | 0, pos => by simp [traverseAndBuild_zero]
  | height + 1, pos => by
    have hl := length_hashes_le_bits vTxid vMatch height (pos * 2)
    have hr := length_hashes_le_bits vTxid vMatch height (pos * 2 + 1)
    rw [traverseAndBuild_succ]
    split_ifs <;> simp <;> omega

omit [DecidableEq α] in
/-- `TraverseAndBuild` stores at most one hash per leaf below the node. -/
theorem length_hashes_le_leaves (vTxid : List α) (vMatch : List Bool) :
    ∀ height pos, pos < calcTreeWidth vTxid.length height →
      (traverseAndBuild H vTxid vMatch height pos).2.length ≤ (leavesBelow vTxid.length height pos).length
  | 0, pos, hpos => by
    rw [calcTreeWidth_zero] at hpos
    simp [traverseAndBuild_zero, leavesBelow_zero hpos]
  | height + 1, pos, hpos => by
    have hone : 0 < (leavesBelow vTxid.length (height + 1) pos).length :=
      List.length_pos_of_ne_nil (leavesBelow_ne_nil_iff.mpr hpos)
    have hl := length_hashes_le_leaves vTxid vMatch height (pos * 2) (left_lt_calcTreeWidth hpos)
    rw [leavesBelow_succ, List.length_append] at hone
    rw [traverseAndBuild_succ, leavesBelow_succ, List.length_append]
    split_ifs with hf hr
    · have := length_hashes_le_leaves vTxid vMatch height (pos * 2 + 1) hr
      simp only [List.length_append]
      omega
    · simp only [List.length_append, List.length_nil]
      omega
    · simp only [List.length_singleton]
      omega

omit [DecidableEq α] in
/-- The first bit `TraverseAndBuild` stores for a node is its flag. -/
theorem traverseAndBuild_bits (vTxid : List α) (vMatch : List Bool) (height pos : Nat) :
    ∃ rest, (traverseAndBuild H vTxid vMatch height pos).1 = parentOfMatch vTxid.length vMatch height pos :: rest := by
  cases height with
  | zero => exact ⟨[], rfl⟩
  | succ height =>
    rw [traverseAndBuild_succ]
    cases parentOfMatch vTxid.length vMatch (height + 1) pos <;> exact ⟨_, rfl⟩

omit [DecidableEq α] in
/-- `TraverseAndBuild` at a node with a match below: the flag, then the left
subtree, then the right one where it exists. -/
theorem traverseAndBuild_descend {vTxid : List α} {vMatch : List Bool} {height pos : Nat}
    (hf : parentOfMatch vTxid.length vMatch (height + 1) pos = true) :
    traverseAndBuild H vTxid vMatch (height + 1) pos =
      (true :: ((traverseAndBuild H vTxid vMatch height (pos * 2)).1 ++
          if pos * 2 + 1 < calcTreeWidth vTxid.length height then (traverseAndBuild H vTxid vMatch height (pos * 2 + 1)).1
          else []),
        (traverseAndBuild H vTxid vMatch height (pos * 2)).2 ++
          if pos * 2 + 1 < calcTreeWidth vTxid.length height then (traverseAndBuild H vTxid vMatch height (pos * 2 + 1)).2
          else []) := by
  rw [traverseAndBuild_succ, if_pos hf]

/-- Over the bits and hashes `TraverseAndBuild` stored for a subtree, found at
the two cursors, `TraverseAndExtract` returns the subtree's hash, appends the
matched leaves below it, and moves each cursor past what was stored. The
induction is on the height, with the state and the lists around the subtree's
bits and hashes free. -/
theorem traverseAndExtract_build {t : CPartialMerkleTree α} {vTxid : List α} (vMatch : List Bool)
    (hn : t.nTransactions = vTxid.length)
    (hsib : ∀ height pos, pos * 2 + 1 < calcTreeWidth vTxid.length height →
      calcHash H vTxid height (pos * 2) ≠ calcHash H vTxid height (pos * 2 + 1)) :
    ∀ height pos (st : ExtractState α) (preB restB : List Bool) (preH restH : List α),
      pos < calcTreeWidth vTxid.length height →
      t.vBits = preB ++ (traverseAndBuild H vTxid vMatch height pos).1 ++ restB →
      t.vHash = preH ++ (traverseAndBuild H vTxid vMatch height pos).2 ++ restH →
      st.nBitsUsed = preB.length → st.nHashUsed = preH.length →
      traverseAndExtract H t height pos st =
        (calcHash H vTxid height pos,
          { st with
            nBitsUsed := st.nBitsUsed + (traverseAndBuild H vTxid vMatch height pos).1.length
            nHashUsed := st.nHashUsed + (traverseAndBuild H vTxid vMatch height pos).2.length
            vMatch := st.vMatch ++ (matchesBelow vTxid.length vMatch height pos).map (vTxid.getD · default)
            vnIndex := st.vnIndex ++ matchesBelow vTxid.length vMatch height pos })
  | 0, pos, st, preB, restB, preH, restH, hpos, hB, hH, hb, hh => by
    rw [calcTreeWidth_zero] at hpos
    simp only [traverseAndBuild_zero, List.append_assoc, List.singleton_append] at hB hH ⊢
    have hbl : ¬ st.nBitsUsed ≥ t.vBits.length := by simp [hB, hb]
    have hhl : ¬ st.nHashUsed ≥ t.vHash.length := by simp [hH, hh]
    rw [traverseAndExtract]
    simp only [hbl, hhl, if_false, Lib.getD_of_append hB hb.symm, Lib.getD_of_append hH hh.symm,
      matchesBelow_zero vMatch hpos]
    split <;> simp [calcHash]
  | height + 1, pos, st, preB, restB, preH, restH, hpos, hB, hH, hb, hh => by
    -- the node's flag is the bit at the cursor
    obtain ⟨rest, hbits⟩ := traverseAndBuild_bits H vTxid vMatch (height + 1) pos
    have hB' := hB
    rw [hbits, List.append_assoc] at hB'
    have hbl : ¬ st.nBitsUsed ≥ t.vBits.length := by simp [hB', hb]
    rw [traverseAndExtract]
    simp only [hbl, if_false, Lib.getD_of_append hB' hb.symm]
    cases hf : parentOfMatch vTxid.length vMatch (height + 1) pos with
    | false =>
      -- no match below: the node's hash is stored and nothing is descended into
      have hbuild : traverseAndBuild H vTxid vMatch (height + 1) pos = ([false], [calcHash H vTxid (height + 1) pos]) := by
        simp [traverseAndBuild_succ, hf]
      rw [hbuild, List.append_assoc, List.singleton_append] at hH
      have hhl : ¬ st.nHashUsed ≥ t.vHash.length := by simp [hH, hh]
      simp only [Bool.false_eq_true, ↓reduceIte, hhl, Lib.getD_of_append hH hh.symm]
      simp [hbuild, parentOfMatch_eq_false_iff.mp hf]
    | true =>
      have hleft := left_lt_calcTreeWidth hpos
      have hbuild := traverseAndBuild_descend H hf
      simp only [↓reduceIte, hn]
      by_cases hr : pos * 2 + 1 < calcTreeWidth vTxid.length height
      · -- both children: the left subtree's bits and hashes, then the right one's
        simp only [hr, ↓reduceIte] at hbuild
        rw [hbuild] at hB hH
        rw [traverseAndExtract_build vMatch hn hsib height (pos * 2) { st with nBitsUsed := st.nBitsUsed + 1 } (preB ++ [true])
          ((traverseAndBuild H vTxid vMatch height (pos * 2 + 1)).1 ++ restB) preH
          ((traverseAndBuild H vTxid vMatch height (pos * 2 + 1)).2 ++ restH) hleft
          (by simp [hB]) (by simp [hH]) (by simp [hb]) hh]
        simp only [hr, ↓reduceIte]
        rw [traverseAndExtract_build vMatch hn hsib height (pos * 2 + 1) _
          (preB ++ [true] ++ (traverseAndBuild H vTxid vMatch height (pos * 2)).1) restB
          (preH ++ (traverseAndBuild H vTxid vMatch height (pos * 2)).2) restH hr
          (by simp [hB]) (by simp [hH])]
        · rw [if_neg (hsib height pos hr).symm]
          simp [hbuild, calcHash, hr, matchesBelow_succ]
          omega
        · simp [hb]
          omega
        · simp [hh]
      · -- no right child: the left subtree's hash is paired with itself
        simp only [hr, ↓reduceIte, List.append_nil] at hbuild
        rw [hbuild] at hB hH
        rw [traverseAndExtract_build vMatch hn hsib height (pos * 2) { st with nBitsUsed := st.nBitsUsed + 1 } (preB ++ [true]) restB preH restH hleft
          (by simp [hB]) (by simp [hH]) (by simp [hb]) hh]
        simp [hbuild, calcHash, hr, matchesBelow_succ, matchesBelow_of_not_lt vMatch hr]
        omega

omit [DecidableEq α] in
theorem ofMatches_eq (vTxid : List α) (vMatch : List Bool) :
    CPartialMerkleTree.ofMatches H vTxid vMatch =
      ⟨vTxid.length, (traverseAndBuild H vTxid vMatch (treeHeight vTxid.length) 0).1,
        (traverseAndBuild H vTxid vMatch (treeHeight vTxid.length) 0).2, false⟩ :=
  rfl

/-- `ExtractMatches` on the partial merkle tree built from any match vector
walks the whole tree back: the hash of the root and the matches below it. -/
theorem extractMatches_ofMatches {vTxid : List α} (vMatch : List Bool) (hne : vTxid ≠ [])
    (hmax : vTxid.length ≤ MAX_BLOCK_WEIGHT / MIN_TRANSACTION_WEIGHT)
    (hsib : ∀ height pos, pos * 2 + 1 < calcTreeWidth vTxid.length height →
      calcHash H vTxid height (pos * 2) ≠ calcHash H vTxid height (pos * 2 + 1)) :
    extractMatches H (CPartialMerkleTree.ofMatches H vTxid vMatch) [] =
      (calcHash H vTxid (treeHeight vTxid.length) 0,
        (matchesBelow vTxid.length vMatch (treeHeight vTxid.length) 0).map (vTxid.getD · default),
        matchesBelow vTxid.length vMatch (treeHeight vTxid.length) 0) := by
  have hn : 0 < vTxid.length := List.length_pos_of_ne_nil hne
  have htop : 0 < calcTreeWidth vTxid.length (treeHeight vTxid.length) := by
    rw [(treeHeight_spec hn).2]
    omega
  -- the size checks pass: at most one hash per transaction, and a bit per hash
  have hhashes := length_hashes_le_leaves H vTxid vMatch _ 0 htop
  rw [length_leavesBelow, Nat.zero_mul, Nat.zero_add, Nat.one_mul, Nat.sub_zero,
    Nat.min_eq_right (le_two_pow_treeHeight hn)] at hhashes
  have hbits := length_hashes_le_bits H vTxid vMatch (treeHeight vTxid.length) 0
  -- the traversal reads back all the bits and hashes
  have hextract := traverseAndExtract_build H vMatch (t := CPartialMerkleTree.ofMatches H vTxid vMatch) rfl hsib
    (treeHeight vTxid.length) 0 ⟨0, 0, [], [], false⟩ [] [] [] [] htop
    (by rw [ofMatches_eq, List.nil_append, List.append_nil]) (by rw [ofMatches_eq, List.nil_append, List.append_nil])
    rfl rfl
  have hmax' : ¬ vTxid.length > MAX_BLOCK_WEIGHT / MIN_TRANSACTION_WEIGHT := by omega
  rw [ofMatches_eq] at hextract ⊢
  simp only [extractMatches, hn.ne', hmax', Nat.not_lt.mpr hhashes, Nat.not_lt.mpr hbits,
    ↓reduceIte, hextract]
  simp

/-- `ExtractMatches` on the partial merkle tree of a block's transactions and
any match vector returns their merkle root and exactly the matched
transactions with their positions, in increasing order. -/
theorem extractMatches_partialMerkleTree {vTxid : List α} (vMatch : List Bool) (hne : vTxid ≠ [])
    (hmax : vTxid.length ≤ MAX_BLOCK_WEIGHT / MIN_TRANSACTION_WEIGHT)
    (hsib : ∀ height pos, pos * 2 + 1 < calcTreeWidth vTxid.length height →
      calcHash H vTxid height (pos * 2) ≠ calcHash H vTxid height (pos * 2 + 1)) :
    extractMatches H (CPartialMerkleTree.ofMatches H vTxid vMatch) [] =
      ((computeMerkleRoot H vTxid).1,
        ((List.range vTxid.length).filter (vMatch.getD · false)).map (vTxid.getD · default),
        (List.range vTxid.length).filter (vMatch.getD · false)) := by
  rw [extractMatches_ofMatches H vMatch hne hmax hsib, computeMerkleRoot_calcHash H hne,
    matchesBelow_treeHeight (List.length_pos_of_ne_nil hne)]

/-- Three transactions, the middle one matched: the root, the second txid and
its position come back. -/
theorem extractMatches_partialMerkleTree_three :
    extractMatches (fun x y : Nat => 10 * x + y + 100)
        (CPartialMerkleTree.ofMatches (fun x y : Nat => 10 * x + y + 100) [1, 2, 3] [false, true, false]) [] =
      ((computeMerkleRoot (fun x y : Nat => 10 * x + y + 100) [1, 2, 3]).1, [2], [1]) := by
  -- siblings exist at height 0 (leaves 0 and 1) and height 1 (nodes 0 and 1) only
  have hsib : ∀ height pos, pos * 2 + 1 < calcTreeWidth [1, 2, 3].length height →
      calcHash (fun x y : Nat => 10 * x + y + 100) [1, 2, 3] height (pos * 2) ≠
        calcHash (fun x y : Nat => 10 * x + y + 100) [1, 2, 3] height (pos * 2 + 1) := by
    intro height pos hpos
    cases height with
    | zero =>
      obtain rfl : pos = 0 := by rw [calcTreeWidth_zero] at hpos; simp at hpos; omega
      decide
    | succ height =>
      cases height with
      | zero =>
        obtain rfl : pos = 0 := by
          rw [show calcTreeWidth [1, 2, 3].length (0 + 1) = 2 by decide] at hpos
          omega
        decide
      | succ height =>
        -- from height 2 up the three leaves sit under one node
        have hle : 3 ≤ 2 ^ (height + 1 + 1) := by
          rw [Nat.pow_succ, Nat.pow_succ]
          have := Nat.one_le_two_pow (n := height)
          omega
        have hw := calcTreeWidth_le_one hle
        change pos * 2 + 1 < calcTreeWidth 3 (height + 1 + 1) at hpos
        omega
  rw [@extractMatches_partialMerkleTree Nat _ _ (fun x y : Nat => 10 * x + y + 100) [1, 2, 3] [false, true, false]
    (by decide) (by decide) hsib]
  rfl

omit [DecidableEq α] in
/-- The hashes at the positions whose match bit is set, in order, are the
matched hashes. -/
theorem map_getD_filter_range (p : α → Bool) : ∀ l : List α,
    ((List.range l.length).filter ((l.map p).getD · false)).map (l.getD · default) = l.filter p
  | [] => rfl
  | a :: l => by
    rw [List.length_cons, List.range_succ_eq_map, List.filter_cons, List.filter_map, List.filter_cons]
    have ih := map_getD_filter_range p l
    cases hp : p a <;> simp [hp, Function.comp_def, ← ih]

/-- `ExtractMatches` on the tree of `CMerkleBlock(block, txids)` returns the
merkle root of the block's transaction hashes, and those of them in `txids`. -/
theorem extractMatches_txnOf {vHashes : List α} (txids : List α) (hne : vHashes ≠ [])
    (hmax : vHashes.length ≤ MAX_BLOCK_WEIGHT / MIN_TRANSACTION_WEIGHT)
    (hsib : ∀ height pos, pos * 2 + 1 < calcTreeWidth vHashes.length height →
      calcHash H vHashes height (pos * 2) ≠ calcHash H vHashes height (pos * 2 + 1)) :
    (extractMatches H (CMerkleBlock.txnOf H vHashes txids) []).1 = (computeMerkleRoot H vHashes).1 ∧
      (extractMatches H (CMerkleBlock.txnOf H vHashes txids) []).2.1 =
        vHashes.filter fun hash => decide (hash ∈ txids) := by
  rw [CMerkleBlock.txnOf, extractMatches_ofMatches H _ hne hmax hsib, computeMerkleRoot_calcHash H hne,
    matchesBelow_treeHeight (List.length_pos_of_ne_nil hne)]
  refine ⟨rfl, ?_⟩
  have := map_getD_filter_range (fun hash => decide (hash ∈ txids)) vHashes
  simpa using this

end Traversals

end Ring.Node
