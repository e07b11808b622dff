import Ring.Node.Validation

/-!
# What the proof checks do before their own guards

`CheckBlock` runs `CheckHiveProof` or `CheckPopProof` before it checks that
the block has transactions, and `ProcessNewBlock` runs `CheckBlock` before
`AcceptBlock` checks that the parent is known. So the proof checks meet
blocks with unknown parents and blocks with no transactions.

The parent lookup `mapBlockIndex[hashPrevBlock]` inserts a null entry for an
unknown hash and the next line reads `pindexPrev->nHeight` through it; a
block with no transactions reaches `pblock->vtx[0]`; and the deep drill
walks below height 0 when the claimed DCT height, read as `uint32_t`, is
above `INT_MAX` and turns negative as an `int`.
-/
namespace Ring.Node

open Ring.Lib Ring.Arith Ring.Chain Ring.Hive Ring.Pop

/-! ## The parent lookup -/

/-- A known parent: its index and the block's height, the state unchanged. -/
theorem lookupPrev_of_find_some {st : NodeState} {hash : Uint256} {r : IndexRecord}
    {rest : CBlockIndex} (h : st.mapBlockIndex.find hash = some (r :: rest)) :
    lookupPrev st hash = (.ok (r :: rest, r.nHeight + 1), st) := by
  simp only [lookupPrev, StdMap.subscript_of_find [] h]

/-- An unknown parent: the null entry is inserted and then dereferenced. -/
theorem lookupPrev_of_find_none {st : NodeState} {hash : Uint256}
    (h : st.mapBlockIndex.find hash = none) :
    lookupPrev st hash =
      (.error .nullDeref, { st with mapBlockIndex := st.mapBlockIndex.insert hash [] }) := by
  simp only [lookupPrev, StdMap.subscript_of_find_none [] h]

/-- Both proof checks, on a block whose parent `mapBlockIndex` does not hold,
dereference the null entry their lookup has just inserted: the result is
the null dereference, and the map afterwards holds the parent hash. -/
theorem proofChecks_insert_unknown_parent (env : Env) (params : Params) (st : NodeState)
    (block : CBlock) (checkActiveChain : Bool)
    (hunknown : st.mapBlockIndex.find block.hashPrevBlock = none) :
    let st' : NodeState := { st with mapBlockIndex := st.mapBlockIndex.insert block.hashPrevBlock [] }
    checkHiveProof env params st block = (.error .nullDeref, st') ∧
      checkPopProof env params st checkActiveChain block = (.error .nullDeref, st') ∧
      st'.mapBlockIndex.Mem block.hashPrevBlock := by
  intro st'
  refine ⟨?hive, ?pop, ?mem⟩
  case hive => simp only [checkHiveProof, lookupPrev_of_find_none hunknown, st']
  case pop => simp only [checkPopProof, lookupPrev_of_find_none hunknown, st']
  case mem => simp [st', StdMap.Mem]

/-- A node with no block index entry, and a block on the null hash. -/
theorem proofChecks_insert_unknown_parent_default :
    (default : NodeState).mapBlockIndex.find (default : CBlock).hashPrevBlock = none ∧
      checkHiveProof default mainParams default default =
        (.error .nullDeref,
          { (default : NodeState) with
            mapBlockIndex := (default : NodeState).mapBlockIndex.insert Uint256.null [] }) :=
  ⟨rfl, (proofChecks_insert_unknown_parent default mainParams default default true rfl).1⟩

/-- Both proof checks read `pblock->vtx[0]` of a block with no transactions:
the pop check at once, the hive check once the block is past the slow start
and its parent is a PoW block. -/
theorem proofChecks_fault_on_empty_vtx (env : Env) (params : Params) (st : NodeState)
    (block : CBlock) (checkActiveChain : Bool) {r : IndexRecord} {rest : CBlockIndex}
    (hprev : st.mapBlockIndex.find block.hashPrevBlock = some (r :: rest))
    (hvtx : block.vtx = [])
    (hheight : params.lastInitialDistributionHeight + params.slowStartBlocks ≤ r.nHeight + 1)
    (hhive : r.isHiveMined params = false) (hpop : r.isPopMined params = false)
    (hcons : 0 < params.maxConsecutiveHiveBlocks) :
    checkHiveProof env params st block = (.error .outOfRange, st) ∧
      checkPopProof env params st checkActiveChain block = (.error .outOfRange, st) := by
  refine ⟨?hive, ?pop⟩
  case hive =>
    simp only [checkHiveProof, lookupPrev_of_find_some hprev]
    have hslow : ¬ r.nHeight + 1 < params.lastInitialDistributionHeight + params.slowStartBlocks := by
      omega
    have hrun : ¬ params.maxConsecutiveHiveBlocks ≤ 0 := by omega
    simp [checkHiveProofFrom, hiveBlocksSincePow, hhive, hpop, hiveCoinbase, noDCTAfterCoinbase, hvtx, at!, hslow, hrun]
  case pop =>
    simp only [checkPopProof, lookupPrev_of_find_some hprev]
    simp [popCoinbase, noDCTAfterCoinbase, hvtx, at!]

/-- A parent at height 36521 on the main network and a block with no
transactions. -/
theorem proofChecks_fault_on_empty_vtx_main :
    let r : IndexRecord := { (default : IndexRecord) with nHeight := 36521 }
    let st : NodeState := { (default : NodeState) with mapBlockIndex := StdMap.empty.insert Uint256.null [r] }
    st.mapBlockIndex.find (default : CBlock).hashPrevBlock = some [r] ∧
      checkHiveProof default mainParams st default = (.error .outOfRange, st) ∧
      checkPopProof default mainParams st true default = (.error .outOfRange, st) := by
  intro r st
  have hprev : st.mapBlockIndex.find (default : CBlock).hashPrevBlock = some [r] := by
    simp [st]; rfl
  exact ⟨hprev, proofChecks_fault_on_empty_vtx default mainParams st default true hprev rfl
    (by decide) rfl rfl (by decide)⟩

/-! ## The deep drill below height 0 -/

/-- On a chain whose heights count down to 0, the walk to a negative height
fails its `assert(pprev)` at the genesis block. -/
theorem walkToHeight_of_neg {nHeight : Int} (hneg : nHeight < 0) :
    ∀ (r : IndexRecord) (rest : CBlockIndex), Linked (r :: rest) →
      walkToHeight nHeight (r :: rest) = .error .assertion := by
  intro r rest
  induction rest generalizing r with
  | nil =>
    intro hl
    have hr : r.nHeight = 0 := by simpa using hl.height
    simp [walkToHeight, hr, hneg]
  | cons q rest ih =>
    intro hl
    have hr : r.nHeight = (rest.length + 1 : Nat) := by simpa using hl.height
    have hgt : r.nHeight > nHeight := by omega
    simp only [walkToHeight, hgt, if_true, reduceCtorEq, if_false]
    exact ih q hl.tail

/-- `GetTxByHashAndHeight` with a claimed height above `INT_MAX`: the height
turns negative as an `int` and the walk fails its assertion. -/
theorem getTxByHashAndHeight_above_int_max (env : Env) (st : NodeState) (txHash : Uint256)
    {h : UInt32} (hbig : 2 ^ 31 ≤ h.toNat) {r : IndexRecord} {rest : CBlockIndex}
    (hl : Linked (r :: rest)) :
    getTxByHashAndHeight env st txHash (toInt32 h) (r :: rest) = .error .assertion := by
  have hneg : toInt32 h < 0 := by
    have := h.toNat_lt
    simp only [toInt32]
    split <;> omega
  have hr : 0 ≤ r.nHeight := by rw [hl.height]; omega
  have hnlt : ¬ r.nHeight < toInt32 h := by omega
  simp [getTxByHashAndHeight, hnlt, walkToHeight_of_neg hneg r rest hl, bind, Except.bind]

/-- A DCT height of `2^31` read from a proof, on a chain of the genesis block
and one block above it. -/
theorem getTxByHashAndHeight_above_int_max_two :
    getTxByHashAndHeight default default Uint256.null (toInt32 0x80000000)
      [{ (default : IndexRecord) with nHeight := 1 }, default] = .error .assertion :=
  getTxByHashAndHeight_above_int_max default default Uint256.null (by decide) (by simp [Linked]; rfl)

end Ring.Node
