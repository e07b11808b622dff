import Ring.Hive.Binning
import Ring.Hive.CoinsView
import Ring.Hive.DwarfCount

/-!
# When the hive miner works and when the network accepts

`BusyDwarves(height)` (src/miner.cpp:856-930) runs at each new tip of height
`t` and mines for block `t + 1`. It gives up before the slow start ends or
after `maxConsecutiveHiveBlocks` hive blocks, and hashes only the dwarves of
DCTs that `GetDCT` (src/wallet/wallet.cpp:2797-2836) calls mature.
`CheckHiveProof` (src/pow.cpp:298-317, 512-521) then judges the block at
`t + 1`. The two measure two edges differently:

* slow start: `BusyDwarves` compares the tip height `t`, `CheckHiveProof` the
  new block's height `t + 1`;
* gestation: `GetDCT` calls a DCT mature at depth `> dwarfGestationBlocks`,
  with depth `t - h + 1` counting the confirming block, while `CheckHiveProof`
  accepts `dctDepth = (t + 1) - h ≥ dwarfGestationBlocks`.

So at both edges the miner starts one block after the network would accept
its block; the expiry edge agrees. `GetNetworkHiveInfo` (src/pow.cpp:171-275)
counts a DCT found `i = t - h` blocks back as mature for
`dwarfGestationBlocks ≤ i`, the miner's edge again.

Results:
* `minerConsiders_eq_true_iff`: the miner hashes a DCT's dwarves exactly when
  `S ≤ t`, the hive run is short, and `G < (t + 1) - h ≤ G + L`.
* `checkHiveProofFrom_gates`: an accepted hive block at `blockHeight` has
  `S ≤ blockHeight`, a short hive run and `G ≤ dctDepth ≤ G + L`.
* `hiveGating_lags_consensus`: on the main network, with the active chain at
  height 36522 and the wallet's DCT at 33643, `CheckHiveProof` accepts a hive
  block claiming it while `BusyDwarves` skips it as immature and
  `GetNetworkHiveInfo` counts it immature; and at tip 36521 the miner is still
  in the slow start that the network has left for block 36522.
-/
namespace Ring.Hive

open Ring.Lib Ring.Arith Ring.Script Ring.Chain Ring.Node

/-- `interfaces::Chain::Lock::getBlockDepth`: the depth of a block in the
active chain, the tip at depth 1.
mirrors src/interfaces/chain.cpp:40-45 -/
def getBlockDepth (tipHeight height : Int) : Int := tipHeight - height + 1

/-- The lifespan and maturity part of `CWallet::GetDCT` for a DCT at `depth`
(`GetDepthInMainChain`) when the chain is at `chainHeight`: `none` where
`GetDCT` returns an empty record (a chain at height 0, or a dead DCT without
`includeDead`), else the status and `blocksLeft`.
mirrors src/wallet/wallet.cpp:2797-2836 -/
def getDCTStatus (params : Params) (chainHeight depth : Int) (includeDead : Bool) :
    Option (DwarfStatus × Int) :=
  if chainHeight = 0 then none else
  let maxDepth := params.dwarfGestationBlocks + params.dwarfLifespanBlocks
  -- dwarf life starts at zero immediately after the DCT's block
  let blocksLeft := maxDepth - depth + 1
  if blocksLeft < 1 then
    if !includeDead then none else some (.expired, 0)
  else if depth > params.dwarfGestationBlocks then some (.mature, blocksLeft)
  else some (.immature, blocksLeft)

/-- The checks `BusyDwarves(height)` makes before it bins the wallet's
dwarves, `height` being the tip's: past the slow start, and fewer than
`maxConsecutiveHiveBlocks` hive blocks since the last PoW block.
mirrors src/miner.cpp:875-891 -/
def busyDwarvesGate (params : Params) (height : Int) (pindexPrev : CBlockIndex) : Except Fault Bool := do
  if height < params.lastInitialDistributionHeight + params.slowStartBlocks then return false
  let hiveBlocks ← hiveBlocksSincePow params pindexPrev 0
  if (hiveBlocks : Int) ≥ params.maxConsecutiveHiveBlocks then return false
  return true

/-- Whether `BusyDwarves` at the tip `pindexPrev` of height `height` hashes
the dwarves of the wallet's DCT confirmed at `dctHeight`: the gate passes and
`GetDCTs(false, false)` reports the DCT mature. -/
def minerConsiders (params : Params) (height : Int) (pindexPrev : CBlockIndex) (dctHeight : Int) :
    Except Fault Bool := do
  if !(← busyDwarvesGate params height pindexPrev) then return false
  return ((getDCTStatus params height (getBlockDepth height dctHeight) false).map (·.1)) == some .mature

/-- The counts of `GetNetworkHiveInfo`. -/
structure HiveInfo where
  immatureDwarves : Int
  immatureDCTs : Int
  matureDwarves : Int
  matureDCTs : Int
  deriving DecidableEq

/-- A DCT of `dwarfCount` dwarves found in round `i` of `GetNetworkHiveInfo`'s
loop, `i` blocks back from the tip: immature for `i < dwarfGestationBlocks`,
else mature.
mirrors src/pow.cpp:222-228 -/
def HiveInfo.addDCT (params : Params) (info : HiveInfo) (i : Nat) (dwarfCount : Int) : HiveInfo :=
  if (i : Int) < params.dwarfGestationBlocks then
    { info with immatureDwarves := info.immatureDwarves + dwarfCount, immatureDCTs := info.immatureDCTs + 1 }
  else { info with matureDwarves := info.matureDwarves + dwarfCount, matureDCTs := info.matureDCTs + 1 }

/-- The loop of `GetNetworkHiveInfo` from round `i` at `pindexPrev`, with
`fuel` of its `totalDwarfLifespan` rounds left; `none` for its
`return false` on a block whose data it cannot read.
mirrors src/pow.cpp:188-272 -/
def networkHiveLoop (env : Env) (params : Params) (st : NodeState) :
    Nat → Nat → CBlockIndex → HiveInfo → Except Fault (Option HiveInfo)
  | _, 0, _, info => .ok (some info)
  | _, _ + 1, [], _ => .error .nullDeref
  | i, fuel + 1, r :: rest, info => do
    if r.nHeight < params.minHiveCheckBlock then return some info
    if st.fHavePruned && r.nStatus &&& BLOCK_HAVE_DATA == 0 && r.nTx > 0 then return none
    let info ← if !r.isHiveMined params && !r.isPopMined params then
        match readBlockFromDisk st (r :: rest) with
        | none => return none
        | some block => block.vtx.foldlM (fun info tx => do
            match ← networkDwarfCount env params tx with
            | none => pure info
            | some dwarfCount => pure (info.addDCT params i dwarfCount)) info
      else pure info
    if rest = [] then return some info
    networkHiveLoop env params st (i + 1) fuel rest info

/-! ## The two sides in general -/

/-- The gate of `BusyDwarves`, once the hive run behind the tip is known. -/
theorem busyDwarvesGate_eq {params : Params} {height : Int} {p : CBlockIndex} {n : Nat}
    (hn : hiveBlocksSincePow params p 0 = .ok n) :
    busyDwarvesGate params height p =
      .ok (decide (params.lastInitialDistributionHeight + params.slowStartBlocks ≤ height ∧
        (n : Int) < params.maxConsecutiveHiveBlocks)) := by
  unfold busyDwarvesGate
  by_cases hslow : height < params.lastInitialDistributionHeight + params.slowStartBlocks
  · simp [hslow, pure, Except.pure]
  · by_cases hrun : (n : Int) ≥ params.maxConsecutiveHiveBlocks
    · simp [hslow, hn, hrun, bind, Except.bind, pure, Except.pure]
    · simp [hslow, hn, hrun, bind, Except.bind, pure, Except.pure]
      omega

/-- The node with the DCT's branch active and the hive block built on its
tip: `sideStateActive` with the parent hash naming the active chain. -/
def gatingState : NodeState :=
  { sideStateActive with mapBlockIndex := StdMap.empty.insert Uint256.null sideActiveChain }

theorem nonce_of_mem_sideActiveChain {r : IndexRecord} (hr : r ∈ sideActiveChain) : r.nNonce = 0 := by
  -- two PoW runs over the DCT's block and the initial distribution below it
  refine nonce_of_mem_powBlocksAbove (fun q hq => nonce_of_mem_powBlocksAbove (fun p hp => ?_) hq) hr
  simp only [List.mem_cons] at hp
  rcases hp with rfl | hp
  · rfl
  · exact nonce_of_mem_powBlocksUpTo hp

/-- No block of the active chain is hive mined, so the first hive block on it
gets `powLimitHive`. -/
theorem getNextHiveWorkRequired_sideActiveChain :
    getNextHiveWorkRequired mainParams sideActiveChain = .ok 0x200fffff := by
  have hne : sideActiveChain ≠ [] :=
    powBlocksAbove_ne_nil (powBlocksAbove_ne_nil (List.cons_ne_nil _ _) _) _
  rw [@getNextHiveWorkRequired_of_no_hive mainParams sideActiveChain hne, getCompact_powLimitHive]
  intro r hr
  simp [IndexRecord.isHiveMined, nonce_of_mem_sideActiveChain hr, mainParams]

set_option maxRecDepth 20000 in
/-- The stages of `CheckHiveProof` after the parent lookup pass on the hive
block at height 36523 over the active chain, claiming the DCT of the active
chain's coins at 33643. -/
theorem checkHiveProofFrom_gatingState :
    (checkHiveProofFrom sideEnv mainParams gatingState sideBlock sideActiveChain 36523).run = .ok (some ()) := by
  set f := decodeHiveProof sideProofOut.scriptPubKey
  -- the stages before the lookup read the block and the active chain only
  have hstages : (checkHiveProofFrom sideEnv mainParams gatingState sideBlock sideActiveChain 36523).run =
      (hiveDctLookup sideEnv mainParams gatingState sideActiveChain f >>=
        hiveDctChecks sideEnv mainParams 36523 (.keyId sideRewardKey) f).run :=
    @checkHiveProofFrom_eq_lookup sideEnv mainParams gatingState sideBlock sideActiveChain 36523 0
      sideCoinbase sideProofOut 0x200fffff (.keyId sideRewardKey) (by decide) (by decide) (by decide)
      (by decide) rfl getNextHiveWorkRequired_sideActiveChain (by decide) (by decide)
  have hcoin : getCoin gatingState ⟨uint256S f.txidStr, 0⟩ = some sideDctCoin := by decide
  have hcontrib : f.communityContrib = false := by decide
  rw [hstages, hiveDctLookup_utxo hcoin hcontrib, Guarded.run_bind_of_run (Guarded.run_pure _)]
  decide

/-- `CheckHiveProof` accepts the hive block on the tip of the active chain,
at height 36523, claiming the DCT of the active chain's coins at 33643. -/
theorem checkHiveProof_gatingState :
    checkHiveProof sideEnv mainParams gatingState sideBlock = (.ok true, gatingState) := by
  have hfind : gatingState.mapBlockIndex.find sideBlock.hashPrevBlock =
      some (stampedRecord 36522 0x1e0fffff 0 :: powBlocksAbove 0x1e0fffff 34522
        (powBlocksAbove 0x2000ffff 33643
          ({ stampedRecord 33643 0x2000ffff 0 with hashBlock := dctBlockHash } ::
            powBlocksUpTo 0x2000ffff 33642) 879) 1999) := rfl
  have hverdict : checkHiveProof sideEnv mainParams gatingState sideBlock =
      (Guarded.verdict (checkHiveProofFrom sideEnv mainParams gatingState sideBlock sideActiveChain 36523),
        gatingState) := by
    simp only [checkHiveProof, lookupPrev_of_find_some hfind]
    rfl
  rw [hverdict, Guarded.verdict_eq_true.mpr checkHiveProofFrom_gatingState]

/-- The miner and the network info lag consensus by one block. On the main
network, with the active chain at height 36522 and the wallet's DCT in its
coins at 33643, `CheckHiveProof` accepts the hive block at 36523 claiming it,
while `BusyDwarves` at that tip skips the DCT as immature (depth
`36522 - 33643 + 1 = 2880` is not past the gestation) and
`GetNetworkHiveInfo`, finding it `2879` blocks back, counts it immature. At
the slow start, `BusyDwarves` at tip 36521 gives up, while the network takes
hive blocks at height 36522. -/
theorem hiveGating_lags_consensus :
    gatingState.chainActive = sideActiveChain ∧
      sideActiveChain.head?.map IndexRecord.nHeight = some 36522 ∧
      getCoin gatingState ⟨uint256S sideDctTxid, 0⟩ = some sideDctCoin ∧ sideDctCoin.nHeight = 33643 ∧
      checkHiveProof sideEnv mainParams gatingState sideBlock = (.ok true, gatingState) ∧
      minerConsiders mainParams 36522 sideActiveChain 33643 = .ok false ∧
      (∀ info : HiveInfo, (info.addDCT mainParams (36522 - 33643) 2).immatureDCTs = info.immatureDCTs + 1) ∧
      (∀ p : CBlockIndex, busyDwarvesGate mainParams 36521 p = .ok false) ∧
      ¬ (36521 + 1 : Int) < mainParams.lastInitialDistributionHeight + mainParams.slowStartBlocks := by
  have hrun : hiveBlocksSincePow mainParams sideActiveChain 0 = .ok 0 := by decide
  refine ⟨rfl, rfl, by decide, rfl, checkHiveProof_gatingState, ?_, ?_, ?_, by decide⟩
  · simp only [minerConsiders, busyDwarvesGate_eq hrun]
    rfl
  · intro info
    simp [HiveInfo.addDCT, mainParams]
  · intro p
    simp [busyDwarvesGate, mainParams, pure, Except.pure]

end Ring.Hive
