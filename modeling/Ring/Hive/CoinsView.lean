import Ring.Node.ProofSafety
import Ring.Hive.Miner
import Ring.Chain.Retarget

/-!
# The hive verdict and the coins view (src/pow.cpp:431-521)

`CheckHiveProof` finds the dwarf creation transaction (DCT) a proof names in
`pcoinsTip` first, the coins of the active chain, and only when the coin is
missing drills into the block at the claimed height of the block's own
ancestry (`GetTxByHashAndHeight`). Everything before the lookup reads the block
and its ancestry alone (`checkHiveProofFrom_eq_lookup`), so the verdict
depends on the node state only through that lookup:

* `hiveDctLookup_utxo`: a coin in the view is taken as found, whatever the
  ancestry holds;
* `hiveDctLookup_drill_none`: without the coin, a drill that finds nothing
  fails the proof.

`hiveVerdict_differs_with_coins_view` puts both on one block. The node's
active chain forked from the block's ancestry below the DCT's height and holds
the DCT; the block's own branch does not. Two states that agree on
`mapBlockIndex`, the stored blocks and pruning, and differ in the active
chain and its coins, give opposite verdicts: the side-branch block is
accepted against the active chain's coins and rejected once its own branch
is active.
-/
namespace Ring.Hive

open Ring.Lib Ring.Arith Ring.Script Ring.Chain Ring.Node

/-- The UTXO path: a coin for `vout[0]` in the view is the DCT, at the coin's
height, with the contribution flag clear. -/
theorem hiveDctLookup_utxo {env : Env} {params : Params} {st : NodeState} {pindexPrev : CBlockIndex}
    {f : HiveProofFields} {coin : Coin} (hcoin : getCoin st ⟨uint256S f.txidStr, 0⟩ = some coin)
    (hcontrib : f.communityContrib = false) :
    hiveDctLookup env params st pindexPrev f =
      pure ⟨coin.nHeight, coin.out.nValue, coin.out.scriptPubKey⟩ := by
  simp [hiveDctLookup, hcoin, hcontrib]

/-- The drill path: with no coin in the view and nothing found in the block at
the claimed height, the proof fails. -/
theorem hiveDctLookup_drill_none {env : Env} {params : Params} {st : NodeState}
    {pindexPrev : CBlockIndex} {f : HiveProofFields}
    (hcoin : getCoin st ⟨uint256S f.txidStr, 0⟩ = none)
    (hdrill : getTxByHashAndHeight env st (uint256S f.txidStr) (toInt32 f.dctClaimedHeight) pindexPrev =
      .ok none) :
    (hiveDctLookup env params st pindexPrev f).run = .ok none := by
  simp only [hiveDctLookup, hcoin, hdrill]
  rfl

/-! ## A side branch that borrows the active chain's DCT -/

/-- The key the block's reward and the DCT's reward are paid to. -/
def sidePubKey : List UInt8 := 0x02 :: List.replicate 32 0x5a

/-- Its id. -/
def sideRewardKey : CKeyID := ⟨List.replicate 20 0x5a⟩

/-- The environment: every Minotaur hash is zero (below any target), the
signature recovers `sidePubKey`, a key's id is read off its bytes, and the
dwarf creation address is a key hash. -/
def sideEnv : Env :=
  { (default : Env) with
    minotaurHashArbitrary := fun _ => Uint256.null
    recoverCompact := fun _ _ => some sidePubKey
    getID := fun pubkey => ⟨(pubkey.drop 1).take 20⟩
    scriptPubKeyBCF := getScriptForDestination (.keyId ⟨List.replicate 20 0xbc⟩) }

/-- The DCT's txid, as the proof spells it. -/
def sideDctTxid : List Char := List.replicate 64 '1'

/-- The DCT's height: the youngest a dwarf may be at height 36523. -/
def sideDctHeight : UInt32 := 33643

/-- The DCT's `vout[0]` in the active chain's coins: two dwarves' cost to the
creation address, rewards to `sideRewardKey`. -/
def sideDctCoin : Coin :=
  ⟨⟨2000000, sideEnv.scriptPubKeyBCF ++ [OP_RETURN, OP_DWARF] ++ getScriptForDestination (.keyId sideRewardKey)⟩,
    sideDctHeight, false⟩

/-- The hive proof for dwarf 0 of the DCT, as `BusyDwarves` writes it. -/
def sideProofOut : CTxOut := ⟨0, hiveProofScript 0 sideDctHeight false sideDctTxid (List.replicate 65 0)⟩

/-- The coinbase: the proof and a reward output. -/
def sideCoinbase : CTransaction :=
  { (default : CTransaction) with
    vin := [⟨⟨Uint256.null, 0xffffffff⟩, [], 0, ⟨[]⟩⟩]
    vout := [sideProofOut, ⟨0, getScriptForDestination (.keyId sideRewardKey)⟩] }

/-- The hive block; its parent is the hash the index records carry. -/
def sideBlock : CBlock := { (default : CBlock) with nNonce := 1, vtx := [sideCoinbase] }

/-- The block's own ancestry: 2000 PoW blocks past the initial distribution. -/
def sideAncestry : CBlockIndex := powBlocksAbove 0x1e0fffff 34522 initialDistribution 2000

/-- The hash of the active chain's block at the DCT's height. -/
def dctBlockHash : Uint256 := ⟨List.replicate 32 1, by simp⟩

/-- The active chain: it forks from the block's ancestry at the DCT's height,
where its block holds the DCT, and reaches the same height. -/
def sideActiveChain : CBlockIndex :=
  powBlocksAbove 0x1e0fffff 34522
    (powBlocksAbove 0x2000ffff 33643
      ({ stampedRecord 33643 0x2000ffff 0 with hashBlock := dctBlockHash } ::
        powBlocksUpTo 0x2000ffff 33642) 879) 2000

/-- The stored blocks, the same for both states: the active chain's block at
the DCT's height holds the DCT; the blocks of the ancestry hold a coinbase
only. -/
def sideBlockStore (h : Uint256) : Option CBlock :=
  if h = dctBlockHash then
    some { (default : CBlock) with vtx := [default, { (default : CTransaction) with vout := [sideDctCoin.out] }] }
  else some { (default : CBlock) with vtx := [default] }

/-- The node while the other branch is active: its coins hold the DCT. -/
def sideStateActive : NodeState where
  mapBlockIndex := StdMap.empty.insert Uint256.null sideAncestry
  chainActive := sideActiveChain
  pcoinsTip := some fun o => if o = ⟨uint256S sideDctTxid, 0⟩ then some sideDctCoin else none
  blockStore := sideBlockStore
  fHavePruned := false

/-- The node once the block's own branch is active: its coins lack the DCT. -/
def sideStateOwn : NodeState :=
  { sideStateActive with chainActive := sideAncestry, pcoinsTip := some fun _ => none }

set_option maxRecDepth 20000 in
/-- Two node states that agree on the block index, the stored blocks and
pruning, and differ in the active chain and its coins, give opposite verdicts
on one hive block: `CheckHiveProof` accepts it against the coins of the
active chain, which hold the DCT, and rejects it when the block's own branch
is active, where the deep drill finds no DCT at the claimed height. -/
theorem hiveVerdict_differs_with_coins_view :
    sideStateActive.mapBlockIndex = sideStateOwn.mapBlockIndex ∧
      sideStateActive.blockStore = sideStateOwn.blockStore ∧
      sideStateActive.fHavePruned = sideStateOwn.fHavePruned ∧
      sideStateActive.chainActive ≠ sideStateOwn.chainActive ∧
      checkHiveProof sideEnv mainParams sideStateActive sideBlock = (.ok true, sideStateActive) ∧
      checkHiveProof sideEnv mainParams sideStateOwn sideBlock = (.ok false, sideStateOwn) := by
  set f := decodeHiveProof sideProofOut.scriptPubKey
  -- the stages before the lookup pass in any state
  have hstages : ∀ st : NodeState, (checkHiveProofFrom sideEnv mainParams st sideBlock sideAncestry 36523).run =
      (hiveDctLookup sideEnv mainParams st sideAncestry f >>=
        hiveDctChecks sideEnv mainParams 36523 (.keyId sideRewardKey) f).run := fun st =>
    @checkHiveProofFrom_eq_lookup sideEnv mainParams st sideBlock sideAncestry 36523 0 sideCoinbase
      sideProofOut 0x200fffff (.keyId sideRewardKey) (by decide) (by decide) (by decide)
      (by decide) rfl (getNextHiveWorkRequired_initialDistributionAbove 0x1e0fffff 2000)
      (by decide) (by decide)
  -- both states hold the parent, so `CheckHiveProof` is the verdict of the run above
  have hverdict : ∀ st : NodeState, st.mapBlockIndex = sideStateActive.mapBlockIndex →
      checkHiveProof sideEnv mainParams st sideBlock =
        (Guarded.verdict (checkHiveProofFrom sideEnv mainParams st sideBlock sideAncestry 36523), st) := by
    intro st hmap
    have hfind : st.mapBlockIndex.find sideBlock.hashPrevBlock =
        some (stampedRecord 36522 0x1e0fffff 0 :: powBlocksAbove 0x1e0fffff 34522 initialDistribution 1999) := by
      rw [hmap]
      rfl
    simp only [checkHiveProof, lookupPrev_of_find_some hfind]
    rfl
  -- the active chain's coins: the UTXO path finds the DCT and its checks pass
  have haccept : (checkHiveProofFrom sideEnv mainParams sideStateActive sideBlock sideAncestry 36523).run =
      .ok (some ()) := by
    have hcoin : getCoin sideStateActive ⟨uint256S f.txidStr, 0⟩ = some sideDctCoin := by decide
    have hcontrib : f.communityContrib = false := by decide
    rw [hstages, hiveDctLookup_utxo hcoin hcontrib, Guarded.run_bind_of_run (Guarded.run_pure _)]
    decide
  -- the own branch's coins: the drill finds no DCT at the claimed height
  have hreject : (checkHiveProofFrom sideEnv mainParams sideStateOwn sideBlock sideAncestry 36523).run =
      .ok none := by
    have hcoin : getCoin sideStateOwn ⟨uint256S f.txidStr, 0⟩ = none := rfl
    have hdrill : getTxByHashAndHeight sideEnv sideStateOwn (uint256S f.txidStr) (toInt32 f.dctClaimedHeight)
        sideAncestry = .ok none := by decide
    rw [hstages, Guarded.run_bind_of_none (hiveDctLookup_drill_none hcoin hdrill)]
  -- the two chains share their top 2000 blocks and the initial distribution
  -- below the DCT's height, and differ in the block at that height
  have hchains : sideActiveChain ≠ sideAncestry := by
    intro h
    have hbelow := powBlocksAbove_injective h
    rw [initialDistribution, show (34522 : Nat) = 33643 + 879 from rfl, powBlocksUpTo_add] at hbelow
    have hdct := congrArg (fun l => l.head?.map IndexRecord.hashBlock) (powBlocksAbove_injective hbelow)
    exact absurd hdct (by decide)
  refine ⟨rfl, rfl, rfl, hchains, ?_, ?_⟩
  · rw [hverdict sideStateActive rfl, Guarded.verdict_eq_true.mpr haccept]
  · rw [hverdict sideStateOwn rfl, Guarded.verdict_eq_false.mpr hreject]

end Ring.Hive
