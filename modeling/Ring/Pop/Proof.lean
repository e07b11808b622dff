import Ring.Pop.Game0

/-!
# `CheckPopProof` (src/pow.cpp:564-754)

A pop block's coinbase carries, in `vout[0]`, the script
`OP_RETURN OP_GAME <gameType> <32:sourceHash> OP_TRUE|OP_FALSE [<65:sig>] <solution>`.
The source hash names a hive-mined block at a claimed depth; a private claim
is signed by the key the source block paid. The solution is replayed by
Game0 against the pop score target, and the scan back to the source block
refuses a source some pop block since has claimed.

The parent lookup and the source lookup both go through
`mapBlockIndex[...]`, so the check is three `Check` stages around them:
`popCoinbase` before the source lookup, `checkPopProofFrom` after it.
-/
namespace Ring.Pop

open Ring.Lib Ring.Arith Ring.Script Ring.Chain Ring.Node

/-- The fields of a pop proof script, read at fixed offsets.
mirrors src/pow.cpp:614-631,684-720 -/
structure PopProofFields where
  gameType : UInt8
  gameSourceHash : Uint256
  isPrivate : Bool
  messageSig : List UInt8
  solution : List UInt8
  deriving DecidableEq

/-- `gameSourceHashBin.SetHex(HexStr(&spk[o], &spk[o + 32]))`. -/
def readSourceHash (spk : CScript) (o : Nat) : Uint256 := setHex (hexStr (slice spk o 32))

/-- The game type at 2, the source hash at 4, the flag at 36, the signature
at 38, and the solution from 104 (private) or 38 (public) to the end. The
script is at least 42 bytes long, 108 when private, when this runs. -/
def decodePopProof (spk : CScript) : PopProofFields where
  gameType := spk.getD 2 0
  gameSourceHash := readSourceHash spk 4
  isPrivate := spk.getD 36 0 == OP_TRUE
  messageSig := slice spk 38 65
  solution := spk.drop (if spk.getD 36 0 == OP_TRUE then 104 else 38)

/-- The coinbase checks: no DCT after the coinbase, a coinbase with 2 or 3
outputs whose `vout[0]` is long enough for its layout and starts
`OP_RETURN OP_GAME`, with game type 0.
mirrors src/pow.cpp:585-618 -/
def popCoinbase (env : Env) (vtx : List CTransaction) : Check (CTransaction × PopProofFields) := do
  noDCTAfterCoinbase env vtx
  let txCoinbase ← Guarded.lift (at! vtx 0)
  if !txCoinbase.isCoinBase then failure
  if txCoinbase.vout.length < 2 || txCoinbase.vout.length > 3 then failure
  let out0 ← Guarded.lift (at! txCoinbase.vout 0)
  let spk := out0.scriptPubKey
  if spk.length < 42 || (spk.getD 36 0 == OP_TRUE && spk.length < 108) then failure
  if spk.getD 0 0 != OP_RETURN || spk.getD 1 0 != OP_GAME then failure
  let f := decodePopProof spk
  if f.gameType != 0 then failure
  return (txCoinbase, f)

/-- The claim depth range: `[popMinPrivateGameDepth, popMaxPrivateGameDepth]`
for a private claim, `[popMaxPrivateGameDepth, popMaxPublicGameDepth]` for a
public one. -/
def depthInRange (params : Params) (isPrivate : Bool) (depth : Int) : Bool :=
  if isPrivate then
    decide (params.popMinPrivateGameDepth ≤ depth ∧ depth ≤ params.popMaxPrivateGameDepth)
  else decide (params.popMaxPrivateGameDepth ≤ depth ∧ depth ≤ params.popMaxPublicGameDepth)

/-- The source hash a stored pop block claims: bytes 4..35 of its coinbase's
`vout[0]`, read with no size check.
mirrors src/pow.cpp:737-738 -/
def claimedSourceHash (block : CBlock) : Except Fault Uint256 := do
  let tx0 ← at! block.vtx 0
  let out0 ← at! tx0.vout 0
  if out0.scriptPubKey.length < 36 then throw .outOfRange
  return readSourceHash out0.scriptPubKey 4

/-- The already-claimed scan: from `pindexPrev` down to the source height,
each readable pop block must claim another source; `pprev` is asserted
before each step.
mirrors src/pow.cpp:731-749 -/
def popClaimScan (params : Params) (st : NodeState) (gameSourceHash : Uint256)
    (sourceBlockHeight : Int) : CBlockIndex → Check Unit
  | [] => Guarded.lift (.error .nullDeref)
  | r :: rest =>
    if r.nHeight > sourceBlockHeight then do
      if r.isPopMined params then
        if let some block := readBlockFromDisk st (r :: rest) then
          if gameSourceHash == (← Guarded.lift (claimedSourceHash block)) then failure
      if rest = [] then Guarded.lift (.error .assertion)
      popClaimScan params st gameSourceHash sourceBlockHeight rest
    else pure ()

/-- The source block's reward destination, read from its coinbase's
`vout[1]`; it must be a valid destination.
mirrors src/pow.cpp:679-684 -/
def popSourceReward (env : Env) (sourceBlock : CBlock) : Check CTxDestination := do
  let stx0 ← Guarded.lift (at! sourceBlock.vtx 0)
  let sout1 ← Guarded.lift (at! stx0.vout 1)
  let some rewardSourceBlock := env.extractDestination sout1.scriptPubKey | failure
  if !isValidDestination rewardSourceBlock then failure
  return rewardSourceBlock

/-- The solution against the score target of `pindexPrev`, then the scan for
an earlier claim of the source.
mirrors src/pow.cpp:723-749 -/
def popGameChecks (env : Env) (params : Params) (st : NodeState) (pindexPrev : CBlockIndex)
    (f : PopProofFields) (sourceBlockHeight : Int) : Check Unit := do
  let targetScore ← Guarded.lift (getNextPopScoreRequired params pindexPrev)
  match ← Guarded.lift (verifyGameSolution env.hashWriter targetScore f.gameSourceHash f.solution) with
  | .error _ => failure
  | .ok () => popClaimScan params st f.gameSourceHash sourceBlockHeight pindexPrev

/-- `CheckPopProof` once the source block's index `pindexSource` has been
looked up.
mirrors src/pow.cpp:640-752 -/
def checkPopProofFrom (env : Env) (params : Params) (st : NodeState) (checkActiveChain : Bool)
    (pindexPrev : CBlockIndex) (blockHeight : Int) (f : PopProofFields)
    (pindexSource : CBlockIndex) : Check Unit := do
  let r :: _ := pindexSource | failure
  if checkActiveChain && !chainContains st.chainActive pindexSource then failure
  let some sourceBlock := readBlockFromDisk st pindexSource | failure
  if !sourceBlock.isHiveMined params then failure
  let sourceBlockHeight := r.nHeight
  if !depthInRange params f.isPrivate (blockHeight - sourceBlockHeight) then failure
  let rewardSourceBlock ← popSourceReward env sourceBlock
  if f.isPrivate then
    checkMessageSig env rewardSourceBlock (getDeterministicRandString pindexPrev) f.messageSig
  popGameChecks env params st pindexPrev f sourceBlockHeight

/-- `CheckPopProof(pblock, params, checkActiveChain)`: the verdict, and the
node state after the parent lookup and, when the coinbase passes, the source
lookup `mapBlockIndex[uint256S(gameSourceHashStr)]`.
mirrors src/pow.cpp:564-754 -/
def checkPopProof (env : Env) (params : Params) (st : NodeState) (checkActiveChain : Bool)
    (block : CBlock) : Except Fault Bool × NodeState :=
  let (prev, st₁) := lookupPrev st block.hashPrevBlock
  match prev with
  | .error e => (.error e, st₁)
  | .ok (pindexPrev, blockHeight) =>
    match (popCoinbase env block.vtx).run with
    | .error e => (.error e, st₁)
    | .ok none => (.ok false, st₁)
    | .ok (some (_, f)) =>
      let (pindexSource, m) :=
        st₁.mapBlockIndex.subscript [] (uint256S f.gameSourceHash.getHex)
      let st₂ := { st₁ with mapBlockIndex := m }
      (Guarded.verdict (checkPopProofFrom env params st₂ checkActiveChain pindexPrev blockHeight f
        pindexSource), st₂)

end Ring.Pop
