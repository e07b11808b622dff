import Ring.Chain.BlockIndex

/-!
# Difficulty and score retargeting (src/pow.cpp)

* `getNextWorkRequired`: the PoW target, a 24-block moving average of the
  previous PoW targets (hive and pop blocks skipped) scaled by the clamped
  time those blocks took (`GetNextWorkRequired`, src/pow.cpp:27-88).
* `getNextHiveWorkRequired`: the hive target, the average of up to
  `hiveDifficultyWindow` hive targets scaled by how many non-pop blocks the
  scan passed (src/pow.cpp:113-149).
* `getNextPopScoreRequired`: the game score target from the number of pop
  blocks among the last `popScoreAdjustWindowSize` (src/pow.cpp:90-111).
* `checkProofOfWork` (src/pow.cpp:151-168).

Arithmetic on `arith_uint256` is modulo 2^256 (`BitVec 256`). The walks
`assert` that `pprev` exists before every step; a failed assert is a `Fault`.
-/
namespace Ring.Chain

open Ring.Arith

/-- `base_uint::operator/=`: throws `uint_error` on a zero divisor.
mirrors src/arith_uint256.cpp:85-105 -/
def divArith (a b : ArithUint256) : Except Fault ArithUint256 :=
  if b = 0 then .error (.thrown "Division by zero") else .ok (a / b)

/-- `while (p->IsHiveMined() || p->IsPopMined()) { assert(p->pprev); p = p->pprev; }`:
the nearest PoW block at or behind `p`. -/
def skipHivePop (params : Params) : CBlockIndex → Except Fault CBlockIndex
  | [] => .error .nullDeref
  | r :: rest =>
    if r.isHiveMined params || r.isPopMined params then
      if rest = [] then .error .assertion else skipHivePop params rest
    else .ok (r :: rest)

/-- The averaging loop of `GetNextWorkRequired`: `i` PoW targets still to add,
each divided by 24 before it is added; then `assert(pindex->pprev)` and a step
back. Returns the sum and the block behind the last one added.
mirrors src/pow.cpp:51-63 -/
def pastTargetLoop (params : Params) : Nat → CBlockIndex → ArithUint256 →
    Except Fault (ArithUint256 × CBlockIndex)
  | 0, p, avg => .ok (avg, p)
  | i + 1, p, avg => do
    let q ← skipHivePop params p
    match q with
    | [] => .error .nullDeref
    | r :: rest =>
      let avg := avg + targetOf r.nBits / BitVec.ofNat 256 24
      if rest = [] then .error .assertion else pastTargetLoop params i rest avg

/-- The time the window took, clamped to `[T/3, 3T]` for `T = 24 * spacing`. -/
def clampTimespan (params : Params) (ts : Int) : Int :=
  let tts := 24 * params.nPowTargetSpacing
  let ts := if ts < tts.tdiv 3 then tts.tdiv 3 else ts
  if ts > tts * 3 then tts * 3 else ts

/-- `GetNextWorkRequired(pindexLast, pblock, params)`; `blockTime` is
`pblock->GetBlockTime()`.
mirrors src/pow.cpp:27-88 -/
def getNextWorkRequired (params : Params) (pindexLast : CBlockIndex) (blockTime : Int) :
    Except Fault UInt32 := do
  match pindexLast with
  | [] => .error .assertion
  | last :: _ =>
    if last.nHeight < params.lastInitialDistributionHeight then
      return getCompact (uintToArith256 params.powLimitInitialDistribution) false
    let bnPowLimit := uintToArith256 params.powLimit
    if params.fPowAllowMinDifficultyBlocks &&
        decide (blockTime > last.blockTime + params.nPowTargetSpacing * 10) then
      return getCompact bnPowLimit false
    let pl ← skipHivePop params pindexLast
    let (avg, pindex) ← pastTargetLoop params 24 pl 0
    let tLast := (pl.head?.map IndexRecord.blockTime).getD 0
    let tFirst := (pindex.head?.map IndexRecord.blockTime).getD 0
    let ts := clampTimespan params (tLast - tFirst)
    -- `*= nActualTimespan` takes a `uint32_t`; `/= nTargetTimespan` a `base_uint(uint64_t)`
    let bnNew := avg * BitVec.ofNat 256 (ts % 2 ^ 32).toNat
    let bnNew ← divArith bnNew (BitVec.ofNat 256 ((24 * params.nPowTargetSpacing) % 2 ^ 64).toNat)
    let bnNew := if bnNew > bnPowLimit then bnPowLimit else bnNew
    return getCompact bnNew false

/-- The pop-block count of `GetNextPopScoreRequired`'s window: `i` blocks still
to look at. -/
def popCountLoop (params : Params) : Nat → CBlockIndex → Int → Except Fault Int
  | 0, _, score => .ok score
  | _ + 1, [], _ => .error .nullDeref
  | i + 1, r :: rest, score =>
    let score := if r.isPopMined params then score + 1 else score
    if rest = [] then .error .assertion else popCountLoop params i rest score

/-- `GetNextPopScoreRequired`: `int` arithmetic, division truncating.
mirrors src/pow.cpp:90-111 -/
def getNextPopScoreRequired (params : Params) (pindexLast : CBlockIndex) : Except Fault Int := do
  let intScaler := params.popScoreAdjustWindowSize * params.popScoreAdjustWindowSize
  let minScore := params.popMinScoreTarget * intScaler
  let maxScore := params.popMaxScoreTarget * intScaler
  let score ← popCountLoop params params.popScoreAdjustWindowSize.toNat pindexLast 0
  let score := score * score
  let score := minScore + (score * (maxScore - minScore)).tdiv intScaler
  return score.tdiv intScaler

/-- The scan of `GetNextHiveWorkRequired`: the sum of the hive targets, the
hive count and the non-pop count, while fewer than `hiveDifficultyWindow`
hive blocks are found, `pprev` exists and the height is at least
`minHiveCheckBlock`.
mirrors src/pow.cpp:122-131 -/
def hiveScan (params : Params) : CBlockIndex → ArithUint256 → Nat → Nat → ArithUint256 × Nat × Nat
  | [], s, h, t => (s, h, t)
  | r :: rest, s, h, t =>
    if decide ((h : Int) < params.hiveDifficultyWindow) && !rest.isEmpty &&
        decide (r.nHeight ≥ params.minHiveCheckBlock) then
      let s := if r.isHiveMined params then s + targetOf r.nBits else s
      let h := if r.isHiveMined params then h + 1 else h
      let t := if !r.isPopMined params then t + 1 else t
      hiveScan params rest s h t
    else (s, h, t)

/-- `GetNextHiveWorkRequired`.
mirrors src/pow.cpp:113-149 -/
def getNextHiveWorkRequired (params : Params) (pindexLast : CBlockIndex) : Except Fault UInt32 := do
  if pindexLast = [] then throw .nullDeref
  let bnPowLimit := uintToArith256 params.powLimitHive
  let (dwarfHashTarget, hiveBlockCount, totalBlockCount) := hiveScan params pindexLast 0 0 0
  if hiveBlockCount = 0 then return getCompact bnPowLimit false
  let dwarfHashTarget ← divArith dwarfHashTarget (BitVec.ofNat 256 hiveBlockCount)
  let targetTotalBlockCount := (hiveBlockCount : Int) * params.hiveBlockSpacingTarget
  -- `*= totalBlockCount` takes a `uint32_t`
  let dwarfHashTarget := dwarfHashTarget * BitVec.ofNat 256 (totalBlockCount % 2 ^ 32)
  let dwarfHashTarget ← divArith dwarfHashTarget
    (BitVec.ofNat 256 (targetTotalBlockCount % 2 ^ 64).toNat)
  let dwarfHashTarget := if dwarfHashTarget > bnPowLimit then bnPowLimit else dwarfHashTarget
  return getCompact dwarfHashTarget false

/-- `CheckProofOfWork(hash, nBits, params)`: the target must decode without
sign or overflow, be non-zero and at most `powLimitInitialDistribution`, and
bound the hash.
mirrors src/pow.cpp:151-168 -/
def checkProofOfWork (hash : Uint256) (nBits : UInt32) (params : Params) : Bool :=
  let (bnTarget, fNegative, fOverflow) := setCompact nBits
  if fNegative || bnTarget == 0 || fOverflow ||
      decide (bnTarget > uintToArith256 params.powLimitInitialDistribution) then false
  else !decide (uintToArith256 hash > bnTarget)

end Ring.Chain
