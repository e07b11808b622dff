import Ring.Chain.Pow

/-!
# Chainwork: `GetBlockProof` (src/chain.cpp:127-222)

A block's work is `2^256 / (target + 1)`, computed as
`~target / (target + 1) + 1`, scaled by a factor `k`. A hive block adds the
work of the last PoW-or-pop block behind it and takes `k` from its own hive
difficulty; a PoW or pop block takes `k = maxKPow - n` for the `n` blocks
since the last hive block (within `maxKPow`), halved once or twice when that
hive block's difficulty is below `powSplit1`, `powSplit2`.

The difficulties are `double`s computed by `GetDifficulty` from a hive
block's `nBits` alone (src/rpc/blockchain.cpp:63-102). `HiveDifficulty` takes
what `GetBlockProof` does with them as given: the hive `k` and the two
comparisons, each a function of that `nBits`.
-/
namespace Ring.Chain

open Ring.Arith

/-- What `GetBlockProof` computes from hive difficulties, by the hive
block's `nBits`: `floor(min(diff / maxHiveDiff, 1) * (maxK - minK) + minK)`,
`diff < powSplit1` and `diff < powSplit2`. -/
structure HiveDifficulty where
  hiveK : UInt32 → Nat
  belowSplit1 : UInt32 → Bool
  belowSplit2 : UInt32 → Bool

/-- `(~bnTarget / (bnTarget + 1)) + 1`, that is `2^256 / (bnTarget + 1)`. -/
def targetScaled (bnTarget : ArithUint256) : ArithUint256 := (~~~bnTarget) / (bnTarget + 1) + 1

/-- What the work of a target means: `~T / (T + 1) + 1` is `2^256 / (T + 1)`,
the expected number of hashes to meet `T`, for every nonzero `T` (the one
wrapping `T + 1`, at `T = 2^256 - 1`, included). -/
theorem toNat_targetScaled {t : ArithUint256} (ht : t ≠ 0) :
    (targetScaled t).toNat = 2 ^ 256 / (t.toNat + 1) := by
  have hpos : 0 < t.toNat := by
    rcases Nat.eq_zero_or_pos t.toNat with h | h
    · exact absurd (BitVec.eq_of_toNat_eq (by simpa using h)) ht
    · exact h
  have hlt := t.isLt
  have hone : (1 : ArithUint256).toNat = 1 := rfl
  rcases Nat.lt_or_ge (t.toNat + 1) (2 ^ 256) with hsmall | hmax
  · -- `t + 1` does not wrap: `~t / (t + 1) + 1 = (2^256 - 1 - t + (t + 1)) / (t + 1)`
    have hsucc : (t + 1).toNat = t.toNat + 1 := by
      rw [BitVec.toNat_add, hone, Nat.mod_eq_of_lt hsmall]
    have hq : ((~~~t) / (t + 1)).toNat = (2 ^ 256 - 1 - t.toNat) / (t.toNat + 1) := by
      rw [BitVec.toNat_udiv, BitVec.toNat_not, hsucc]
    have hqle : (2 ^ 256 - 1 - t.toNat) / (t.toNat + 1) ≤ 2 ^ 256 - 1 - t.toNat := Nat.div_le_self _ _
    rw [targetScaled, BitVec.toNat_add, hq, hone, Nat.mod_eq_of_lt (by omega)]
    calc (2 ^ 256 - 1 - t.toNat) / (t.toNat + 1) + 1
        = (2 ^ 256 - 1 - t.toNat + (t.toNat + 1)) / (t.toNat + 1) := by
          rw [Nat.add_div_right _ (Nat.succ_pos _)]
      _ = 2 ^ 256 / (t.toNat + 1) := by congr 1; omega
  · -- `t = 2^256 - 1`: `t + 1` wraps to `0`, a division by zero gives `0`, and the work is `1`
    have hsucc : (t + 1).toNat = 0 := by
      rw [BitVec.toNat_add, hone]
      have : t.toNat + 1 = 2 ^ 256 := by omega
      rw [this, Nat.mod_self]
    rw [targetScaled, BitVec.toNat_add, BitVec.toNat_udiv, hsucc, Nat.div_zero, hone,
      show t.toNat + 1 = 2 ^ 256 by omega, Nat.div_self (Nat.two_pow_pos 256)]

/-- The target of `nBits`, or `none` when it is negative, overflows or is zero
(`GetBlockProof` then returns `0`). -/
def validTarget (nBits : UInt32) : Option ArithUint256 :=
  let (bnTarget, fNegative, fOverflow) := setCompact nBits
  if fNegative || fOverflow || bnTarget == 0 then none else some bnTarget

theorem ne_zero_of_validTarget {nBits : UInt32} {t : ArithUint256} (h : validTarget nBits = some t) :
    t ≠ 0 := by
  rcases hs : setCompact nBits with ⟨b, fNegative, fOverflow⟩
  simp only [validTarget, hs, Bool.or_eq_true, beq_iff_eq] at h
  split_ifs at h with hc
  cases h
  exact fun hb => hc (.inr hb)

/-- The `while` of a hive block's branch: the nearest ancestor that is not
hive mined, asserting `pprev` before each step. -/
def lastNonHive (params : Params) : CBlockIndex → Except Fault IndexRecord
  | [] => .error .nullDeref
  | r :: rest =>
    if r.isHiveMined params then
      if rest = [] then .error .assertion else lastNonHive params rest
    else .ok r

/-- The `for` of a PoW or pop block's branch from `block.pprev`:
`some (blocksSinceHive, nBits of the hive block found)`, with `none` for the
`nBits` once `maxKPow` blocks are passed, and `none` overall when `pprev` runs
out first (`GetBlockProof` then returns the unscaled work). -/
def lastHiveLoop (params : Params) : Nat → Nat → CBlockIndex →
    Except Fault (Option (Nat × Option UInt32))
  | n, 0, _ => .ok (some (n, none))
  | _, _ + 1, [] => .error .nullDeref
  | n, i + 1, r :: rest =>
    if r.isHiveMined params then .ok (some (n, some r.nBits))
    else if rest = [] then .ok none
    else lastHiveLoop params (n + 1) i rest

/-- The `k` of a PoW or pop block: `maxKPow - blocksSinceHive`, halved when the
last hive difficulty is below each split (a difficulty of `0` when no hive
block was found, below both), and at least 1. -/
def powK (params : Params) (hd : HiveDifficulty) (blocksSinceHive : Nat)
    (lastHive : Option UInt32) : Nat :=
  let k := params.maxKPow.toNat - blocksSinceHive
  let k := if lastHive.all hd.belowSplit1 then k >>> 1 else k
  let k := if lastHive.all hd.belowSplit2 then k >>> 1 else k
  if k < 1 then 1 else k

/-- `GetBlockProof(block)` for the index `block` (a record and its ancestors).
mirrors src/chain.cpp:127-222 -/
def getBlockProof (params : Params) (hd : HiveDifficulty) : CBlockIndex → Except Fault ArithUint256
  | [] => .error .nullDeref
  | r :: rest =>
    match validTarget r.nBits with
    | none => .ok 0
    | some bnTarget =>
      let bnTargetScaled := targetScaled bnTarget
      if r.isHiveMined params then do
        if rest = [] then throw .assertion
        let pindexTemp ← lastNonHive params rest
        match validTarget pindexTemp.nBits with
        | none => return 0
        | some bnPreviousTarget =>
          return (bnTargetScaled + targetScaled bnPreviousTarget) * BitVec.ofNat 256 (hd.hiveK r.nBits)
      else do
        if rest = [] then return bnTargetScaled
        match ← lastHiveLoop params 0 params.maxKPow.toNat rest with
        | none => return bnTargetScaled
        | some (blocksSinceHive, lastHive) =>
          return bnTargetScaled * BitVec.ofNat 256 (powK params hd blocksSinceHive lastHive)

end Ring.Chain
