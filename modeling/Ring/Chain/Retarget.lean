import Ring.Chain.Pow
import Ring.Lib.Word

/-!
# Retargeting in 256 bits and over unbounded integers

`GetNextWorkRequired` and `GetNextHiveWorkRequired` (src/pow.cpp:27-149)
compute their targets in `arith_uint256`, modulo 2^256. This module states
the same formulas over ℕ (`nextWorkTarget`, `nextHiveWorkTarget`) and says
when the two agree.

* `pastTargetLoop_eq`: the averaging loop of `GetNextWorkRequired` is the
  sum, over the 24 PoW blocks of `powWindow`, of `target / 24`.
* `getNextWorkRequired_of_no_wrap`: when `average * timespan < 2^256` the
  256-bit computation returns the compact form of `nextWorkTarget`;
  `getNextWorkRequired_of_window_le_powLimit`: this holds whenever every
  block of the window is at or below `powLimit`.
* `hiveScan_eq`, `getNextHiveWorkRequired_of_no_wrap`: the same for the
  hive target, given that the sum of the hive targets and its product with
  the block count stay below 2^256.
* `nextWork_wraps_at_initial_distribution`: on the main network the window
  of the second block after `lastInitialDistributionHeight` still holds 22
  initial-distribution targets (~2^248); times the timespan the average
  exceeds 2^256 and the 256-bit result is not the ℕ one.
* `nextHiveWork_wraps_after_slow_start`: one hive block at the limit
  (~2^252) and 2001 non-pop blocks in the scan make the product exceed
  2^256; the wrapped target is about half the ℕ one.
-/
namespace Ring.Chain

open Ring.Arith Ring.Lib

/-! ## The formulas over ℕ -/

/-- The PoW blocks `GetNextWorkRequired` averages, newest first, and the
block its walk stops at: `pastTargetLoop` with the blocks kept. -/
def powWindow (params : Params) : Nat → CBlockIndex → Except Fault (List IndexRecord × CBlockIndex)
  | 0, p => .ok ([], p)
  | i + 1, p => do
    let q ← skipHivePop params p
    match q with
    | [] => .error .nullDeref
    | r :: rest =>
      if rest = [] then .error .assertion else do
        let (w, p') ← powWindow params i rest
        return (r :: w, p')

/-- `Σ target / 24` over the blocks of a window, in ℕ. -/
def windowAverage (w : List IndexRecord) : Nat := (w.map fun r => (targetOf r.nBits).toNat / 24).sum

/-- The window of `GetNextWorkRequired` and the clamped time it took. -/
def nextWorkWindow (params : Params) (pindexLast : CBlockIndex) :
    Except Fault (List IndexRecord × Nat) := do
  let pl ← skipHivePop params pindexLast
  let (w, pindex) ← powWindow params 24 pl
  let tLast := (pl.head?.map IndexRecord.blockTime).getD 0
  let tFirst := (pindex.head?.map IndexRecord.blockTime).getD 0
  return (w, (clampTimespan params (tLast - tFirst)).toNat)

/-- The target `GetNextWorkRequired` describes, over unbounded integers: the
average of the window's targets, times the clamped timespan, divided by
`24 * nPowTargetSpacing`, capped at `powLimit`. -/
def nextWorkTarget (params : Params) (pindexLast : CBlockIndex) (blockTime : Int) : Except Fault Nat :=
  match pindexLast with
  | [] => .error .assertion
  | last :: _ =>
    if last.nHeight < params.lastInitialDistributionHeight then
      .ok (uintToArith256 params.powLimitInitialDistribution).toNat
    else if params.fPowAllowMinDifficultyBlocks &&
        decide (blockTime > last.blockTime + params.nPowTargetSpacing * 10) then
      .ok (uintToArith256 params.powLimit).toNat
    else do
      let (w, ts) ← nextWorkWindow params pindexLast
      return min (uintToArith256 params.powLimit).toNat
        (windowAverage w * ts / (24 * params.nPowTargetSpacing).toNat)

/-- `hiveScan` with the sum of the hive targets kept in ℕ. -/
def hiveScanSum (params : Params) : CBlockIndex → Nat → Nat → Nat → Nat × Nat × Nat
  | [], s, h, t => (s, h, t)
  | r :: rest, s, h, t =>
    if decide ((h : Int) < params.hiveDifficultyWindow) && !rest.isEmpty &&
        decide (r.nHeight ≥ params.minHiveCheckBlock) then
      let s := if r.isHiveMined params then s + (targetOf r.nBits).toNat else s
      let h := if r.isHiveMined params then h + 1 else h
      let t := if !r.isPopMined params then t + 1 else t
      hiveScanSum params rest s h t
    else (s, h, t)

/-- The target `GetNextHiveWorkRequired` describes, over unbounded integers:
`min(powLimitHive, ⌊⌊sum / hiveCount⌋ * totalCount / (hiveCount *
hiveBlockSpacingTarget)⌋)`, or `powLimitHive` with no hive block. -/
def nextHiveWorkTarget (params : Params) (pindexLast : CBlockIndex) : Except Fault Nat := do
  if pindexLast = [] then throw .nullDeref
  let powLimitHive := (uintToArith256 params.powLimitHive).toNat
  let (sum, hiveCount, totalCount) := hiveScanSum params pindexLast 0 0 0
  if hiveCount = 0 then return powLimitHive
  return min powLimitHive
    (sum / hiveCount * totalCount / (hiveCount * params.hiveBlockSpacingTarget.toNat))

/-! ## 256-bit words that hold their value -/

/-- `operator/=` on values that fit: no throw, and ℕ division. -/
theorem divArith_ofNat {a b : Nat} (ha : a < 2 ^ 256) (hb0 : 0 < b) (hb : b < 2 ^ 256) :
    divArith (BitVec.ofNat 256 a) (BitVec.ofNat 256 b) = .ok (BitVec.ofNat 256 (a / b)) := by
  simp only [divArith, Word.ofNat_ne_zero hb0 hb, if_false, Word.ofNat_div_ofNat ha hb]

/-- One step of the averaging loop: `avg += target / 24` adds in ℕ. -/
theorem ofNat_add_div_24 (a : Nat) (x : ArithUint256) :
    BitVec.ofNat 256 a + x / BitVec.ofNat 256 24 = BitVec.ofNat 256 (a + x.toNat / 24) := by
  rw [Word.div_ofNat x (by decide), Word.ofNat_add_toNat,
    Word.toNat_ofNat_of_lt (Nat.lt_of_le_of_lt (Nat.div_le_self _ _) x.isLt)]

/-! ## `GetNextWorkRequired` -/

@[simp] theorem windowAverage_nil : windowAverage [] = 0 := rfl

@[simp] theorem windowAverage_cons (r : IndexRecord) (w : List IndexRecord) :
    windowAverage (r :: w) = (targetOf r.nBits).toNat / 24 + windowAverage w := by
  simp [windowAverage]

/-- The averaging loop sums `target / 24` over the window, modulo 2^256. -/
theorem pastTargetLoop_eq (params : Params) : ∀ (i : Nat) (p : CBlockIndex) (a : Nat),
    pastTargetLoop params i p (BitVec.ofNat 256 a) =
      (powWindow params i p).map fun x => (BitVec.ofNat 256 (a + windowAverage x.1), x.2) := by
  intro i
  induction i with
  | zero => intro p a; rfl
  | succ i ih =>
    intro p a
    simp only [pastTargetLoop, powWindow]
    rcases skipHivePop params p with e | _ | ⟨r, rest⟩
    · rfl
    · rfl
    · by_cases hrest : rest = []
      · simp [hrest, Except.map, bind, Except.bind]
      · simp only [bind, Except.bind, hrest, if_false, ofNat_add_div_24, ih]
        rcases powWindow params i rest with e | ⟨w, q⟩
        · rfl
        · simp [Except.map, pure, Except.pure, Nat.add_assoc]

/-- One step of the window: the nearest PoW block, which has a parent, then
the rest of the window behind it. -/
theorem powWindow_succ {params : Params} {i : Nat} {p : CBlockIndex} {w : List IndexRecord}
    {q : CBlockIndex} (h : powWindow params (i + 1) p = .ok (w, q)) :
    ∃ r rest w', skipHivePop params p = .ok (r :: rest) ∧ rest ≠ [] ∧
      powWindow params i rest = .ok (w', q) ∧ w = r :: w' := by
  simp only [powWindow, bind, Except.bind] at h
  rcases hq : skipHivePop params p with e | _ | ⟨r, rest⟩ <;> simp only [hq] at h
  · cases h
  · cases h
  · by_cases hrest : rest = []
    · simp [hrest] at h
    · simp only [hrest, if_false] at h
      rcases hw : powWindow params i rest with e | ⟨w', q'⟩ <;> simp only [hw] at h
      · cases h
      · simp only [pure, Except.pure, Except.ok.injEq, Prod.mk.injEq] at h
        obtain ⟨rfl, rfl⟩ := h
        exact ⟨r, rest, w', rfl, hrest, hw, rfl⟩

/-- A window of `i` steps holds `i` blocks. -/
theorem powWindow_length (params : Params) : ∀ (i : Nat) (p : CBlockIndex) {w : List IndexRecord}
    {q : CBlockIndex}, powWindow params i p = .ok (w, q) → w.length = i := by
  intro i
  induction i with
  | zero => intro p w q h; cases h; rfl
  | succ i ih =>
    intro p w q h
    obtain ⟨r, rest, w', -, -, hw, rfl⟩ := powWindow_succ h
    simp [ih rest hw]

/-- Blocks at or below a target `T` average to at most `T / 24` each. -/
theorem windowAverage_le {T : Nat} : ∀ {w : List IndexRecord},
    (∀ r ∈ w, (targetOf r.nBits).toNat ≤ T) → windowAverage w ≤ w.length * (T / 24)
  | [], _ => by simp
  | r :: w, h => by
    have hr : (targetOf r.nBits).toNat / 24 ≤ T / 24 := Nat.div_le_div_right (h r List.mem_cons_self)
    have hw : windowAverage w ≤ w.length * (T / 24) :=
      windowAverage_le fun r' hr' => h r' (List.mem_cons_of_mem r hr')
    simp only [windowAverage_cons, List.length_cons, Nat.succ_mul]
    omega

/-- The clamp keeps the timespan in `[T/3, 3T]`, `T = 24 * nPowTargetSpacing`. -/
theorem clampTimespan_bounds (params : Params) (ts : Int) :
    0 ≤ clampTimespan params ts ∧ clampTimespan params ts ≤ 72 * params.nPowTargetSpacing := by
  have hsp := params.nPowTargetSpacing_pos
  have hthird : 0 ≤ (24 * params.nPowTargetSpacing).tdiv 3 := Int.tdiv_nonneg (by omega) (by decide)
  have hthird_le : (24 * params.nPowTargetSpacing).tdiv 3 ≤ 24 * params.nPowTargetSpacing * 3 := by
    rw [Int.tdiv_eq_ediv_of_nonneg (by omega)]
    omega
  simp only [clampTimespan]
  split_ifs <;> omega

/-- What `nextWorkWindow` returns: 24 blocks and a timespan of at most
`72 * nPowTargetSpacing`. -/
theorem nextWorkWindow_spec {params : Params} {pindexLast : CBlockIndex} {w : List IndexRecord}
    {ts : Nat} (h : nextWorkWindow params pindexLast = .ok (w, ts)) :
    w.length = 24 ∧ ts ≤ (72 * params.nPowTargetSpacing).toNat := by
  simp only [nextWorkWindow, bind, Except.bind] at h
  rcases hpl : skipHivePop params pindexLast with e | pl <;> simp only [hpl] at h
  · cases h
  · rcases hw : powWindow params 24 pl with e | ⟨w', q⟩ <;> simp only [hw] at h
    · cases h
    · simp only [pure, Except.pure, Except.ok.injEq, Prod.mk.injEq] at h
      obtain ⟨rfl, rfl⟩ := h
      have hb := clampTimespan_bounds params
        ((pl.head?.map IndexRecord.blockTime).getD 0 - (q.head?.map IndexRecord.blockTime).getD 0)
      exact ⟨powWindow_length params 24 pl hw, by omega⟩

/-- `nextWorkWindow` through its two walks. -/
theorem nextWorkWindow_eq {params : Params} {pindexLast pl q : CBlockIndex} {w : List IndexRecord}
    (hpl : skipHivePop params pindexLast = .ok pl) (hw : powWindow params 24 pl = .ok (w, q)) :
    nextWorkWindow params pindexLast = .ok (w, (clampTimespan params
      ((pl.head?.map IndexRecord.blockTime).getD 0 - (q.head?.map IndexRecord.blockTime).getD 0)).toNat) := by
  simp [nextWorkWindow, hpl, hw, bind, Except.bind, pure, Except.pure]

/-- When the average times the timespan fits in 256 bits, `GetNextWorkRequired`
returns the compact form of the target over unbounded integers. -/
theorem getNextWorkRequired_of_no_wrap {params : Params} {pindexLast : CBlockIndex} (blockTime : Int)
    (hsp : 72 * params.nPowTargetSpacing < 2 ^ 32)
    (hwrap : ∀ w ts, nextWorkWindow params pindexLast = .ok (w, ts) → windowAverage w * ts < 2 ^ 256) :
    getNextWorkRequired params pindexLast blockTime =
      (nextWorkTarget params pindexLast blockTime).map fun n => getCompact (BitVec.ofNat 256 n) false := by
  rcases pindexLast with _ | ⟨last, rest⟩
  · rfl
  · simp only [getNextWorkRequired, nextWorkTarget]
    split_ifs with hID hmin
    · simp [Except.map, pure, Except.pure, BitVec.ofNat_toNat]
    · simp [Except.map, pure, Except.pure, BitVec.ofNat_toNat]
    · rcases hpl : skipHivePop params (last :: rest) with e | pl
      · simp [hpl, nextWorkWindow, bind, Except.bind, Except.map]
      · rcases hw : powWindow params 24 pl with e | ⟨w, q⟩
        · simp [hpl, hw, nextWorkWindow, bind, Except.bind, Except.map,
            show (0 : ArithUint256) = BitVec.ofNat 256 0 from rfl, pastTargetLoop_eq]
        · have hwin := nextWorkWindow_eq hpl hw
          simp only [hw, hwin, bind, Except.bind, Except.map, pure, Except.pure,
            show (0 : ArithUint256) = BitVec.ofNat 256 0 from rfl, pastTargetLoop_eq, Nat.zero_add]
          obtain ⟨hc0, hc1⟩ := clampTimespan_bounds params
            ((pl.head?.map IndexRecord.blockTime).getD 0 - (q.head?.map IndexRecord.blockTime).getD 0)
          generalize clampTimespan params _ = c at hc0 hc1 hwin ⊢
          have hprod : windowAverage w * c.toNat < 2 ^ 256 := hwrap w c.toNat hwin
          have hsp0 := params.nPowTargetSpacing_pos
          -- the `uint32_t` timespan and the `uint64_t` divisor keep their values
          have hts : (c % 2 ^ 32).toNat = c.toNat := by rw [Int.emod_eq_of_lt hc0 (by omega)]
          have htts : (24 * params.nPowTargetSpacing % 2 ^ 64).toNat = (24 * params.nPowTargetSpacing).toNat := by
            rw [Int.emod_eq_of_lt (by omega) (by omega)]
          rw [hts, htts, ← BitVec.ofNat_mul, divArith_ofNat hprod (by omega) (by omega)]
          dsimp only
          rw [Word.cap_eq_min (lt_of_le_of_lt (Nat.div_le_self _ _) hprod)]


/-- `GetNextWorkRequired` never wraps while every block of its window is at
or below `powLimit` and `powLimit * 72 * nPowTargetSpacing` fits in 256
bits. -/
theorem getNextWorkRequired_of_window_le_powLimit {params : Params} {pindexLast : CBlockIndex}
    (blockTime : Int) (hsp : 72 * params.nPowTargetSpacing < 2 ^ 32)
    (hP : (uintToArith256 params.powLimit).toNat * (72 * params.nPowTargetSpacing).toNat < 2 ^ 256)
    (hwin : ∀ w ts, nextWorkWindow params pindexLast = .ok (w, ts) →
      ∀ r ∈ w, (targetOf r.nBits).toNat ≤ (uintToArith256 params.powLimit).toNat) :
    getNextWorkRequired params pindexLast blockTime =
      (nextWorkTarget params pindexLast blockTime).map fun n => getCompact (BitVec.ofNat 256 n) false := by
  apply getNextWorkRequired_of_no_wrap blockTime hsp
  intro w ts h
  obtain ⟨hlen, hts⟩ := nextWorkWindow_spec h
  set P := (uintToArith256 params.powLimit).toNat
  have havg : windowAverage w ≤ P :=
    calc windowAverage w ≤ w.length * (P / 24) := windowAverage_le (hwin w ts h)
      _ = 24 * (P / 24) := by rw [hlen]
      _ ≤ P := Nat.mul_div_le _ _
  calc windowAverage w * ts ≤ P * (72 * params.nPowTargetSpacing).toNat := Nat.mul_le_mul havg hts
    _ < 2 ^ 256 := hP

/-! ## `GetNextHiveWorkRequired` -/

/-- The hive scan sums its targets modulo 2^256 and counts as in ℕ. -/
theorem hiveScan_eq (params : Params) : ∀ (p : CBlockIndex) (s h t : Nat),
    hiveScan params p (BitVec.ofNat 256 s) h t =
      (BitVec.ofNat 256 (hiveScanSum params p s h t).1, (hiveScanSum params p s h t).2)
  | [], _, _, _ => rfl
  | r :: rest, s, h, t => by
    have hadd := Word.ofNat_add_toNat s (targetOf r.nBits)
    -- the counters move alike on both sides; only the sum changes representation
    by_cases hh : r.isHiveMined params = true
    · simp only [hiveScan, hiveScanSum, hh, if_true, hadd]
      split_ifs <;> first | rfl | exact hiveScan_eq params rest _ _ _
    · simp only [hiveScan, hiveScanSum, hh, if_false, Bool.false_eq_true]
      split_ifs <;> first | rfl | exact hiveScan_eq params rest _ _ _

/-- When the sum of the hive targets, and its average times the block
count, fit in 256 bits (and the counts in their C++ types),
`GetNextHiveWorkRequired` returns the compact form of the target over
unbounded integers. -/
theorem getNextHiveWorkRequired_of_no_wrap {params : Params} {pindexLast : CBlockIndex} {sum hc tc : Nat}
    (hscan : hiveScanSum params pindexLast 0 0 0 = (sum, hc, tc)) (hsum : sum < 2 ^ 256)
    (htc : tc < 2 ^ 32) (hdiv : hc * params.hiveBlockSpacingTarget.toNat < 2 ^ 64)
    (hprod : sum / hc * tc < 2 ^ 256) :
    getNextHiveWorkRequired params pindexLast =
      (nextHiveWorkTarget params pindexLast).map fun n => getCompact (BitVec.ofNat 256 n) false := by
  by_cases hnil : pindexLast = []
  · subst hnil
    rfl
  · have hsp := params.hiveBlockSpacingTarget_pos
    have hscan' : hiveScan params pindexLast 0 0 0 = (BitVec.ofNat 256 sum, hc, tc) := by
      rw [show (0 : ArithUint256) = BitVec.ofNat 256 0 from rfl, hiveScan_eq, hscan]
    simp only [getNextHiveWorkRequired, nextHiveWorkTarget, hnil, if_false, hscan, hscan']
    by_cases hc0 : hc = 0
    · simp [hc0, Except.map, pure, Except.pure, BitVec.ofNat_toNat]
    · -- every conversion keeps its value: the counts fit `uint32_t` and `uint64_t`
      have hsp1 : 1 ≤ params.hiveBlockSpacingTarget.toNat := by omega
      have hhc : hc < 2 ^ 64 := lt_of_le_of_lt (Nat.le_mul_of_pos_right hc hsp1) hdiv
      have htc' : tc % 2 ^ 32 = tc := Nat.mod_eq_of_lt htc
      have hcast : ((hc * params.hiveBlockSpacingTarget.toNat : Nat) : Int) =
          (hc : Int) * params.hiveBlockSpacingTarget := by
        rw [Int.natCast_mul, Int.toNat_of_nonneg (by omega)]
      have hdivisor : ((hc : Int) * params.hiveBlockSpacingTarget % 2 ^ 64).toNat =
          hc * params.hiveBlockSpacingTarget.toNat := by
        rw [← hcast, Int.emod_eq_of_lt (by omega) (by omega), Int.toNat_natCast]
      have hq : sum / hc * tc / (hc * params.hiveBlockSpacingTarget.toNat) < 2 ^ 256 :=
        lt_of_le_of_lt (Nat.div_le_self _ _) hprod
      simp only [hc0, if_false, divArith_ofNat hsum (Nat.pos_of_ne_zero hc0) (by omega), htc',
        ← BitVec.ofNat_mul, hdivisor, bind, Except.bind]
      rw [divArith_ofNat hprod (Nat.mul_pos (Nat.pos_of_ne_zero hc0) hsp1) (by omega)]
      simp only [pure, Except.pure, Except.map, Word.cap_eq_min hq]

/-- A scan over blocks none of which is hive mined keeps its hive count. -/
theorem hiveScanSum_count_of_no_hive (params : Params) :
    ∀ (p : CBlockIndex) (s h t : Nat), (∀ r ∈ p, r.isHiveMined params = false) →
      (hiveScanSum params p s h t).2.1 = h
  | [], _, _, _, _ => rfl
  | r :: rest, s, h, t, hp => by
    have hr := hp r List.mem_cons_self
    simp only [hiveScanSum, hr, Bool.false_eq_true, if_false]
    split
    · exact hiveScanSum_count_of_no_hive params rest _ _ _ fun q hq => hp q (List.mem_cons_of_mem r hq)
    · rfl

/-- The scan stops at the first block below `minHiveCheckBlock`. -/
theorem hiveScanSum_of_lt_min {params : Params} {r : IndexRecord} {rest : CBlockIndex}
    (hr : r.nHeight < params.minHiveCheckBlock) (s h t : Nat) :
    hiveScanSum params (r :: rest) s h t = (s, h, t) := by
  rw [hiveScanSum, if_neg (by simp; omega)]

/-- With no hive block behind it, the next hive target is `powLimitHive`
(src/pow.cpp:133-136). -/
theorem getNextHiveWorkRequired_of_no_hive {params : Params} {pindexLast : CBlockIndex}
    (hne : pindexLast ≠ []) (hp : ∀ r ∈ pindexLast, r.isHiveMined params = false) :
    getNextHiveWorkRequired params pindexLast = .ok (getCompact (uintToArith256 params.powLimitHive) false) := by
  rcases hs : hiveScanSum params pindexLast 0 0 0 with ⟨sum, hc, tc⟩
  have hc0 : hc = 0 := by
    simpa [hs] using hiveScanSum_count_of_no_hive params pindexLast 0 0 0 hp
  have hscan : hiveScan params pindexLast 0 0 0 = (BitVec.ofNat 256 sum, 0, tc) := by
    rw [show (0 : ArithUint256) = BitVec.ofNat 256 0 from rfl, hiveScan_eq, hs, hc0]
  simp only [getNextHiveWorkRequired, hne, if_false, hscan]
  rfl


/-! ## The header rules for `nBits` -/

/-- Each block above the genesis block satisfies `rule` against its parent's
chain. -/
def OnParents (rule : IndexRecord → CBlockIndex → Prop) : CBlockIndex → Prop
  | [] => True
  | [_] => True
  | r :: r' :: rest => rule r (r' :: rest) ∧ OnParents rule (r' :: rest)

/-- `bad-diffbits` (`ContextualCheckBlockHeader`): a block that is neither
hive- nor pop-mined carries `GetNextWorkRequired` of its parent. -/
def powBitsRule (params : Params) (r : IndexRecord) (parent : CBlockIndex) : Prop :=
  r.isHiveMined params = false → r.isPopMined params = false →
    getNextWorkRequired params parent r.blockTime = .ok r.nBits

/-- `bad-hive-diffbits`: a hive-mined block carries `GetNextHiveWorkRequired`
of its parent. -/
def hiveBitsRule (params : Params) (r : IndexRecord) (parent : CBlockIndex) : Prop :=
  r.isHiveMined params = true → getNextHiveWorkRequired params parent = .ok r.nBits

theorem onParents_cons {rule : IndexRecord → CBlockIndex → Prop} (r : IndexRecord) {p : CBlockIndex}
    (hp : p ≠ []) : OnParents rule (r :: p) ↔ rule r p ∧ OnParents rule p := by
  rcases p with _ | ⟨r', rest⟩
  · exact absurd rfl hp
  · rfl

theorem onParents_of_forall {rule : IndexRecord → CBlockIndex → Prop} :
    ∀ {p : CBlockIndex}, (∀ r ∈ p, ∀ parent, rule r parent) → OnParents rule p
  | [], _ => trivial
  | [_], _ => trivial
  | r :: _ :: _, h =>
    ⟨h r List.mem_cons_self _, onParents_of_forall fun x hx => h x (List.mem_cons_of_mem r hx)⟩

/-- Below `lastInitialDistributionHeight` the target is
`powLimitInitialDistribution`. -/
theorem getNextWorkRequired_initial {params : Params} {last : IndexRecord} {rest : CBlockIndex}
    (blockTime : Int) (h : last.nHeight < params.lastInitialDistributionHeight) :
    getNextWorkRequired params (last :: rest) blockTime =
      .ok (getCompact (uintToArith256 params.powLimitInitialDistribution) false) := by
  simp [getNextWorkRequired, h, pure, Except.pure]

/-- Without minimum-difficulty blocks the new block's time is not read. -/
theorem getNextWorkRequired_blockTime {params : Params} (h : params.fPowAllowMinDifficultyBlocks = false)
    (p : CBlockIndex) (t t' : Int) : getNextWorkRequired params p t = getNextWorkRequired params p t' := by
  rcases p with _ | ⟨last, rest⟩
  · rfl
  · simp [getNextWorkRequired, h]

theorem nextWorkTarget_blockTime {params : Params} (h : params.fPowAllowMinDifficultyBlocks = false)
    (p : CBlockIndex) (t t' : Int) : nextWorkTarget params p t = nextWorkTarget params p t' := by
  rcases p with _ | ⟨last, rest⟩
  · rfl
  · simp [nextWorkTarget, h]

/-! ## The main network at the end of the initial distribution -/

/-- A block of the chains below: height `h`, stamped `128 * h` seconds. -/
def stampedRecord (h : Nat) (bits nonce : UInt32) : IndexRecord :=
  { hashBlock := Uint256.null, nHeight := h, nStatus := 0, nTx := 1, nVersion := 4,
    hashMerkleRoot := Uint256.null, nTime := UInt32.ofNat (128 * h), nBits := bits, nNonce := nonce }

/-- PoW blocks at heights `0 .. n`, newest first, all with `nBits = bits`. -/
def powBlocksUpTo (bits : UInt32) : Nat → CBlockIndex
  | 0 => [stampedRecord 0 bits 0]
  | n + 1 => stampedRecord (n + 1) bits 0 :: powBlocksUpTo bits n

/-- `k` PoW blocks with `nBits = bits` at heights `h0 + 1 .. h0 + k` on top of
`base`. -/
def powBlocksAbove (bits : UInt32) (h0 : Nat) (base : CBlockIndex) : Nat → CBlockIndex
  | 0 => base
  | k + 1 => stampedRecord (h0 + k + 1) bits 0 :: powBlocksAbove bits h0 base k

theorem head_powBlocksUpTo (bits : UInt32) (n : Nat) :
    (powBlocksUpTo bits n).head? = some (stampedRecord n bits 0) := by
  cases n <;> rfl

theorem linked_powBlocksUpTo (bits : UInt32) : ∀ n, Linked (powBlocksUpTo bits n)
  | 0 => rfl
  | n + 1 => by
    have ih := linked_powBlocksUpTo bits n
    cases n with
    | zero => exact ⟨rfl, rfl⟩
    | succ n => exact ⟨by simp [stampedRecord], ih⟩

theorem linked_powBlocksAbove (bits : UInt32) (h0 : Nat) {base : CBlockIndex} (hbase : Linked base)
    (hhead : base.head?.map IndexRecord.nHeight = some (h0 : Int)) :
    ∀ k, Linked (powBlocksAbove bits h0 base k) ∧
      (powBlocksAbove bits h0 base k).head?.map IndexRecord.nHeight = some ((h0 + k : Nat) : Int)
  | 0 => ⟨hbase, hhead⟩
  | k + 1 => by
    obtain ⟨ih, ihead⟩ := linked_powBlocksAbove bits h0 hbase hhead k
    refine ⟨Linked.cons ih ihead ?_, by simp [powBlocksAbove, stampedRecord]; omega⟩
    simp [stampedRecord]

theorem powBlocksAbove_injective {bits : UInt32} {h0 k : Nat} {base base' : CBlockIndex}
    (h : powBlocksAbove bits h0 base k = powBlocksAbove bits h0 base' k) : base = base' := by
  induction k with
  | zero => exact h
  | succ k ih => exact ih (List.cons_eq_cons.mp h).2

theorem powBlocksUpTo_add (bits : UInt32) (h0 : Nat) :
    ∀ k, powBlocksUpTo bits (h0 + k) = powBlocksAbove bits h0 (powBlocksUpTo bits h0) k
  | 0 => rfl
  | k + 1 => by rw [← Nat.add_assoc, powBlocksUpTo, powBlocksUpTo_add bits h0 k]; rfl

theorem nonce_of_mem_powBlocksUpTo {bits : UInt32} {r : IndexRecord} :
    ∀ {n}, r ∈ powBlocksUpTo bits n → r.nNonce = 0
  | 0, h => by simp [powBlocksUpTo] at h; simp [h, stampedRecord]
  | n + 1, h => by
    simp only [powBlocksUpTo, List.mem_cons] at h
    rcases h with rfl | h
    · rfl
    · exact nonce_of_mem_powBlocksUpTo h

theorem nonce_of_mem_powBlocksAbove {bits : UInt32} {h0 : Nat} {base : CBlockIndex} {r : IndexRecord}
    (hbase : ∀ r ∈ base, r.nNonce = 0) : ∀ {k}, r ∈ powBlocksAbove bits h0 base k → r.nNonce = 0
  | 0, h => hbase r h
  | k + 1, h => by
    simp only [powBlocksAbove, List.mem_cons] at h
    rcases h with rfl | h
    · rfl
    · exact nonce_of_mem_powBlocksAbove hbase h

theorem powBlocksAbove_ne_nil {bits : UInt32} {h0 : Nat} {base : CBlockIndex} (hbase : base ≠ []) :
    ∀ k, powBlocksAbove bits h0 base k ≠ []
  | 0 => hbase
  | _ + 1 => List.cons_ne_nil _ _

/-- The hive scan passes over PoW blocks above `minHiveCheckBlock` counting
each one and no hive block. -/
theorem hiveScanSum_powBlocksAbove {params : Params} {bits : UInt32} {h0 : Nat} {base : CBlockIndex}
    (hbase : base ≠ []) (hmin : params.minHiveCheckBlock ≤ h0 + 1)
    (hhive : params.hiveNonceMarker ≠ 0) (hpop : params.popNonceMarker ≠ 0) {s h : Nat}
    (hh : (h : Int) < params.hiveDifficultyWindow) :
    ∀ k t, hiveScanSum params (powBlocksAbove bits h0 base k) s h t = hiveScanSum params base s h (t + k)
  | 0, _ => rfl
  | k + 1, t => by
    have hnh : (stampedRecord (h0 + k + 1) bits 0).isHiveMined params = false := by
      simp [IndexRecord.isHiveMined, stampedRecord, hhive.symm]
    have hnp : (stampedRecord (h0 + k + 1) bits 0).isPopMined params = false := by
      simp [IndexRecord.isPopMined, stampedRecord, hpop.symm]
    have hguard : (decide ((h : Int) < params.hiveDifficultyWindow) &&
        !(powBlocksAbove bits h0 base k).isEmpty &&
        decide ((stampedRecord (h0 + k + 1) bits 0).nHeight ≥ params.minHiveCheckBlock)) = true := by
      simp [hh, powBlocksAbove_ne_nil hbase k, stampedRecord]
      omega
    rw [powBlocksAbove, hiveScanSum, if_pos hguard]
    simp only [hnh, hnp, Bool.false_eq_true, if_false, Bool.not_false, if_true]
    rw [hiveScanSum_powBlocksAbove hbase hmin hhive hpop hh k (t + 1)]
    rw [show t + 1 + k = t + (k + 1) by omega]

/-- The initial distribution: blocks `0 .. 34522` at
`powLimitInitialDistribution` (compact `0x2000ffff`). -/
def initialDistribution : CBlockIndex := powBlocksUpTo 0x2000ffff 34522

theorem linked_initialDistribution : Linked initialDistribution ∧
    initialDistribution.head?.map IndexRecord.nHeight = some ((34522 : Nat) : Int) := by
  refine ⟨linked_powBlocksUpTo _ _, ?_⟩
  rw [initialDistribution, head_powBlocksUpTo]
  rfl

theorem nonce_of_mem_initialDistributionAbove {bits : UInt32} {k : Nat} {r : IndexRecord}
    (hr : r ∈ powBlocksAbove bits 34522 initialDistribution k) : r.nNonce = 0 :=
  nonce_of_mem_powBlocksAbove (fun _ h => nonce_of_mem_powBlocksUpTo h) hr

set_option maxRecDepth 20000 in
theorem getCompact_powLimitHive : getCompact (uintToArith256 mainParams.powLimitHive) false = 0x200fffff := by
  decide

/-- No block past the initial distribution is hive mined, so the first hive
block's target is `powLimitHive`. -/
theorem getNextHiveWorkRequired_initialDistributionAbove (bits : UInt32) (k : Nat) :
    getNextHiveWorkRequired mainParams (powBlocksAbove bits 34522 initialDistribution k) = .ok 0x200fffff := by
  obtain ⟨hbase, hhead⟩ := linked_initialDistribution
  have hne : powBlocksAbove bits 34522 initialDistribution k ≠ [] := by
    intro h
    have hk := (linked_powBlocksAbove bits 34522 hbase hhead k).2
    rw [h] at hk
    cases hk
  rw [getNextHiveWorkRequired_of_no_hive hne, getCompact_powLimitHive]
  intro r hr
  simp [IndexRecord.isHiveMined, nonce_of_mem_initialDistributionAbove hr, mainParams]

set_option maxRecDepth 20000 in
theorem getCompact_powLimitInitialDistribution :
    getCompact (uintToArith256 mainParams.powLimitInitialDistribution) false = 0x2000ffff := by
  decide

/-- Every block of the initial distribution carries the `nBits` the rules
ask for: its parent is below `lastInitialDistributionHeight`. -/
theorem powBitsRule_powBlocksUpTo : ∀ n, n ≤ 34522 →
    OnParents (powBitsRule mainParams) (powBlocksUpTo 0x2000ffff n)
  | 0, _ => trivial
  | n + 1, hn => by
    have ih := powBitsRule_powBlocksUpTo n (by omega)
    have hrule : powBitsRule mainParams (stampedRecord (n + 1) 0x2000ffff 0) (powBlocksUpTo 0x2000ffff n) := by
      intro _ _
      cases n with
      | zero =>
        rw [powBlocksUpTo, getNextWorkRequired_initial _ (by decide), getCompact_powLimitInitialDistribution]
        rfl
      | succ n =>
        rw [powBlocksUpTo, getNextWorkRequired_initial _ (by simp [stampedRecord, mainParams]; omega),
          getCompact_powLimitInitialDistribution]
        rfl
    cases n with
    | zero => exact ⟨hrule, trivial⟩
    | succ n => exact ⟨hrule, ih⟩


/-- Two PoW blocks past the initial distribution, each at the target
`GetNextWorkRequired` gives it (`0x1e0fffff` both times). -/
def initialDistributionExit : CBlockIndex := powBlocksAbove 0x1e0fffff 34522 initialDistribution 2

set_option maxRecDepth 20000 in
/-- On the main network the window of the second block past the initial
distribution holds two PoW targets and 22 initial-distribution ones; its
average times the 3072 s the window took exceeds 2^256. `GetNextWorkRequired`
then returns `0x1e0097b4`, while the formula over unbounded integers is capped
at `powLimit`, whose compact form is `0x1e0fffff`. -/
theorem nextWork_wraps_at_initial_distribution (blockTime : Int) :
    Linked initialDistributionExit ∧ OnParents (powBitsRule mainParams) initialDistributionExit ∧
      nextWorkWindow mainParams initialDistributionExit = .ok (initialDistributionExit.take 24, 3072) ∧
      2 ^ 256 ≤ windowAverage (initialDistributionExit.take 24) * 3072 ∧
      getNextWorkRequired mainParams initialDistributionExit blockTime = .ok 0x1e0097b4 ∧
      nextWorkTarget mainParams initialDistributionExit blockTime =
        .ok (uintToArith256 mainParams.powLimit).toNat ∧
      getCompact (uintToArith256 mainParams.powLimit) false = 0x1e0fffff := by
  obtain ⟨hbase, hhead⟩ := linked_initialDistribution
  refine ⟨(linked_powBlocksAbove _ _ hbase hhead 2).1, ?rules, ?window, ?wraps, ?gnwr, ?target, ?compact⟩
  case rules =>
    -- the two new blocks get the target from the 256-bit computation; the
    -- initial distribution below them follows its own rule
    have hinit := powBitsRule_powBlocksUpTo 34522 le_rfl
    have h34523 : powBitsRule mainParams (stampedRecord 34523 0x1e0fffff 0) initialDistribution := by
      intro _ _
      decide
    have h34524 : powBitsRule mainParams (stampedRecord 34524 0x1e0fffff 0)
        (stampedRecord 34523 0x1e0fffff 0 :: initialDistribution) := by
      intro _ _
      decide
    have hne : initialDistribution ≠ [] := by
      intro h
      rw [h] at hhead
      cases hhead
    exact ⟨h34524, (onParents_cons _ hne).2 ⟨h34523, hinit⟩⟩
  case window => decide
  case wraps => decide
  case gnwr =>
    rw [getNextWorkRequired_blockTime rfl _ blockTime 0]
    decide
  case target =>
    rw [nextWorkTarget_blockTime rfl _ blockTime 0]
    decide
  case compact => decide


/-- The first hive block after the slow start whose scan reaches back to
`minHiveCheckBlock`: 2000 PoW blocks past the initial distribution, then a hive
block at height 36523 carrying `GetNextHiveWorkRequired` of its parent (the
scan finds no hive block, so `powLimitHive`, compact `0x200fffff`). -/
def slowStartHiveChain : CBlockIndex :=
  stampedRecord 36523 0x200fffff 1 :: powBlocksAbove 0x1e0fffff 34522 initialDistribution 2000

set_option maxRecDepth 20000 in
/-- The scan from the hive block of `slowStartHiveChain` finds one hive block
at the limit (~2^252) among 2001 non-pop blocks, and the average times 2001
exceeds 2^256. `GetNextHiveWorkRequired` returns `0x2007fc17`, while the
formula over unbounded integers is capped at `powLimitHive` (`0x200fffff`). -/
theorem nextHiveWork_wraps_after_slow_start :
    Linked slowStartHiveChain ∧ OnParents (hiveBitsRule mainParams) slowStartHiveChain ∧
      hiveScanSum mainParams slowStartHiveChain 0 0 0 = ((targetOf 0x200fffff).toNat, 1, 2001) ∧
      2 ^ 256 ≤ (targetOf 0x200fffff).toNat / 1 * 2001 ∧
      getNextHiveWorkRequired mainParams slowStartHiveChain = .ok 0x2007fc17 ∧
      nextHiveWorkTarget mainParams slowStartHiveChain = .ok (uintToArith256 mainParams.powLimitHive).toNat ∧
      getCompact (uintToArith256 mainParams.powLimitHive) false = 0x200fffff := by
  obtain ⟨hbase, hhead⟩ := linked_initialDistribution
  obtain ⟨hpow, hpowHead⟩ := linked_powBlocksAbove 0x1e0fffff 34522 hbase hhead 2000
  -- the scan counts the hive block on top, then the 2000 PoW blocks, and
  -- stops at the initial distribution; both targets reuse it
  have hscan : hiveScanSum mainParams slowStartHiveChain 0 0 0 = ((targetOf 0x200fffff).toNat, 1, 2001) := by
    have hinit : initialDistribution ≠ [] := List.cons_ne_nil _ _
    have hguard : (decide (((0 : Nat) : Int) < mainParams.hiveDifficultyWindow) &&
        !(powBlocksAbove 0x1e0fffff 34522 initialDistribution 2000).isEmpty &&
        decide ((stampedRecord 36523 0x200fffff 1).nHeight ≥ mainParams.minHiveCheckBlock)) = true := by
      simp [@powBlocksAbove_ne_nil 0x1e0fffff 34522 _ hinit 2000, stampedRecord, mainParams]
    rw [slowStartHiveChain, hiveScanSum, if_pos hguard]
    simp only [IndexRecord.isHiveMined, IndexRecord.isPopMined, stampedRecord, mainParams]
    rw [hiveScanSum_powBlocksAbove hinit (by decide) (by decide) (by decide) (by decide) 2000,
      initialDistribution, powBlocksUpTo, hiveScanSum_of_lt_min (by decide)]
    rfl
  have hscanWord : hiveScan mainParams slowStartHiveChain 0 0 0 =
      (BitVec.ofNat 256 (targetOf 0x200fffff).toNat, 1, 2001) := by
    rw [show (0 : ArithUint256) = BitVec.ofNat 256 0 from rfl, hiveScan_eq, hscan]
  refine ⟨Linked.cons hpow hpowHead (by simp [stampedRecord]), ?rules, hscan, ?wraps, ?gnhwr, ?target,
    ?compact⟩
  case rules =>
    -- only the top block is hive-mined; for the PoW blocks the rule is vacuous
    have htop : hiveBitsRule mainParams (stampedRecord 36523 0x200fffff 1)
        (powBlocksAbove 0x1e0fffff 34522 initialDistribution 2000) :=
      fun _ => getNextHiveWorkRequired_initialDistributionAbove 0x1e0fffff 2000
    have hrest : OnParents (hiveBitsRule mainParams) (powBlocksAbove 0x1e0fffff 34522 initialDistribution 2000) :=
      onParents_of_forall fun r hr _ hhive => by
        simp [IndexRecord.isHiveMined, nonce_of_mem_initialDistributionAbove hr, mainParams] at hhive
    have hne : powBlocksAbove 0x1e0fffff 34522 initialDistribution 2000 ≠ [] := by
      intro h
      rw [h] at hpowHead
      cases hpowHead
    exact (onParents_cons _ hne).2 ⟨htop, hrest⟩
  case wraps => decide
  case gnhwr =>
    unfold getNextHiveWorkRequired
    rw [hscanWord]
    decide
  case target =>
    unfold nextHiveWorkTarget
    rw [hscan]
    decide
  case compact => exact getCompact_powLimitHive


/-! ## Past the initial distribution, within 256 bits -/

/-- Thirty PoW blocks at the PoW limit past the initial distribution: the
window of the newest holds PoW targets only. -/
def steadyChain : CBlockIndex := powBlocksAbove 0x1e0fffff 34522 initialDistribution 30

/-- On `steadyChain` every target of the window is at the PoW limit, so
`GetNextWorkRequired` is the formula over unbounded integers. -/
theorem getNextWorkRequired_steadyChain :
    nextWorkWindow mainParams steadyChain = .ok (steadyChain.take 24, 3072) ∧
      getNextWorkRequired mainParams steadyChain 0 =
        (nextWorkTarget mainParams steadyChain 0).map fun n => getCompact (BitVec.ofNat 256 n) false := by
  have hwin : nextWorkWindow mainParams steadyChain = .ok (steadyChain.take 24, 3072) := by decide
  refine ⟨hwin, getNextWorkRequired_of_window_le_powLimit 0 (by decide) (by decide) ?_⟩
  intro w ts h
  rw [hwin, Except.ok.injEq, Prod.mk.injEq] at h
  obtain ⟨rfl, -⟩ := h
  decide

/-- A hive block at the hive limit on ten PoW blocks past the initial
distribution. -/
def shortHiveChain : CBlockIndex :=
  stampedRecord 34533 0x200fffff 1 :: powBlocksAbove 0x1e0fffff 34522 initialDistribution 10

/-- The scan of `shortHiveChain` finds one hive target among 11 non-pop
blocks: the product stays below 2^256 and `GetNextHiveWorkRequired` is the
formula over unbounded integers. -/
theorem getNextHiveWorkRequired_shortHiveChain :
    hiveScanSum mainParams shortHiveChain 0 0 0 = ((targetOf 0x200fffff).toNat, 1, 11) ∧
      getNextHiveWorkRequired mainParams shortHiveChain =
        (nextHiveWorkTarget mainParams shortHiveChain).map fun n => getCompact (BitVec.ofNat 256 n) false := by
  have hscan : hiveScanSum mainParams shortHiveChain 0 0 0 = ((targetOf 0x200fffff).toNat, 1, 11) := by
    decide
  exact ⟨hscan, getNextHiveWorkRequired_of_no_wrap hscan (by decide) (by decide) (by decide)
    (by decide)⟩


end Ring.Chain
