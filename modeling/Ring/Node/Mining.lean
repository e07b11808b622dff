import Ring.Chain.Pow

/-!
# The proof-of-work nonce searches (src/miner.cpp, src/rpc/mining.cpp)

A block's type is no field of its header: `IsHiveMined` and `IsPopMined`
compare `nNonce` with the markers `hiveNonceMarker` and `popNonceMarker` (1 and
2 on the main and test networks). `CreateNewBlock` writes the marker into a
hive or pop template and 0 into a PoW one. The PoW searches then use `nNonce`
as their counter: `ScanHash` increments it before it hashes, so the in-wallet
miner (`MinerThread`) tries 1, 2, … on every template, and `generateBlocks`
tries the template's 0, then 1, 2, …. Neither skips the markers.

The pow hash (Minotaur) is a parameter `getPowHash`; every result holds
whatever it is.

Results:
* `templateNonce_classifies`: a template is hive mined exactly when it was
  built with a hive proof script, and pop mined exactly when built with a pop
  proof script only.
* `minerScan_found`, `generateBlock_submit`: each search hands on only a header
  whose hash passed its test.
* `minerScan_first`, `generateBlock_first`: each search hands on the first
  nonce that passes, from 1 (`MinerThread`) or from the template's 0
  (`generateBlocks`).
* `powSearch_submits_marker_nonce`: so where the first solution is at nonce 1
  or 2, the block a search submits as PoW is classified as hive or pop mined.
-/
namespace Ring.Node

open Ring.Arith Ring.Chain

/-- The low 16 bits of a nonce go up by one on an increment that does not
bring them to zero. -/
theorem low16_succ {n : UInt32} (h : ¬ (n + 1 &&& 0xffff == 0) = true) :
    (n + 1).toNat % 0x10000 = n.toNat % 0x10000 + 1 := by
  have hand : ((n + 1) &&& 0xffff).toNat = (n + 1).toNat % 0x10000 := by
    rw [UInt32.toNat_and]
    exact Nat.and_two_pow_sub_one_eq_mod _ 16
  have hadd : (n + 1).toNat = (n.toNat + 1) % 2 ^ 32 := by simp [UInt32.toNat_add]
  have hne : ((n + 1) &&& 0xffff).toNat ≠ 0 := by
    intro h0
    apply h
    simp [← UInt32.toNat_inj, h0]
  omega

/-- A try used per nonce: one, then `k` more, are `k + 1`. -/
theorem sub_one_sub_ofNat {t : UInt64} {k : Nat} (h : k + 1 ≤ t.toNat) :
    t - 1 - UInt64.ofNat k = t - UInt64.ofNat (k + 1) := by
  have ht := t.toNat_lt
  have h1 : (1 : UInt64) ≤ t := UInt64.le_iff_toNat_le.mpr (by simp; omega)
  have h2 : UInt64.ofNat k ≤ t - 1 :=
    UInt64.le_iff_toNat_le.mpr (by rw [UInt64.toNat_sub_of_le _ _ h1]; simp; omega)
  have h3 : UInt64.ofNat (k + 1) ≤ t := UInt64.le_iff_toNat_le.mpr (by simp; omega)
  apply UInt64.toNat_inj.mp
  rw [UInt64.toNat_sub_of_le _ _ h2, UInt64.toNat_sub_of_le _ _ h1, UInt64.toNat_sub_of_le _ _ h3]
  simp
  omega

section Search

variable (getPowHash : CBlockHeader → Uint256)

/-- `ScanHash(pblock, nNonce, phash)`: increment the nonce, write it into the
header and hash; stop with the hash once its top two bytes are zero, or without
it once the low 16 bits of the nonce are zero. Returns whether a hash was
found, the header and the nonce the loop leaves, and `*phash`. The interruption
point only measures the hash rate.
mirrors src/miner.cpp:552-571 -/
def scanHash (pblock : CBlockHeader) (nNonce : UInt32) (phash : Uint256) :
    Bool × CBlockHeader × UInt32 × Uint256 :=
  let nNonce := nNonce + 1
  let pblock := { pblock with nNonce := nNonce }
  let hash := getPowHash pblock
  if hash.byteAt 31 == 0 && hash.byteAt 30 == 0 then (true, pblock, nNonce, hash)
  else if nNonce &&& 0xffff == 0 then (false, pblock, nNonce, phash)
  else scanHash pblock nNonce phash
termination_by 0x10000 - nNonce.toNat % 0x10000
decreasing_by
  have := low16_succ ‹_›
  omega

/-- The test `ScanHash` makes of the header with nonce `nNonce`. -/
def scanTest (pblock : CBlockHeader) (nNonce : UInt32) : Bool :=
  let hash := getPowHash { pblock with nNonce := nNonce }
  hash.byteAt 31 == 0 && hash.byteAt 30 == 0

/-- Below `0xffff0000`, an increment of the nonce does not wrap. -/
theorem toNat_succ_of_lt {n : UInt32} (h : n.toNat < 0xffff0000) : (n + 1).toNat = n.toNat + 1 := by
  simp only [UInt32.toNat_add, UInt32.toNat_one]
  omega

/-- `ScanHash` leaves the header with the nonce it leaves. -/
theorem scanHash_header (pblock : CBlockHeader) (nNonce : UInt32) (phash : Uint256) :
    (scanHash getPowHash pblock nNonce phash).2.1 =
      { pblock with nNonce := (scanHash getPowHash pblock nNonce phash).2.2.1 } := by
  fun_induction scanHash getPowHash pblock nNonce phash <;> simp_all +zetaDelta

/-- A hash `ScanHash` found is the pow hash of the header it leaves, and passes
the test. -/
theorem scanHash_found (pblock : CBlockHeader) (nNonce : UInt32) (phash : Uint256)
    (h : (scanHash getPowHash pblock nNonce phash).1 = true) :
    (scanHash getPowHash pblock nNonce phash).2.2.2 =
        getPowHash { pblock with nNonce := (scanHash getPowHash pblock nNonce phash).2.2.1 } ∧
      scanTest getPowHash pblock (scanHash getPowHash pblock nNonce phash).2.2.1 = true := by
  fun_induction scanHash getPowHash pblock nNonce phash <;> simp_all +zetaDelta [scanTest]

/-- Below `0xffff0000`, `ScanHash` moves the nonce forward, at most to the next
multiple of `0x10000`. -/
theorem scanHash_nonce (pblock : CBlockHeader) (nNonce : UInt32) (phash : Uint256)
    (h : nNonce.toNat < 0xffff0000) :
    nNonce.toNat < (scanHash getPowHash pblock nNonce phash).2.2.1.toNat ∧
      (scanHash getPowHash pblock nNonce phash).2.2.1.toNat ≤ nNonce.toNat - nNonce.toNat % 0x10000 + 0x10000 := by
  fun_induction scanHash getPowHash pblock nNonce phash with
  | case1 | case2 =>
    rw [toNat_succ_of_lt h]
    omega
  | case3 pblock nNonce nNonce' _ _ _ hwrap ih =>
    simp only [nNonce'] at hwrap ih ⊢
    have hlow := low16_succ hwrap
    have hsucc := toNat_succ_of_lt h
    obtain ⟨hlt, hle⟩ := ih (by omega)
    omega

theorem ofNat_succ (n : Nat) : UInt32.ofNat n + 1 = UInt32.ofNat (n + 1) := by
  rw [UInt32.ofNat_add]
  rfl

theorem scanTest_nNonce (pblock : CBlockHeader) (a b : UInt32) :
    scanTest getPowHash { pblock with nNonce := a } b = scanTest getPowHash pblock b :=
  rfl

/-- `ScanHash` from nonce `n` stops at the first nonce after it whose hash
passes the test, when that comes before the low 16 bits wrap. -/
theorem scanHash_first (phash : Uint256) :
    ∀ k (pblock : CBlockHeader) n, n % 0x10000 + k + 1 < 0x10000 →
      (∀ j < k, scanTest getPowHash pblock (UInt32.ofNat (n + j + 1)) = false) →
      scanTest getPowHash pblock (UInt32.ofNat (n + k + 1)) = true →
      scanHash getPowHash pblock (UInt32.ofNat n) phash =
        (true, { pblock with nNonce := UInt32.ofNat (n + k + 1) }, UInt32.ofNat (n + k + 1),
          getPowHash { pblock with nNonce := UInt32.ofNat (n + k + 1) }) := by
  intro k
  induction k with
  | zero =>
    intro pblock n _ _ hpass
    simp only [scanTest, Nat.add_zero] at hpass
    rw [scanHash]
    simp only [ofNat_succ, hpass, Nat.add_zero, ↓reduceIte]
  | succ k ih =>
    intro pblock n hlow hfail hpass
    have hskip := hfail 0 (Nat.succ_pos k)
    simp only [scanTest, Nat.add_zero] at hskip
    have hwrap : (UInt32.ofNat (n + 1) &&& 0xffff == 0) = false := by
      have hand : (UInt32.ofNat (n + 1) &&& 0xffff).toNat = (n + 1) % 2 ^ 32 % 0x10000 := by
        rw [UInt32.toNat_and, UInt32.toNat_ofNat']
        exact Nat.and_two_pow_sub_one_eq_mod _ 16
      rw [beq_eq_false_iff_ne, ne_eq, ← UInt32.toNat_inj, hand]
      simp only [UInt32.toNat_zero]
      omega
    rw [scanHash]
    simp only [ofNat_succ, hskip, hwrap, Bool.false_eq_true, ↓reduceIte]
    rw [ih _ (n + 1) (by omega), show n + 1 + k + 1 = n + (k + 1) + 1 by omega]
    · intro j hj
      rw [scanTest_nNonce, show n + 1 + j + 1 = n + (j + 1) + 1 by omega]
      exact hfail (j + 1) (by omega)
    · rw [scanTest_nNonce, show n + 1 + k + 1 = n + (k + 1) + 1 by omega]
      exact hpass

/-- What the miner's loop measures its progress by: how far the nonce is below
`0xffff0000`, where it stops. -/
theorem scanHash_room {pblock pblock' : CBlockHeader} {nNonce nNonce' : UInt32} {phash phash' : Uint256} {fFound : Bool}
    (hscan : scanHash getPowHash pblock nNonce phash = (fFound, pblock', nNonce', phash'))
    (hend : ¬ nNonce' ≥ 0xffff0000) :
    (if nNonce'.toNat < 0xffff0000 then 0xffff0000 - nNonce'.toNat else 0xffff0001) <
      (if nNonce.toNat < 0xffff0000 then 0xffff0000 - nNonce.toNat else 0xffff0001) := by
  have hlt : nNonce'.toNat < 0xffff0000 := by
    rw [ge_iff_le, UInt32.le_iff_toNat_le] at hend
    simpa using hend
  by_cases hn : nNonce.toNat < 0xffff0000
  · have hprog : nNonce.toNat < nNonce'.toNat := by
      have := (scanHash_nonce getPowHash pblock nNonce phash hn).1
      rwa [hscan] at this
    simp only [hn, hlt, ↓reduceIte]
    omega
  · simp only [hn, hlt, ↓reduceIte]
    omega

-- `hscan` is read by the termination proof only
set_option linter.unusedVariables false in
/-- The scan loop of `MinerThread` over one template (from `nNonce = 0`):
`ScanHash`, then hand on the header when the hash it found is at most the
target. Otherwise the loop stops once the nonce space is used up, or when
`env` says so (no peers, the mempool changed a minute into the scan, the tip
changed, the clock ran backwards: each breaks out alike), and else goes on
with the header `UpdateTime` leaves and, where minimum difficulty blocks are
allowed, the target of its `nBits`. The header handed on goes to
`ProcessNewBlock` unless the tip moved meanwhile.
mirrors src/miner.cpp:637-711 -/
def minerScan (params : Params) (env : CBlockHeader → Option CBlockHeader) (pblock : CBlockHeader)
    (hashTarget : ArithUint256) (nNonce : UInt32) (hash : Uint256) : Option CBlockHeader :=
  match hscan : scanHash getPowHash pblock nNonce hash with
  | (fFound, pblock, nNonce, hash) =>
    if fFound && decide (uintToArith256 hash ≤ hashTarget) then some { pblock with nNonce := nNonce }
    else if nNonce ≥ 0xffff0000 then none
    else match env pblock with
      | none => none
      | some pblock =>
        let hashTarget := if params.fPowAllowMinDifficultyBlocks then (setCompact pblock.nBits).1 else hashTarget
        minerScan params env pblock hashTarget nNonce hash
termination_by if nNonce.toNat < 0xffff0000 then 0xffff0000 - nNonce.toNat else 0xffff0001
decreasing_by exact scanHash_room getPowHash hscan ‹_›

/-- The miner hands on only a header whose pow hash passed `ScanHash`'s test
and, where the target stays fixed (no minimum difficulty blocks), meets it. -/
theorem minerScan_found (params : Params) (env : CBlockHeader → Option CBlockHeader) :
    ∀ pblock hashTarget nNonce hash found,
      minerScan getPowHash params env pblock hashTarget nNonce hash = some found →
        scanTest getPowHash found found.nNonce = true ∧
          (params.fPowAllowMinDifficultyBlocks = false → uintToArith256 (getPowHash found) ≤ hashTarget) := by
  intro pblock hashTarget nNonce hash found
  fun_induction minerScan getPowHash params env pblock hashTarget nNonce hash with
  | case1 pblock hashTarget nNonce hash fFound pblock' nNonce' hash' hscan hpass =>
    intro hfound
    simp only [hscan, hpass, ↓reduceIte, Option.some.injEq] at hfound
    obtain ⟨hfFound, htarget⟩ : fFound = true ∧ uintToArith256 hash' ≤ hashTarget := by simpa using hpass
    have hs := scanHash_found getPowHash pblock nNonce hash (by rw [hscan]; exact hfFound)
    have hh := scanHash_header getPowHash pblock nNonce hash
    rw [hscan] at hs hh
    dsimp only at hs hh
    subst hfound hh
    exact ⟨hs.2, fun _ => hs.1 ▸ htarget⟩
  | case2 pblock hashTarget nNonce hash fFound pblock' nNonce' hash' hscan hpass hend =>
    simp [hscan, hpass, hend]
  | case3 pblock hashTarget nNonce hash fFound pblock' nNonce' hash' hscan hpass hend henv =>
    simp [hscan, hpass, hend, henv]
  | case4 pblock hashTarget nNonce hash fFound pblock' nNonce' hash' hscan hpass hend pblock'' henv hashTarget' ih =>
    simp only [hscan, hpass, hend, henv, Bool.false_eq_true, ↓reduceIte]
    intro hfound
    obtain ⟨htest, htarget⟩ := ih hfound
    refine ⟨htest, fun hfixed => ?_⟩
    simpa [hashTarget', hfixed] using htarget hfixed

/-- On a template, the miner hands on the first nonce from 1 whose hash passes
`ScanHash`'s test, when that hash meets the target. -/
theorem minerScan_first (params : Params) (env : CBlockHeader → Option CBlockHeader) (pblock : CBlockHeader)
    (hashTarget : ArithUint256) (phash : Uint256) {k : Nat} (hk : 1 ≤ k) (hk' : k < 0x10000)
    (hfail : ∀ j, 1 ≤ j → j < k → scanTest getPowHash pblock (UInt32.ofNat j) = false)
    (hpass : scanTest getPowHash pblock (UInt32.ofNat k) = true)
    (htarget : uintToArith256 (getPowHash { pblock with nNonce := UInt32.ofNat k }) ≤ hashTarget) :
    minerScan getPowHash params env pblock hashTarget 0 phash = some { pblock with nNonce := UInt32.ofNat k } := by
  have hk1 : 0 + (k - 1) + 1 = k := by omega
  have hscan := scanHash_first getPowHash phash (k - 1) pblock 0 (by omega)
    (fun j hj => by simpa [Nat.zero_add] using hfail (j + 1) (by omega) (by omega)) (by rw [hk1]; exact hpass)
  rw [hk1] at hscan
  rw [minerScan]
  split
  rename_i fFound pblock' nNonce' hash' heq
  rw [show (0 : UInt32) = UInt32.ofNat 0 from rfl, hscan] at heq
  simp only [Prod.mk.injEq] at heq
  obtain ⟨rfl, rfl, rfl, rfl⟩ := heq
  simp [htarget]

/-- A stand-in pow hash whose first solution is at nonce 1: zero there, all
ones elsewhere. -/
def nonceOnePowHash (pblock : CBlockHeader) : Uint256 :=
  if pblock.nNonce = 1 then Uint256.null else ⟨List.replicate 32 0xff, by simp⟩

theorem minerScan_found_nonceOne :
    minerScan nonceOnePowHash mainParams (fun _ => none) { (default : CBlockHeader) with nBits := 0x1e0fffff } 0 0
        default = some { (default : CBlockHeader) with nBits := 0x1e0fffff, nNonce := 1 } ∧
      scanTest nonceOnePowHash { (default : CBlockHeader) with nBits := 0x1e0fffff, nNonce := 1 } 1 = true ∧
      (mainParams.fPowAllowMinDifficultyBlocks = false →
        uintToArith256 (nonceOnePowHash { (default : CBlockHeader) with nBits := 0x1e0fffff, nNonce := 1 }) ≤ 0) := by
  have hscan := minerScan_first nonceOnePowHash mainParams (fun _ => none)
    { (default : CBlockHeader) with nBits := 0x1e0fffff } 0 default (k := 1) le_rfl (by decide)
    (fun j hj hj' => by omega) (by decide) (by decide)
  exact ⟨hscan, minerScan_found nonceOnePowHash mainParams (fun _ => none) _ 0 0 default _ hscan⟩

/-- `nInnerLoopCount` of `generateBlocks`. -/
def nInnerLoopCount : Nat := 0x10000

/-- The nonce loop of `generateBlocks`: while tries are left, the nonce is
below `nInnerLoopCount` and the header fails `CheckProofOfWork`, increment the
nonce and use up a try.
mirrors src/rpc/mining.cpp:291-294 -/
def generateNonceLoop (params : Params) (pblock : CBlockHeader) (nMaxTries : UInt64) : CBlockHeader × UInt64 :=
  if nMaxTries > 0 ∧ pblock.nNonce.toNat < nInnerLoopCount ∧
      (!checkProofOfWork (getPowHash pblock) pblock.nBits params) = true then
    generateNonceLoop params { pblock with nNonce := pblock.nNonce + 1 } (nMaxTries - 1)
  else (pblock, nMaxTries)
termination_by nInnerLoopCount - pblock.nNonce.toNat
decreasing_by
  have hlt : pblock.nNonce.toNat < 0xffff0000 := by
    have := ‹_ ∧ _ ∧ _›.2.1
    simp only [nInnerLoopCount] at this
    omega
  simp only [toNat_succ_of_lt hlt]
  omega

/-- What `generateBlocks` does with a template once its nonce loop is done. -/
inductive GenerateStep where
  /-- no tries left: stop generating -/
  | stop
  /-- the nonces are used up: build a new template -/
  | nextTemplate
  /-- hand the header to `ProcessNewBlock` -/
  | submit (pblock : CBlockHeader)
  deriving DecidableEq

/-- One template of `generateBlocks`: the nonce loop, then stop when no tries
are left, take a new template when the nonce reached `nInnerLoopCount`, and
else submit the header.
mirrors src/rpc/mining.cpp:291-303 -/
def generateBlock (params : Params) (pblock : CBlockHeader) (nMaxTries : UInt64) : GenerateStep × UInt64 :=
  let (pblock, nMaxTries) := generateNonceLoop getPowHash params pblock nMaxTries
  if nMaxTries = 0 then (.stop, nMaxTries)
  else if pblock.nNonce.toNat = nInnerLoopCount then (.nextTemplate, nMaxTries)
  else (.submit pblock, nMaxTries)

/-- From nonce `n`, the nonce loop stops at the first nonce whose header passes
`CheckProofOfWork`, having used a try for each nonce before it. -/
theorem generateNonceLoop_first (params : Params) :
    ∀ k (pblock : CBlockHeader) n (nMaxTries : UInt64), pblock.nNonce = UInt32.ofNat n →
      n + k < nInnerLoopCount → k < nMaxTries.toNat →
      (∀ j < k, checkProofOfWork (getPowHash { pblock with nNonce := UInt32.ofNat (n + j) }) pblock.nBits params = false) →
      checkProofOfWork (getPowHash { pblock with nNonce := UInt32.ofNat (n + k) }) pblock.nBits params = true →
      generateNonceLoop getPowHash params pblock nMaxTries =
        ({ pblock with nNonce := UInt32.ofNat (n + k) }, nMaxTries - UInt64.ofNat k) := by
  intro k
  induction k with
  | zero =>
    intro pblock n nMaxTries hn _ _ _ hpass
    rw [Nat.add_zero, ← hn] at hpass
    rw [generateNonceLoop, if_neg (by simp [hpass]), Nat.add_zero, ← hn]
    simp
  | succ k ih =>
    intro pblock n nMaxTries hn hk htries hfail hpass
    have hskip := hfail 0 (Nat.succ_pos k)
    rw [Nat.add_zero, ← hn] at hskip
    have hgo : nMaxTries > 0 ∧ pblock.nNonce.toNat < nInnerLoopCount ∧
        (!checkProofOfWork (getPowHash pblock) pblock.nBits params) = true := by
      refine ⟨UInt64.lt_iff_toNat_lt.mpr (by simp; omega), ?_, by simp [hskip]⟩
      rw [hn, UInt32.toNat_ofNat']
      simp only [nInnerLoopCount] at hk ⊢
      omega
    rw [generateNonceLoop, if_pos hgo]
    have hnext : pblock.nNonce + 1 = UInt32.ofNat (n + 1) := by rw [hn, ofNat_succ]
    have htries' : k < (nMaxTries - 1).toNat := by
      rw [UInt64.toNat_sub_of_le _ _ (UInt64.le_iff_toNat_le.mpr (by simp; omega))]
      simp only [UInt64.toNat_one]
      omega
    rw [ih { pblock with nNonce := pblock.nNonce + 1 } (n + 1) (nMaxTries - 1) hnext (by omega) htries']
    · rw [sub_one_sub_ofNat (by omega), show n + 1 + k = n + (k + 1) by omega]
    · intro j hj
      rw [show n + 1 + j = n + (j + 1) by omega]
      exact hfail (j + 1) (by omega)
    · rw [show n + 1 + k = n + (k + 1) by omega]
      exact hpass

/-- From a template with nonce 0, `generateBlocks` submits the header with the
first nonce that passes `CheckProofOfWork`, when a try is left for it. -/
theorem generateBlock_first (params : Params) (pblock : CBlockHeader) (nMaxTries : UInt64) {k : Nat}
    (h0 : pblock.nNonce = 0) (hk : k < nInnerLoopCount) (htries : k < nMaxTries.toNat)
    (hfail : ∀ j < k, checkProofOfWork (getPowHash { pblock with nNonce := UInt32.ofNat j }) pblock.nBits params = false)
    (hpass : checkProofOfWork (getPowHash { pblock with nNonce := UInt32.ofNat k }) pblock.nBits params = true) :
    generateBlock getPowHash params pblock nMaxTries =
      (.submit { pblock with nNonce := UInt32.ofNat k }, nMaxTries - UInt64.ofNat k) := by
  have hloop := generateNonceLoop_first getPowHash params k pblock 0 nMaxTries h0 (by omega) htries
    (by simpa using hfail) (by simpa using hpass)
  rw [Nat.zero_add] at hloop
  have hleft : nMaxTries - UInt64.ofNat k ≠ 0 := by
    have hle : UInt64.ofNat k ≤ nMaxTries := UInt64.le_iff_toNat_le.mpr (by simp; omega)
    rw [Ne, ← UInt64.toNat_inj, UInt64.toNat_sub_of_le _ _ hle]
    simp
    omega
  have hnonce : (UInt32.ofNat k).toNat ≠ nInnerLoopCount := by
    simp only [nInnerLoopCount] at hk ⊢
    rw [UInt32.toNat_ofNat']
    omega
  simp only [generateBlock, hloop, hleft, hnonce, ↓reduceIte]

/-- On a network whose markers are 1 and 2, where the first solution a PoW
search meets is at nonce 1 or 2, the search submits that header, and it is
classified as hive or pop mined: the in-wallet miner from any template, and
`generateBlocks` from a PoW template (nonce 0) with the tries for it. -/
theorem powSearch_submits_marker_nonce (params : Params) (hhive : params.hiveNonceMarker = 1)
    (hpop : params.popNonceMarker = 2) (env : CBlockHeader → Option CBlockHeader) (pblock : CBlockHeader)
    (hashTarget : ArithUint256) (phash : Uint256) (nMaxTries : UInt64) {k : Nat} (hk : k = 1 ∨ k = 2) :
    (CBlockHeader.isHiveMined { pblock with nNonce := UInt32.ofNat k } params ||
        CBlockHeader.isPopMined { pblock with nNonce := UInt32.ofNat k } params) = true ∧
      ((∀ j, 1 ≤ j → j < k → scanTest getPowHash pblock (UInt32.ofNat j) = false) →
        scanTest getPowHash pblock (UInt32.ofNat k) = true →
        uintToArith256 (getPowHash { pblock with nNonce := UInt32.ofNat k }) ≤ hashTarget →
        minerScan getPowHash params env pblock hashTarget 0 phash = some { pblock with nNonce := UInt32.ofNat k }) ∧
      (pblock.nNonce = 0 → k < nMaxTries.toNat →
        (∀ j < k, checkProofOfWork (getPowHash { pblock with nNonce := UInt32.ofNat j }) pblock.nBits params = false) →
        checkProofOfWork (getPowHash { pblock with nNonce := UInt32.ofNat k }) pblock.nBits params = true →
        generateBlock getPowHash params pblock nMaxTries =
          (.submit { pblock with nNonce := UInt32.ofNat k }, nMaxTries - UInt64.ofNat k)) := by
  refine ⟨?_, fun hfail hpass htarget => ?_, fun h0 htries hfail hpass => ?_⟩
  · rcases hk with rfl | rfl <;> simp [CBlockHeader.isHiveMined, CBlockHeader.isPopMined, hhive, hpop]
  · exact minerScan_first getPowHash params env pblock hashTarget phash (by omega) (by omega) hfail hpass htarget
  · exact generateBlock_first getPowHash params pblock nMaxTries h0 (by simp only [nInnerLoopCount]; omega) htries
      hfail hpass

end Search

/-- On the main network, a pow hash whose first solution is at nonce 1 (zero
there, all ones elsewhere) on a template with the PoW limit's `nBits`: both
searches submit the header with nonce 1, which is hive mined. -/
theorem powSearch_submits_marker_nonce_main :
    CBlockHeader.isHiveMined { (default : CBlockHeader) with nBits := 0x1e0fffff, nNonce := 1 } mainParams = true ∧
      minerScan (fun h => if h.nNonce = 1 then Uint256.null else ⟨List.replicate 32 0xff, by simp⟩) mainParams
          (fun _ => none) { (default : CBlockHeader) with nBits := 0x1e0fffff } 0 0 default =
        some { (default : CBlockHeader) with nBits := 0x1e0fffff, nNonce := 1 } ∧
      generateBlock (fun h => if h.nNonce = 1 then Uint256.null else ⟨List.replicate 32 0xff, by simp⟩) mainParams
          { (default : CBlockHeader) with nBits := 0x1e0fffff } 2 =
        (.submit { (default : CBlockHeader) with nBits := 0x1e0fffff, nNonce := 1 }, 1) := by
  have h := powSearch_submits_marker_nonce
    (fun h => if h.nNonce = 1 then Uint256.null else ⟨List.replicate 32 0xff, by simp⟩) mainParams rfl rfl
    (fun _ => none) { (default : CBlockHeader) with nBits := 0x1e0fffff } 0 default 2 (k := 1) (Or.inl rfl)
  refine ⟨by decide, h.2.1 (fun j hj hj' => by omega) (by decide) (by decide),
    h.2.2 rfl (by decide) (fun j hj => ?_) (by decide)⟩
  obtain rfl : j = 0 := by omega
  decide

end Ring.Node
