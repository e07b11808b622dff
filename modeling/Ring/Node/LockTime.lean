import Ring.Script.Run
import Ring.Script.Control
import Ring.Node.Assembler
import Ring.Chain.Skip

/-!
# Lock times: `CheckLockTime`, `CheckSequence` and the sequence locks

`OP_CHECKLOCKTIMEVERIFY` and `OP_CHECKSEQUENCEVERIFY` compare their operand
with the spending transaction through the signature checker
(`GenericTransactionSignatureChecker`): its `nLockTime`, and the `nSequence`
of the input being spent. The opcodes enforce nothing by themselves; a lock
holds because a block takes the transaction only when it is final
(`IsFinalTx`) and only when it passes the relative locks of BIP 68
(`CalculateSequenceLocks`, `EvaluateSequenceLocks`). This module puts the
two halves together.

`CalculateSequenceLocks` runs over the inputs with two running maxima, the
last invalid height and the last invalid time; `le_foldl_of_mem` of
`Ring.Lib` carries one input's bound to the end of the loop.

`nSequence` is compared under the mask `SEQUENCE_LOCKTIME_TYPE_FLAG |
SEQUENCE_LOCKTIME_MASK`: the type bit and the low sixteen bits, which
`land_lockTimeMask` separates.

Results:
* `getAncestor_chain`: on a built block tree the skip-list `GetAncestor`
  refines `getAncestor` on the chain of records, which the sequence locks use.
* `evalScript_checkLockTimeVerify`: a script `<n> OP_CHECKLOCKTIMEVERIFY ...`
  that `EvalScript` accepts under the transaction's checker, in a block where
  the transaction is final, is in a block past height `n`, or past time `n`.
* `evalScript_checkSequenceVerify`: a script `<n> OP_CHECKSEQUENCEVERIFY ...`
  that `EvalScript` accepts under the transaction's checker, in a block whose
  sequence locks the transaction passes, spends a coin at least `n` blocks,
  or `n` units of 512 seconds, older than the block, unless `n` sets the
  disable flag.
-/
namespace Ring.Node

open Ring.Chain Ring.Script Ring.Lib

/-- `CTxIn::SEQUENCE_LOCKTIME_TYPE_FLAG`: set, a relative lock counts units of
512 seconds; clear, blocks. -/
def SEQUENCE_LOCKTIME_TYPE_FLAG : Nat := 1 <<< 22

/-- `CTxIn::SEQUENCE_LOCKTIME_MASK`. -/
def SEQUENCE_LOCKTIME_MASK : Nat := 0x0000ffff

/-- `CTxIn::SEQUENCE_LOCKTIME_GRANULARITY`. -/
def SEQUENCE_LOCKTIME_GRANULARITY : Nat := 9

/-- `LOCKTIME_VERIFY_SEQUENCE`. -/
def LOCKTIME_VERIFY_SEQUENCE : UInt32 := (1 : UInt32) <<< 0

/-- The bits of a `CScriptNum`'s `int64_t` value, as `&` with a mask reads
them. -/
def int64Bits (n : Int) : Nat := (n % 2 ^ 64).toNat

theorem int64Bits_of_nonneg {n : Int} (h0 : 0 ≤ n) (h : n < 2 ^ 64) : int64Bits n = n.toNat := by
  rw [int64Bits, Int.emod_eq_of_lt h0 h]

/-! ## The checker -/

/-- `GenericTransactionSignatureChecker::CheckLockTime`, for input `nIn` of
`txTo`.
mirrors src/script/interpreter.cpp:1331-1366 -/
def checkLockTime (txTo : CTransaction) (nIn : Nat) (nLockTime : Int) : Bool :=
  let txLockTime : Int := txTo.nLockTime.toNat
  if ¬((txLockTime < LOCKTIME_THRESHOLD ∧ nLockTime < LOCKTIME_THRESHOLD) ∨
      (txLockTime ≥ LOCKTIME_THRESHOLD ∧ nLockTime ≥ LOCKTIME_THRESHOLD)) then false
  else if nLockTime > txLockTime then false
  else if SEQUENCE_FINAL = (txTo.vin.getD nIn default).nSequence then false
  else true

/-- `GenericTransactionSignatureChecker::CheckSequence`, for input `nIn` of
`txTo`.
mirrors src/script/interpreter.cpp:1368-1412 -/
def checkSequence (txTo : CTransaction) (nIn : Nat) (nSequence : Int) : Bool :=
  let txToSequence : Nat := (txTo.vin.getD nIn default).nSequence.toNat
  if txTo.nVersion.toUInt32 < 2 then false
  else if txToSequence &&& SEQUENCE_LOCKTIME_DISABLE_FLAG ≠ 0 then false
  else
    let nLockTimeMask := SEQUENCE_LOCKTIME_TYPE_FLAG ||| SEQUENCE_LOCKTIME_MASK
    let txToSequenceMasked := txToSequence &&& nLockTimeMask
    let nSequenceMasked := int64Bits nSequence &&& nLockTimeMask
    if ¬((txToSequenceMasked < SEQUENCE_LOCKTIME_TYPE_FLAG ∧ nSequenceMasked < SEQUENCE_LOCKTIME_TYPE_FLAG) ∨
        (txToSequenceMasked ≥ SEQUENCE_LOCKTIME_TYPE_FLAG ∧ nSequenceMasked ≥ SEQUENCE_LOCKTIME_TYPE_FLAG)) then
      false
    else if nSequenceMasked > txToSequenceMasked then false
    else true

/-- `TransactionSignatureChecker(&txTo, nIn, amount)`. Its `CheckSig`, which
hashes the transaction (`SignatureHash`) and verifies with the key, is
`checkSig`. -/
def transactionSignatureChecker (checkSig : valtype → valtype → CScript → SigVersion → Bool)
    (txTo : CTransaction) (nIn : Nat) : BaseSignatureChecker :=
  ⟨checkSig, checkLockTime txTo nIn, checkSequence txTo nIn⟩

@[simp] theorem transactionSignatureChecker_checkLockTime (checkSig : valtype → valtype → CScript → SigVersion → Bool)
    (txTo : CTransaction) (nIn : Nat) :
    (transactionSignatureChecker checkSig txTo nIn).checkLockTime = checkLockTime txTo nIn := by
  simp only [transactionSignatureChecker]

@[simp] theorem transactionSignatureChecker_checkSequence (checkSig : valtype → valtype → CScript → SigVersion → Bool)
    (txTo : CTransaction) (nIn : Nat) :
    (transactionSignatureChecker checkSig txTo nIn).checkSequence = checkSequence txTo nIn := by
  simp only [transactionSignatureChecker]

/-! ## Sequence locks -/

/-- `CBlockIndex::GetAncestor(height)` on the chain of records:
`nHeight - height` `pprev` steps back, `nullptr` outside `[0, nHeight]`, as
`getAncestor_chain` shows of the skip-list walk.
mirrors src/chain.cpp:88-112 -/
def getAncestor (block : CBlockIndex) (height : Int) : CBlockIndex :=
  match block with
  | [] => []
  | r :: _ => if 0 ≤ height ∧ height ≤ r.nHeight then block.drop (r.nHeight - height).toNat else []

/-- The skip-list walk refines `getAncestor` on the chain of records: from an
index of a built tree, `GetAncestor(height)` returns the index whose chain is
`getAncestor` of the index's chain, and `nullptr` exactly where that is empty. -/
theorem getAncestor_chain {p : SkipIndex} (hp : Built p) (height : Int) :
    ∃ q, p.getAncestor height = .ok q ∧ getAncestor p.chain height = (q.map SkipIndex.chain).getD [] := by
  obtain ⟨rest, hrest⟩ : ∃ rest, p.chain = p.r :: rest := by
    obtain ⟨r, _ | q, pskip⟩ := p <;> exact ⟨_, rfl⟩
  have hn : p.nHeight = p.r.nHeight := rfl
  by_cases hin : 0 ≤ height ∧ height ≤ p.nHeight
  · -- in range the walk lands `nHeight - height` steps back, where the chain is dropped to
    obtain ⟨q, hq, -, -⟩ := hp.prevN (p.nHeight - height).toNat (by omega)
    refine ⟨some q, ?_, ?_⟩
    · rw [getAncestor_of_le hin.1 hin.2, walk_exact hp hin.1 hin.2, hq]
    · rw [hrest, getAncestor, if_pos (hn ▸ hin), ← hrest, ← hn, Option.map_some, Option.getD_some,
        chain_prevN _ hq]
  · refine ⟨none, ?_, ?_⟩
    · rw [SkipIndex.getAncestor, if_pos (by omega)]
    · rw [hrest, getAncestor, if_neg (hn ▸ hin)]
      rfl

theorem getAncestor_chain_skipBlock2 :
    Built skipBlock2 ∧ ∃ q, skipBlock2.getAncestor 1 = .ok q ∧
      getAncestor skipBlock2.chain 1 = (q.map SkipIndex.chain).getD [] :=
  ⟨built_skipBlock2, getAncestor_chain built_skipBlock2 1⟩

/-- One round of the loop of `CalculateSequenceLocks`, on an input and the
height of the coin it spends: the last invalid height and time after it. -/
def sequenceLockStep (block : CBlockIndex) (bounds : Int × Int) (input : CTxIn × Int) : Int × Int :=
  let txin := input.1
  let nCoinHeight := input.2
  if txin.nSequence.toNat &&& SEQUENCE_LOCKTIME_DISABLE_FLAG ≠ 0 then bounds
  else if txin.nSequence.toNat &&& SEQUENCE_LOCKTIME_TYPE_FLAG ≠ 0 then
    let nCoinTime := getMedianTimePast (getAncestor block (max (nCoinHeight - 1) 0))
    (bounds.1, max bounds.2
      (nCoinTime + ((txin.nSequence.toNat &&& SEQUENCE_LOCKTIME_MASK) <<< SEQUENCE_LOCKTIME_GRANULARITY : Nat) - 1))
  else (max bounds.1 (nCoinHeight + (txin.nSequence.toNat &&& SEQUENCE_LOCKTIME_MASK : Nat) - 1), bounds.2)

/-- `CalculateSequenceLocks(tx, flags, prevHeights, block)`: the last invalid
height and time under the inputs' relative locks, and `prevHeights` as the
loop leaves it, zero at the inputs with the disable flag; `none` where its
`assert` on the sizes fails.
mirrors src/consensus/tx_verify.cpp:30-90 -/
def calculateSequenceLocks (tx : CTransaction) (flags : UInt32) (prevHeights : List Int)
    (block : CBlockIndex) : Option ((Int × Int) × List Int) :=
  if prevHeights.length ≠ tx.vin.length then none
  else if ¬(tx.nVersion.toUInt32 ≥ 2 ∧ flags &&& LOCKTIME_VERIFY_SEQUENCE ≠ 0) then some ((-1, -1), prevHeights)
  else
    some ((tx.vin.zip prevHeights).foldl (sequenceLockStep block) (-1, -1),
      (tx.vin.zip prevHeights).map fun input =>
        if input.1.nSequence.toNat &&& SEQUENCE_LOCKTIME_DISABLE_FLAG ≠ 0 then 0 else input.2)

/-- `EvaluateSequenceLocks(block, lockPair)`: the block is past both bounds,
its time read as the median time past of its parent.
mirrors src/consensus/tx_verify.cpp:92-100 -/
def evaluateSequenceLocks (block : CBlockIndex) (lockPair : Int × Int) : Bool :=
  match block with
  | [] => false
  | r :: pprev =>
    let nBlockTime := getMedianTimePast pprev
    if lockPair.1 ≥ r.nHeight ∨ lockPair.2 ≥ nBlockTime then false else true

/-- `SequenceLocks(tx, flags, prevHeights, block)`.
mirrors src/consensus/tx_verify.cpp:102-105 -/
def sequenceLocks (tx : CTransaction) (flags : UInt32) (prevHeights : List Int) (block : CBlockIndex) :
    Option Bool :=
  (calculateSequenceLocks tx flags prevHeights block).map fun r => evaluateSequenceLocks block r.1

/-! ## The mask -/

theorem land_typeFlag (a : Nat) :
    a &&& SEQUENCE_LOCKTIME_TYPE_FLAG = 0 ∨ a &&& SEQUENCE_LOCKTIME_TYPE_FLAG = SEQUENCE_LOCKTIME_TYPE_FLAG := by
  have hflag : SEQUENCE_LOCKTIME_TYPE_FLAG = 2 ^ 22 := rfl
  rw [hflag]
  have hmod : (a &&& 2 ^ 22) % 2 ^ 22 = 0 := by
    rw [Nat.and_mod_two_pow, Nat.mod_self, Nat.and_zero]
  have hdiv : (a &&& 2 ^ 22) / 2 ^ 22 ≤ 1 := by
    rw [Nat.and_div_two_pow, Nat.div_self (by positivity)]
    exact Nat.and_le_right
  have := Nat.div_add_mod (a &&& 2 ^ 22) (2 ^ 22)
  omega

theorem land_mask_lt (a : Nat) : a &&& SEQUENCE_LOCKTIME_MASK < 2 ^ 16 :=
  Nat.and_lt_two_pow _ (by decide)

/-- The mask of `CheckSequence` reads the type bit and the low sixteen bits
apart. -/
theorem land_lockTimeMask (a : Nat) :
    a &&& (SEQUENCE_LOCKTIME_TYPE_FLAG ||| SEQUENCE_LOCKTIME_MASK) =
      (a &&& SEQUENCE_LOCKTIME_TYPE_FLAG) + (a &&& SEQUENCE_LOCKTIME_MASK) := by
  rw [Nat.and_or_distrib_left]
  have hlow := land_mask_lt a
  rcases land_typeFlag a with h | h <;> rw [h]
  · rw [Nat.zero_or, Nat.zero_add]
  · have hor := Nat.two_pow_add_eq_or_of_lt (i := 22) (b := a &&& SEQUENCE_LOCKTIME_MASK) (by omega) 1
    rw [Nat.mul_one] at hor
    exact hor.symm

/-- Under the mask, a value is below the type bit exactly when its type bit
is clear. -/
theorem land_lockTimeMask_lt_iff (a : Nat) :
    a &&& (SEQUENCE_LOCKTIME_TYPE_FLAG ||| SEQUENCE_LOCKTIME_MASK) < SEQUENCE_LOCKTIME_TYPE_FLAG ↔
      a &&& SEQUENCE_LOCKTIME_TYPE_FLAG = 0 := by
  have hlow := land_mask_lt a
  have hflag : SEQUENCE_LOCKTIME_TYPE_FLAG = 2 ^ 22 := rfl
  rw [land_lockTimeMask]
  rcases land_typeFlag a with h | h <;> rw [h] <;> omega

/-! ## What the checker's answers say -/

theorem checkLockTime_eq_true {txTo : CTransaction} {nIn : Nat} {nLockTime : Int}
    (h : checkLockTime txTo nIn nLockTime = true) :
    (((txTo.nLockTime.toNat : Int) < LOCKTIME_THRESHOLD ∧ nLockTime < LOCKTIME_THRESHOLD) ∨
        ((txTo.nLockTime.toNat : Int) ≥ LOCKTIME_THRESHOLD ∧ nLockTime ≥ LOCKTIME_THRESHOLD)) ∧
      nLockTime ≤ txTo.nLockTime.toNat ∧ (txTo.vin.getD nIn default).nSequence ≠ SEQUENCE_FINAL := by
  unfold checkLockTime at h
  dsimp only at h
  split_ifs at h with htype hgt hfinal
  exact ⟨htype, not_lt.mp hgt, fun he => hfinal he.symm⟩

theorem checkSequence_eq_true {txTo : CTransaction} {nIn : Nat} {nSequence : Int}
    (h : checkSequence txTo nIn nSequence = true) :
    2 ≤ txTo.nVersion.toUInt32 ∧
      (txTo.vin.getD nIn default).nSequence.toNat &&& SEQUENCE_LOCKTIME_DISABLE_FLAG = 0 ∧
      ((txTo.vin.getD nIn default).nSequence.toNat &&& SEQUENCE_LOCKTIME_TYPE_FLAG = 0 ↔
        int64Bits nSequence &&& SEQUENCE_LOCKTIME_TYPE_FLAG = 0) ∧
      int64Bits nSequence &&& SEQUENCE_LOCKTIME_MASK ≤
        (txTo.vin.getD nIn default).nSequence.toNat &&& SEQUENCE_LOCKTIME_MASK := by
  unfold checkSequence at h
  dsimp only at h
  split_ifs at h with hver hdis htype hgt
  have hflag : SEQUENCE_LOCKTIME_TYPE_FLAG = 2 ^ 22 := rfl
  have htx := land_lockTimeMask_lt_iff (txTo.vin.getD nIn default).nSequence.toNat
  have hn := land_lockTimeMask_lt_iff (int64Bits nSequence)
  have hflags := land_typeFlag (txTo.vin.getD nIn default).nSequence.toNat
  have hflagn := land_typeFlag (int64Bits nSequence)
  have hlows := land_mask_lt (txTo.vin.getD nIn default).nSequence.toNat
  have hlown := land_mask_lt (int64Bits nSequence)
  rw [land_lockTimeMask, land_lockTimeMask] at hgt htype
  rw [land_lockTimeMask] at htx hn
  refine ⟨UInt32.not_lt.mp hver, Decidable.of_not_not hdis, by omega, by omega⟩

/-- An input whose coin's height or time bound a block passes: the lock of
`CheckLockTime` is past. -/
theorem checkLockTime_final {tx : CTransaction} {nIn : Nat} {n nBlockHeight nBlockTime : Int}
    (hIn : nIn < tx.vin.length) (hheight : 0 < nBlockHeight)
    (hcheck : checkLockTime tx nIn n = true) (hfinal : isFinalTx tx nBlockHeight nBlockTime = true) :
    if n < LOCKTIME_THRESHOLD then n < nBlockHeight else n < nBlockTime := by
  obtain ⟨htype, hle, hseq⟩ := checkLockTime_eq_true hcheck
  have hthr : LOCKTIME_THRESHOLD = 500000000 := rfl
  unfold isFinalTx at hfinal
  by_cases h0 : tx.nLockTime = 0
  -- `nLockTime = 0`: the operand is `0`, a height
  · have hzero : (tx.nLockTime.toNat : Int) = 0 := by simp [h0]
    rw [if_pos (by omega)]
    omega
  rw [if_neg h0] at hfinal
  by_cases hlt : (tx.nLockTime.toNat : Int) <
      (if (tx.nLockTime.toNat : Int) < LOCKTIME_THRESHOLD then nBlockHeight else nBlockTime)
  -- the lock time is below the block's height, or its time, as it reads
  · split_ifs at hlt <;> split_ifs <;> omega
  -- every input final, this one included
  · rw [if_neg hlt] at hfinal
    rw [List.getD_eq_getElem _ _ hIn] at hseq
    have hall := List.all_eq_true.mp hfinal _ (List.getElem_mem hIn)
    exact absurd (beq_iff_eq.mp hall) hseq

theorem sequenceLockStep_mono (block : CBlockIndex) (bounds : Int × Int) (input : CTxIn × Int) :
    bounds.1 ≤ (sequenceLockStep block bounds input).1 ∧ bounds.2 ≤ (sequenceLockStep block bounds input).2 := by
  unfold sequenceLockStep
  dsimp only
  split_ifs <;> simp

/-- The loop of `CalculateSequenceLocks` ends at or above the height bound of
every enabled input whose lock counts blocks. -/
theorem sequenceLocks_height_ge (block : CBlockIndex) (inputs : List (CTxIn × Int)) {txin : CTxIn} {h : Int}
    (hmem : (txin, h) ∈ inputs) (hdis : txin.nSequence.toNat &&& SEQUENCE_LOCKTIME_DISABLE_FLAG = 0)
    (htype : txin.nSequence.toNat &&& SEQUENCE_LOCKTIME_TYPE_FLAG = 0) :
    h + ((txin.nSequence.toNat &&& SEQUENCE_LOCKTIME_MASK : Nat) : Int) - 1 ≤
      (inputs.foldl (sequenceLockStep block) (-1, -1)).1 := by
  have hstep : ∀ (b : Int × Int) (x : CTxIn × Int),
      x.1.nSequence.toNat &&& SEQUENCE_LOCKTIME_DISABLE_FLAG = 0 ∧
        x.1.nSequence.toNat &&& SEQUENCE_LOCKTIME_TYPE_FLAG = 0 →
      x.2 + ((x.1.nSequence.toNat &&& SEQUENCE_LOCKTIME_MASK : Nat) : Int) - 1 ≤ (sequenceLockStep block b x).1 := by
    intro b x hx
    simp only [sequenceLockStep, hx.1, hx.2, ne_eq, not_true_eq_false, if_false]
    omega
  exact le_foldl_of_mem (sequenceLockStep block) Prod.fst
    (fun x => x.2 + ((x.1.nSequence.toNat &&& SEQUENCE_LOCKTIME_MASK : Nat) : Int) - 1)
    (fun x => x.1.nSequence.toNat &&& SEQUENCE_LOCKTIME_DISABLE_FLAG = 0 ∧
      x.1.nSequence.toNat &&& SEQUENCE_LOCKTIME_TYPE_FLAG = 0)
    (fun b x => (sequenceLockStep_mono block b x).1) hstep inputs (-1, -1) hmem ⟨hdis, htype⟩

/-- The same for the time bound of every enabled input whose lock counts
units of 512 seconds. -/
theorem sequenceLocks_time_ge (block : CBlockIndex) (inputs : List (CTxIn × Int)) {txin : CTxIn} {h : Int}
    (hmem : (txin, h) ∈ inputs) (hdis : txin.nSequence.toNat &&& SEQUENCE_LOCKTIME_DISABLE_FLAG = 0)
    (htype : txin.nSequence.toNat &&& SEQUENCE_LOCKTIME_TYPE_FLAG ≠ 0) :
    getMedianTimePast (getAncestor block (max (h - 1) 0)) +
        (((txin.nSequence.toNat &&& SEQUENCE_LOCKTIME_MASK) <<< SEQUENCE_LOCKTIME_GRANULARITY : Nat) : Int) - 1 ≤
      (inputs.foldl (sequenceLockStep block) (-1, -1)).2 := by
  have hstep : ∀ (b : Int × Int) (x : CTxIn × Int),
      x.1.nSequence.toNat &&& SEQUENCE_LOCKTIME_DISABLE_FLAG = 0 ∧
        x.1.nSequence.toNat &&& SEQUENCE_LOCKTIME_TYPE_FLAG ≠ 0 →
      getMedianTimePast (getAncestor block (max (x.2 - 1) 0)) +
          (((x.1.nSequence.toNat &&& SEQUENCE_LOCKTIME_MASK) <<< SEQUENCE_LOCKTIME_GRANULARITY : Nat) : Int) - 1 ≤
        (sequenceLockStep block b x).2 := by
    intro b x hx
    simp only [sequenceLockStep, hx.1, hx.2, ne_eq, not_true_eq_false, not_false_eq_true, if_false, if_true]
    omega
  -- the bound is read off at `(txin, h)` by `dsimp`, not by unification,
  -- which unfolds the shift
  have key := le_foldl_of_mem (sequenceLockStep block) Prod.snd _ _
    (fun b x => (sequenceLockStep_mono block b x).2) hstep inputs (-1, -1) hmem ⟨hdis, htype⟩
  dsimp only at key
  exact key

/-- A block that passes the sequence locks of a transaction whose input `nIn`
passes `CheckSequence` is past that input's lock as the operand states it. -/
theorem checkSequence_locks {tx : CTransaction} {nIn : Nat} {n : Int} {flags : UInt32} {prevHeights : List Int}
    {r : IndexRecord} {pprev : CBlockIndex} (hIn : nIn < tx.vin.length)
    (hflag : flags &&& LOCKTIME_VERIFY_SEQUENCE ≠ 0) (hcheck : checkSequence tx nIn n = true)
    (hlocks : sequenceLocks tx flags prevHeights (r :: pprev) = some true) :
    if int64Bits n &&& SEQUENCE_LOCKTIME_TYPE_FLAG = 0 then
      prevHeights.getD nIn 0 + (int64Bits n &&& SEQUENCE_LOCKTIME_MASK : Nat) ≤ r.nHeight
    else getMedianTimePast (getAncestor (r :: pprev) (max (prevHeights.getD nIn 0 - 1) 0)) +
        ((int64Bits n &&& SEQUENCE_LOCKTIME_MASK) <<< SEQUENCE_LOCKTIME_GRANULARITY : Nat) ≤
      getMedianTimePast pprev := by
  obtain ⟨hver, hdis, htype, hle⟩ := checkSequence_eq_true hcheck
  have hlen : prevHeights.length = tx.vin.length := by
    by_contra hne
    simp [sequenceLocks, calculateSequenceLocks, hne] at hlocks
  rw [sequenceLocks, calculateSequenceLocks, if_neg (not_not.mpr hlen), if_neg (not_not.mpr ⟨hver, hflag⟩)] at hlocks
  have hpast := hlocks
  simp only [Option.map_some, Option.some.injEq, evaluateSequenceLocks] at hpast
  split_ifs at hpast with hbefore
  have hlen' : nIn < (tx.vin.zip prevHeights).length := by simp [hlen, hIn]
  have hmem : (tx.vin.getD nIn default, prevHeights.getD nIn 0) ∈ tx.vin.zip prevHeights := by
    rw [List.getD_eq_getElem _ _ hIn, List.getD_eq_getElem _ _ (by omega), ← List.getElem_zip (h := hlen')]
    exact List.getElem_mem hlen'
  by_cases htx : (tx.vin.getD nIn default).nSequence.toNat &&& SEQUENCE_LOCKTIME_TYPE_FLAG = 0
  · have hbound := sequenceLocks_height_ge (r :: pprev) _ hmem hdis htx
    rw [if_pos (htype.mp htx)]
    omega
  · have hbound := sequenceLocks_time_ge (r :: pprev) _ hmem hdis htx
    rw [if_neg (fun h => htx (htype.mpr h))]
    have hshift : ∀ a b : Nat, a ≤ b → (a <<< SEQUENCE_LOCKTIME_GRANULARITY : Nat) ≤ b <<< SEQUENCE_LOCKTIME_GRANULARITY := by
      intro a b hab
      rw [Nat.shiftLeft_eq, Nat.shiftLeft_eq]
      exact Nat.mul_le_mul_right _ hab
    have := hshift _ _ hle
    omega

/-! ## The opcodes -/

section Opcodes

variable {flags : UInt32} {checker : BaseSignatureChecker} {fRequireMinimal : Bool}

theorem opCheckLockTimeVerify_ok (hflag : flags &&& SCRIPT_VERIFY_CHECKLOCKTIMEVERIFY ≠ 0) {stack : List valtype}
    (h : opCheckLockTimeVerify flags checker fRequireMinimal stack = .ok ()) :
    ∃ top rest v, stack = top :: rest ∧ evalScriptNum top fRequireMinimal 5 = .ok v ∧ 0 ≤ v ∧
      checker.checkLockTime v = true := by
  unfold opCheckLockTimeVerify at h
  rw [if_neg hflag] at h
  rcases stack with _ | ⟨top, rest⟩
  · cases h
  obtain ⟨v, hv, h⟩ := Reader.bind_eq_ok.mp h
  split_ifs at h with hneg hlock
  refine ⟨top, rest, v, rfl, hv, not_lt.mp hneg, ?_⟩
  simpa using hlock

theorem opCheckSequenceVerify_ok (hflag : flags &&& SCRIPT_VERIFY_CHECKSEQUENCEVERIFY ≠ 0) {stack : List valtype}
    (h : opCheckSequenceVerify flags checker fRequireMinimal stack = .ok ()) :
    ∃ top rest v, stack = top :: rest ∧ evalScriptNum top fRequireMinimal 5 = .ok v ∧ 0 ≤ v ∧
      (v.toNat &&& SEQUENCE_LOCKTIME_DISABLE_FLAG ≠ 0 ∨ checker.checkSequence v = true) := by
  unfold opCheckSequenceVerify at h
  rw [if_neg hflag] at h
  rcases stack with _ | ⟨top, rest⟩
  · cases h
  obtain ⟨v, hv, h⟩ := Reader.bind_eq_ok.mp h
  split_ifs at h with hneg hdis hseq
  · exact ⟨top, rest, v, rfl, hv, not_lt.mp hneg, .inl hdis⟩
  · exact ⟨top, rest, v, rfl, hv, not_lt.mp hneg, .inr (by simpa using hseq)⟩

end Opcodes

/-- A serialized `int64_t` read back under either minimal rule and any size
limit it passes is the number. -/
theorem evalScriptNum_serialize {n v : Int} (hlo : -2 ^ 63 < n) (hhi : n < 2 ^ 63) {fRequireMinimal : Bool}
    {nMaxNumSize : Nat} (h : evalScriptNum (scriptNumSerialize n) fRequireMinimal nMaxNumSize = .ok v) : v = n := by
  have hset : ∀ {f m w}, scriptNumOfVch (scriptNumSerialize n) f m = .ok w →
      scriptNumSetVch (scriptNumSerialize n) = .ok w := by
    intro f m w hw
    unfold scriptNumOfVch at hw
    split_ifs at hw
    exact hw
  have hn := hset (scriptNumOfVch_serialize n hlo hhi)
  unfold evalScriptNum at h
  split at h
  · rename_i w hw
    cases h
    rw [hset hw] at hn
    exact Except.ok.inj hn
  · cases h

/-- A script that starts with the push of `n` and an operation above
`OP_PUSHDATA4`, accepted by `EvalScript`, has run that operation on the
stack with `CScriptNum(n)`'s bytes on top. -/
theorem evalScript_int64_then {crypto : ScriptCrypto} {stack : List valtype} {n : Int} {opcode : UInt8}
    {rest : CScript} {flags : UInt32} {checker : BaseSignatureChecker} {sigversion : SigVersion}
    {stack' : List valtype} (hlo : -2 ^ 63 < n) (hhi : n < 2 ^ 63) (hop : OP_PUSHDATA4 < opcode)
    (hroom : stack.length < MAX_STACK_SIZE)
    (h : evalScript crypto stack (pushOpcode (pushInt64 [] n) opcode ++ rest) flags checker sigversion = .ok stack') :
    ∃ pc st₂, evalStep crypto flags checker sigversion (decide (flags &&& SCRIPT_VERIFY_MINIMALDATA ≠ 0)) opcode []
      pc { stack := scriptNumSerialize n :: stack, altstack := [], vfExec := [], nOpCount := 0,
           pbegincodehash := pushOpcode (pushInt64 [] n) opcode ++ rest } = .ok st₂ := by
  have hscript : pushOpcode (pushInt64 [] n) opcode = buildScript [int64Item n, .opcode opcode] := by
    rw [pushInt64_eq]
    rfl
  have hpush : ∀ it ∈ [int64Item n, .opcode opcode], it.Pushable := by
    simpa using ⟨pushable_int64Item n, hop⟩
  unfold evalScript at h
  split at h
  · cases h
  obtain ⟨st', hloop, -⟩ := Reader.bind_eq_ok.mp h
  rw [hscript, evalLoop_buildScript_append _ _ _ _ _ rest _ hpush] at hloop
  obtain ⟨st₃, hrun, -⟩ := Reader.bind_eq_ok.mp hloop
  rw [runItems, evalStep_int64Item _ _ _ _ _ hlo hhi rfl (by simpa using hroom), Reader.ok_bind, runItems] at hrun
  obtain ⟨st₂, hstep, -⟩ := Reader.bind_eq_ok.mp hrun
  simp only [ScriptItem.parsed, ← hscript] at hstep
  exact ⟨_, st₂, hstep⟩

/-! ## The two opcodes against the block's rules -/

section Spend

variable {crypto : ScriptCrypto} {stack stack' : List valtype} {n : Int} {rest : CScript} {flags : UInt32}
  {checkSig : valtype → valtype → CScript → SigVersion → Bool} {tx : CTransaction} {nIn : Nat}
  {sigversion : SigVersion}

/-- `<n> OP_CHECKLOCKTIMEVERIFY`, accepted under the checker of input `nIn`,
and the transaction final in a block: the block is past height `n`, or past
time `n`, as `n` reads. -/
theorem evalScript_checkLockTimeVerify (hlo : -2 ^ 63 < n) (hhi : n < 2 ^ 63) (hroom : stack.length < MAX_STACK_SIZE)
    (hflag : flags &&& SCRIPT_VERIFY_CHECKLOCKTIMEVERIFY ≠ 0) (hIn : nIn < tx.vin.length)
    (h : evalScript crypto stack (pushOpcode (pushInt64 [] n) OP_CHECKLOCKTIMEVERIFY ++ rest) flags
      (transactionSignatureChecker checkSig tx nIn) sigversion = .ok stack')
    {nBlockHeight nBlockTime : Int} (hheight : 0 < nBlockHeight)
    (hfinal : isFinalTx tx nBlockHeight nBlockTime = true) :
    0 ≤ n ∧ if n < LOCKTIME_THRESHOLD then n < nBlockHeight else n < nBlockTime := by
  obtain ⟨pc, st₂, hstep⟩ := evalScript_int64_then hlo hhi (by decide) hroom h
  have hsw := evalStep_switch_of_exec _ _ _ _ _ (by decide) rfl hstep
  rw [if_pos (by decide), show switchCase OP_CHECKLOCKTIMEVERIFY = .checkLockTimeVerify from rfl] at hsw
  obtain ⟨_, hop, -⟩ := Reader.bind_eq_ok.mp hsw
  obtain ⟨top, _, v, hst, hv, hv0, hcheck⟩ := opCheckLockTimeVerify_ok hflag hop
  cases hst
  obtain rfl := evalScriptNum_serialize hlo hhi hv
  rw [transactionSignatureChecker_checkLockTime] at hcheck
  exact ⟨hv0, checkLockTime_final hIn hheight hcheck hfinal⟩

/-- A transaction with lock time `100` and a non-final input, spending
`100 OP_CHECKLOCKTIMEVERIFY` in a block at height `101`. -/
theorem evalScript_checkLockTimeVerify_height :
    evalScript ⟨id, id, id, id, id, fun _ => true⟩ [] (pushOpcode (pushInt64 [] 100) OP_CHECKLOCKTIMEVERIFY ++ [])
        SCRIPT_VERIFY_CHECKLOCKTIMEVERIFY
        (transactionSignatureChecker (fun _ _ _ _ => true) { (default : CTransaction) with vin := [default], nLockTime := 100 } 0)
        .BASE = .ok [[100]] ∧
      isFinalTx { (default : CTransaction) with vin := [default], nLockTime := 100 } 101 0 = true ∧
      (0 ≤ (100 : Int) ∧ if (100 : Int) < LOCKTIME_THRESHOLD then (100 : Int) < 101 else (100 : Int) < 0) :=
  have hrun : evalScript ⟨id, id, id, id, id, fun _ => true⟩ [] (pushOpcode (pushInt64 [] 100) OP_CHECKLOCKTIMEVERIFY ++ [])
      SCRIPT_VERIFY_CHECKLOCKTIMEVERIFY
      (transactionSignatureChecker (fun _ _ _ _ => true) { (default : CTransaction) with vin := [default], nLockTime := 100 } 0)
      .BASE = .ok [[100]] := by decide +kernel
  have hfinal : isFinalTx { (default : CTransaction) with vin := [default], nLockTime := 100 } 101 0 = true := by
    decide +kernel
  ⟨hrun, hfinal, evalScript_checkLockTimeVerify (by decide) (by decide) (by decide) (by decide) (by decide) hrun
    (by decide) hfinal⟩

/-- `<n> OP_CHECKSEQUENCEVERIFY`, accepted under the checker of input `nIn`,
and a block whose sequence locks the transaction passes: unless `n` sets the
disable flag, the coin input `nIn` spends is at least `n`'s count of blocks,
or of 512 seconds, older than the block. -/
theorem evalScript_checkSequenceVerify (hlo : -2 ^ 63 < n) (hhi : n < 2 ^ 63) (hroom : stack.length < MAX_STACK_SIZE)
    (hflag : flags &&& SCRIPT_VERIFY_CHECKSEQUENCEVERIFY ≠ 0) (hIn : nIn < tx.vin.length)
    (h : evalScript crypto stack (pushOpcode (pushInt64 [] n) OP_CHECKSEQUENCEVERIFY ++ rest) flags
      (transactionSignatureChecker checkSig tx nIn) sigversion = .ok stack')
    {lockFlags : UInt32} {prevHeights : List Int} {r : IndexRecord} {pprev : CBlockIndex}
    (hlockFlag : lockFlags &&& LOCKTIME_VERIFY_SEQUENCE ≠ 0)
    (hlocks : sequenceLocks tx lockFlags prevHeights (r :: pprev) = some true) :
    0 ≤ n ∧ (n.toNat &&& SEQUENCE_LOCKTIME_DISABLE_FLAG ≠ 0 ∨
      if n.toNat &&& SEQUENCE_LOCKTIME_TYPE_FLAG = 0 then
        prevHeights.getD nIn 0 + (n.toNat &&& SEQUENCE_LOCKTIME_MASK : Nat) ≤ r.nHeight
      else getMedianTimePast (getAncestor (r :: pprev) (max (prevHeights.getD nIn 0 - 1) 0)) +
          ((n.toNat &&& SEQUENCE_LOCKTIME_MASK) <<< SEQUENCE_LOCKTIME_GRANULARITY : Nat) ≤
        getMedianTimePast pprev) := by
  obtain ⟨pc, st₂, hstep⟩ := evalScript_int64_then hlo hhi (by decide) hroom h
  have hsw := evalStep_switch_of_exec _ _ _ _ _ (by decide) rfl hstep
  rw [if_pos (by decide), show switchCase OP_CHECKSEQUENCEVERIFY = .checkSequenceVerify from rfl] at hsw
  obtain ⟨_, hop, -⟩ := Reader.bind_eq_ok.mp hsw
  obtain ⟨top, _, v, hst, hv, hv0, hcheck⟩ := opCheckSequenceVerify_ok hflag hop
  cases hst
  obtain rfl := evalScriptNum_serialize hlo hhi hv
  refine ⟨hv0, ?_⟩
  rcases hcheck with hdis | hcheck
  · exact .inl hdis
  · rw [transactionSignatureChecker_checkSequence] at hcheck
    have hlock := checkSequence_locks hIn hlockFlag hcheck hlocks
    rw [int64Bits_of_nonneg hv0 (by omega)] at hlock
    exact .inr hlock

/-- A version-2 transaction whose input, with sequence `10`, spends a coin of
height `5` with `10 OP_CHECKSEQUENCEVERIFY`, in a block at height `20` over its
parent at height `19`. -/
theorem evalScript_checkSequenceVerify_blocks :
    evalScript ⟨id, id, id, id, id, fun _ => true⟩ [] (pushOpcode (pushInt64 [] 10) OP_CHECKSEQUENCEVERIFY ++ [])
        SCRIPT_VERIFY_CHECKSEQUENCEVERIFY
        (transactionSignatureChecker (fun _ _ _ _ => true)
          { (default : CTransaction) with nVersion := 2, vin := [{ (default : CTxIn) with nSequence := 10 }] } 0)
        .BASE = .ok [[10]] ∧
      sequenceLocks { (default : CTransaction) with nVersion := 2, vin := [{ (default : CTxIn) with nSequence := 10 }] }
        LOCKTIME_VERIFY_SEQUENCE [5]
          [{ (default : IndexRecord) with nHeight := 20 }, { (default : IndexRecord) with nHeight := 19 }] = some true ∧
      (0 ≤ (10 : Int) ∧ ((10 : Int).toNat &&& SEQUENCE_LOCKTIME_DISABLE_FLAG ≠ 0 ∨
        if (10 : Int).toNat &&& SEQUENCE_LOCKTIME_TYPE_FLAG = 0 then
          [(5 : Int)].getD 0 0 + ((10 : Int).toNat &&& SEQUENCE_LOCKTIME_MASK : Nat) ≤ (20 : Int)
        else getMedianTimePast (getAncestor
              [{ (default : IndexRecord) with nHeight := 20 }, { (default : IndexRecord) with nHeight := 19 }]
              (max ([(5 : Int)].getD 0 0 - 1) 0)) +
            (((10 : Int).toNat &&& SEQUENCE_LOCKTIME_MASK) <<< SEQUENCE_LOCKTIME_GRANULARITY : Nat) ≤
          getMedianTimePast [{ (default : IndexRecord) with nHeight := 19 }])) :=
  have hrun : evalScript ⟨id, id, id, id, id, fun _ => true⟩ [] (pushOpcode (pushInt64 [] 10) OP_CHECKSEQUENCEVERIFY ++ [])
      SCRIPT_VERIFY_CHECKSEQUENCEVERIFY
      (transactionSignatureChecker (fun _ _ _ _ => true)
        { (default : CTransaction) with nVersion := 2, vin := [{ (default : CTxIn) with nSequence := 10 }] } 0)
      .BASE = .ok [[10]] := by decide +kernel
  have hlocks : sequenceLocks { (default : CTransaction) with nVersion := 2, vin := [{ (default : CTxIn) with nSequence := 10 }] }
      LOCKTIME_VERIFY_SEQUENCE [5]
        [{ (default : IndexRecord) with nHeight := 20 }, { (default : IndexRecord) with nHeight := 19 }] = some true := by
    decide +kernel
  ⟨hrun, hlocks, evalScript_checkSequenceVerify (by decide) (by decide) (by decide) (by decide) (by decide) hrun
    (by decide) hlocks⟩

end Spend

end Ring.Node
