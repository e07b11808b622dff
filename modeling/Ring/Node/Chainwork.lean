import Ring.Chain.Work
import Ring.Node.Validation

/-!
# What the block checks fix of a block's chainwork

`GetBlockProof` reads every block's `nBits`. For PoW and hive blocks
`ContextualCheckBlockHeader` pins it to the next target; for a pop block no
check reads it (`// Any nBits is valid`). The miner writes the PoW limit
there (src/miner.cpp:243-254), but any other value passes the same checks.

The first part describes the work of a block that is not hive mined: its own
target's work times a factor from the blocks behind it, never a fault. The
second shows that the three checks cannot tell two `nBits` of a pop block
apart.
-/
namespace Ring.Node

open Ring.Lib Ring.Arith Ring.Chain Ring.Hive Ring.Pop

/-! ## The work of a PoW or pop block -/

section PowWork

variable (params : Params) (hd : HiveDifficulty)

/-- The search for the last hive block never faults on a non-empty chain:
it stops at a hive block, at the end of the chain or after its iterations. -/
theorem lastHiveLoop_ok (n i : Nat) (r : IndexRecord) (rest : CBlockIndex) :
    ∃ o, lastHiveLoop params n i (r :: rest) = .ok o := by
  induction i generalizing n r rest with
  | zero => exact ⟨_, rfl⟩
  | succ i ih =>
    by_cases hh : r.isHiveMined params = true
    · exact ⟨some (n, some r.nBits), by simp [lastHiveLoop, hh]⟩
    · cases rest with
      | nil => exact ⟨none, by simp [lastHiveLoop, hh]⟩
      | cons q rest =>
        obtain ⟨o, ho⟩ := ih (n + 1) q rest
        exact ⟨o, by simp [lastHiveLoop, hh, ho]⟩

/-- The factor of a PoW or pop block's work, from the blocks behind it:
`powK` of the hive search, or `1` when the chain ends first. -/
def powScale : CBlockIndex → Nat
  | [] => 1
  | r :: rest =>
    match lastHiveLoop params 0 params.maxKPow.toNat (r :: rest) with
    | .ok (some (n, lastHive)) => powK params hd n lastHive
    | _ => 1

theorem one_le_powK (n : Nat) (lastHive : Option UInt32) : 1 ≤ powK params hd n lastHive := by
  simp only [powK]
  split_ifs <;> omega

theorem powK_le (n : Nat) (lastHive : Option UInt32) :
    powK params hd n lastHive ≤ max 1 params.maxKPow.toNat := by
  simp only [powK]
  split_ifs <;> omega

theorem powScale_mem (rest : CBlockIndex) :
    1 ≤ powScale params hd rest ∧ powScale params hd rest ≤ max 1 params.maxKPow.toNat := by
  unfold powScale
  split
  · omega
  · split
    · exact ⟨one_le_powK .., powK_le ..⟩
    · omega

/-- `GetBlockProof` of a block that is not hive mined and has a valid target:
the target's work times `powScale` of the chain behind it. -/
theorem getBlockProof_of_not_hive {r : IndexRecord} {bnTarget : ArithUint256} (rest : CBlockIndex)
    (hh : r.isHiveMined params = false) (ht : validTarget r.nBits = some bnTarget) :
    getBlockProof params hd (r :: rest) =
      .ok (targetScaled bnTarget * BitVec.ofNat 256 (powScale params hd rest)) := by
  cases rest with
  | nil => simp [getBlockProof, hh, ht, powScale, pure, Except.pure]
  | cons q rest =>
    obtain ⟨o, ho⟩ := lastHiveLoop_ok params 0 params.maxKPow.toNat q rest
    rcases o with _ | ⟨n, lastHive⟩
    · simp [getBlockProof, hh, ht, ho, powScale, Bind.bind, Except.bind, pure, Except.pure]
    · simp [getBlockProof, hh, ht, ho, powScale, Bind.bind, Except.bind, pure, Except.pure]

end PowWork

/-- A product of a work value and a small factor that does not wrap. -/
theorem toNat_mul_ofNat {a : ArithUint256} {s : Nat} (hs : s < 2 ^ 256) (h : a.toNat * s < 2 ^ 256) :
    (a * BitVec.ofNat 256 s).toNat = a.toNat * s := by
  rw [BitVec.toNat_mul, BitVec.toNat_ofNat, Nat.mod_eq_of_lt hs, Nat.mod_eq_of_lt h]

/-- The work of a PoW or pop block in numbers: the expected hashes of its
target times `powScale`, as long as that product fits in 256 bits. -/
theorem getBlockProof_toNat_of_not_hive (params : Params) (hd : HiveDifficulty) {r : IndexRecord}
    {bnTarget : ArithUint256} (rest : CBlockIndex) (hh : r.isHiveMined params = false)
    (ht : validTarget r.nBits = some bnTarget)
    (hfit : 2 ^ 256 / (bnTarget.toNat + 1) * max 1 params.maxKPow.toNat < 2 ^ 256) :
    ∃ w, getBlockProof params hd (r :: rest) = .ok w ∧
      w.toNat = 2 ^ 256 / (bnTarget.toNat + 1) * powScale params hd rest := by
  obtain ⟨-, hs₂⟩ := powScale_mem params hd rest
  have hwork := toNat_targetScaled (ne_zero_of_validTarget ht)
  have hprod : (targetScaled bnTarget).toNat * powScale params hd rest < 2 ^ 256 :=
    lt_of_le_of_lt (by rw [hwork]; exact Nat.mul_le_mul_left _ hs₂) hfit
  -- a target's work is at least one hash, so the factor alone fits as well
  have hone : 0 < (targetScaled bnTarget).toNat := by
    rw [hwork]
    exact Nat.div_pos (by have := bnTarget.isLt; omega) (Nat.succ_pos _)
  refine ⟨_, getBlockProof_of_not_hive params hd rest hh ht, ?_⟩
  rw [toNat_mul_ofNat (lt_of_le_of_lt (Nat.le_mul_of_pos_left _ hone) hprod) hprod, hwork]

/-! ## A pop block's `nBits` passes unseen -/

section PopBits

variable (env : Env) (params : Params)

/-- `CheckBlockHeader` accepts every pop-mined header. -/
theorem checkBlockHeader_of_popMined {h : CBlockHeader} (hp : h.isPopMined params = true)
    (fCheckPOW : Bool) : checkBlockHeader env params h fCheckPOW = .ok () := by
  simp [checkBlockHeader, hp]

/-- `ContextualCheckBlockHeader` gives a pop-mined header the same verdict
whatever its `nBits`. -/
theorem contextualCheckBlockHeader_setBits {h : CBlockHeader} (hh : h.isHiveMined params = false)
    (hp : h.isPopMined params = true) (b : UInt32) (pcheckpointHeight : Option Int)
    (pindexPrev : CBlockIndex) (nAdjustedTime : Int) :
    contextualCheckBlockHeader params pcheckpointHeight { h with nBits := b } pindexPrev nAdjustedTime =
      contextualCheckBlockHeader params pcheckpointHeight h pindexPrev nAdjustedTime := by
  have hh' : ({ h with nBits := b } : CBlockHeader).isHiveMined params = false := hh
  have hp' : ({ h with nBits := b } : CBlockHeader).isPopMined params = true := hp
  simp only [contextualCheckBlockHeader, hh, hp, hh', hp']
  rfl

/-- The proof check of `CheckBlock` reads the block's parent hash and
transactions, not its `nBits`. -/
theorem checkBlockProof_setBits (st : NodeState) (block : CBlock) (b : UInt32)
    (fPopCheckActiveChain : Bool) :
    checkBlockProof env params st { block with nBits := b } fPopCheckActiveChain =
      checkBlockProof env params st block fPopCheckActiveChain := rfl

/-- `CheckBlock` gives a pop-mined block the same verdict and state whatever
its `nBits`. -/
theorem checkBlock_setBits (st : NodeState) {block : CBlock} (hp : block.isPopMined params = true)
    (b : UInt32) (fChecked fCheckPOW fCheckMerkleRoot fPopCheckActiveChain : Bool) :
    checkBlock env params st { block with nBits := b } fChecked fCheckPOW fCheckMerkleRoot
        fPopCheckActiveChain =
      checkBlock env params st block fChecked fCheckPOW fCheckMerkleRoot fPopCheckActiveChain := by
  have hp' : ({ block with nBits := b } : CBlock).isPopMined params = true := hp
  simp only [checkBlock, checkBlockHeader_of_popMined env params hp',
    checkBlockHeader_of_popMined env params hp, checkBlockProof_setBits]

end PopBits

set_option maxRecDepth 2000 in
/-- The `nBits` the miner writes into a pop block: the PoW limit in compact
form. -/
theorem popBits_eq : getCompact (uintToArith256 mainParams.powLimit) false = 0x1e0fffff := by
  decide

/-- The work of the miner's pop target and of Bitcoin's first target. -/
theorem targetScaled_popBits : validTarget 0x1e0fffff = some (targetOf 0x1e0fffff) ∧
    (targetScaled (targetOf 0x1e0fffff)).toNat = 1048577 := by decide

/-- A pop block at the miner's target on the genesis block: its work is that
target's work, `1048577`, times the factor `1` of an empty chain. -/
theorem getBlockProof_toNat_of_not_hive_popBits :
    ∃ w, getBlockProof mainParams ⟨fun _ => 1, fun _ => false, fun _ => false⟩
        [{ (default : IndexRecord) with nBits := 0x1e0fffff, nNonce := 2 }] = .ok w ∧
      w.toNat = 2 ^ 256 / ((targetOf 0x1e0fffff).toNat + 1) *
        powScale mainParams ⟨fun _ => 1, fun _ => false, fun _ => false⟩ [] :=
  getBlockProof_toNat_of_not_hive mainParams _ [] rfl targetScaled_popBits.1 (by decide)

theorem targetScaled_heavyBits : validTarget 0x1d00ffff = some (targetOf 0x1d00ffff) ∧
    (targetScaled (targetOf 0x1d00ffff)).toNat = 4295032833 := by decide

/-- A pop block's chainwork is not fixed by the checks: take any block made
pop mined, with the `nBits` the miner writes (the PoW limit) and with
`nBits = 0x1d00ffff`. `CheckBlockHeader`, `ContextualCheckBlockHeader` and
`CheckBlock` give the two the same verdict (and leave the same node state)
over every parent chain, but `GetBlockProof` gives them different work, the
second above `maxKPow * (~T / (T + 1) + 1)` for the miner's target `T`. -/
theorem popBlock_nBits_sets_work (env : Env) (hd : HiveDifficulty) (st : NodeState)
    (pcheckpointHeight : Option Int) (nAdjustedTime : Int)
    (fChecked fCheckPOW fCheckMerkleRoot fPopCheckActiveChain : Bool)
    (block : CBlock) (r : IndexRecord) (prev : CBlockIndex) :
    let pop : CBlock := { block with nNonce := mainParams.popNonceMarker }
    let honest : CBlock := { pop with nBits := getCompact (uintToArith256 mainParams.powLimit) false }
    let heavy : CBlock := { pop with nBits := 0x1d00ffff }
    let popIndex : IndexRecord := { r with nNonce := mainParams.popNonceMarker }
    checkBlockHeader env mainParams heavy.toCBlockHeader fCheckPOW =
        checkBlockHeader env mainParams honest.toCBlockHeader fCheckPOW ∧
      contextualCheckBlockHeader mainParams pcheckpointHeight heavy.toCBlockHeader prev nAdjustedTime =
        contextualCheckBlockHeader mainParams pcheckpointHeight honest.toCBlockHeader prev
          nAdjustedTime ∧
      checkBlock env mainParams st heavy fChecked fCheckPOW fCheckMerkleRoot fPopCheckActiveChain =
        checkBlock env mainParams st honest fChecked fCheckPOW fCheckMerkleRoot
          fPopCheckActiveChain ∧
      ∃ w₁ w₂,
        getBlockProof mainParams hd ({ popIndex with nBits := honest.nBits } :: prev) = .ok w₁ ∧
        getBlockProof mainParams hd ({ popIndex with nBits := heavy.nBits } :: prev) = .ok w₂ ∧
        w₁ ≠ w₂ ∧
        mainParams.maxKPow.toNat * (targetScaled (targetOf honest.nBits)).toNat < w₂.toNat := by
  intro pop honest heavy popIndex
  have hpop : pop.isPopMined mainParams = true := rfl
  have hnh : pop.isHiveMined mainParams = false := rfl
  have hrh : popIndex.isHiveMined mainParams = false := rfl
  refine ⟨?header, ?contextual, ?block, ?work⟩
  case header =>
    have hpHonest : honest.isPopMined mainParams = true := rfl
    have hpHeavy : heavy.isPopMined mainParams = true := rfl
    rw [checkBlockHeader_of_popMined env mainParams hpHeavy,
      checkBlockHeader_of_popMined env mainParams hpHonest]
  case contextual =>
    exact (@contextualCheckBlockHeader_setBits mainParams pop.toCBlockHeader hnh hpop _ _ _ _).trans
      (@contextualCheckBlockHeader_setBits mainParams pop.toCBlockHeader hnh hpop _ _ _ _).symm
  case block =>
    exact (@checkBlock_setBits env mainParams st pop hpop _ _ _ _ _).trans
      (@checkBlock_setBits env mainParams st pop hpop _ _ _ _ _).symm
  case work =>
    rw [show honest.nBits = 0x1e0fffff from popBits_eq]
    obtain ⟨hv₁, hw₁⟩ := targetScaled_popBits
    obtain ⟨hv₂, hw₂⟩ := targetScaled_heavyBits
    refine ⟨_, _, getBlockProof_of_not_hive mainParams hd prev hrh hv₁,
      getBlockProof_of_not_hive mainParams hd prev hrh hv₂, ?_⟩
    -- both works are their target's work times the same factor `s ∈ [1, 5]`
    obtain ⟨hs₁, hs₅⟩ := powScale_mem mainParams hd prev
    have hk : mainParams.maxKPow.toNat = 5 := by decide
    rw [hk] at hs₅
    generalize powScale mainParams hd prev = s at hs₁ hs₅ ⊢
    have e₁ : (targetScaled (targetOf 0x1e0fffff) * BitVec.ofNat 256 s).toNat = 1048577 * s := by
      rw [toNat_mul_ofNat (by omega) (by rw [hw₁]; omega), hw₁]
    have e₂ : (targetScaled (targetOf 0x1d00ffff) * BitVec.ofNat 256 s).toNat = 4295032833 * s := by
      rw [toNat_mul_ofNat (by omega) (by rw [hw₂]; omega), hw₂]
    refine ⟨fun h => ?_, ?_⟩
    · have := congrArg BitVec.toNat h
      rw [e₁, e₂] at this
      omega
    · rw [e₂, hw₁, hk]
      omega

end Ring.Node
