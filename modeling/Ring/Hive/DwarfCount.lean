import Ring.Hive.Proof

/-!
# How many dwarves a DCT buys, as three readers count them

A dwarf creation transaction (DCT) pays `vout[0]` to the dwarf creation
script and may pay `vout[1]` to the community fund. Three pieces of code
turn it into a number of dwarves:

* `CWallet::GetDCT` (src/wallet/wallet.cpp:2838-2846) adds any payment to
  the fund back to the fee and divides by the dwarf cost;
* `GetNetworkHiveInfo` (src/pow.cpp:214-233) does the same only when the
  payment equals `(fee + payment) / communityContribFactor`, and skips the
  transaction otherwise;
* `CheckHiveProof` (src/pow.cpp:464-557) refuses every proof that names the
  DCT with the contribution flag unless the payment has that value, and
  otherwise accepts the nonces below `(fee + payment) / dwarfCost`.

`CreateDwarfTransaction` (src/wallet/wallet.cpp:3367-3387) always pays the
exact share, so on the DCTs the wallet builds the three agree; on a DCT that
pays the fund any other amount the wallet counts dwarves the network never
accepts.
-/
namespace Ring.Hive

open Ring.Lib Ring.Arith Ring.Script Ring.Chain Ring.Node

/-- The dwarf count and contribution flag `GetDCT` reports for a
transaction, `none` when it is not a DCT or its reward destination cannot be
extracted.
mirrors src/wallet/wallet.cpp:2800-2846 -/
def getDCTDwarves (env : Env) (params : Params) (tx : CTransaction) :
    Except Fault (Option (Int × Bool)) := do
  let some (dwarfFeePaid, scriptPubKeyReward) ← tx.isDCT env.scriptPubKeyBCF | return none
  let some _ := env.extractDestination scriptPubKeyReward | return none
  let (dwarfFeePaid, communityContrib) ←
    if tx.vout.length > 1 then do
      let out1 ← at! tx.vout 1
      if out1.scriptPubKey == env.scriptPubKeyCF then pure (dwarfFeePaid + out1.nValue, true)
      else pure (dwarfFeePaid, false)
    else pure (dwarfFeePaid, false)
  return some (intOfInt64 (dwarfFeePaid.tdiv params.dwarfCost), communityContrib)

/-- The dwarves `GetNetworkHiveInfo` counts for one transaction of a block:
`none` when it is not a DCT or is skipped for a wrong fund payment.
mirrors src/pow.cpp:214-233 -/
def networkDwarfCount (env : Env) (params : Params) (tx : CTransaction) :
    Except Fault (Option Int) := do
  let some (dwarfFeePaid, _) ← tx.isDCT env.scriptPubKeyBCF | return none
  let dwarfFeePaid ←
    if tx.vout.length > 1 then do
      let out1 ← at! tx.vout 1
      if out1.scriptPubKey == env.scriptPubKeyCF then
        let donationAmount := out1.nValue
        let expectedDonationAmount :=
          (dwarfFeePaid + donationAmount).tdiv params.communityContribFactor
        if donationAmount != expectedDonationAmount then return none
        pure (dwarfFeePaid + donationAmount)
      else pure dwarfFeePaid
    else pure dwarfFeePaid
  return some (intOfInt64 (dwarfFeePaid.tdiv params.dwarfCost))

/-- The outputs `CreateDwarfTransaction` asks for (before any change
output): the creation fee to `scriptPubKeyBCF OP_RETURN OP_DWARF` and the
reward script, less the donation, and the donation to the fund.
mirrors src/wallet/wallet.cpp:3366-3385 -/
def dwarfCreationOutputs (params : Params) (dwarfCount : Int) (communityContrib : Bool)
    (scriptPubKeyBCF scriptPubKeyFCA scriptPubKeyCF : CScript) : List CTxOut :=
  let totalDwarfCost := params.dwarfCost * dwarfCount
  let donationValue := totalDwarfCost.tdiv params.communityContribFactor
  let dwarfCreationValue := if communityContrib then totalDwarfCost - donationValue else totalDwarfCost
  let recipientBCF : CTxOut :=
    ⟨dwarfCreationValue, pushOpcode (pushOpcode scriptPubKeyBCF OP_RETURN) OP_DWARF ++ scriptPubKeyFCA⟩
  if communityContrib then [recipientBCF, ⟨donationValue, scriptPubKeyCF⟩] else [recipientBCF]

/-! ## The donation stage of `CheckHiveProof` -/

/-- A drilled DCT's fund output is read as its value. -/
theorem donationOfTx_of_vout {env : Env} {tx : CTransaction} {out0 : CTxOut} {d : Int}
    {rest : List CTxOut} (hvout : tx.vout = out0 :: ⟨d, env.scriptPubKeyCF⟩ :: rest) :
    donationOfTx env tx = pure d := by
  have hlen : ¬ rest.length + 1 + 1 < 2 := by omega
  simp [donationOfTx, hvout, at!, hlen]

/-- With the contribution flag, a DCT found by the deep drill passes the DCT
lookup exactly when its fund payment is the exact share, and then counts the
fee and the payment. -/
theorem hiveDctLookup_drill_contrib {env : Env} {params : Params} {st : NodeState}
    {pindexPrev : CBlockIndex} {f : HiveProofFields} {tx : CTransaction} {h : Int} {out0 : CTxOut}
    {d : Int} {rest : List CTxOut} (hcontrib : f.communityContrib = true)
    (hcoin : getCoin st ⟨uint256S f.txidStr, 0⟩ = none)
    (hdrill : getTxByHashAndHeight env st (uint256S f.txidStr) (toInt32 f.dctClaimedHeight)
      pindexPrev = .ok (some (tx, h)))
    (hvout : tx.vout = out0 :: ⟨d, env.scriptPubKeyCF⟩ :: rest) :
    hiveDctLookup env params st pindexPrev f =
      if d = (out0.nValue + d).tdiv params.communityContribFactor then
        pure ⟨toUInt32 h, out0.nValue + d, out0.scriptPubKey⟩
      else failure := by
  simp [hiveDctLookup, hcoin, hdrill, at!, hvout, donationOfTx_of_vout hvout, hcontrib]

/-- A DCT that pays the community fund anything but the exact share:
`GetDCT` reports `(fee + payment) / dwarfCost` dwarves with the contribution
flag, `GetNetworkHiveInfo` skips it, and `CheckHiveProof` refuses every proof
that names it with the flag set, whatever the nonce, when the deep drill
finds it. -/
theorem dwarfCounts_disagree (env : Env) (params : Params) {tx : CTransaction} {out0 : CTxOut}
    {d : Int} {rest : List CTxOut} {reward : CScript} {rewardDest : CTxDestination}
    (hvout : tx.vout = out0 :: ⟨d, env.scriptPubKeyCF⟩ :: rest)
    (hdct : isDCTScript out0.scriptPubKey env.scriptPubKeyBCF = some reward)
    (hdest : env.extractDestination reward = some rewardDest)
    (hbad : d ≠ (out0.nValue + d).tdiv params.communityContribFactor) :
    getDCTDwarves env params tx =
        .ok (some (intOfInt64 ((out0.nValue + d).tdiv params.dwarfCost), true)) ∧
      networkDwarfCount env params tx = .ok none ∧
      ∀ (st : NodeState) (pindexPrev : CBlockIndex) (f : HiveProofFields) (h : Int),
        f.communityContrib = true → getCoin st ⟨uint256S f.txidStr, 0⟩ = none →
        getTxByHashAndHeight env st (uint256S f.txidStr) (toInt32 f.dctClaimedHeight) pindexPrev =
          .ok (some (tx, h)) →
        hiveDctLookup env params st pindexPrev f = failure := by
  have hisdct : tx.isDCT env.scriptPubKeyBCF = .ok (some (out0.nValue, reward)) := by
    simp [CTransaction.isDCT, hvout, at!, hdct, bind, Except.bind, pure, Except.pure]
  have hlen : rest.length + 1 + 1 > 1 := by omega
  refine ⟨?wallet, ?network, ?proof⟩
  case wallet =>
    simp [getDCTDwarves, hisdct, hdest, hvout, at!, hlen, bind, Except.bind, pure, Except.pure]
  case network =>
    simp [networkDwarfCount, hisdct, hvout, at!, hlen, hbad, bind, Except.bind, pure, Except.pure]
  case proof =>
    intro st pindexPrev f h hcontrib hcoin hdrill
    rw [hiveDctLookup_drill_contrib hcontrib hcoin hdrill hvout, if_neg hbad]

/-- A DCT for four dwarves on the main network whose fund output pays one
satoshi: the wallet counts 4 dwarves, the network none. The creation
address, the fund and the reward are paid to key hashes. -/
theorem dwarfCounts_disagree_skewed :
    let env : Env := { (default : Env) with
      scriptPubKeyBCF := getScriptForDestination (.keyId ⟨List.replicate 20 0xbc⟩)
      scriptPubKeyCF := getScriptForDestination (.keyId ⟨List.replicate 20 0xcf⟩) }
    let reward := getScriptForDestination (.keyId ⟨List.replicate 20 0x01⟩)
    let out0 : CTxOut := ⟨4000000, env.scriptPubKeyBCF ++ [OP_RETURN, OP_DWARF] ++ reward⟩
    let tx : CTransaction := { (default : CTransaction) with vout := [out0, ⟨1, env.scriptPubKeyCF⟩] }
    isDCTScript out0.scriptPubKey env.scriptPubKeyBCF = some reward ∧
      env.extractDestination reward = some (.keyId ⟨List.replicate 20 0x01⟩) ∧
      (1 : Int) ≠ (out0.nValue + 1).tdiv mainParams.communityContribFactor ∧
      getDCTDwarves env mainParams tx = .ok (some (4, true)) ∧
      networkDwarfCount env mainParams tx = .ok none := by
  intro env reward out0 tx
  have hdct : isDCTScript out0.scriptPubKey env.scriptPubKeyBCF = some reward := by decide
  have hdest : env.extractDestination reward = some (.keyId ⟨List.replicate 20 0x01⟩) := by decide
  have hbad : (1 : Int) ≠ (out0.nValue + 1).tdiv mainParams.communityContribFactor := by decide
  obtain ⟨hwallet, hnetwork, -⟩ := dwarfCounts_disagree env mainParams
    (show tx.vout = out0 :: ⟨1, env.scriptPubKeyCF⟩ :: [] from rfl) hdct hdest hbad
  have hfour : intOfInt64 ((out0.nValue + 1).tdiv mainParams.dwarfCost) = 4 := by decide
  rw [hfour] at hwallet
  exact ⟨hdct, hdest, hbad, hwallet, hnetwork⟩

/-! ## The DCTs the wallet builds -/

/-- A DCT built by `CreateDwarfTransaction` for `n` dwarves with the
contribution pays the fund the exact share: `GetDCT` and `GetNetworkHiveInfo`
both count `n` dwarves, and the DCT lookup of `CheckHiveProof` (deep drill,
flag set) passes with the full cost `n * dwarfCost`, whose dwarf count is `n`. -/
theorem dwarfCreation_counts_agree (env : Env) (params : Params) {n : Int} {fca : CScript}
    {rewardDest : CTxDestination} {tx : CTransaction} {change : List CTxOut}
    (hvout : tx.vout = dwarfCreationOutputs params n true env.scriptPubKeyBCF fca env.scriptPubKeyCF ++
      change)
    (hbcf : env.scriptPubKeyBCF.length = 25) (hfca : fca.length = 25)
    (hdest : env.extractDestination fca = some rewardDest) :
    getDCTDwarves env params tx = .ok (some (intOfInt64 n, true)) ∧
      networkDwarfCount env params tx = .ok (some (intOfInt64 n)) ∧
      (params.dwarfCost * n).tdiv params.dwarfCost = n ∧
      ∀ (st : NodeState) (pindexPrev : CBlockIndex) (f : HiveProofFields) (h : Int),
        f.communityContrib = true → getCoin st ⟨uint256S f.txidStr, 0⟩ = none →
        getTxByHashAndHeight env st (uint256S f.txidStr) (toInt32 f.dctClaimedHeight) pindexPrev =
          .ok (some (tx, h)) →
        ∃ spk, hiveDctLookup env params st pindexPrev f =
          pure ⟨toUInt32 h, params.dwarfCost * n, spk⟩ := by
  set tot := params.dwarfCost * n
  set d := tot.tdiv params.communityContribFactor
  set out0 : CTxOut := ⟨tot - d, pushOpcode (pushOpcode env.scriptPubKeyBCF OP_RETURN) OP_DWARF ++ fca⟩
  have hvout' : tx.vout = out0 :: ⟨d, env.scriptPubKeyCF⟩ :: change := by
    simp [hvout, dwarfCreationOutputs, out0, d, tot]
  -- the fee and the donation add back up to the full cost
  have hsum : out0.nValue + d = tot := by simp [out0]
  have hshare : d = (out0.nValue + d).tdiv params.communityContribFactor := by rw [hsum]
  have hd : tot.tdiv params.communityContribFactor = d := rfl
  have hcount : tot.tdiv params.dwarfCost = n :=
    Int.mul_tdiv_cancel_left n (by have := params.dwarfCost_pos; omega)
  have hdct : isDCTScript out0.scriptPubKey env.scriptPubKeyBCF = some fca := by
    rw [isDCTScript_iff]
    have hdrop : (env.scriptPubKeyBCF ++ 106 :: 190 :: fca).drop 27 = fca := by
      rw [show 27 = env.scriptPubKeyBCF.length + 2 by omega, List.drop_append]
      simp
    simp [out0, pushOpcode, hbcf, hfca, hdrop, OP_RETURN, OP_DWARF]
  have hisdct : tx.isDCT env.scriptPubKeyBCF = .ok (some (out0.nValue, fca)) := by
    simp [CTransaction.isDCT, hvout', at!, hdct, bind, Except.bind, pure, Except.pure]
  have hlen : change.length + 1 + 1 > 1 := by omega
  refine ⟨?wallet, ?network, hcount, ?proof⟩
  case wallet =>
    simp [getDCTDwarves, hisdct, hdest, hvout', at!, hlen, hsum, hcount, bind, Except.bind, pure,
      Except.pure]
  case network =>
    simp [networkDwarfCount, hisdct, hvout', at!, hlen, hsum, hd, hcount, bind, Except.bind, pure,
      Except.pure]
  case proof =>
    intro st pindexPrev f h hcontrib hcoin hdrill
    rw [hiveDctLookup_drill_contrib hcontrib hcoin hdrill hvout', if_pos hshare, hsum]
    exact ⟨_, rfl⟩

/-- The DCT `CreateDwarfTransaction` builds for four dwarves with the
contribution on the main network, the creation address, the fund and the
reward paid to key hashes: the wallet and the network both count 4 dwarves. -/
theorem dwarfCreation_counts_agree_four :
    let env : Env := { (default : Env) with
      scriptPubKeyBCF := getScriptForDestination (.keyId ⟨List.replicate 20 0xbc⟩)
      scriptPubKeyCF := getScriptForDestination (.keyId ⟨List.replicate 20 0xcf⟩) }
    let fca := getScriptForDestination (.keyId ⟨List.replicate 20 0x01⟩)
    let tx : CTransaction := { (default : CTransaction) with
      vout := dwarfCreationOutputs mainParams 4 true env.scriptPubKeyBCF fca env.scriptPubKeyCF }
    env.extractDestination fca = some (.keyId ⟨List.replicate 20 0x01⟩) ∧
      getDCTDwarves env mainParams tx = .ok (some (intOfInt64 4, true)) ∧
      networkDwarfCount env mainParams tx = .ok (some (intOfInt64 4)) := by
  intro env fca tx
  have hdest : env.extractDestination fca = some (.keyId ⟨List.replicate 20 0x01⟩) := by decide
  obtain ⟨hwallet, hnetwork, -⟩ := dwarfCreation_counts_agree env mainParams
    (show tx.vout = dwarfCreationOutputs mainParams 4 true env.scriptPubKeyBCF fca env.scriptPubKeyCF ++ [] by
      simp [tx])
    (by decide) (by decide) hdest
  exact ⟨hdest, hwallet, hnetwork⟩

end Ring.Hive
