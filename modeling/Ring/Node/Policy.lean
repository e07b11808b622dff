import Ring.Chain.Serialize
import Ring.Node.Validation
import Ring.Script.Standard

/-!
# Relay policy (`IsStandardTx`, src/policy/policy.cpp)

`IsStandardTx` decides whether the node relays and mines a transaction: a
standard version, a bounded weight, small push-only inputs, and outputs that
are each standard (`IsStandard`, over `Solver`), not bare multisig where that
is off, and not dust, with at most one `OP_RETURN` data output. The Ring fork
exempts a dwarf creation output (`IsDCTScript`), which `Solver` does not know:
the output loop returns true as soon as it meets one.

The node's relay options (`-permitbaremultisig`, `-datacarrier`,
`-datacarriersize`, `-dustrelayfee`) are a `PolicyOptions`, with the defaults
as `defaultPolicyOptions`. The verdict is `Except String Unit`: the error is
the `reason` the source writes.

Results:
* `getTransactionWeight_perm`: the weight of a transaction does not depend on
  the order of its outputs.
* `isStandardOutputs_dct`: once the output loop meets a DCT output, no output
  after it is checked.
* `isStandardTx_dct_position`: so an output `IsStandard` refuses is refused
  before a DCT output and passes after one.
-/
namespace Ring.Node

open Ring.Arith Ring.Chain Ring.Script

/-- `MAX_STANDARD_VERSION` of `CTransaction`. -/
def MAX_STANDARD_VERSION : Int := 2

/-- `MAX_STANDARD_TX_WEIGHT`. -/
def MAX_STANDARD_TX_WEIGHT : Nat := 400000

/-- `DEFAULT_PERMIT_BAREMULTISIG`. -/
def DEFAULT_PERMIT_BAREMULTISIG : Bool := true

/-- `DEFAULT_ACCEPT_DATACARRIER`. -/
def DEFAULT_ACCEPT_DATACARRIER : Bool := true

/-- `MAX_OP_RETURN_RELAY`. -/
def MAX_OP_RETURN_RELAY : Nat := 83

/-- `DUST_RELAY_TX_FEE`, in satoshis per 1000 bytes. -/
def DUST_RELAY_TX_FEE : Int := 3000

/-- The relay options `IsStandardTx` reads: `fIsBareMultisigStd`,
`fAcceptDatacarrier`, `nMaxDatacarrierBytes` and `dustRelayFee` (satoshis
per 1000 bytes). -/
structure PolicyOptions where
  fIsBareMultisigStd : Bool
  fAcceptDatacarrier : Bool
  nMaxDatacarrierBytes : Nat
  dustRelayFee : Int

/-- The options a node starts with.
mirrors src/validation.cpp:242, src/script/standard.cpp:17-18,
src/policy/policy.cpp:252 -/
def defaultPolicyOptions : PolicyOptions where
  fIsBareMultisigStd := DEFAULT_PERMIT_BAREMULTISIG
  fAcceptDatacarrier := DEFAULT_ACCEPT_DATACARRIER
  nMaxDatacarrierBytes := MAX_OP_RETURN_RELAY
  dustRelayFee := DUST_RELAY_TX_FEE

/-- `CFeeRate::GetFee(nBytes)`: the fee for `nBytes` at `nSatoshisPerK` per
1000 bytes, rounded toward zero but at least one satoshi either way.
mirrors src/policy/feerate.cpp:23-38 -/
def getFee (nSatoshisPerK : Int) (nBytes : Nat) : Int :=
  let nFee := (nSatoshisPerK * nBytes).tdiv 1000
  if nFee = 0 ∧ nBytes ≠ 0 then
    if nSatoshisPerK > 0 then 1 else if nSatoshisPerK < 0 then -1 else nFee
  else nFee

/-- `GetDustThreshold(txout, dustRelayFee)`: the fee to spend the output, with
the input it takes; 0 for an unspendable output.
mirrors src/policy/policy.cpp:20-52 -/
def getDustThreshold (txout : CTxOut) (dustRelayFee : Int) : Int :=
  if isUnspendable txout.scriptPubKey then 0
  else
    let nSize := (CTxOut.serialize txout).length
    let nSize :=
      if (isWitnessProgram txout.scriptPubKey).isSome then nSize + (32 + 4 + 1 + 107 / WITNESS_SCALE_FACTOR + 4)
      else nSize + (32 + 4 + 1 + 107 + 4)
    getFee dustRelayFee nSize

/-- `IsDust(txout, dustRelayFee)`.
mirrors src/policy/policy.cpp:54-57 -/
def isDust (txout : CTxOut) (dustRelayFee : Int) : Bool :=
  txout.nValue < getDustThreshold txout dustRelayFee

/-- `IsStandard(scriptPubKey, whichType)`: whether the script is standard, and
its template. Multisig is standard up to 3 keys, data up to
`nMaxDatacarrierBytes` where data is carried at all.
mirrors src/policy/policy.cpp:59-80 -/
def isStandard (opts : PolicyOptions) (scriptPubKey : CScript) : Bool × TxnOutType :=
  let (whichType, vSolutions) := solver scriptPubKey
  if whichType = .TX_NONSTANDARD ∨ whichType = .TX_WITNESS_UNKNOWN then (false, whichType)
  else if whichType = .TX_MULTISIG then
    let m := (vSolutions.headD []).headD 0
    let n := (vSolutions.getLastD []).headD 0
    if n < 1 ∨ n > 3 then (false, whichType)
    else if m < 1 ∨ m > n then (false, whichType)
    else (true, whichType)
  else if whichType = .TX_NULL_DATA ∧
      (!opts.fAcceptDatacarrier ∨ scriptPubKey.length > opts.nMaxDatacarrierBytes) then (false, whichType)
  else (true, whichType)

/-- `GetTransactionWeight(tx)`: the size without witnesses, three times, plus
the size with them.
mirrors src/consensus/validation.h:96-99 -/
def getTransactionWeight (tx : CTransaction) : Nat :=
  (serializeTransaction false tx).length * (WITNESS_SCALE_FACTOR - 1) + (serializeTransaction true tx).length

/-- The input loop of `IsStandardTx`: each `scriptSig` at most 1650 bytes and
push only.
mirrors src/policy/policy.cpp:101-119 -/
def isStandardInputs : List CTxIn → Except String Unit
  | [] => .ok ()
  | txin :: vin =>
    if txin.scriptSig.length > 1650 then .error "scriptsig-size"
    else if !isPushOnly txin.scriptSig then .error "scriptsig-not-pushonly"
    else isStandardInputs vin

/-- The output loop of `IsStandardTx` and the check after it, with `nDataOut`
the data outputs so far: a DCT output returns true at once; any other output
must be standard, not bare multisig where that is off, and not dust; and at
most one output may carry data.
mirrors src/policy/policy.cpp:121-150 -/
def isStandardOutputs (opts : PolicyOptions) (scriptPubKeyBCF : CScript) :
    Nat → List CTxOut → Except String Unit
  | nDataOut, [] => if nDataOut > 1 then .error "multi-op-return" else .ok ()
  | nDataOut, txout :: vout =>
    if (isDCTScript txout.scriptPubKey scriptPubKeyBCF).isSome then .ok ()
    else
      let (fStandard, whichType) := isStandard opts txout.scriptPubKey
      if !fStandard then .error "scriptpubkey"
      else if whichType = .TX_NULL_DATA then isStandardOutputs opts scriptPubKeyBCF (nDataOut + 1) vout
      else if whichType = .TX_MULTISIG ∧ !opts.fIsBareMultisigStd then .error "bare-multisig"
      else if isDust txout opts.dustRelayFee then .error "dust"
      else isStandardOutputs opts scriptPubKeyBCF nDataOut vout

/-- `IsStandardTx(tx, reason)`; `scriptPubKeyBCF` is the script of the dwarf
creation address.
mirrors src/policy/policy.cpp:82-151 -/
def isStandardTx (opts : PolicyOptions) (scriptPubKeyBCF : CScript) (tx : CTransaction) : Except String Unit :=
  if tx.nVersion.toInt > MAX_STANDARD_VERSION ∨ tx.nVersion.toInt < 1 then .error "version"
  else if getTransactionWeight tx > MAX_STANDARD_TX_WEIGHT then .error "tx-size"
  else do
    isStandardInputs tx.vin
    isStandardOutputs opts scriptPubKeyBCF 0 tx.vout

/-! ## The weight and the order of the outputs -/

theorem length_serializeVector_perm {α : Type} (w : α → List UInt8) {v v' : List α} (hv : v.Perm v') :
    (serializeVector w v).length = (serializeVector w v').length := by
  simp only [serializeVector, Lib.Reader.writePrefixed, List.length_append, hv.length_eq,
    (hv.flatMap_right w).length_eq]

/-- The weight of a transaction does not depend on the order of its outputs. -/
theorem getTransactionWeight_perm (tx : CTransaction) {vout : List CTxOut} (hv : vout.Perm tx.vout) :
    getTransactionWeight { tx with vout := vout } = getTransactionWeight tx := by
  have hlen : ∀ f, (serializeTransaction f { tx with vout := vout }).length = (serializeTransaction f tx).length := by
    intro f
    simp only [serializeTransaction, CTransaction.hasWitness, List.length_append]
    rw [length_serializeVector_perm CTxOut.serialize hv]
    rfl
  simp only [getTransactionWeight, hlen]

/-! ## A DCT output ends the output checks -/

/-- The outputs after the first DCT output are never read: the verdict of the
output loop on `pre ++ dct :: post` is its verdict on `pre ++ [dct]`. The
induction is on the outputs before it. -/
theorem isStandardOutputs_dct (opts : PolicyOptions) (scriptPubKeyBCF : CScript) {dct : CTxOut}
    (hdct : (isDCTScript dct.scriptPubKey scriptPubKeyBCF).isSome) (post : List CTxOut) :
    ∀ (pre : List CTxOut) nDataOut, isStandardOutputs opts scriptPubKeyBCF nDataOut (pre ++ dct :: post) =
      isStandardOutputs opts scriptPubKeyBCF nDataOut (pre ++ [dct])
  | [], nDataOut => by simp [isStandardOutputs, hdct]
  | txout :: pre, nDataOut => by
    have ih := isStandardOutputs_dct opts scriptPubKeyBCF hdct post pre
    simp only [List.cons_append, isStandardOutputs, ih]

/-- An output `IsStandard` refuses, beside a DCT output, in a transaction whose
version, weight and inputs pass: after the DCT output it passes, and before it
the transaction is refused. -/
theorem isStandardTx_dct_position (opts : PolicyOptions) (scriptPubKeyBCF : CScript) (tx : CTransaction)
    {dct bad : CTxOut} (rest : List CTxOut) (hdct : (isDCTScript dct.scriptPubKey scriptPubKeyBCF).isSome)
    (hbadDct : isDCTScript bad.scriptPubKey scriptPubKeyBCF = none)
    (hbad : (isStandard opts bad.scriptPubKey).1 = false)
    (hversion : 1 ≤ tx.nVersion.toInt ∧ tx.nVersion.toInt ≤ MAX_STANDARD_VERSION)
    (hweight : getTransactionWeight { tx with vout := dct :: bad :: rest } ≤ MAX_STANDARD_TX_WEIGHT)
    (hinputs : isStandardInputs tx.vin = .ok ()) :
    isStandardTx opts scriptPubKeyBCF { tx with vout := dct :: bad :: rest } = .ok () ∧
      isStandardTx opts scriptPubKeyBCF { tx with vout := bad :: dct :: rest } = .error "scriptpubkey" := by
  have hweight' : getTransactionWeight { tx with vout := bad :: dct :: rest } ≤ MAX_STANDARD_TX_WEIGHT := by
    have hswap := getTransactionWeight_perm { tx with vout := dct :: bad :: rest } (List.Perm.swap dct bad rest)
    rw [← hswap] at hweight
    exact hweight
  have hhead : ¬ (tx.nVersion.toInt > MAX_STANDARD_VERSION ∨ tx.nVersion.toInt < 1) := by omega
  constructor
  · have hfirst := isStandardOutputs_dct opts scriptPubKeyBCF hdct (bad :: rest) [] 0
    simp only [List.nil_append] at hfirst
    rw [isStandardTx, if_neg hhead, if_neg (Nat.not_lt.mpr hweight), hinputs, hfirst]
    simp [isStandardOutputs, hdct]
  · rw [isStandardTx, if_neg hhead, if_neg (Nat.not_lt.mpr hweight'), hinputs]
    rcases hstd : isStandard opts bad.scriptPubKey with ⟨fStandard, whichType⟩
    simp only [hstd] at hbad
    subst hbad
    simp [isStandardOutputs, hbadDct, hstd]

/-- With default options and a pay-to-public-key-hash script as the dwarf
creation script: a DCT output paying to the same script, and an output paying
to the nonstandard script `OP_DUP`, in a version 1 transaction without inputs. -/
theorem isStandardTx_dct_position_default :
    isStandardTx defaultPolicyOptions ([0x76, 0xa9, 0x14] ++ List.replicate 20 0 ++ [0x88, 0xac])
        { nVersion := 1, vin := [], nLockTime := 0,
          vout := [⟨10000000, [0x76, 0xa9, 0x14] ++ List.replicate 20 0 ++ [0x88, 0xac, 0x6a, 0xbe] ++
              [0x76, 0xa9, 0x14] ++ List.replicate 20 0 ++ [0x88, 0xac]⟩, ⟨0, [0x76]⟩] } = .ok () ∧
      isStandardTx defaultPolicyOptions ([0x76, 0xa9, 0x14] ++ List.replicate 20 0 ++ [0x88, 0xac])
        { nVersion := 1, vin := [], nLockTime := 0,
          vout := [⟨0, [0x76]⟩, ⟨10000000, [0x76, 0xa9, 0x14] ++ List.replicate 20 0 ++ [0x88, 0xac, 0x6a, 0xbe] ++
              [0x76, 0xa9, 0x14] ++ List.replicate 20 0 ++ [0x88, 0xac]⟩] } = .error "scriptpubkey" :=
  isStandardTx_dct_position defaultPolicyOptions ([0x76, 0xa9, 0x14] ++ List.replicate 20 0 ++ [0x88, 0xac])
    { nVersion := 1, vin := [], vout := [], nLockTime := 0 } [] (by decide) (by decide) (by decide) (by decide)
    (by decide) rfl

end Ring.Node
