import Ring.Arith.Compact
import Ring.Script.Script

/-!
# Transactions, blocks and the consensus parameters

The records of src/primitives/transaction.h and src/primitives/block.h with
the fields the modelled functions read, the Ring-fork consensus fields of
src/consensus/params.h, and the main network's values
(src/chainparams.cpp:67-160).

A block is hive mined or pop mined when its `nNonce` is the network's marker
(`CBlockHeader::IsHiveMined` / `IsPopMined`); every other block is a PoW
block. A code path that C++ leaves undefined or aborts on is a `Fault`.
-/
namespace Ring.Chain

open Ring.Arith Ring.Script

/-- How a C++ path ends other than by returning. -/
inductive Fault where
  /-- a `CBlockIndex*` that is `nullptr` was dereferenced -/
  | nullDeref
  /-- `std::vector` / `prevector` `operator[]` past the end -/
  | outOfRange
  /-- an `assert` failed (the process aborts) -/
  | assertion
  /-- a `std::runtime_error` was thrown -/
  | thrown (what : String)
  deriving DecidableEq, Repr

/-- `v[i]` on a vector: undefined past the end. -/
def at! {α : Type} (v : List α) (i : Nat) : Except Fault α :=
  match v[i]? with
  | some a => .ok a
  | none => .error .outOfRange

structure COutPoint where
  hash : Uint256
  n : UInt32
  deriving DecidableEq, Inhabited

/-- `COutPoint::IsNull`: null hash, index `(uint32_t)-1`. -/
def COutPoint.isNull (o : COutPoint) : Bool := o.hash == Uint256.null && o.n == 0xffffffff

/-- `CScriptWitness`: the data elements an input pushes for its witness program. -/
structure CScriptWitness where
  stack : List (List UInt8)
  deriving DecidableEq, Inhabited

/-- `CScriptWitness::IsNull`. -/
def CScriptWitness.isNull (w : CScriptWitness) : Bool := w.stack.isEmpty

structure CTxIn where
  prevout : COutPoint
  scriptSig : CScript
  nSequence : UInt32
  /-- only serialized through `CTransaction` -/
  scriptWitness : CScriptWitness
  deriving DecidableEq, Inhabited

structure CTxOut where
  /-- `CAmount` -/
  nValue : Int
  scriptPubKey : CScript
  deriving DecidableEq, Inhabited

/-- `CTxOut::IsNull`: `SetNull` marks an output null by the value `-1`. -/
def CTxOut.isNull (o : CTxOut) : Bool := o.nValue == -1

structure CTransaction where
  nVersion : Int32
  vin : List CTxIn
  vout : List CTxOut
  nLockTime : UInt32
  deriving DecidableEq, Inhabited

/-- `CTransaction::HasWitness`: some input's witness is not null.
mirrors src/primitives/transaction.h:379-387 -/
def CTransaction.hasWitness (tx : CTransaction) : Bool :=
  tx.vin.any fun i => !i.scriptWitness.isNull

/-- `CTransaction::IsCoinBase`.
mirrors src/primitives/transaction.h:339-342 -/
def CTransaction.isCoinBase (tx : CTransaction) : Bool :=
  match tx.vin with
  | [i] => i.prevout.isNull
  | _ => false

/-- `CTransaction::IsDCT`: on success the fee paid (`vout[0].nValue`) and the
reward script. `vout[0]` is read without a size check.
mirrors src/primitives/transaction.cpp:100-111 -/
def CTransaction.isDCT (tx : CTransaction) (scriptPubKeyBCF : CScript) :
    Except Fault (Option (Int × CScript)) := do
  let out ← at! tx.vout 0
  return (isDCTScript out.scriptPubKey scriptPubKeyBCF).map fun r => (out.nValue, r)

/-- `vtx[i]->IsDCT(...)` for `i` from 1: some transaction after the coinbase
is a DCT. Each test reads that transaction's `vout[0]`.
mirrors src/pow.cpp:321-328,586-592 -/
def containsDCT (bcf : CScript) : List CTransaction → Except Fault Bool
  | [] => .ok false
  | tx :: txs => do
    let d ← tx.isDCT bcf
    if d.isSome then return true else containsDCT bcf txs

/-- The Ring-fork fields of `Consensus::Params` read by the modelled code,
with the PoW fields they sit beside. The four divisors the code divides by are
positive on every network. -/
structure Params where
  BIP34Height : Int
  BIP65Height : Int
  BIP66Height : Int
  powLimit : Uint256
  fPowAllowMinDifficultyBlocks : Bool
  nPowTargetSpacing : Int
  lastInitialDistributionHeight : Int
  powLimitInitialDistribution : Uint256
  slowStartBlocks : Int
  dwarfCost : Int
  communityContribFactor : Int
  dwarfGestationBlocks : Int
  dwarfLifespanBlocks : Int
  powLimitHive : Uint256
  hiveNonceMarker : UInt32
  minHiveCheckBlock : Int
  hiveBlockSpacingTarget : Int
  maxKPow : Int
  maxConsecutiveHiveBlocks : Int
  hiveDifficultyWindow : Int
  popNonceMarker : UInt32
  popMinPrivateGameDepth : Int
  popMaxPrivateGameDepth : Int
  popMaxPublicGameDepth : Int
  popScoreAdjustWindowSize : Int
  popMinScoreTarget : Int
  popMaxScoreTarget : Int
  dwarfCost_pos : 0 < dwarfCost
  communityContribFactor_pos : 0 < communityContribFactor
  hiveBlockSpacingTarget_pos : 0 < hiveBlockSpacingTarget
  nPowTargetSpacing_pos : 0 < nPowTargetSpacing

/-- `COINBASE_MATURITY` (src/consensus/consensus.h:19). -/
def COINBASE_MATURITY : Int := 100

/-- `CMainParams` (src/chainparams.cpp:67-160); `LAST_ID_HEIGHT` is 34522. -/
def mainParams : Params where
  BIP34Height := 100
  BIP65Height := 1
  BIP66Height := 1
  powLimit := uint256S "00000fffffffffffffffffffffffffffffffffffffffffffffffffffffffffff".toList
  fPowAllowMinDifficultyBlocks := false
  nPowTargetSpacing := 90
  lastInitialDistributionHeight := 34522
  powLimitInitialDistribution :=
    uint256S "00ffffffffffffffffffffffffffffffffffffffffffffffffffffffffffffff".toList
  slowStartBlocks := 2000
  dwarfCost := 1000000
  communityContribFactor := 5
  dwarfGestationBlocks := 2880
  dwarfLifespanBlocks := 30000
  powLimitHive := uint256S "0fffffffffffffffffffffffffffffffffffffffffffffffffffffffffffffff".toList
  hiveNonceMarker := 1
  minHiveCheckBlock := 34522 + 1
  hiveBlockSpacingTarget := 2
  maxKPow := 5
  maxConsecutiveHiveBlocks := 2
  hiveDifficultyWindow := 36
  popNonceMarker := 2
  popMinPrivateGameDepth := COINBASE_MATURITY
  popMaxPrivateGameDepth := COINBASE_MATURITY + 50
  popMaxPublicGameDepth := COINBASE_MATURITY + 50 + 200
  popScoreAdjustWindowSize := 24
  popMinScoreTarget := 70
  popMaxScoreTarget := 210
  dwarfCost_pos := by decide
  communityContribFactor_pos := by decide
  hiveBlockSpacingTarget_pos := by decide
  nPowTargetSpacing_pos := by decide

structure CBlockHeader where
  nVersion : Int32
  hashPrevBlock : Uint256
  hashMerkleRoot : Uint256
  nTime : UInt32
  nBits : UInt32
  nNonce : UInt32
  deriving DecidableEq, Inhabited

/-- `CBlockHeader::IsHiveMined`.
mirrors src/primitives/block.h:73-76 -/
def CBlockHeader.isHiveMined (h : CBlockHeader) (p : Params) : Bool := h.nNonce == p.hiveNonceMarker

/-- `CBlockHeader::IsPopMined`.
mirrors src/primitives/block.h:78-81 -/
def CBlockHeader.isPopMined (h : CBlockHeader) (p : Params) : Bool := h.nNonce == p.popNonceMarker

structure CBlock extends CBlockHeader where
  vtx : List CTransaction
  deriving DecidableEq, Inhabited

end Ring.Chain
