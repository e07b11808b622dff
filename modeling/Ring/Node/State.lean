import Ring.Chain.Pow
import Ring.Lib.StdMap
import Ring.Lib.Guarded
import Ring.Node.MerkleBlock

/-!
# The node state the proof checks read, and what they call outside it

`CheckHiveProof`, `CheckPopProof` and `CheckBlock` read global state of the
node: `mapBlockIndex` (hash to `CBlockIndex*`), the active chain, the coins
view `pcoinsTip` (possibly null), the block files through `ReadBlockFromDisk`,
and `fHavePruned`. They also call code whose results this development does
not compute: the Minotaur and SHA-256 hashes, public key recovery and a key's
id, and the scripts the chain's two fixed addresses decode to. Those are the
fields of `Env`; every theorem holds for every `Env`. What the checks build
from them is modelled: `ExtractDestination` over `Solver`, the block merkle
root, and the partial merkle tree of the deep drill.
-/
namespace Ring.Node

open Ring.Lib Ring.Arith Ring.Script Ring.Chain

/-- `CKeyID`: the 20-byte hash of a public key. -/
structure CKeyID where
  bytes : List UInt8
  deriving DecidableEq, Inhabited

/-- `CTxDestination`, the variant `ExtractDestination` fills in
(src/script/standard.h). -/
inductive CTxDestination where
  | noDestination
  | keyId (id : CKeyID)
  | scriptId (hash : List UInt8)
  | witnessV0ScriptHash (hash : List UInt8)
  | witnessV0KeyHash (hash : List UInt8)
  | witnessUnknown (version : Nat) (program : List UInt8)
  deriving DecidableEq, Inhabited

/-- `IsValidDestination`: any alternative but `CNoDestination`.
mirrors src/script/standard.cpp:324-326 -/
def isValidDestination (d : CTxDestination) : Bool :=
  match d with
  | .noDestination => false
  | _ => true

/-- `boost::get<CKeyID>(&dest)`. -/
def keyIdOf : CTxDestination → Option CKeyID
  | .keyId id => some id
  | _ => none

/-- `ExtractDestination(scriptPubKey, addressRet)`: the destination of a
script of a single-address template; `getID` is `CPubKey::GetID`.
mirrors src/script/standard.cpp:155-197 -/
def extractDestination (getID : List UInt8 → CKeyID) (scriptPubKey : CScript) :
    Option CTxDestination :=
  let (whichType, vSolutions) := solver scriptPubKey
  match whichType with
  | .TX_PUBKEY =>
    -- `CPubKey(vSolutions[0])` keeps the bytes only when their size is the header's
    let pubKey := vSolutions.getD 0 []
    if !validSize pubKey then none else some (.keyId (getID pubKey))
  | .TX_PUBKEYHASH => some (.keyId ⟨vSolutions.getD 0 []⟩)
  | .TX_SCRIPTHASH => some (.scriptId (vSolutions.getD 0 []))
  | .TX_WITNESS_V0_KEYHASH => some (.witnessV0KeyHash (vSolutions.getD 0 []))
  | .TX_WITNESS_V0_SCRIPTHASH => some (.witnessV0ScriptHash (vSolutions.getD 0 []))
  | .TX_WITNESS_UNKNOWN =>
    some (.witnessUnknown ((vSolutions.getD 0 []).getD 0 0).toNat (vSolutions.getD 1 []))
  | _ => none

/-- `CScript::EncodeOP_N(n)`, for the `0..16` it asserts. -/
def encodeOP_N (n : Nat) : UInt8 := if n = 0 then OP_0 else UInt8.ofNat (OP_1.toNat + n - 1)

/-- `GetScriptForDestination(dest)`: the script `CScriptVisitor` writes, empty
for `CNoDestination`.
mirrors src/script/standard.cpp:239-293 -/
def getScriptForDestination : CTxDestination → CScript
  | .noDestination => []
  | .keyId keyID =>
    pushOpcode (pushOpcode (pushData (pushOpcode (pushOpcode [] OP_DUP) OP_HASH160) keyID.bytes) OP_EQUALVERIFY)
      OP_CHECKSIG
  | .scriptId scriptID => pushOpcode (pushData (pushOpcode [] OP_HASH160) scriptID) OP_EQUAL
  | .witnessV0KeyHash id => pushData (pushOpcode [] OP_0) id
  | .witnessV0ScriptHash id => pushData (pushOpcode [] OP_0) id
  | .witnessUnknown version program => pushData (pushOpcode [] (encodeOP_N version)) program

/-! ## Scripts and destinations -/

/-- The destinations `ExtractDestination` returns for scripts of their own
templates: ids and v0 key hashes of 20 bytes, v0 script hashes of 32, and
programs of versions 1 to 16 of 2 to 40 bytes. -/
def CTxDestination.WellSized : CTxDestination → Prop
  | .noDestination => False
  | .keyId keyID => keyID.bytes.length = 20
  | .scriptId scriptID => scriptID.length = 20
  | .witnessV0KeyHash id => id.length = 20
  | .witnessV0ScriptHash id => id.length = 32
  | .witnessUnknown version program => 1 ≤ version ∧ version ≤ 16 ∧ 2 ≤ program.length ∧ program.length ≤ 40

instance instDecidablePredWellSized : DecidablePred CTxDestination.WellSized := fun dest => by
  cases dest <;> unfold CTxDestination.WellSized <;> infer_instance

theorem solver_keyId {keyID : CKeyID} (h : keyID.bytes.length = 20) :
    solver (getScriptForDestination (.keyId keyID)) = (.TX_PUBKEYHASH, [keyID.bytes]) := by
  have hs : getScriptForDestination (.keyId keyID) =
      [OP_DUP, OP_HASH160, 20] ++ keyID.bytes ++ [OP_EQUALVERIFY, OP_CHECKSIG] := by
    simp [getScriptForDestination, pushOpcode, pushData_short _ _ (show keyID.bytes.length < 76 by omega), h]
  rw [hs]
  simp [solver, isPayToScriptHash, isWitnessProgram, matchPayToPubkey, matchPayToPubkeyHash, h, OP_DUP,
    OP_HASH160, OP_0, OP_1, OP_16, OP_RETURN, OP_EQUALVERIFY, OP_CHECKSIG, PUBLIC_KEY_SIZE,
    COMPRESSED_PUBLIC_KEY_SIZE]

theorem solver_scriptId {scriptID : List UInt8} (h : scriptID.length = 20) :
    solver (getScriptForDestination (.scriptId scriptID)) = (.TX_SCRIPTHASH, [scriptID]) := by
  have hs : getScriptForDestination (.scriptId scriptID) = [OP_HASH160, 20] ++ scriptID ++ [OP_EQUAL] := by
    simp [getScriptForDestination, pushOpcode, pushData_short _ _ (show scriptID.length < 76 by omega), h]
  rw [hs]
  simp [solver, isPayToScriptHash, h, OP_HASH160, OP_EQUAL]

/-- A version 0 program of 20 or 32 bytes is read as a witness program of
version 0. -/
theorem isWitnessProgram_v0 {id : List UInt8} (h : id.length = 20 ∨ id.length = 32) :
    isPayToScriptHash (pushData (pushOpcode [] OP_0) id) = false ∧
      isWitnessProgram (pushData (pushOpcode [] OP_0) id) = some (0, id) := by
  have hs : pushData (pushOpcode [] OP_0) id = [OP_0, UInt8.ofNat id.length] ++ id := by
    simp [pushOpcode, pushData_short _ _ (show id.length < 76 by omega)]
  rw [hs]
  rcases h with h | h <;> simp [isPayToScriptHash, isWitnessProgram, decodeOP_N, h, OP_0, OP_HASH160]

theorem solver_witnessV0KeyHash {id : List UInt8} (h : id.length = 20) :
    solver (getScriptForDestination (.witnessV0KeyHash id)) = (.TX_WITNESS_V0_KEYHASH, [id]) := by
  obtain ⟨hp2sh, hwit⟩ := isWitnessProgram_v0 (.inl h)
  simp [solver, getScriptForDestination, hp2sh, hwit, h, WITNESS_V0_KEYHASH_SIZE]

theorem solver_witnessV0ScriptHash {id : List UInt8} (h : id.length = 32) :
    solver (getScriptForDestination (.witnessV0ScriptHash id)) = (.TX_WITNESS_V0_SCRIPTHASH, [id]) := by
  obtain ⟨hp2sh, hwit⟩ := isWitnessProgram_v0 (.inr h)
  simp [solver, getScriptForDestination, hp2sh, hwit, h, WITNESS_V0_KEYHASH_SIZE, WITNESS_V0_SCRIPTHASH_SIZE]

theorem toNat_encodeOP_N {version : Nat} (h1 : 1 ≤ version) (h16 : version ≤ 16) :
    (encodeOP_N version).toNat = 0x50 + version := by
  have h81 : OP_1.toNat = 81 := rfl
  rw [encodeOP_N, if_neg (show version ≠ 0 by omega), UInt8.toNat_ofNat', Nat.mod_eq_of_lt] <;> omega

theorem solver_witnessUnknown {version : Nat} {program : List UInt8} (h1 : 1 ≤ version) (h16 : version ≤ 16)
    (h2 : 2 ≤ program.length) (h40 : program.length ≤ 40) :
    solver (getScriptForDestination (.witnessUnknown version program)) =
      (.TX_WITNESS_UNKNOWN, [[UInt8.ofNat version], program]) := by
  have hop := toNat_encodeOP_N h1 h16
  have hs : getScriptForDestination (.witnessUnknown version program) =
      encodeOP_N version :: UInt8.ofNat program.length :: program := by
    simp [getScriptForDestination, pushOpcode, pushData_short _ _ (show program.length < 76 by omega)]
  -- the version opcode is one of `OP_1`..`OP_16`, so never `OP_0` or `OP_HASH160`
  have hne0 : encodeOP_N version ≠ OP_0 := fun he => by
    rw [he] at hop
    simp [OP_0] at hop
    omega
  have hrange : ¬ (encodeOP_N version < OP_1 ∨ encodeOP_N version > OP_16) := by
    simp only [UInt8.lt_iff_toNat_lt, hop, OP_1, OP_16, not_or, not_lt, UInt8.reduceToNat]
    omega
  have hdec : decodeOP_N (encodeOP_N version) = version := by
    simp only [decodeOP_N, if_neg hne0, hop, OP_1, UInt8.reduceToNat]
    omega
  have hp2sh : isPayToScriptHash (encodeOP_N version :: UInt8.ofNat program.length :: program) = false := by
    simp [isPayToScriptHash, ← UInt8.toNat_inj, hop, OP_HASH160]
    omega
  have hwit : isWitnessProgram (encodeOP_N version :: UInt8.ofNat program.length :: program) =
      some (version, program) := by
    have hlen : (UInt8.ofNat program.length).toNat = program.length := by
      rw [UInt8.toNat_ofNat', Nat.mod_eq_of_lt (by omega)]
    simp only [isWitnessProgram, List.length_cons, List.getD_cons_zero, List.getD_cons_succ, hne0, hrange,
      hlen, hdec, ne_eq, not_false_eq_true, List.drop_succ_cons, List.drop_zero]
    simp only [true_and, if_true, show ¬ (program.length + 1 + 1 < 4 ∨ program.length + 1 + 1 > 42) by omega,
      if_false]
  rw [hs]
  simp [solver, hp2sh, hwit, show version ≠ 0 by omega]

/-- `ExtractDestination` reads back the destination `GetScriptForDestination`
wrote, for every destination of the sizes it returns. -/
theorem extractDestination_getScriptForDestination (getID : List UInt8 → CKeyID) {dest : CTxDestination}
    (h : dest.WellSized) : extractDestination getID (getScriptForDestination dest) = some dest := by
  cases dest with
  | noDestination => exact absurd h id
  | keyId keyID => simp [extractDestination, solver_keyId h]
  | scriptId scriptID => simp [extractDestination, solver_scriptId h]
  | witnessV0KeyHash id => simp [extractDestination, solver_witnessV0KeyHash h]
  | witnessV0ScriptHash id => simp [extractDestination, solver_witnessV0ScriptHash h]
  | witnessUnknown version program =>
    obtain ⟨h1, h16, h2, h40⟩ := h
    simp [extractDestination, solver_witnessUnknown h1 h16 h2 h40]
    omega

theorem extractDestination_getScriptForDestination_keyId :
    (CTxDestination.keyId ⟨List.replicate 20 0x01⟩).WellSized ∧
      extractDestination (fun _ => default) (getScriptForDestination (.keyId ⟨List.replicate 20 0x01⟩)) =
        some (.keyId ⟨List.replicate 20 0x01⟩) :=
  ⟨by decide, extractDestination_getScriptForDestination _ (by decide)⟩

/-- The code the checks call whose results are taken as given. -/
structure Env where
  /-- `CBlockHeader::MinotaurHashArbitrary` of a C string -/
  minotaurHashArbitrary : List Char → Uint256
  /-- `CHashWriter(SER_GETHASH, 0)` and `Hash(...)`: double SHA-256 of the bytes -/
  hashWriter : List UInt8 → Uint256
  /-- `CPubKey::RecoverCompact(hash, vchSig)`: the recovered key's bytes -/
  recoverCompact : Uint256 → List UInt8 → Option (List UInt8)
  /-- `CPubKey::GetID`: the hash of a key's bytes -/
  getID : List UInt8 → CKeyID
  /-- `GetScriptForDestination(DecodeDestination(dwarfCreationAddress))` -/
  scriptPubKeyBCF : CScript
  /-- `GetScriptForDestination(DecodeDestination(hiveCommunityAddress))` -/
  scriptPubKeyCF : CScript
  /-- `CTransaction::GetHash` -/
  txHash : CTransaction → Uint256
  /-- `CBlockHeader::GetPowHash` -/
  getPowHash : CBlockHeader → Uint256
  deriving Inhabited

namespace Env

/-- `ExtractDestination` with the node's `CPubKey::GetID`. -/
def extractDestination (env : Env) (scriptPubKey : CScript) : Option CTxDestination :=
  Ring.Node.extractDestination env.getID scriptPubKey

/-- `Hash(left, right)` of two merkle nodes: the double SHA-256 of their
64 bytes. -/
def hashPair (env : Env) (left right : Uint256) : Uint256 := env.hashWriter (left.data ++ right.data)

/-- `BlockMerkleRoot(block, &mutated)`: `ComputeMerkleRoot` over the
transactions' hashes, the root and `mutated`.
mirrors src/consensus/merkle.cpp:66-74 -/
def blockMerkleRoot (env : Env) (vtx : List CTransaction) : Uint256 × Bool :=
  computeMerkleRoot env.hashPair (vtx.map env.txHash)

/-- The test `GetTxByHashAndHeight` makes of `CMerkleBlock(block, {txHash})`:
`ExtractMatches` returns a root whose text is the block's merkle root's, and
one match, whose text is `txHash`'s.
mirrors src/validation.cpp:3279-3285 -/
def merkleMatch (env : Env) (block : CBlock) (txHash : Uint256) : Bool :=
  let txn := CMerkleBlock.txnOf env.hashPair (block.vtx.map env.txHash) [txHash]
  let (root, vMatched, _) := extractMatches env.hashPair txn []
  root.getHex == block.hashMerkleRoot.getHex && vMatched.length == 1 &&
    (vMatched.getD 0 default).getHex == txHash.getHex

/-- The test `GetTxByHashAndHeight` makes passes on a block whose header
commits to its transactions, where the hash names one transaction and no two
sibling subtrees hash alike. -/
theorem merkleMatch_of_committed (env : Env) {block : CBlock} {txHash : Uint256} (hne : block.vtx ≠ [])
    (hmax : block.vtx.length ≤ MAX_BLOCK_WEIGHT / MIN_TRANSACTION_WEIGHT)
    (hsib : ∀ height pos, pos * 2 + 1 < calcTreeWidth block.vtx.length height →
      calcHash env.hashPair (block.vtx.map env.txHash) height (pos * 2) ≠
        calcHash env.hashPair (block.vtx.map env.txHash) height (pos * 2 + 1))
    (hroot : (env.blockMerkleRoot block.vtx).1 = block.hashMerkleRoot)
    (honce : (block.vtx.map env.txHash).count txHash = 1) :
    env.merkleMatch block txHash = true := by
  obtain ⟨hroot', hmatched⟩ := @extractMatches_txnOf _ _ _ env.hashPair (block.vtx.map env.txHash) [txHash]
    (by simpa using hne) (by simpa using hmax) (by simpa using hsib)
  -- the one transaction with that hash is the one match
  have hfilter : (block.vtx.map env.txHash).filter (fun hash => decide (hash = txHash)) = [txHash] := by
    rw [List.filter_eq, honce]
    rfl
  rw [blockMerkleRoot] at hroot
  unfold merkleMatch
  simp [hroot', hroot, hmatched, hfilter]

end Env

/-- `Coin`: an unspent output and the height of the block that created it. -/
structure Coin where
  out : CTxOut
  nHeight : UInt32
  fCoinBase : Bool
  deriving DecidableEq, Inhabited

/-- `Coin::IsSpent`: the output is null. -/
def Coin.isSpent (coin : Coin) : Bool := coin.out.isNull

/-- `Coin()`, and every coin after `Coin::Clear`: the null output, height `0`, not
a coinbase. -/
def coinEmpty : Coin := ⟨⟨-1, []⟩, 0, false⟩

/-- The global state read by the checks. -/
structure NodeState where
  /-- `mapBlockIndex`; a value `[]` is a `nullptr` entry -/
  mapBlockIndex : StdMap Uint256 CBlockIndex
  /-- `chainActive`, by its tip -/
  chainActive : CBlockIndex
  /-- `pcoinsTip->GetCoin(outpoint, coin)`; `none` when `pcoinsTip` is null -/
  pcoinsTip : Option (COutPoint → Option Coin)
  /-- the block files, by block hash -/
  blockStore : Uint256 → Option CBlock
  fHavePruned : Bool
  deriving Inhabited

/-- `ReadBlockFromDisk(block, pindex, ...)`: the stored block whose hash is
the index's. -/
def readBlockFromDisk (st : NodeState) : CBlockIndex → Option CBlock
  | [] => none
  | r :: _ => st.blockStore r.hashBlock

/-- `pcoinsTip && pcoinsTip->GetCoin(out, coin)`. -/
def getCoin (st : NodeState) (out : COutPoint) : Option Coin :=
  st.pcoinsTip.bind fun view => view out

/-- `CChain::Contains(pindex)`: `(*this)[pindex->nHeight] == pindex`, where the
active chain's entry at height `h` is the tip's ancestor at `h`. -/
def chainContains (tip : CBlockIndex) : CBlockIndex → Bool
  | [] => false
  | r :: rest =>
    decide (0 ≤ r.nHeight ∧ r.nHeight < tip.length) &&
      tip.drop (tip.length - 1 - r.nHeight.toNat) == r :: rest

/-- The bytes of a `std::string` of ASCII characters. -/
def stringBytes (s : List Char) : List UInt8 := s.map fun c => UInt8.ofNat c.toNat

/-- The characters of a byte string (`std::string(v.begin(), v.end())`). -/
def bytesString (bs : List UInt8) : List Char := bs.map fun b => Char.ofNat b.toNat

/-- `ss << str` for a `std::string`: its length, then its bytes. -/
def serString (s : List Char) : List UInt8 := writeCompactSize s.length ++ stringBytes s

/-- The conversion of an `int` to `uint32_t`. -/
def toUInt32 (x : Int) : UInt32 := UInt32.ofNat (x % 2 ^ 32).toNat

/-- The conversion of a `uint32_t` to `int` (two's complement). -/
def toInt32 (x : UInt32) : Int := if x.toNat < 2 ^ 31 then x.toNat else x.toNat - 2 ^ 32

/-- The conversion of an `int64_t` (`CAmount`) to `int`: the low 32 bits. -/
def intOfInt64 (x : Int) : Int := toInt32 (toUInt32 x)

/-! ## The proof checks' stages

`failure` is a `return false`; a `Fault` is a path C++ leaves undefined or
aborts on. The parent lookup `mapBlockIndex[hash]` inserts a null entry for an
unknown hash, so it is kept apart from the stages, which read a fixed state. -/

/-- A check: it fails (`return false`), faults, or goes on with a value. -/
abbrev Check := Guarded Fault

/-- `mapBlockIndex[pblock->hashPrevBlock]` and `pindexPrev->nHeight + 1`, in
that order: the parent and the block's height, with the node state after the
subscript.
mirrors src/pow.cpp:283-294 -/
def lookupPrev (st : NodeState) (hashPrev : Uint256) : Except Fault (CBlockIndex × Int) × NodeState :=
  let (pindexPrev, m) := st.mapBlockIndex.subscript [] hashPrev
  let st' := { st with mapBlockIndex := m }
  match pindexPrev with
  | [] => (.error .nullDeref, st')
  | r :: rest => (.ok (r :: rest, r.nHeight + 1), st')

/-- `CHashWriter ss; ss << deterministicRandString; ss.GetHash()`. -/
def messageHash (env : Env) (drs : List Char) : Uint256 := env.hashWriter (serString drs)

/-- The signature test both proof checks make: the destination is a key id,
a key is recovered from `sig` over the hash of the deterministic random
string, and its id is that key id.
mirrors src/pow.cpp:410-430,691-714 -/
def checkMessageSig (env : Env) (dest : CTxDestination) (drs : List Char) (sig : List UInt8) :
    Check Unit := do
  let some keyID := keyIdOf dest | failure
  let some pubkey := env.recoverCompact (messageHash env drs) sig | failure
  if env.getID pubkey != keyID then failure

/-- The scan both proof checks open their coinbase checks with: no transaction
after the coinbase is a DCT.
mirrors src/pow.cpp:319-325,586-592 -/
def noDCTAfterCoinbase (env : Env) (vtx : List CTransaction) : Check Unit := do
  if vtx.length > 1 then
    if ← Guarded.lift (containsDCT env.scriptPubKeyBCF (vtx.drop 1)) then failure

end Ring.Node
