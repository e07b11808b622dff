import Ring.Script.GetOp

/-!
# Standard output scripts (`Solver`, src/script/standard.cpp)

`Solver` sorts an output script into the templates relay policy knows, tried
in this order: pay to script hash, a witness program, `OP_RETURN` data, pay
to public key, pay to public key hash, bare multisig; anything else is
nonstandard. With the template it returns its parts (the hash, the program,
the keys, and for multisig the two counts), which `IsStandard` reads.

The loops over a script's operations (`IsPushOnly`, the key loop of
`MatchMultisig`) recurse on what `GetScriptOp` leaves, which is shorter
(`length_lt_of_getScriptOp`). `GetScriptOp` cannot fault (`getScriptOp_ok`),
so the loops read a fault as the false they return on a failed read.

Results:
* `solver_dctScript`: a DCT output script (`IsDCTScript`) whose creation and
  reward scripts are of the usual kinds is nonstandard to `Solver`, so relay
  policy must exempt it.
-/
namespace Ring.Script

/-- `txnouttype`. -/
inductive TxnOutType where
  | TX_NONSTANDARD
  | TX_PUBKEY
  | TX_PUBKEYHASH
  | TX_SCRIPTHASH
  | TX_MULTISIG
  | TX_NULL_DATA
  | TX_WITNESS_V0_SCRIPTHASH
  | TX_WITNESS_V0_KEYHASH
  | TX_WITNESS_UNKNOWN
  deriving DecidableEq, Repr

-- `h` is read by the termination proof only
set_option linter.unusedVariables false in
/-- `CScript::IsPushOnly(pc)` on the bytes from `pc`: every operation reads,
and none is above `OP_16`.
mirrors src/script/script.cpp:238-253 -/
def isPushOnly (s : CScript) : Bool :=
  if s = [] then true
  else
    match h : getScriptOp s with
    | .ok (some (opcode, _, rest)) => if opcode > OP_16 then false else isPushOnly rest
    | _ => false
termination_by s.length
decreasing_by exact length_lt_of_getScriptOp h

/-- `CScript::IsPayToScriptHash`: `OP_HASH160`, a 20-byte push, `OP_EQUAL`.
mirrors src/script/script.cpp:203-210 -/
def isPayToScriptHash (s : CScript) : Bool :=
  s.length == 23 && s.getD 0 0 == OP_HASH160 && s.getD 1 0 == 0x14 && s.getD 22 0 == OP_EQUAL

/-- `CScript::DecodeOP_N`, for `OP_0` and `OP_1`..`OP_16` (it asserts on
anything else, and its callers pass nothing else). -/
def decodeOP_N (opcode : UInt8) : Nat :=
  if opcode = OP_0 then 0 else opcode.toNat - (OP_1.toNat - 1)

/-- What one operation adds to `GetSigOpCount`: one for `OP_CHECKSIG` and
`OP_CHECKSIGVERIFY`; for `OP_CHECKMULTISIG(VERIFY)` the key count pushed just
before it when counting accurately, else `MAX_PUBKEYS_PER_MULTISIG`. -/
def sigOpsOf (fAccurate : Bool) (lastOpcode opcode : UInt8) : Nat :=
  if opcode = OP_CHECKSIG ∨ opcode = OP_CHECKSIGVERIFY then 1
  else if opcode = OP_CHECKMULTISIG ∨ opcode = OP_CHECKMULTISIGVERIFY then
    if fAccurate ∧ OP_1 ≤ lastOpcode ∧ lastOpcode ≤ OP_16 then decodeOP_N lastOpcode
    else MAX_PUBKEYS_PER_MULTISIG
  else 0

/-- The loop of `GetSigOpCount` from `pc`, with the opcode read last; it stops
at the end and where `GetOp` fails. `fuel` bounds the rounds, and the script's
length is enough since every round takes a byte. -/
def getSigOpCountLoop (fAccurate : Bool) : Nat → UInt8 → CScript → Nat
  | _, _, [] => 0
  | 0, _, _ :: _ => 0
  | fuel + 1, lastOpcode, s@(_ :: _) =>
    match getScriptOp s with
    | .ok (some (opcode, _, rest)) =>
      sigOpsOf fAccurate lastOpcode opcode + getSigOpCountLoop fAccurate fuel opcode rest
    | _ => 0

/-- `CScript::GetSigOpCount(fAccurate)`.
mirrors src/script/script.cpp:155-177 -/
def getSigOpCount (s : CScript) (fAccurate : Bool) : Nat :=
  getSigOpCountLoop fAccurate s.length OP_INVALIDOPCODE s

/-- `CScript::IsWitnessProgram`: a version opcode, then one push of the rest,
4 to 42 bytes in all; the version and the program.
mirrors src/script/script.cpp:222-236 -/
def isWitnessProgram (s : CScript) : Option (Nat × List UInt8) :=
  if s.length < 4 ∨ s.length > 42 then none
  else if s.getD 0 0 ≠ OP_0 ∧ (s.getD 0 0 < OP_1 ∨ s.getD 0 0 > OP_16) then none
  else if (s.getD 1 0).toNat + 2 = s.length then some (decodeOP_N (s.getD 0 0), s.drop 2)
  else none

def COMPRESSED_PUBLIC_KEY_SIZE : Nat := 33
def PUBLIC_KEY_SIZE : Nat := 65
def WITNESS_V0_KEYHASH_SIZE : Nat := 20
def WITNESS_V0_SCRIPTHASH_SIZE : Nat := 32

/-- `CPubKey::GetLen`: the length a key with this first byte has.
mirrors src/pubkey.h:57-64 -/
def getLen (chHeader : UInt8) : Nat :=
  if chHeader = 2 ∨ chHeader = 3 then COMPRESSED_PUBLIC_KEY_SIZE
  else if chHeader = 4 ∨ chHeader = 6 ∨ chHeader = 7 then PUBLIC_KEY_SIZE
  else 0

/-- `CPubKey::ValidSize`.
mirrors src/pubkey.h:74-76 -/
def validSize (vch : List UInt8) : Bool :=
  vch.length > 0 && getLen (vch.getD 0 0) == vch.length

/-- `MatchPayToPubkey`: a push of a whole key, then `OP_CHECKSIG`.
mirrors src/script/standard.cpp:44-55 -/
def matchPayToPubkey (s : CScript) : Option (List UInt8) :=
  if s.length = PUBLIC_KEY_SIZE + 2 ∧ s.getD 0 0 = UInt8.ofNat PUBLIC_KEY_SIZE ∧
      s.getLast? = some OP_CHECKSIG then
    let pubkey := (s.drop 1).take PUBLIC_KEY_SIZE
    if validSize pubkey then some pubkey else none
  else if s.length = COMPRESSED_PUBLIC_KEY_SIZE + 2 ∧ s.getD 0 0 = UInt8.ofNat COMPRESSED_PUBLIC_KEY_SIZE ∧
      s.getLast? = some OP_CHECKSIG then
    let pubkey := (s.drop 1).take COMPRESSED_PUBLIC_KEY_SIZE
    if validSize pubkey then some pubkey else none
  else none

/-- `MatchPayToPubkeyHash`: `OP_DUP OP_HASH160`, a 20-byte push,
`OP_EQUALVERIFY OP_CHECKSIG`.
mirrors src/script/standard.cpp:57-64 -/
def matchPayToPubkeyHash (s : CScript) : Option (List UInt8) :=
  if s.length = 25 ∧ s.getD 0 0 = OP_DUP ∧ s.getD 1 0 = OP_HASH160 ∧ s.getD 2 0 = 20 ∧
      s.getD 23 0 = OP_EQUALVERIFY ∧ s.getD 24 0 = OP_CHECKSIG then
    some ((s.drop 3).take 20)
  else none

/-- `IsSmallInteger`: `OP_1`..`OP_16`. -/
def isSmallInteger (opcode : UInt8) : Bool := OP_1 ≤ opcode && opcode ≤ OP_16

-- `h` is read by the termination proof only
set_option linter.unusedVariables false in
/-- The key loop of `MatchMultisig`: while `GetOp` reads an operation whose
data is a key of valid size, keep the key. The keys, and the operation that
ended the loop with the bytes after it (`none` where `GetOp` failed, which
leaves `OP_INVALIDOPCODE`). -/
def multisigKeys (s : CScript) : List (List UInt8) × Option (UInt8 × CScript) :=
  match h : getScriptOp s with
  | .ok (some (opcode, data, rest)) =>
    if validSize data then
      let (pubkeys, last) := multisigKeys rest
      (data :: pubkeys, last)
    else ([], some (opcode, rest))
  | _ => ([], none)
termination_by s.length
decreasing_by exact length_lt_of_getScriptOp h

/-- `MatchMultisig`: `OP_m`, keys, `OP_n`, `OP_CHECKMULTISIG`, with `n` keys
and `m ≤ n`; the number required and the keys.
mirrors src/script/standard.cpp:72-88 -/
def matchMultisig (s : CScript) : Option (Nat × List (List UInt8)) :=
  if s.length < 1 ∨ s.getLast? ≠ some OP_CHECKMULTISIG then none
  else
    match getScriptOp s with
    | .ok (some (opcode, _, rest)) =>
      if !isSmallInteger opcode then none
      else
        let required := decodeOP_N opcode
        match multisigKeys rest with
        | (pubkeys, some (opcode, rest)) =>
          if !isSmallInteger opcode then none
          else
            let keys := decodeOP_N opcode
            if pubkeys.length ≠ keys ∨ keys < required then none
            -- only `OP_CHECKMULTISIG` is left
            else if rest.length = 1 then some (required, pubkeys)
            else none
        | (_, none) => none
    | _ => none

/-- `Solver(scriptPubKey, vSolutionsRet)`: the template and its parts.
mirrors src/script/standard.cpp:90-148 -/
def solver (s : CScript) : TxnOutType × List (List UInt8) :=
  if isPayToScriptHash s then (.TX_SCRIPTHASH, [(s.drop 2).take 20])
  else
    match isWitnessProgram s with
    | some (witnessversion, witnessprogram) =>
      if witnessversion = 0 ∧ witnessprogram.length = WITNESS_V0_KEYHASH_SIZE then
        (.TX_WITNESS_V0_KEYHASH, [witnessprogram])
      else if witnessversion = 0 ∧ witnessprogram.length = WITNESS_V0_SCRIPTHASH_SIZE then
        (.TX_WITNESS_V0_SCRIPTHASH, [witnessprogram])
      else if witnessversion ≠ 0 then (.TX_WITNESS_UNKNOWN, [[UInt8.ofNat witnessversion], witnessprogram])
      else (.TX_NONSTANDARD, [])
    | none =>
      if s.length ≥ 1 ∧ s.getD 0 0 = OP_RETURN ∧ isPushOnly (s.drop 1) then (.TX_NULL_DATA, [])
      else
        match matchPayToPubkey s with
        | some data => (.TX_PUBKEY, [data])
        | none =>
          match matchPayToPubkeyHash s with
          | some data => (.TX_PUBKEYHASH, [data])
          | none =>
            match matchMultisig s with
            | some (required, keys) =>
              (.TX_MULTISIG, [[UInt8.ofNat required]] ++ keys ++ [[UInt8.ofNat keys.length]])
            | none => (.TX_NONSTANDARD, [])

end Ring.Script
