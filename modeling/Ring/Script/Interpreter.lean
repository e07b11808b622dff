import Ring.Script.Standard
import Ring.Script.Num

/-!
# The script interpreter (`EvalScript`, src/script/interpreter.cpp)

`EvalScript` runs a script on a stack: it reads one operation at a time with
`GetScriptOp`, checks the limits every operation is held to (element size,
operation count, disabled opcodes), pushes data, and otherwise runs the body
of its `switch (opcode)` when the innermost `OP_IF` branch executes, or when
the opcode is a branch opcode itself. After every operation the stack and
the altstack together may hold at most `MAX_STACK_SIZE` elements.

The model keeps the interpreter's state in `EvalState`, with both stacks
top first (`stacktop(-1)` is the head). The loop recurses on the bytes left,
which `GetScriptOp` shortens. The `switch` is split by its case groups:
`switchCase` names the group of an opcode, and `evalSwitch` runs the group's
body; the bodies that read flags or loop (`OP_CHECKLOCKTIMEVERIFY`,
`OP_CHECKSEQUENCEVERIFY`, `OP_IF`, the numeric groups, `OP_CHECKSIG`,
`OP_CHECKMULTISIG`) are functions of their own.

The signature checker, the hash functions and `CPubKey::CheckLowS` are
parameters (`BaseSignatureChecker`, `ScriptCrypto`). A `scriptnum_error`
thrown by a `CScriptNum` constructor, and the `runtime_error` of `popstack`,
end at `EvalScript`'s `catch (...)` as `SCRIPT_ERR_UNKNOWN_ERROR`.
-/
namespace Ring.Script

open Ring.Lib

/-- `valtype`: one stack element. -/
abbrev valtype := List UInt8

/-- `ScriptError`, the errors `EvalScript` and `VerifyScript` set. -/
inductive ScriptError where
  | SCRIPT_ERR_UNKNOWN_ERROR
  | SCRIPT_ERR_EVAL_FALSE
  | SCRIPT_ERR_OP_RETURN
  | SCRIPT_ERR_SCRIPT_SIZE
  | SCRIPT_ERR_PUSH_SIZE
  | SCRIPT_ERR_OP_COUNT
  | SCRIPT_ERR_STACK_SIZE
  | SCRIPT_ERR_SIG_COUNT
  | SCRIPT_ERR_PUBKEY_COUNT
  | SCRIPT_ERR_VERIFY
  | SCRIPT_ERR_EQUALVERIFY
  | SCRIPT_ERR_CHECKMULTISIGVERIFY
  | SCRIPT_ERR_CHECKSIGVERIFY
  | SCRIPT_ERR_NUMEQUALVERIFY
  | SCRIPT_ERR_BAD_OPCODE
  | SCRIPT_ERR_DISABLED_OPCODE
  | SCRIPT_ERR_INVALID_STACK_OPERATION
  | SCRIPT_ERR_INVALID_ALTSTACK_OPERATION
  | SCRIPT_ERR_UNBALANCED_CONDITIONAL
  | SCRIPT_ERR_NEGATIVE_LOCKTIME
  | SCRIPT_ERR_UNSATISFIED_LOCKTIME
  | SCRIPT_ERR_SIG_HASHTYPE
  | SCRIPT_ERR_SIG_DER
  | SCRIPT_ERR_MINIMALDATA
  | SCRIPT_ERR_SIG_PUSHONLY
  | SCRIPT_ERR_SIG_HIGH_S
  | SCRIPT_ERR_SIG_NULLDUMMY
  | SCRIPT_ERR_PUBKEYTYPE
  | SCRIPT_ERR_CLEANSTACK
  | SCRIPT_ERR_MINIMALIF
  | SCRIPT_ERR_SIG_NULLFAIL
  | SCRIPT_ERR_DISCOURAGE_UPGRADABLE_NOPS
  | SCRIPT_ERR_DISCOURAGE_UPGRADABLE_WITNESS_PROGRAM
  | SCRIPT_ERR_WITNESS_PROGRAM_WRONG_LENGTH
  | SCRIPT_ERR_WITNESS_PROGRAM_WITNESS_EMPTY
  | SCRIPT_ERR_WITNESS_PROGRAM_MISMATCH
  | SCRIPT_ERR_WITNESS_MALLEATED
  | SCRIPT_ERR_WITNESS_MALLEATED_P2SH
  | SCRIPT_ERR_WITNESS_UNEXPECTED
  | SCRIPT_ERR_WITNESS_PUBKEYTYPE
  | SCRIPT_ERR_OP_CODESEPARATOR
  | SCRIPT_ERR_SIG_FINDANDDELETE
  deriving DecidableEq, Repr

/-! ## Flags, signature versions and what the interpreter is given -/

def SCRIPT_VERIFY_NONE : UInt32 := 0
def SCRIPT_VERIFY_P2SH : UInt32 := (1 : UInt32) <<< 0
def SCRIPT_VERIFY_STRICTENC : UInt32 := (1 : UInt32) <<< 1
def SCRIPT_VERIFY_DERSIG : UInt32 := (1 : UInt32) <<< 2
def SCRIPT_VERIFY_LOW_S : UInt32 := (1 : UInt32) <<< 3
def SCRIPT_VERIFY_NULLDUMMY : UInt32 := (1 : UInt32) <<< 4
def SCRIPT_VERIFY_SIGPUSHONLY : UInt32 := (1 : UInt32) <<< 5
def SCRIPT_VERIFY_MINIMALDATA : UInt32 := (1 : UInt32) <<< 6
def SCRIPT_VERIFY_DISCOURAGE_UPGRADABLE_NOPS : UInt32 := (1 : UInt32) <<< 7
def SCRIPT_VERIFY_CLEANSTACK : UInt32 := (1 : UInt32) <<< 8
def SCRIPT_VERIFY_CHECKLOCKTIMEVERIFY : UInt32 := (1 : UInt32) <<< 9
def SCRIPT_VERIFY_CHECKSEQUENCEVERIFY : UInt32 := (1 : UInt32) <<< 10
def SCRIPT_VERIFY_WITNESS : UInt32 := (1 : UInt32) <<< 11
def SCRIPT_VERIFY_DISCOURAGE_UPGRADABLE_WITNESS_PROGRAM : UInt32 := (1 : UInt32) <<< 12
def SCRIPT_VERIFY_MINIMALIF : UInt32 := (1 : UInt32) <<< 13
def SCRIPT_VERIFY_NULLFAIL : UInt32 := (1 : UInt32) <<< 14
def SCRIPT_VERIFY_WITNESS_PUBKEYTYPE : UInt32 := (1 : UInt32) <<< 15
def SCRIPT_VERIFY_CONST_SCRIPTCODE : UInt32 := (1 : UInt32) <<< 16

def SIGHASH_ALL : UInt8 := 1
def SIGHASH_SINGLE : UInt8 := 3
def SIGHASH_ANYONECANPAY : UInt8 := 0x80

/-- `CTxIn::SEQUENCE_LOCKTIME_DISABLE_FLAG`. -/
def SEQUENCE_LOCKTIME_DISABLE_FLAG : Nat := 1 <<< 31

/-- `SigVersion`. -/
inductive SigVersion where
  | BASE
  | WITNESS_V0
  deriving DecidableEq, Repr

/-- `BaseSignatureChecker`: what the interpreter asks of the spending
transaction. -/
structure BaseSignatureChecker where
  checkSig : valtype → valtype → CScript → SigVersion → Bool
  checkLockTime : Int → Bool
  checkSequence : Int → Bool

/-- The hash functions of the crypto opcodes and `CPubKey::CheckLowS`. -/
structure ScriptCrypto where
  ripemd160 : List UInt8 → List UInt8
  sha1 : List UInt8 → List UInt8
  sha256 : List UInt8 → List UInt8
  hash160 : List UInt8 → List UInt8
  hash256 : List UInt8 → List UInt8
  checkLowS : List UInt8 → Bool

/-! ## The helpers before `EvalScript` -/

/-- `CastToBool`: false for any number of zero bytes, with a negative zero
(`0x80`) allowed as the last.
mirrors src/script/interpreter.cpp:35-48 -/
def castToBool : valtype → Bool
  | [] => false
  | b :: rest => if b ≠ 0 then !(rest = [] ∧ b = 0x80) else castToBool rest

/-- mirrors src/script/interpreter.cpp:63-83 -/
def isCompressedOrUncompressedPubKey (vchPubKey : valtype) : Bool :=
  if vchPubKey.length < COMPRESSED_PUBLIC_KEY_SIZE then false
  else if vchPubKey.getD 0 0 = 0x04 then vchPubKey.length == PUBLIC_KEY_SIZE
  else if vchPubKey.getD 0 0 = 0x02 ∨ vchPubKey.getD 0 0 = 0x03 then
    vchPubKey.length == COMPRESSED_PUBLIC_KEY_SIZE
  else false

/-- mirrors src/script/interpreter.cpp:85-96 -/
def isCompressedPubKey (vchPubKey : valtype) : Bool :=
  if vchPubKey.length ≠ COMPRESSED_PUBLIC_KEY_SIZE then false
  else if vchPubKey.getD 0 0 ≠ 0x02 ∧ vchPubKey.getD 0 0 ≠ 0x03 then false
  else true

/-- `IsValidSignatureEncoding`: strict DER, `0x30 len 0x02 lenR R 0x02 lenS S`,
then the hash type byte.
mirrors src/script/interpreter.cpp:107-170 -/
def isValidSignatureEncoding (sig : List UInt8) : Bool :=
  if sig.length < 9 then false
  else if sig.length > 73 then false
  else if sig.getD 0 0 ≠ 0x30 then false
  else if (sig.getD 1 0).toNat ≠ sig.length - 3 then false
  else
  let lenR := (sig.getD 3 0).toNat
  if 5 + lenR ≥ sig.length then false
  else
  let lenS := (sig.getD (5 + lenR) 0).toNat
  if lenR + lenS + 7 ≠ sig.length then false
  else if sig.getD 2 0 ≠ 0x02 then false
  else if lenR = 0 then false
  else if sig.getD 4 0 &&& 0x80 ≠ 0 then false
  else if lenR > 1 ∧ sig.getD 4 0 = 0x00 ∧ sig.getD 5 0 &&& 0x80 = 0 then false
  else if sig.getD (lenR + 4) 0 ≠ 0x02 then false
  else if lenS = 0 then false
  else if sig.getD (lenR + 6) 0 &&& 0x80 ≠ 0 then false
  else if lenS > 1 ∧ sig.getD (lenR + 6) 0 = 0x00 ∧ sig.getD (lenR + 7) 0 &&& 0x80 = 0 then false
  else true

/-- `IsLowDERSignature`: strict DER with the S value at most half the order;
the hash type byte is not passed to `CheckLowS`.
mirrors src/script/interpreter.cpp:172-187 -/
def isLowDERSignature (crypto : ScriptCrypto) (vchSig : valtype) : Except ScriptError Unit :=
  if !isValidSignatureEncoding vchSig then .error .SCRIPT_ERR_SIG_DER
  else if !crypto.checkLowS vchSig.dropLast then .error .SCRIPT_ERR_SIG_HIGH_S
  else .ok ()

/-- mirrors src/script/interpreter.cpp:189-198 -/
def isDefinedHashtypeSignature (vchSig : valtype) : Bool :=
  match vchSig.getLast? with
  | none => false
  | some back =>
    let nHashType := back &&& ~~~SIGHASH_ANYONECANPAY
    !(nHashType < SIGHASH_ALL ∨ nHashType > SIGHASH_SINGLE)

/-- `CheckSignatureEncoding`; the empty signature always passes. The low-S
test sets its own error.
mirrors src/script/interpreter.cpp:200-215 -/
def checkSignatureEncoding (crypto : ScriptCrypto) (vchSig : valtype) (flags : UInt32) :
    Except ScriptError Unit :=
  if vchSig.length = 0 then .ok ()
  else if flags &&& (SCRIPT_VERIFY_DERSIG ||| SCRIPT_VERIFY_LOW_S ||| SCRIPT_VERIFY_STRICTENC) ≠ 0 ∧
      !isValidSignatureEncoding vchSig then .error .SCRIPT_ERR_SIG_DER
  else do
    (if flags &&& SCRIPT_VERIFY_LOW_S ≠ 0 then isLowDERSignature crypto vchSig else .ok ())
    if flags &&& SCRIPT_VERIFY_STRICTENC ≠ 0 ∧ !isDefinedHashtypeSignature vchSig then
      .error .SCRIPT_ERR_SIG_HASHTYPE
    else .ok ()

/-- mirrors src/script/interpreter.cpp:217-226 -/
def checkPubKeyEncoding (vchPubKey : valtype) (flags : UInt32) (sigversion : SigVersion) :
    Except ScriptError Unit :=
  if flags &&& SCRIPT_VERIFY_STRICTENC ≠ 0 ∧ !isCompressedOrUncompressedPubKey vchPubKey then
    .error .SCRIPT_ERR_PUBKEYTYPE
  else if flags &&& SCRIPT_VERIFY_WITNESS_PUBKEYTYPE ≠ 0 ∧ sigversion = .WITNESS_V0 ∧
      !isCompressedPubKey vchPubKey then .error .SCRIPT_ERR_WITNESS_PUBKEYTYPE
  else .ok ()

/-- `CheckMinimalPush`: the data is pushed by the shortest opcode that can.
mirrors src/script/interpreter.cpp:228-251 -/
def checkMinimalPush (data : valtype) (opcode : UInt8) : Bool :=
  if data.length = 0 then opcode == OP_0
  else if data.length = 1 ∧ 1 ≤ data.getD 0 0 ∧ data.getD 0 0 ≤ 16 then false
  else if data.length = 1 ∧ data.getD 0 0 = 0x81 then false
  else if data.length ≤ 75 then opcode.toNat == data.length
  else if data.length ≤ 255 then opcode == OP_PUSHDATA1
  else if data.length ≤ 65535 then opcode == OP_PUSHDATA2
  else true

/-- The inner `while` of `FindAndDelete`: the copies of `b` at `pc` skipped,
how many, and the bytes after them. `FindAndDelete` returns before the loop
when `b` is empty, which the test below repeats so that the loop ends. -/
def skipCopies (b pc : CScript) : Nat × CScript :=
  if h : b ≠ [] ∧ b.length ≤ pc.length ∧ pc.take b.length = b then
    let r := skipCopies b (pc.drop b.length)
    (r.1 + 1, r.2)
  else (0, pc)
termination_by pc.length
decreasing_by
  have : 0 < b.length := List.length_pos_of_ne_nil h.1
  simp only [List.length_drop]
  omega

theorem length_skipCopies_le (b pc : CScript) : (skipCopies b pc).2.length ≤ pc.length := by
  rw [skipCopies]
  split
  · have ih := length_skipCopies_le b (pc.drop b.length)
    have hdrop : (pc.drop b.length).length ≤ pc.length := by simp
    exact ih.trans hdrop
  · exact le_refl _
termination_by pc.length
decreasing_by
  rename_i h
  have : 0 < b.length := List.length_pos_of_ne_nil h.1
  simp only [List.length_drop]
  omega

-- `h` is read by the termination proof only
set_option linter.unusedVariables false in
/-- The `do { ... } while (script.GetOp(pc, opcode))` loop of `FindAndDelete`
from `pc`: the copies found, and the bytes kept from `pc` on, with `[pc2, end)`
appended once `GetOp` fails. -/
def findAndDeleteLoop (b pc : CScript) : Nat × CScript :=
  let skipped := skipCopies b pc
  match h : getScriptOp skipped.2 with
  | .ok (some (_, _, rest)) =>
    let r := findAndDeleteLoop b rest
    (skipped.1 + r.1, skipped.2.take (skipped.2.length - rest.length) ++ r.2)
  | _ => (skipped.1, skipped.2)
termination_by pc.length
decreasing_by
  have := length_lt_of_getScriptOp h
  have : skipped.2.length ≤ pc.length := length_skipCopies_le b pc
  omega

/-- `FindAndDelete(script, b)`: the number of copies of `b` found at operation
boundaries, and the script without them; the script is unchanged when none is.
mirrors src/script/interpreter.cpp:253-279 -/
def findAndDelete (script b : CScript) : Nat × CScript :=
  if b = [] then (0, script)
  else
    let r := findAndDeleteLoop b script
    if r.1 > 0 then r else (0, script)

/-- `CScriptNum(vch, fRequireMinimal, nMaxNumSize)` as `EvalScript` sees it:
its `scriptnum_error` is caught by the `catch (...)`.
mirrors src/script/interpreter.cpp:1075-1078 -/
def evalScriptNum (vch : valtype) (fRequireMinimal : Bool) (nMaxNumSize : Nat) :
    Except ScriptError Int :=
  match scriptNumOfVch vch fRequireMinimal nMaxNumSize with
  | .ok v => .ok v
  | .error _ => .error .SCRIPT_ERR_UNKNOWN_ERROR

/-- `CScriptNum::getint`: the value clamped to the `int` range.
mirrors src/script/script.h:317-324 -/
def getint (v : Int) : Int :=
  if v > 2147483647 then 2147483647 else if v < -2147483648 then -2147483648 else v

/-- `popstack`: its `runtime_error` on an empty stack ends at the `catch (...)`.
mirrors src/script/interpreter.cpp:56-61 -/
def popstack : List valtype → Except ScriptError (List valtype)
  | [] => .error .SCRIPT_ERR_UNKNOWN_ERROR
  | _ :: rest => .ok rest

def vchFalse : valtype := []
def vchTrue : valtype := [1]

/-! ## The interpreter's state and the case groups of its `switch` -/

/-- The locals of `EvalScript` that live across operations; `pc` is the
script left to read, which the loop passes along. -/
structure EvalState where
  stack : List valtype
  altstack : List valtype
  vfExec : List Bool
  nOpCount : Nat
  pbegincodehash : CScript

/-- The case groups of `EvalScript`'s `switch (opcode)`, one for each body. -/
inductive SwitchCase where
  | pushValue
  | nop
  | checkLockTimeVerify
  | checkSequenceVerify
  | upgradableNop
  | ifNotIf
  | opElse
  | opEndif
  | opVerify
  | opReturn
  | toAltStack
  | fromAltStack
  | twoDrop
  | twoDup
  | threeDup
  | twoOver
  | twoRot
  | twoSwap
  | ifDup
  | depth
  | drop
  | dup
  | nip
  | over
  | pickRoll
  | rot
  | swap
  | tuck
  | size
  | equal
  | numUnary
  | numBinary
  | within
  | hash
  | codeSeparator
  | checkSig
  | checkMultisig
  | badOpcode
  deriving DecidableEq, Repr

/-- The `case` labels of `EvalScript`'s `switch`: which body an opcode runs;
`default` is `SCRIPT_ERR_BAD_OPCODE`.
mirrors src/script/interpreter.cpp:349-1070 -/
def switchCase (opcode : UInt8) : SwitchCase :=
  if opcode = OP_1NEGATE ∨ (OP_1 ≤ opcode ∧ opcode ≤ OP_16) then .pushValue
  else if opcode = OP_NOP then .nop
  else if opcode = OP_CHECKLOCKTIMEVERIFY then .checkLockTimeVerify
  else if opcode = OP_CHECKSEQUENCEVERIFY then .checkSequenceVerify
  else if opcode = OP_NOP1 ∨ (OP_NOP4 ≤ opcode ∧ opcode ≤ OP_NOP10) then .upgradableNop
  else if opcode = OP_IF ∨ opcode = OP_NOTIF then .ifNotIf
  else if opcode = OP_ELSE then .opElse
  else if opcode = OP_ENDIF then .opEndif
  else if opcode = OP_VERIFY then .opVerify
  else if opcode = OP_RETURN then .opReturn
  else if opcode = OP_TOALTSTACK then .toAltStack
  else if opcode = OP_FROMALTSTACK then .fromAltStack
  else if opcode = OP_2DROP then .twoDrop
  else if opcode = OP_2DUP then .twoDup
  else if opcode = OP_3DUP then .threeDup
  else if opcode = OP_2OVER then .twoOver
  else if opcode = OP_2ROT then .twoRot
  else if opcode = OP_2SWAP then .twoSwap
  else if opcode = OP_IFDUP then .ifDup
  else if opcode = OP_DEPTH then .depth
  else if opcode = OP_DROP then .drop
  else if opcode = OP_DUP then .dup
  else if opcode = OP_NIP then .nip
  else if opcode = OP_OVER then .over
  else if opcode = OP_PICK ∨ opcode = OP_ROLL then .pickRoll
  else if opcode = OP_ROT then .rot
  else if opcode = OP_SWAP then .swap
  else if opcode = OP_TUCK then .tuck
  else if opcode = OP_SIZE then .size
  else if opcode = OP_EQUAL ∨ opcode = OP_EQUALVERIFY then .equal
  else if OP_1ADD ≤ opcode ∧ opcode ≤ OP_0NOTEQUAL ∧ opcode ≠ OP_2MUL ∧ opcode ≠ OP_2DIV then .numUnary
  else if OP_ADD ≤ opcode ∧ opcode ≤ OP_MAX ∧ ¬(OP_MUL ≤ opcode ∧ opcode ≤ OP_RSHIFT) then .numBinary
  else if opcode = OP_WITHIN then .within
  else if OP_RIPEMD160 ≤ opcode ∧ opcode ≤ OP_HASH256 then .hash
  else if opcode = OP_CODESEPARATOR then .codeSeparator
  else if opcode = OP_CHECKSIG ∨ opcode = OP_CHECKSIGVERIFY then .checkSig
  else if opcode = OP_CHECKMULTISIG ∨ opcode = OP_CHECKMULTISIGVERIFY then .checkMultisig
  else .badOpcode

/-- The opcodes `EvalScript` rejects wherever they stand.
mirrors src/script/interpreter.cpp:321-336 -/
def isDisabledOpcode (opcode : UInt8) : Bool :=
  opcode ∈ [OP_CAT, OP_SUBSTR, OP_LEFT, OP_RIGHT, OP_INVERT, OP_AND, OP_OR, OP_XOR, OP_2MUL,
    OP_2DIV, OP_MUL, OP_DIV, OP_MOD, OP_LSHIFT, OP_RSHIFT]

/-! ## The bodies that read flags, numbers or loop -/

section Bodies

variable (crypto : ScriptCrypto) (flags : UInt32) (checker : BaseSignatureChecker)
  (sigversion : SigVersion) (fRequireMinimal : Bool)

/-- `OP_CHECKLOCKTIMEVERIFY`: a `NOP2` without its flag; it leaves the stack
as it is.
mirrors src/script/interpreter.cpp:387-424 -/
def opCheckLockTimeVerify (stack : List valtype) : Except ScriptError Unit :=
  if flags &&& SCRIPT_VERIFY_CHECKLOCKTIMEVERIFY = 0 then .ok ()
  else
    match stack with
    | [] => .error .SCRIPT_ERR_INVALID_STACK_OPERATION
    | top :: _ => do
      let nLockTime ← evalScriptNum top fRequireMinimal 5
      if nLockTime < 0 then .error .SCRIPT_ERR_NEGATIVE_LOCKTIME
      else if !checker.checkLockTime nLockTime then .error .SCRIPT_ERR_UNSATISFIED_LOCKTIME
      else .ok ()

/-- `OP_CHECKSEQUENCEVERIFY`: a `NOP3` without its flag, and with the
operand's disable bit set.
mirrors src/script/interpreter.cpp:426-458 -/
def opCheckSequenceVerify (stack : List valtype) : Except ScriptError Unit :=
  if flags &&& SCRIPT_VERIFY_CHECKSEQUENCEVERIFY = 0 then .ok ()
  else
    match stack with
    | [] => .error .SCRIPT_ERR_INVALID_STACK_OPERATION
    | top :: _ => do
      let nSequence ← evalScriptNum top fRequireMinimal 5
      if nSequence < 0 then .error .SCRIPT_ERR_NEGATIVE_LOCKTIME
      else if nSequence.toNat &&& SEQUENCE_LOCKTIME_DISABLE_FLAG ≠ 0 then .ok ()
      else if !checker.checkSequence nSequence then .error .SCRIPT_ERR_UNSATISFIED_LOCKTIME
      else .ok ()

/-- `OP_IF` / `OP_NOTIF`: the branch's value and the stack after it; in an
unexecuted branch the value is false and nothing is popped.
mirrors src/script/interpreter.cpp:468-491 -/
def opIf (fExec : Bool) (opcode : UInt8) (stack : List valtype) :
    Except ScriptError (Bool × List valtype) :=
  if !fExec then .ok (false, stack)
  else
    match stack with
    | [] => .error .SCRIPT_ERR_UNBALANCED_CONDITIONAL
    | vch :: rest =>
      if sigversion = .WITNESS_V0 ∧ flags &&& SCRIPT_VERIFY_MINIMALIF ≠ 0 ∧ vch.length > 1 then
        .error .SCRIPT_ERR_MINIMALIF
      else if sigversion = .WITNESS_V0 ∧ flags &&& SCRIPT_VERIFY_MINIMALIF ≠ 0 ∧ vch.length = 1 ∧
          vch.getD 0 0 ≠ 1 then .error .SCRIPT_ERR_MINIMALIF
      else
        let fValue := castToBool vch
        .ok (if opcode = OP_NOTIF then !fValue else fValue, rest)

/-- The result of the one-operand numeric opcodes. -/
def numUnaryResult (opcode : UInt8) (bn : Int) : Int :=
  if opcode = OP_1ADD then bn + 1
  else if opcode = OP_1SUB then bn - 1
  else if opcode = OP_NEGATE then -bn
  else if opcode = OP_ABS then (if bn < 0 then -bn else bn)
  else if opcode = OP_NOT then (if bn = 0 then 1 else 0)
  else if bn ≠ 0 then 1 else 0

/-- `OP_1ADD` .. `OP_0NOTEQUAL`. The operand has at most four bytes, so the
`int64_t` arithmetic of `CScriptNum` cannot overflow.
mirrors src/script/interpreter.cpp:775-799 -/
def opNumUnary (opcode : UInt8) : List valtype → Except ScriptError (List valtype)
  | vch :: rest => do
    let bn ← evalScriptNum vch fRequireMinimal nDefaultMaxNumSize
    .ok (scriptNumSerialize (numUnaryResult opcode bn) :: rest)
  | [] => .error .SCRIPT_ERR_INVALID_STACK_OPERATION

/-- The result of the two-operand numeric opcodes. -/
def numBinaryResult (opcode : UInt8) (bn1 bn2 : Int) : Int :=
  if opcode = OP_ADD then bn1 + bn2
  else if opcode = OP_SUB then bn1 - bn2
  else if opcode = OP_BOOLAND then (if bn1 ≠ 0 ∧ bn2 ≠ 0 then 1 else 0)
  else if opcode = OP_BOOLOR then (if bn1 ≠ 0 ∨ bn2 ≠ 0 then 1 else 0)
  else if opcode = OP_NUMEQUAL ∨ opcode = OP_NUMEQUALVERIFY then (if bn1 = bn2 then 1 else 0)
  else if opcode = OP_NUMNOTEQUAL then (if bn1 ≠ bn2 then 1 else 0)
  else if opcode = OP_LESSTHAN then (if bn1 < bn2 then 1 else 0)
  else if opcode = OP_GREATERTHAN then (if bn1 > bn2 then 1 else 0)
  else if opcode = OP_LESSTHANOREQUAL then (if bn1 ≤ bn2 then 1 else 0)
  else if opcode = OP_GREATERTHANOREQUAL then (if bn1 ≥ bn2 then 1 else 0)
  else if opcode = OP_MIN then (if bn1 < bn2 then bn1 else bn2)
  else if bn1 > bn2 then bn1 else bn2

/-- `OP_ADD` .. `OP_MAX`; `bn1` is the element under the top.
mirrors src/script/interpreter.cpp:801-856 -/
def opNumBinary (opcode : UInt8) : List valtype → Except ScriptError (List valtype)
  | vch2 :: vch1 :: rest => do
    let bn1 ← evalScriptNum vch1 fRequireMinimal nDefaultMaxNumSize
    let bn2 ← evalScriptNum vch2 fRequireMinimal nDefaultMaxNumSize
    let result := scriptNumSerialize (numBinaryResult opcode bn1 bn2)
    if opcode = OP_NUMEQUALVERIFY then
      if castToBool result then .ok rest else .error .SCRIPT_ERR_NUMEQUALVERIFY
    else .ok (result :: rest)
  | _ => .error .SCRIPT_ERR_INVALID_STACK_OPERATION

/-- `OP_WITHIN`: `min <= x < max`.
mirrors src/script/interpreter.cpp:858-873 -/
def opWithin : List valtype → Except ScriptError (List valtype)
  | vch3 :: vch2 :: vch1 :: rest => do
    let bn1 ← evalScriptNum vch1 fRequireMinimal nDefaultMaxNumSize
    let bn2 ← evalScriptNum vch2 fRequireMinimal nDefaultMaxNumSize
    let bn3 ← evalScriptNum vch3 fRequireMinimal nDefaultMaxNumSize
    .ok ((if bn2 ≤ bn1 ∧ bn1 < bn3 then vchTrue else vchFalse) :: rest)
  | _ => .error .SCRIPT_ERR_INVALID_STACK_OPERATION

/-- `OP_PICK` / `OP_ROLL`: the element `n` below the operand, copied or
moved to the top.
mirrors src/script/interpreter.cpp:679-695 -/
def opPickRoll (opcode : UInt8) : List valtype → Except ScriptError (List valtype)
  | top :: stack@(_ :: _) => do
    let n := getint (← evalScriptNum top fRequireMinimal nDefaultMaxNumSize)
    if n < 0 ∨ n ≥ stack.length then .error .SCRIPT_ERR_INVALID_STACK_OPERATION
    else
      let vch := stack.getD n.toNat []
      .ok (vch :: if opcode = OP_ROLL then stack.eraseIdx n.toNat else stack)
  | _ => .error .SCRIPT_ERR_INVALID_STACK_OPERATION

/-- `FindAndDelete(scriptCode, CScript(vchSig))` in a pre-segwit script,
which fails under `SCRIPT_VERIFY_CONST_SCRIPTCODE` when it finds the
signature.
mirrors src/script/interpreter.cpp:927-932 -/
def dropSignature (scriptCode : CScript) (vchSig : valtype) : Except ScriptError CScript :=
  if sigversion = .BASE then
    let r := findAndDelete scriptCode (pushData [] vchSig)
    if r.1 > 0 ∧ flags &&& SCRIPT_VERIFY_CONST_SCRIPTCODE ≠ 0 then .error .SCRIPT_ERR_SIG_FINDANDDELETE
    else .ok r.2
  else .ok scriptCode

/-- `OP_CHECKSIG` / `OP_CHECKSIGVERIFY`, with `scriptCode` the script from
the last `OP_CODESEPARATOR`.
mirrors src/script/interpreter.cpp:914-954 -/
def opCheckSig (opcode : UInt8) (scriptCode : CScript) : List valtype → Except ScriptError (List valtype)
  | vchPubKey :: vchSig :: rest => do
    let scriptCode ← dropSignature flags sigversion scriptCode vchSig
    checkSignatureEncoding crypto vchSig flags
    checkPubKeyEncoding vchPubKey flags sigversion
    let fSuccess := checker.checkSig vchSig vchPubKey scriptCode sigversion
    if !fSuccess ∧ flags &&& SCRIPT_VERIFY_NULLFAIL ≠ 0 ∧ vchSig.length > 0 then
      .error .SCRIPT_ERR_SIG_NULLFAIL
    else if opcode = OP_CHECKSIGVERIFY then
      if fSuccess then .ok rest else .error .SCRIPT_ERR_CHECKSIGVERIFY
    else .ok ((if fSuccess then vchTrue else vchFalse) :: rest)
  | _ => .error .SCRIPT_ERR_INVALID_STACK_OPERATION

/-- The signature loop of `OP_CHECKMULTISIG`, `while (fSuccess && nSigsCount > 0)`,
entered with `fSuccess` true; it returns `fSuccess`. `isig` and `ikey` index
the stack from the top, from 0 (the C++ counts from 1); `nKeysCount` keys and
`nSigsCount` signatures are left. Every round uses up a key, so the loop
recurses on `nKeysCount`; a round with no key left, which the counts checked
before the loop rule out, gives up as the C++ does when `nKeysCount` turns
negative.
mirrors src/script/interpreter.cpp:1001-1030 -/
def multisigLoop (stack : List valtype) (scriptCode : CScript) :
    (nKeysCount isig ikey nSigsCount : Nat) → Except ScriptError Bool
  | nKeysCount, isig, ikey, nSigsCount =>
    if nSigsCount = 0 then .ok true
    else do
      let vchSig := stack.getD isig []
      let vchPubKey := stack.getD ikey []
      checkSignatureEncoding crypto vchSig flags
      checkPubKeyEncoding vchPubKey flags sigversion
      let fOk := checker.checkSig vchSig vchPubKey scriptCode sigversion
      let isig := if fOk then isig + 1 else isig
      let nSigsCount := if fOk then nSigsCount - 1 else nSigsCount
      match nKeysCount with
      | 0 => .ok false
      | nKeysCount + 1 =>
        if nSigsCount > nKeysCount then .ok false
        else multisigLoop stack scriptCode nKeysCount isig (ikey + 1) nSigsCount

/-- The clean-up loop of `OP_CHECKMULTISIG`, `while (i-- > 1)`: it pops
`pops` elements; once the `ikey2` elements above the signatures are gone, a
failed check under `SCRIPT_VERIFY_NULLFAIL` needs every popped signature empty.
mirrors src/script/interpreter.cpp:1032-1040 -/
def multisigCleanup (fSuccess : Bool) : (pops ikey2 : Nat) → List valtype → Except ScriptError (List valtype)
  | 0, _, stack => .ok stack
  | pops + 1, ikey2, stack =>
    if !fSuccess ∧ flags &&& SCRIPT_VERIFY_NULLFAIL ≠ 0 ∧ ikey2 = 0 ∧ (stack.getD 0 []).length > 0 then
      .error .SCRIPT_ERR_SIG_NULLFAIL
    else do
      let stack ← popstack stack
      multisigCleanup fSuccess pops (ikey2 - 1) stack

/-- `OP_CHECKMULTISIG` / `OP_CHECKMULTISIGVERIFY`: `[sig ...] nSigs [pubkey ...]
nKeys`, and the extra element the C++ consumes. The key count adds to
`nOpCount`.
mirrors src/script/interpreter.cpp:956-1064 -/
def opCheckMultisig (opcode : UInt8) (st : EvalState) : Except ScriptError EvalState :=
  let stack := st.stack
  if stack.length < 1 then .error .SCRIPT_ERR_INVALID_STACK_OPERATION
  else do
  let nKeysCount := getint (← evalScriptNum (stack.getD 0 []) fRequireMinimal nDefaultMaxNumSize)
  if nKeysCount < 0 ∨ nKeysCount > MAX_PUBKEYS_PER_MULTISIG then .error .SCRIPT_ERR_PUBKEY_COUNT
  else
  let nKeys := nKeysCount.toNat
  let nOpCount := st.nOpCount + nKeys
  if nOpCount > MAX_OPS_PER_SCRIPT then .error .SCRIPT_ERR_OP_COUNT
  else if stack.length < nKeys + 2 then .error .SCRIPT_ERR_INVALID_STACK_OPERATION
  else do
  let nSigsCount := getint (← evalScriptNum (stack.getD (nKeys + 1) []) fRequireMinimal nDefaultMaxNumSize)
  if nSigsCount < 0 ∨ nSigsCount > nKeysCount then .error .SCRIPT_ERR_SIG_COUNT
  else
  let nSigs := nSigsCount.toNat
  if stack.length < nKeys + nSigs + 3 then .error .SCRIPT_ERR_INVALID_STACK_OPERATION
  else do
  let scriptCode ← (List.range nSigs).foldlM
    (fun scriptCode k => dropSignature flags sigversion scriptCode (stack.getD (nKeys + 2 + k) []))
    st.pbegincodehash
  let fSuccess ← multisigLoop crypto flags checker sigversion stack scriptCode nKeys (nKeys + 2) 1 nSigs
  let stack ← multisigCleanup flags fSuccess (nKeys + nSigs + 2) (nKeys + 2) stack
  match stack with
  | [] => .error .SCRIPT_ERR_INVALID_STACK_OPERATION
  | dummy :: rest =>
    if flags &&& SCRIPT_VERIFY_NULLDUMMY ≠ 0 ∧ dummy.length > 0 then .error .SCRIPT_ERR_SIG_NULLDUMMY
    else if opcode = OP_CHECKMULTISIGVERIFY then
      if fSuccess then .ok { st with stack := rest, nOpCount }
      else .error .SCRIPT_ERR_CHECKMULTISIGVERIFY
    else .ok { st with stack := (if fSuccess then vchTrue else vchFalse) :: rest, nOpCount }

/-! ## One operation, and the loop -/

/-- The body of the `switch` for the case group `c` of `opcode`; `pc` is the
script after the operation.
mirrors src/script/interpreter.cpp:349-1070 -/
def evalSwitch (fExec : Bool) (opcode : UInt8) (pc : CScript) (st : EvalState) :
    SwitchCase → Except ScriptError EvalState
  | .pushValue =>
    .ok { st with stack := scriptNumSerialize ((opcode.toNat : Int) - (OP_1.toNat - 1)) :: st.stack }
  | .nop => .ok st
  | .checkLockTimeVerify => do
    opCheckLockTimeVerify flags checker fRequireMinimal st.stack
    .ok st
  | .checkSequenceVerify => do
    opCheckSequenceVerify flags checker fRequireMinimal st.stack
    .ok st
  | .upgradableNop =>
    if flags &&& SCRIPT_VERIFY_DISCOURAGE_UPGRADABLE_NOPS ≠ 0 then
      .error .SCRIPT_ERR_DISCOURAGE_UPGRADABLE_NOPS
    else .ok st
  | .ifNotIf => do
    let (fValue, stack) ← opIf flags sigversion fExec opcode st.stack
    .ok { st with stack, vfExec := fValue :: st.vfExec }
  | .opElse =>
    match st.vfExec with
    | [] => .error .SCRIPT_ERR_UNBALANCED_CONDITIONAL
    | b :: rest => .ok { st with vfExec := (!b) :: rest }
  | .opEndif =>
    match st.vfExec with
    | [] => .error .SCRIPT_ERR_UNBALANCED_CONDITIONAL
    | _ :: rest => .ok { st with vfExec := rest }
  | .opVerify =>
    match st.stack with
    | [] => .error .SCRIPT_ERR_INVALID_STACK_OPERATION
    | vch :: rest => if castToBool vch then .ok { st with stack := rest } else .error .SCRIPT_ERR_VERIFY
  | .opReturn => .error .SCRIPT_ERR_OP_RETURN
  | .toAltStack =>
    match st.stack with
    | [] => .error .SCRIPT_ERR_INVALID_STACK_OPERATION
    | vch :: rest => .ok { st with stack := rest, altstack := vch :: st.altstack }
  | .fromAltStack =>
    match st.altstack with
    | [] => .error .SCRIPT_ERR_INVALID_ALTSTACK_OPERATION
    | vch :: rest => .ok { st with stack := vch :: st.stack, altstack := rest }
  | .twoDrop =>
    match st.stack with
    | _ :: _ :: rest => .ok { st with stack := rest }
    | _ => .error .SCRIPT_ERR_INVALID_STACK_OPERATION
  | .twoDup =>
    match st.stack with
    | x2 :: x1 :: rest => .ok { st with stack := x2 :: x1 :: x2 :: x1 :: rest }
    | _ => .error .SCRIPT_ERR_INVALID_STACK_OPERATION
  | .threeDup =>
    match st.stack with
    | x3 :: x2 :: x1 :: rest => .ok { st with stack := x3 :: x2 :: x1 :: x3 :: x2 :: x1 :: rest }
    | _ => .error .SCRIPT_ERR_INVALID_STACK_OPERATION
  | .twoOver =>
    match st.stack with
    | x4 :: x3 :: x2 :: x1 :: rest => .ok { st with stack := x2 :: x1 :: x4 :: x3 :: x2 :: x1 :: rest }
    | _ => .error .SCRIPT_ERR_INVALID_STACK_OPERATION
  | .twoRot =>
    match st.stack with
    | x6 :: x5 :: x4 :: x3 :: x2 :: x1 :: rest =>
      .ok { st with stack := x2 :: x1 :: x6 :: x5 :: x4 :: x3 :: rest }
    | _ => .error .SCRIPT_ERR_INVALID_STACK_OPERATION
  | .twoSwap =>
    match st.stack with
    | x4 :: x3 :: x2 :: x1 :: rest => .ok { st with stack := x2 :: x1 :: x4 :: x3 :: rest }
    | _ => .error .SCRIPT_ERR_INVALID_STACK_OPERATION
  | .ifDup =>
    match st.stack with
    | [] => .error .SCRIPT_ERR_INVALID_STACK_OPERATION
    | vch :: rest => .ok { st with stack := if castToBool vch then vch :: vch :: rest else vch :: rest }
  | .depth => .ok { st with stack := scriptNumSerialize st.stack.length :: st.stack }
  | .drop =>
    match st.stack with
    | [] => .error .SCRIPT_ERR_INVALID_STACK_OPERATION
    | _ :: rest => .ok { st with stack := rest }
  | .dup =>
    match st.stack with
    | [] => .error .SCRIPT_ERR_INVALID_STACK_OPERATION
    | vch :: rest => .ok { st with stack := vch :: vch :: rest }
  | .nip =>
    match st.stack with
    | x2 :: _ :: rest => .ok { st with stack := x2 :: rest }
    | _ => .error .SCRIPT_ERR_INVALID_STACK_OPERATION
  | .over =>
    match st.stack with
    | x2 :: x1 :: rest => .ok { st with stack := x1 :: x2 :: x1 :: rest }
    | _ => .error .SCRIPT_ERR_INVALID_STACK_OPERATION
  | .pickRoll => do
    let stack ← opPickRoll fRequireMinimal opcode st.stack
    .ok { st with stack }
  | .rot =>
    match st.stack with
    | x3 :: x2 :: x1 :: rest => .ok { st with stack := x1 :: x3 :: x2 :: rest }
    | _ => .error .SCRIPT_ERR_INVALID_STACK_OPERATION
  | .swap =>
    match st.stack with
    | x2 :: x1 :: rest => .ok { st with stack := x1 :: x2 :: rest }
    | _ => .error .SCRIPT_ERR_INVALID_STACK_OPERATION
  | .tuck =>
    match st.stack with
    | x2 :: x1 :: rest => .ok { st with stack := x2 :: x1 :: x2 :: rest }
    | _ => .error .SCRIPT_ERR_INVALID_STACK_OPERATION
  | .size =>
    match st.stack with
    | [] => .error .SCRIPT_ERR_INVALID_STACK_OPERATION
    | vch :: rest => .ok { st with stack := scriptNumSerialize vch.length :: vch :: rest }
  | .equal =>
    match st.stack with
    | vch2 :: vch1 :: rest =>
      let fEqual := vch1 == vch2
      if opcode = OP_EQUALVERIFY then
        if fEqual then .ok { st with stack := rest } else .error .SCRIPT_ERR_EQUALVERIFY
      else .ok { st with stack := (if fEqual then vchTrue else vchFalse) :: rest }
    | _ => .error .SCRIPT_ERR_INVALID_STACK_OPERATION
  | .numUnary => do
    let stack ← opNumUnary fRequireMinimal opcode st.stack
    .ok { st with stack }
  | .numBinary => do
    let stack ← opNumBinary fRequireMinimal opcode st.stack
    .ok { st with stack }
  | .within => do
    let stack ← opWithin fRequireMinimal st.stack
    .ok { st with stack }
  | .hash =>
    match st.stack with
    | [] => .error .SCRIPT_ERR_INVALID_STACK_OPERATION
    | vch :: rest =>
      let vchHash :=
        if opcode = OP_RIPEMD160 then crypto.ripemd160 vch
        else if opcode = OP_SHA1 then crypto.sha1 vch
        else if opcode = OP_SHA256 then crypto.sha256 vch
        else if opcode = OP_HASH160 then crypto.hash160 vch
        else crypto.hash256 vch
      .ok { st with stack := vchHash :: rest }
  | .codeSeparator => .ok { st with pbegincodehash := pc }
  | .checkSig => do
    let stack ← opCheckSig crypto flags checker sigversion opcode st.pbegincodehash st.stack
    .ok { st with stack }
  | .checkMultisig => opCheckMultisig crypto flags checker sigversion fRequireMinimal opcode st
  | .badOpcode => .error .SCRIPT_ERR_BAD_OPCODE

/-- One round of `EvalScript`'s loop, on the operation `opcode` with its data
`vchPushValue`, and `pc` the script after it.
mirrors src/script/interpreter.cpp:308-1072 -/
def evalStep (opcode : UInt8) (vchPushValue : valtype) (pc : CScript) (st : EvalState) :
    Except ScriptError EvalState :=
  let fExec := !st.vfExec.contains false
  if vchPushValue.length > MAX_SCRIPT_ELEMENT_SIZE then .error .SCRIPT_ERR_PUSH_SIZE
  else if opcode > OP_16 ∧ st.nOpCount + 1 > MAX_OPS_PER_SCRIPT then .error .SCRIPT_ERR_OP_COUNT
  else
  let st := if opcode > OP_16 then { st with nOpCount := st.nOpCount + 1 } else st
  if isDisabledOpcode opcode then .error .SCRIPT_ERR_DISABLED_OPCODE
  else if opcode = OP_CODESEPARATOR ∧ sigversion = .BASE ∧ flags &&& SCRIPT_VERIFY_CONST_SCRIPTCODE ≠ 0 then
    .error .SCRIPT_ERR_OP_CODESEPARATOR
  else do
  let st ←
    (if fExec ∧ opcode ≤ OP_PUSHDATA4 then
      if fRequireMinimal ∧ !checkMinimalPush vchPushValue opcode then .error .SCRIPT_ERR_MINIMALDATA
      else .ok { st with stack := vchPushValue :: st.stack }
    else if fExec ∨ (OP_IF ≤ opcode ∧ opcode ≤ OP_ENDIF) then
      evalSwitch crypto flags checker sigversion fRequireMinimal fExec opcode pc st (switchCase opcode)
    else .ok st)
  if st.stack.length + st.altstack.length > MAX_STACK_SIZE then .error .SCRIPT_ERR_STACK_SIZE
  else .ok st

-- `h` is read by the termination proof only
set_option linter.unusedVariables false in
/-- The loop `while (pc < pend)` of `EvalScript` from `pc`; a failed
`GetOp` is `SCRIPT_ERR_BAD_OPCODE`.
mirrors src/script/interpreter.cpp:306-1073 -/
def evalLoop (pc : CScript) (st : EvalState) : Except ScriptError EvalState :=
  if pc = [] then .ok st
  else
    match h : getScriptOp pc with
    | .ok (some (opcode, vchPushValue, rest)) => do
      let st ← evalStep crypto flags checker sigversion fRequireMinimal opcode vchPushValue rest st
      evalLoop rest st
    | _ => .error .SCRIPT_ERR_BAD_OPCODE
termination_by pc.length
decreasing_by exact length_lt_of_getScriptOp h

theorem evalLoop_nil (st : EvalState) :
    evalLoop crypto flags checker sigversion fRequireMinimal [] st = .ok st := by
  rw [evalLoop, if_pos rfl]

theorem evalLoop_of_getScriptOp {pc rest : CScript} {opcode : UInt8} {vchPushValue : valtype}
    (hpc : pc ≠ []) (h : getScriptOp pc = .ok (some (opcode, vchPushValue, rest))) (st : EvalState) :
    evalLoop crypto flags checker sigversion fRequireMinimal pc st =
      evalStep crypto flags checker sigversion fRequireMinimal opcode vchPushValue rest st >>=
        evalLoop crypto flags checker sigversion fRequireMinimal rest := by
  rw [evalLoop, if_neg hpc]
  split
  · rename_i heq
    rw [h] at heq
    cases heq
    rfl
  · rename_i hne
    exact absurd h (hne _ _ _)

theorem evalLoop_of_getScriptOp_none {pc : CScript} (hpc : pc ≠ []) (h : getScriptOp pc = .ok none)
    (st : EvalState) :
    evalLoop crypto flags checker sigversion fRequireMinimal pc st = .error .SCRIPT_ERR_BAD_OPCODE := by
  rw [evalLoop, if_neg hpc]
  split
  · rename_i heq
    rw [h] at heq
    cases heq
  · rfl

end Bodies

/-- `BaseSignatureChecker` itself, whose checks all return false.
mirrors src/script/interpreter.h:146-162 -/
def baseSignatureChecker : BaseSignatureChecker :=
  ⟨fun _ _ _ _ => false, fun _ => false, fun _ => false⟩

/-- `EvalScript(stack, script, flags, checker, sigversion)`: the stack after
the script, or the error it stops at.
mirrors src/script/interpreter.cpp:281-1084 -/
def evalScript (crypto : ScriptCrypto) (stack : List valtype) (script : CScript) (flags : UInt32)
    (checker : BaseSignatureChecker) (sigversion : SigVersion) : Except ScriptError (List valtype) :=
  if script.length > MAX_SCRIPT_SIZE then .error .SCRIPT_ERR_SCRIPT_SIZE
  else do
    let fRequireMinimal := decide (flags &&& SCRIPT_VERIFY_MINIMALDATA ≠ 0)
    let st ← evalLoop crypto flags checker sigversion fRequireMinimal script
      { stack, altstack := [], vfExec := [], nOpCount := 0, pbegincodehash := script }
    if !st.vfExec.isEmpty then .error .SCRIPT_ERR_UNBALANCED_CONDITIONAL else .ok st.stack

end Ring.Script
