import Ring.Lib.Bytes

/-!
# Scripts and the push encoding (`CScript`, src/script/script.h)

A script is its bytes; an `opcodetype` is the byte it is stored as. The
`operator<<` overloads append:

* an opcode: its byte (`pushOpcode`);
* a byte vector: a length prefix, then the bytes (`pushData`); the prefix is
  the length itself below `OP_PUSHDATA1`, else `OP_PUSHDATA1`, `OP_PUSHDATA2`
  or `OP_PUSHDATA4` and the length in 1, 2 or 4 little-endian bytes;
* an `int64_t`: `OP_0`, `OP_1NEGATE`, `OP_1`..`OP_16` for small values, else
  the `CScriptNum` bytes pushed as data (`pushInt64`).

`IsDCTScript` recognises a dwarf creation output: the 25-byte creation script,
`OP_RETURN OP_DWARF`, and the reward script, 52 bytes in all.

Results:
* `pushData_short`: a vector shorter than 76 bytes is one length byte and the
  bytes.
* `isDCTScript_iff`: the shape of an accepted DCT script.
-/
namespace Ring.Script

open Ring.Lib

/-- `CScript`: the script's bytes. -/
abbrev CScript := List UInt8

def OP_0 : UInt8 := 0x00
def OP_FALSE : UInt8 := OP_0
def OP_PUSHDATA1 : UInt8 := 0x4c
def OP_PUSHDATA2 : UInt8 := 0x4d
def OP_PUSHDATA4 : UInt8 := 0x4e
def OP_1NEGATE : UInt8 := 0x4f
def OP_1 : UInt8 := 0x51
def OP_TRUE : UInt8 := OP_1
def OP_16 : UInt8 := 0x60
def OP_RETURN : UInt8 := 0x6a
def OP_DUP : UInt8 := 0x76
def OP_EQUAL : UInt8 := 0x87
def OP_EQUALVERIFY : UInt8 := 0x88
def OP_HASH160 : UInt8 := 0xa9
def OP_CHECKSIG : UInt8 := 0xac
def OP_CHECKMULTISIG : UInt8 := 0xae
/-- Ring-fork: Hive. -/
def OP_DWARF : UInt8 := 0xbe
/-- Ring-fork: Pop. -/
def OP_GAME : UInt8 := 0xbf

/-! The rest of `opcodetype`, as `EvalScript` names it. -/

def OP_NOP : UInt8 := 0x61
def OP_IF : UInt8 := 0x63
def OP_NOTIF : UInt8 := 0x64
def OP_ELSE : UInt8 := 0x67
def OP_ENDIF : UInt8 := 0x68
def OP_VERIFY : UInt8 := 0x69
def OP_TOALTSTACK : UInt8 := 0x6b
def OP_FROMALTSTACK : UInt8 := 0x6c
def OP_2DROP : UInt8 := 0x6d
def OP_2DUP : UInt8 := 0x6e
def OP_3DUP : UInt8 := 0x6f
def OP_2OVER : UInt8 := 0x70
def OP_2ROT : UInt8 := 0x71
def OP_2SWAP : UInt8 := 0x72
def OP_IFDUP : UInt8 := 0x73
def OP_DEPTH : UInt8 := 0x74
def OP_DROP : UInt8 := 0x75
def OP_NIP : UInt8 := 0x77
def OP_OVER : UInt8 := 0x78
def OP_PICK : UInt8 := 0x79
def OP_ROLL : UInt8 := 0x7a
def OP_ROT : UInt8 := 0x7b
def OP_SWAP : UInt8 := 0x7c
def OP_TUCK : UInt8 := 0x7d
def OP_CAT : UInt8 := 0x7e
def OP_SUBSTR : UInt8 := 0x7f
def OP_LEFT : UInt8 := 0x80
def OP_RIGHT : UInt8 := 0x81
def OP_SIZE : UInt8 := 0x82
def OP_INVERT : UInt8 := 0x83
def OP_AND : UInt8 := 0x84
def OP_OR : UInt8 := 0x85
def OP_XOR : UInt8 := 0x86
def OP_1ADD : UInt8 := 0x8b
def OP_1SUB : UInt8 := 0x8c
def OP_2MUL : UInt8 := 0x8d
def OP_2DIV : UInt8 := 0x8e
def OP_NEGATE : UInt8 := 0x8f
def OP_ABS : UInt8 := 0x90
def OP_NOT : UInt8 := 0x91
def OP_0NOTEQUAL : UInt8 := 0x92
def OP_ADD : UInt8 := 0x93
def OP_SUB : UInt8 := 0x94
def OP_MUL : UInt8 := 0x95
def OP_DIV : UInt8 := 0x96
def OP_MOD : UInt8 := 0x97
def OP_LSHIFT : UInt8 := 0x98
def OP_RSHIFT : UInt8 := 0x99
def OP_BOOLAND : UInt8 := 0x9a
def OP_BOOLOR : UInt8 := 0x9b
def OP_NUMEQUAL : UInt8 := 0x9c
def OP_NUMEQUALVERIFY : UInt8 := 0x9d
def OP_NUMNOTEQUAL : UInt8 := 0x9e
def OP_LESSTHAN : UInt8 := 0x9f
def OP_GREATERTHAN : UInt8 := 0xa0
def OP_LESSTHANOREQUAL : UInt8 := 0xa1
def OP_GREATERTHANOREQUAL : UInt8 := 0xa2
def OP_MIN : UInt8 := 0xa3
def OP_MAX : UInt8 := 0xa4
def OP_WITHIN : UInt8 := 0xa5
def OP_RIPEMD160 : UInt8 := 0xa6
def OP_SHA1 : UInt8 := 0xa7
def OP_SHA256 : UInt8 := 0xa8
def OP_HASH256 : UInt8 := 0xaa
def OP_CODESEPARATOR : UInt8 := 0xab
def OP_CHECKSIGVERIFY : UInt8 := 0xad
def OP_CHECKMULTISIGVERIFY : UInt8 := 0xaf
def OP_NOP1 : UInt8 := 0xb0
def OP_CHECKLOCKTIMEVERIFY : UInt8 := 0xb1
def OP_CHECKSEQUENCEVERIFY : UInt8 := 0xb2
def OP_NOP4 : UInt8 := 0xb3
def OP_NOP10 : UInt8 := 0xb9
def OP_INVALIDOPCODE : UInt8 := 0xff

/-- `MAX_SCRIPT_SIZE`: the longest script the interpreter runs. -/
def MAX_SCRIPT_SIZE : Nat := 10000

/-- `MAX_SCRIPT_ELEMENT_SIZE`: the longest element a script may push. -/
def MAX_SCRIPT_ELEMENT_SIZE : Nat := 520

/-- `MAX_OPS_PER_SCRIPT`: the most non-push operations a script may run. -/
def MAX_OPS_PER_SCRIPT : Nat := 201

/-- `MAX_PUBKEYS_PER_MULTISIG`. -/
def MAX_PUBKEYS_PER_MULTISIG : Nat := 20

/-- `MAX_STACK_SIZE`: the most elements the stack and the altstack hold together. -/
def MAX_STACK_SIZE : Nat := 1000

/-- `CScript::IsUnspendable`: a script that starts with `OP_RETURN`, or is longer
than `MAX_SCRIPT_SIZE`, can never be spent.
mirrors src/script/script.h:561-564 -/
def isUnspendable (script : CScript) : Bool :=
  (decide (script.length > 0) && script.headD 0 == OP_RETURN) || decide (script.length > MAX_SCRIPT_SIZE)

/-- `CScript::operator<<(opcodetype)`.
mirrors src/script/script.h:455-461 -/
def pushOpcode (s : CScript) (op : UInt8) : CScript := s ++ [op]

/-- `CScript::operator<<(const std::vector<unsigned char>&)`.
mirrors src/script/script.h:469-493 -/
def pushData (s : CScript) (b : List UInt8) : CScript :=
  let prefix_ : List UInt8 :=
    if b.length < OP_PUSHDATA1.toNat then [UInt8.ofNat b.length]
    else if b.length ≤ 0xff then [OP_PUSHDATA1, UInt8.ofNat b.length]
    else if b.length ≤ 0xffff then OP_PUSHDATA2 :: writeLE 2 b.length
    else OP_PUSHDATA4 :: writeLE 4 b.length
  s ++ prefix_ ++ b

/-- The bytes of `|v|`, least significant first; the loop
`while (absvalue) { push_back(absvalue & 0xff); absvalue >>= 8; }` runs at
most `fuel` times (8 for an `int64_t`). -/
def magnitudeBytes : Nat → Nat → List UInt8
  | 0, _ => []
  | fuel + 1, v => if v = 0 then [] else UInt8.ofNat (v % 256) :: magnitudeBytes fuel (v / 256)

/-- `CScriptNum::serialize`: little-endian magnitude with the sign in the top
bit of the last byte, a byte added when that bit is taken.
mirrors src/script/script.h:331-362 -/
def scriptNumSerialize (value : Int) : List UInt8 :=
  if value = 0 then [] else
  let neg := decide (value < 0)
  let result := magnitudeBytes 8 value.natAbs
  match result.getLast? with
  | none => result
  | some last =>
    if last &&& 0x80 != 0 then result ++ [if neg then 0x80 else 0]
    else if neg then result.dropLast ++ [last ||| 0x80]
    else result

/-- `CScript::push_int64` (`operator<<(int64_t)`).
mirrors src/script/script.h:399-413 -/
def pushInt64 (s : CScript) (n : Int) : CScript :=
  if n = -1 ∨ (1 ≤ n ∧ n ≤ 16) then s ++ [UInt8.ofNat (n + (OP_1.toNat - 1)).toNat]
  else if n = 0 then s ++ [OP_0]
  else pushData s (scriptNumSerialize n)

/-- `CScript::IsDCTScript`: the reward script of a dwarf creation output.
mirrors src/script/script.h:574-595 -/
def isDCTScript (scriptPubKey scriptPubKeyBCF : CScript) : Option CScript :=
  if scriptPubKey.length ≠ 52 then none
  else if scriptPubKey.take 25 ≠ scriptPubKeyBCF then none
  else if scriptPubKey[25]? ≠ some OP_RETURN ∨ scriptPubKey[26]? ≠ some OP_DWARF then none
  else some (scriptPubKey.drop 27)

theorem pushData_short (s b : List UInt8) (h : b.length < 76) :
    pushData s b = s ++ [UInt8.ofNat b.length] ++ b := by
  simp [pushData, OP_PUSHDATA1, h]

theorem length_pushData_short (s b : List UInt8) (h : b.length < 76) :
    (pushData s b).length = s.length + 1 + b.length := by
  simp [pushData_short s b h]
  omega

theorem isDCTScript_iff {spk bcf reward : CScript} :
    isDCTScript spk bcf = some reward ↔
      spk.length = 52 ∧ spk.take 25 = bcf ∧ spk[25]? = some OP_RETURN ∧
        spk[26]? = some OP_DWARF ∧ reward = spk.drop 27 := by
  unfold isDCTScript
  split_ifs with h1 h2 h3
  · simp [h1]
  · simp [h2]
  · simp only [false_iff, not_and]
    intro _ _ h25 h26 _
    rcases h3 with h3 | h3
    · exact h3 h25
    · exact h3 h26
  · simp only [Option.some.injEq, not_or, not_not, ne_eq] at h1 h2 h3 ⊢
    constructor
    · rintro rfl; exact ⟨h1, h2, h3.1, h3.2, rfl⟩
    · rintro ⟨-, -, -, -, rfl⟩; rfl

example : pushInt64 [] 0 = [OP_0] := by decide
example : pushInt64 [] 5 = [0x55] := by decide
example : pushInt64 [] 1000 = [2, 0xe8, 0x03] := by decide
example : pushInt64 [] (-129) = [2, 0x81, 0x80] := by decide

end Ring.Script
