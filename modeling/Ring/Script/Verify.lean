import Ring.Script.Interpreter
import Ring.Chain.Block
import Ring.Lib.Relax

/-!
# Spending an output (`VerifyScript`, src/script/interpreter.cpp)

`VerifyScript` runs the input's `scriptSig`, then the output's
`scriptPubKey` on the stack it leaves, and accepts when the top element is
true. The flags add the later rules:

* `SCRIPT_VERIFY_WITNESS`: a `scriptPubKey` that is a witness program is
  spent by its witness (`VerifyWitnessProgram`), with an empty `scriptSig`;
* `SCRIPT_VERIFY_P2SH`: for a pay-to-script-hash output, the `scriptSig` is
  pushes only, and the script it pushes last runs on the rest of the stack it
  left, itself a witness program when `SCRIPT_VERIFY_WITNESS` is set too;
* `SCRIPT_VERIFY_CLEANSTACK`: one element is left;
* with `SCRIPT_VERIFY_WITNESS`, a witness that no program read is an error.

`VerifyScript` asserts that `SCRIPT_VERIFY_CLEANSTACK` comes with
`SCRIPT_VERIFY_P2SH` and `SCRIPT_VERIFY_WITNESS`, and that
`SCRIPT_VERIFY_WITNESS` comes with `SCRIPT_VERIFY_P2SH`; a failed assertion is
a `VerifyFailure.assertion`. The stages after the two scripts are functions
of their own, in the order `VerifyScript` runs them.
-/
namespace Ring.Script

open Ring.Chain

/-- How `VerifyScript` ends other than by returning true: with the error it
sets, or at a failed `assert`. -/
inductive VerifyFailure where
  | scriptError (serror : ScriptError)
  | assertion (expr : String)
  deriving DecidableEq, Repr

/-- A callee's `ScriptError`, which `VerifyScript` returns as it is. -/
def liftScriptError {α : Type} (x : Except ScriptError α) : Except VerifyFailure α :=
  x.mapError .scriptError

section Verify

variable (crypto : ScriptCrypto) (flags : UInt32) (checker : BaseSignatureChecker)

/-- The end of `VerifyWitnessProgram`, from the witness stack (top first) and
the script it runs: element sizes, the script, and the implicit clean stack.
mirrors src/script/interpreter.cpp:1454-1469 -/
def executeWitnessScript (stack : List valtype) (scriptPubKey : CScript) : Except ScriptError Unit :=
  if stack.any (·.length > MAX_SCRIPT_ELEMENT_SIZE) then .error .SCRIPT_ERR_PUSH_SIZE
  else do
    let stack ← evalScript crypto stack scriptPubKey flags checker .WITNESS_V0
    if stack.length ≠ 1 then .error .SCRIPT_ERR_CLEANSTACK
    else if !castToBool (stack.getD 0 []) then .error .SCRIPT_ERR_EVAL_FALSE
    else .ok ()

/-- The script a version 0 key hash program runs:
`OP_DUP OP_HASH160 <program> OP_EQUALVERIFY OP_CHECKSIG`.
mirrors src/script/interpreter.cpp:1443 -/
def keyHashScript (program : List UInt8) : CScript :=
  pushOpcode (pushOpcode (pushData (pushOpcode (pushOpcode [] OP_DUP) OP_HASH160) program) OP_EQUALVERIFY)
    OP_CHECKSIG

/-- `VerifyWitnessProgram`. The witness stack is stored bottom first, as
it is serialized; the script hash program runs its last element.
mirrors src/script/interpreter.cpp:1419-1470 -/
def verifyWitnessProgram (witness : CScriptWitness) (witversion : Nat) (program : List UInt8) :
    Except ScriptError Unit :=
  if witversion = 0 then
    if program.length = WITNESS_V0_SCRIPTHASH_SIZE then
      match witness.stack.getLast? with
      | none => .error .SCRIPT_ERR_WITNESS_PROGRAM_WITNESS_EMPTY
      | some scriptPubKey =>
        if crypto.sha256 scriptPubKey ≠ program then .error .SCRIPT_ERR_WITNESS_PROGRAM_MISMATCH
        else executeWitnessScript crypto flags checker witness.stack.dropLast.reverse scriptPubKey
    else if program.length = WITNESS_V0_KEYHASH_SIZE then
      if witness.stack.length ≠ 2 then .error .SCRIPT_ERR_WITNESS_PROGRAM_MISMATCH
      else executeWitnessScript crypto flags checker witness.stack.reverse (keyHashScript program)
    else .error .SCRIPT_ERR_WITNESS_PROGRAM_WRONG_LENGTH
  else if flags &&& SCRIPT_VERIFY_DISCOURAGE_UPGRADABLE_WITNESS_PROGRAM ≠ 0 then
    .error .SCRIPT_ERR_DISCOURAGE_UPGRADABLE_WITNESS_PROGRAM
  else .ok ()

/-- `stack.resize(1)`: the bottom element, or one empty element. -/
def resizeOne (stack : List valtype) : List valtype :=
  match stack.getLast? with
  | some bottom => [bottom]
  | none => [[]]

/-- The bare witness program stage of `VerifyScript`: whether a witness
program was run, and the stack after the stage.
mirrors src/script/interpreter.cpp:1500-1517 -/
def verifyBareWitness (scriptSig scriptPubKey : CScript) (witness : CScriptWitness)
    (stack : List valtype) : Except ScriptError (Bool × List valtype) :=
  if flags &&& SCRIPT_VERIFY_WITNESS = 0 then .ok (false, stack)
  else
    match isWitnessProgram scriptPubKey with
    | none => .ok (false, stack)
    | some (witnessversion, witnessprogram) =>
      if scriptSig.length ≠ 0 then .error .SCRIPT_ERR_WITNESS_MALLEATED
      else do
        verifyWitnessProgram crypto flags checker witness witnessversion witnessprogram
        .ok (true, resizeOne stack)

/-- The pay-to-script-hash stage of `VerifyScript`, given `hadWitness`, the
stack and the copy of the stack the `scriptSig` left: the stacks are
swapped, and the script pushed last runs on the rest.
mirrors src/script/interpreter.cpp:1519-1563 -/
def verifyP2SH (scriptSig scriptPubKey : CScript) (witness : CScriptWitness) (hadWitness : Bool)
    (stack stackCopy : List valtype) : Except VerifyFailure (Bool × List valtype) :=
  if ¬(flags &&& SCRIPT_VERIFY_P2SH ≠ 0 ∧ isPayToScriptHash scriptPubKey = true) then
    .ok (hadWitness, stack)
  else if !isPushOnly scriptSig then .error (.scriptError .SCRIPT_ERR_SIG_PUSHONLY)
  else
    match stackCopy with
    | [] => .error (.assertion "!stack.empty()")
    | pubKey2 :: stack => do
      let stack ← liftScriptError (evalScript crypto stack pubKey2 flags checker .BASE)
      if stack = [] then .error (.scriptError .SCRIPT_ERR_EVAL_FALSE)
      else if !castToBool (stack.getD 0 []) then .error (.scriptError .SCRIPT_ERR_EVAL_FALSE)
      else if flags &&& SCRIPT_VERIFY_WITNESS = 0 then .ok (hadWitness, stack)
      else
        match isWitnessProgram pubKey2 with
        | none => .ok (hadWitness, stack)
        | some (witnessversion, witnessprogram) =>
          if scriptSig ≠ pushData [] pubKey2 then .error (.scriptError .SCRIPT_ERR_WITNESS_MALLEATED_P2SH)
          else do
            liftScriptError (verifyWitnessProgram crypto flags checker witness witnessversion witnessprogram)
            .ok (true, resizeOne stack)

/-- The `SCRIPT_VERIFY_CLEANSTACK` stage of `VerifyScript`, with its two
assertions.
mirrors src/script/interpreter.cpp:1565-1576 -/
def verifyCleanStack (stack : List valtype) : Except VerifyFailure Unit :=
  if flags &&& SCRIPT_VERIFY_CLEANSTACK ≠ 0 then
    if flags &&& SCRIPT_VERIFY_P2SH = 0 then .error (.assertion "(flags & SCRIPT_VERIFY_P2SH) != 0")
    else if flags &&& SCRIPT_VERIFY_WITNESS = 0 then
      .error (.assertion "(flags & SCRIPT_VERIFY_WITNESS) != 0")
    else if stack.length ≠ 1 then .error (.scriptError .SCRIPT_ERR_CLEANSTACK)
    else .ok ()
  else .ok ()

/-- The last stage of `VerifyScript`: with `SCRIPT_VERIFY_WITNESS`, a witness
no program read is unexpected.
mirrors src/script/interpreter.cpp:1578-1586 -/
def verifyWitnessUsed (witness : CScriptWitness) (hadWitness : Bool) : Except VerifyFailure Unit :=
  if flags &&& SCRIPT_VERIFY_WITNESS ≠ 0 then
    if flags &&& SCRIPT_VERIFY_P2SH = 0 then .error (.assertion "(flags & SCRIPT_VERIFY_P2SH) != 0")
    else if !hadWitness ∧ !witness.isNull then .error (.scriptError .SCRIPT_ERR_WITNESS_UNEXPECTED)
    else .ok ()
  else .ok ()

/-- `VerifyScript(scriptSig, scriptPubKey, witness, flags, checker)`:
`.ok ()` where it returns true.
mirrors src/script/interpreter.cpp:1472-1589 -/
def verifyScript (scriptSig scriptPubKey : CScript) (witness : CScriptWitness) :
    Except VerifyFailure Unit :=
  if flags &&& SCRIPT_VERIFY_SIGPUSHONLY ≠ 0 ∧ !isPushOnly scriptSig then
    .error (.scriptError .SCRIPT_ERR_SIG_PUSHONLY)
  else do
    let stack ← liftScriptError (evalScript crypto [] scriptSig flags checker .BASE)
    let stackCopy := if flags &&& SCRIPT_VERIFY_P2SH ≠ 0 then stack else []
    let stack ← liftScriptError (evalScript crypto stack scriptPubKey flags checker .BASE)
    if stack = [] then .error (.scriptError .SCRIPT_ERR_EVAL_FALSE)
    else if !castToBool (stack.getD 0 []) then .error (.scriptError .SCRIPT_ERR_EVAL_FALSE)
    else do
      let (hadWitness, stack) ←
        liftScriptError (verifyBareWitness crypto flags checker scriptSig scriptPubKey witness stack)
      let (hadWitness, stack) ←
        verifyP2SH crypto flags checker scriptSig scriptPubKey witness hadWitness stack stackCopy
      verifyCleanStack flags stack
      verifyWitnessUsed flags witness hadWitness

/-- What a verified spend ran through: the two scripts, a true top element,
and each later stage in turn. -/
theorem verifyScript_eq_ok_iff (scriptSig scriptPubKey : CScript) (witness : CScriptWitness) :
    verifyScript crypto flags checker scriptSig scriptPubKey witness = .ok () ↔
      ¬(flags &&& SCRIPT_VERIFY_SIGPUSHONLY ≠ 0 ∧ (!isPushOnly scriptSig) = true) ∧
      ∃ stack1 stack2 r1 r2,
        evalScript crypto [] scriptSig flags checker .BASE = .ok stack1 ∧
        evalScript crypto stack1 scriptPubKey flags checker .BASE = .ok stack2 ∧
        stack2 ≠ [] ∧ ¬(!castToBool (stack2.getD 0 [])) = true ∧
        verifyBareWitness crypto flags checker scriptSig scriptPubKey witness stack2 = .ok r1 ∧
        verifyP2SH crypto flags checker scriptSig scriptPubKey witness r1.1 r1.2
          (if flags &&& SCRIPT_VERIFY_P2SH ≠ 0 then stack1 else []) = .ok r2 ∧
        verifyCleanStack flags r2.2 = .ok () ∧ verifyWitnessUsed flags witness r2.1 = .ok () := by
  unfold verifyScript
  rw [Ring.Lib.ite_error_eq_ok]
  refine and_congr_right fun _ => ?_
  simp only [Ring.Lib.Reader.bind_eq_ok, liftScriptError, Ring.Lib.mapError_eq_ok, Ring.Lib.ite_error_eq_ok]
  constructor
  · rintro ⟨stack1, h1, stack2, h2, hne, htrue, r1, hr1, r2, hr2, ⟨⟩, hclean, hwit⟩
    exact ⟨stack1, stack2, r1, r2, h1, h2, hne, htrue, hr1, hr2, hclean, hwit⟩
  · rintro ⟨stack1, stack2, r1, r2, h1, h2, hne, htrue, hr1, hr2, hclean, hwit⟩
    exact ⟨stack1, h1, stack2, h2, hne, htrue, r1, hr1, r2, hr2, (), hclean, hwit⟩

end Verify

end Ring.Script
