import Ring.Script.Verify
import Ring.Lib.Relax

/-!
# Script verification flags are soft forks

Every flag of `VerifyScript` only adds ways to fail: a spend that verifies
under a set of flags `G` verifies under every subset `F` of `G`, as long as
both sets keep the dependencies `VerifyScript` asserts (`FlagsConsistent`).

The argument follows the program in the order of `Ring.Lib.Relaxes`: under
`F` each operation returns what it returns under `G` whenever that returns,
because a flag either guards a check (`Relaxes.guard`, `Relaxes.optional`) or
asks for a minimal number encoding (`scriptNumOfVch_relaxes`). One case per
case group of the `switch` gives `evalSwitch_relaxes`, the loop gives
`evalLoop_relaxes`, and `evalScript_relaxes` and
`verifyWitnessProgram_relaxes` follow. `VerifyScript` itself relaxes stage by
stage while `F` keeps `SCRIPT_VERIFY_WITNESS`; without it `F` has neither the
witness nor the clean-stack stage, and its pay-to-script-hash stage reads
only the stack copy that both runs share (`verifyP2SH_of_noWitness`).

Results:
* `verifyScript_softFork`: a spend that verifies under `G` verifies under
  every subset `F` of `G` that keeps the asserted dependencies. Nothing is
  asked of `G`: a `G` that breaks them fails `VerifyScript`'s assertions.
-/
namespace Ring.Script

open Ring.Lib Ring.Chain

/-- The dependencies `VerifyScript` asserts between its flags:
`SCRIPT_VERIFY_WITNESS` needs `SCRIPT_VERIFY_P2SH`, and
`SCRIPT_VERIFY_CLEANSTACK` needs both. -/
def FlagsConsistent (flags : UInt32) : Prop :=
  (flags &&& SCRIPT_VERIFY_WITNESS ≠ 0 → flags &&& SCRIPT_VERIFY_P2SH ≠ 0) ∧
  (flags &&& SCRIPT_VERIFY_CLEANSTACK ≠ 0 →
    flags &&& SCRIPT_VERIFY_P2SH ≠ 0 ∧ flags &&& SCRIPT_VERIFY_WITNESS ≠ 0)

/-- A flag of a subset is a flag of the set. -/
theorem flag_of_subset {F G X : UInt32} (hsub : F &&& G = F) (hX : F &&& X ≠ 0) : G &&& X ≠ 0 := by
  intro hG
  apply hX
  rw [← hsub, UInt32.and_assoc, hG, UInt32.and_zero]

/-! ## Numbers and encodings -/

/-- Asking for a minimal encoding only adds a failure. -/
theorem scriptNumOfVch_relaxes {fF fG : Bool} (hmin : fF = true → fG = true) (vch : List UInt8)
    (n : Nat) : Relaxes (scriptNumOfVch vch fG n) (scriptNumOfVch vch fF n) := by
  unfold scriptNumOfVch
  exact Relaxes.guard id (Relaxes.guard (fun ⟨hf, hrest⟩ => ⟨hmin hf, hrest⟩) (.refl _))

theorem evalScriptNum_relaxes {fF fG : Bool} (hmin : fF = true → fG = true) (vch : valtype)
    (n : Nat) : Relaxes (evalScriptNum vch fG n) (evalScriptNum vch fF n) := by
  intro v h
  unfold evalScriptNum at h ⊢
  split at h
  · rename_i v' hv'
    rw [scriptNumOfVch_relaxes hmin vch n v' hv']
    exact h
  · cases h

section Flags

variable {F G : UInt32} (hsub : F &&& G = F)

include hsub

theorem checkSignatureEncoding_relaxes (crypto : ScriptCrypto) (vchSig : valtype) :
    Relaxes (checkSignatureEncoding crypto vchSig G) (checkSignatureEncoding crypto vchSig F) := by
  unfold checkSignatureEncoding
  refine Relaxes.ite (fun _ => .refl _) fun _ => ?_
  refine Relaxes.guard (fun ⟨hF, hv⟩ => ⟨flag_of_subset hsub hF, hv⟩) ?_
  exact Relaxes.bind (Relaxes.optional (flag_of_subset hsub) (.refl _)) fun _ =>
    Relaxes.guard (fun ⟨hF, hv⟩ => ⟨flag_of_subset hsub hF, hv⟩) (.refl _)

theorem checkPubKeyEncoding_relaxes (vchPubKey : valtype) (sigversion : SigVersion) :
    Relaxes (checkPubKeyEncoding vchPubKey G sigversion) (checkPubKeyEncoding vchPubKey F sigversion) := by
  unfold checkPubKeyEncoding
  exact Relaxes.guard (fun ⟨hF, hv⟩ => ⟨flag_of_subset hsub hF, hv⟩)
    (Relaxes.guard (fun ⟨hF, hv⟩ => ⟨flag_of_subset hsub hF, hv⟩) (.refl _))

theorem dropSignature_relaxes (sigversion : SigVersion) (scriptCode : CScript) (vchSig : valtype) :
    Relaxes (dropSignature G sigversion scriptCode vchSig) (dropSignature F sigversion scriptCode vchSig) := by
  unfold dropSignature
  exact Relaxes.ite (fun _ => Relaxes.guard (fun ⟨hr, hF⟩ => ⟨hr, flag_of_subset hsub hF⟩) (.refl _))
    fun _ => .refl _

/-! ## The bodies of the `switch` -/

variable {fF fG : Bool} (hmin : fF = true → fG = true)
  (crypto : ScriptCrypto) (checker : BaseSignatureChecker) (sigversion : SigVersion)

omit hsub in
include hmin in
theorem opNumUnary_relaxes (opcode : UInt8) (stack : List valtype) :
    Relaxes (opNumUnary fG opcode stack) (opNumUnary fF opcode stack) := by
  cases stack with
  | nil => exact .refl _
  | cons vch rest => exact Relaxes.bind (evalScriptNum_relaxes hmin _ _) fun _ => .refl _

omit hsub in
include hmin in
theorem opNumBinary_relaxes (opcode : UInt8) (stack : List valtype) :
    Relaxes (opNumBinary fG opcode stack) (opNumBinary fF opcode stack) := by
  match stack with
  | vch2 :: vch1 :: rest =>
    exact Relaxes.bind (evalScriptNum_relaxes hmin _ _) fun _ =>
      Relaxes.bind (evalScriptNum_relaxes hmin _ _) fun _ => .refl _
  | [] => exact .refl _
  | [_] => exact .refl _

omit hsub in
include hmin in
theorem opWithin_relaxes (stack : List valtype) :
    Relaxes (opWithin fG stack) (opWithin fF stack) := by
  match stack with
  | vch3 :: vch2 :: vch1 :: rest =>
    exact Relaxes.bind (evalScriptNum_relaxes hmin _ _) fun _ =>
      Relaxes.bind (evalScriptNum_relaxes hmin _ _) fun _ =>
        Relaxes.bind (evalScriptNum_relaxes hmin _ _) fun _ => .refl _
  | [] => exact .refl _
  | [_] => exact .refl _
  | [_, _] => exact .refl _

omit hsub in
include hmin in
theorem opPickRoll_relaxes (opcode : UInt8) (stack : List valtype) :
    Relaxes (opPickRoll fG opcode stack) (opPickRoll fF opcode stack) := by
  match stack with
  | top :: _ :: _ => exact Relaxes.bind (evalScriptNum_relaxes hmin _ _) fun _ => .refl _
  | [] => exact .refl _
  | [_] => exact .refl _

include hmin in
theorem opCheckLockTimeVerify_relaxes (stack : List valtype) :
    Relaxes (opCheckLockTimeVerify G checker fG stack) (opCheckLockTimeVerify F checker fF stack) := by
  unfold opCheckLockTimeVerify
  by_cases hF : F &&& SCRIPT_VERIFY_CHECKLOCKTIMEVERIFY = 0
  · rw [if_pos hF]
    exact Relaxes.to_ok fun _ _ => rfl
  · rw [if_neg hF, if_neg (flag_of_subset hsub hF)]
    cases stack with
    | nil => exact .refl _
    | cons top _ => exact Relaxes.bind (evalScriptNum_relaxes hmin _ _) fun _ => .refl _

include hmin in
theorem opCheckSequenceVerify_relaxes (stack : List valtype) :
    Relaxes (opCheckSequenceVerify G checker fG stack) (opCheckSequenceVerify F checker fF stack) := by
  unfold opCheckSequenceVerify
  by_cases hF : F &&& SCRIPT_VERIFY_CHECKSEQUENCEVERIFY = 0
  · rw [if_pos hF]
    exact Relaxes.to_ok fun _ _ => rfl
  · rw [if_neg hF, if_neg (flag_of_subset hsub hF)]
    cases stack with
    | nil => exact .refl _
    | cons top _ => exact Relaxes.bind (evalScriptNum_relaxes hmin _ _) fun _ => .refl _

theorem opIf_relaxes (fExec : Bool) (opcode : UInt8) (stack : List valtype) :
    Relaxes (opIf G sigversion fExec opcode stack) (opIf F sigversion fExec opcode stack) := by
  unfold opIf
  refine Relaxes.ite (fun _ => .refl _) fun _ => ?_
  cases stack with
  | nil => exact .refl _
  | cons vch rest =>
    exact Relaxes.guard (fun ⟨hv, hF, hl⟩ => ⟨hv, flag_of_subset hsub hF, hl⟩)
      (Relaxes.guard (fun ⟨hv, hF, hl⟩ => ⟨hv, flag_of_subset hsub hF, hl⟩) (.refl _))

theorem opCheckSig_relaxes (opcode : UInt8) (scriptCode : CScript) (stack : List valtype) :
    Relaxes (opCheckSig crypto G checker sigversion opcode scriptCode stack)
      (opCheckSig crypto F checker sigversion opcode scriptCode stack) := by
  match stack with
  | vchPubKey :: vchSig :: rest =>
    refine Relaxes.bind (dropSignature_relaxes hsub _ _ _) fun scriptCode => ?_
    refine Relaxes.bind (checkSignatureEncoding_relaxes hsub _ _) fun _ =>
      Relaxes.bind (checkPubKeyEncoding_relaxes hsub _ _) fun _ => ?_
    exact Relaxes.guard (fun ⟨hs, hF, hl⟩ => ⟨hs, flag_of_subset hsub hF, hl⟩) (.refl _)
  | [] => exact .refl _
  | [_] => exact .refl _

/-- The signature loop of `OP_CHECKMULTISIG`, by recursion on the keys left. -/
theorem multisigLoop_relaxes (stack : List valtype) (scriptCode : CScript) :
    ∀ nKeysCount isig ikey nSigsCount,
      Relaxes (multisigLoop crypto G checker sigversion stack scriptCode nKeysCount isig ikey nSigsCount)
        (multisigLoop crypto F checker sigversion stack scriptCode nKeysCount isig ikey nSigsCount)
  | nKeysCount, isig, ikey, nSigsCount => by
    rw [multisigLoop, multisigLoop]
    refine Relaxes.ite (fun _ => .refl _) fun _ => ?_
    refine Relaxes.bind (checkSignatureEncoding_relaxes hsub _ _) fun _ =>
      Relaxes.bind (checkPubKeyEncoding_relaxes hsub _ _) fun _ => ?_
    cases nKeysCount with
    | zero => exact .refl _
    | succ n => exact Relaxes.ite (fun _ => .refl _) fun _ => multisigLoop_relaxes stack scriptCode n _ _ _

theorem multisigCleanup_relaxes (fSuccess : Bool) :
    ∀ pops ikey2 stack, Relaxes (multisigCleanup G fSuccess pops ikey2 stack)
      (multisigCleanup F fSuccess pops ikey2 stack)
  | 0, _, _ => .refl _
  | pops + 1, ikey2, stack => by
    rw [multisigCleanup, multisigCleanup]
    exact Relaxes.guard (fun ⟨hs, hF, hk⟩ => ⟨hs, flag_of_subset hsub hF, hk⟩)
      (Relaxes.bind (.refl _) fun stack => multisigCleanup_relaxes fSuccess pops (ikey2 - 1) stack)

include hmin in
theorem opCheckMultisig_relaxes (opcode : UInt8) (st : EvalState) :
    Relaxes (opCheckMultisig crypto G checker sigversion fG opcode st)
      (opCheckMultisig crypto F checker sigversion fF opcode st) := by
  unfold opCheckMultisig
  refine Relaxes.guard id (Relaxes.bind (evalScriptNum_relaxes hmin _ _) fun _ => ?_)
  refine Relaxes.guard id (Relaxes.guard id (Relaxes.guard id
    (Relaxes.bind (evalScriptNum_relaxes hmin _ _) fun _ => ?_)))
  refine Relaxes.guard id (Relaxes.guard id
    (Relaxes.bind (Relaxes.foldlM (fun sc k => dropSignature_relaxes hsub sigversion sc _) _ _)
      fun scriptCode => ?_))
  refine Relaxes.bind (multisigLoop_relaxes hsub crypto checker sigversion _ _ _ _ _ _) fun fSuccess =>
    Relaxes.bind (multisigCleanup_relaxes hsub fSuccess _ _ _) fun stack => ?_
  cases stack with
  | nil => exact .refl _
  | cons dummy rest => exact Relaxes.guard (fun ⟨hF, hl⟩ => ⟨flag_of_subset hsub hF, hl⟩) (.refl _)

include hmin in
/-- Each case group of the `switch` relaxes; the groups that read no flag
run the same body under both sets. -/
theorem evalSwitch_relaxes (fExec : Bool) (opcode : UInt8) (pc : CScript) (st : EvalState)
    (c : SwitchCase) :
    Relaxes (evalSwitch crypto G checker sigversion fG fExec opcode pc st c)
      (evalSwitch crypto F checker sigversion fF fExec opcode pc st c) := by
  cases c
  case checkLockTimeVerify =>
    exact Relaxes.bind (opCheckLockTimeVerify_relaxes hsub hmin checker _) fun _ => .refl _
  case checkSequenceVerify =>
    exact Relaxes.bind (opCheckSequenceVerify_relaxes hsub hmin checker _) fun _ => .refl _
  case upgradableNop => exact Relaxes.guard (flag_of_subset hsub) (.refl _)
  case ifNotIf => exact Relaxes.bind (opIf_relaxes hsub sigversion _ _ _) fun _ => .refl _
  case pickRoll => exact Relaxes.bind (opPickRoll_relaxes hmin _ _) fun _ => .refl _
  case numUnary => exact Relaxes.bind (opNumUnary_relaxes hmin _ _) fun _ => .refl _
  case numBinary => exact Relaxes.bind (opNumBinary_relaxes hmin _ _) fun _ => .refl _
  case within => exact Relaxes.bind (opWithin_relaxes hmin _) fun _ => .refl _
  case checkSig => exact Relaxes.bind (opCheckSig_relaxes hsub crypto checker sigversion _ _ _) fun _ => .refl _
  case checkMultisig => exact opCheckMultisig_relaxes hsub hmin crypto checker sigversion _ _
  all_goals exact .refl _

include hmin in
theorem evalStep_relaxes (opcode : UInt8) (vchPushValue : valtype) (pc : CScript) (st : EvalState) :
    Relaxes (evalStep crypto G checker sigversion fG opcode vchPushValue pc st)
      (evalStep crypto F checker sigversion fF opcode vchPushValue pc st) := by
  unfold evalStep
  refine Relaxes.guard id (Relaxes.guard id (Relaxes.guard id ?_))
  refine Relaxes.guard (fun ⟨ho, hv, hF⟩ => ⟨ho, hv, flag_of_subset hsub hF⟩) ?_
  refine Relaxes.bind ?_ fun _ => .refl _
  refine Relaxes.ite (fun _ => Relaxes.guard (fun ⟨hf, hp⟩ => ⟨hmin hf, hp⟩) (.refl _)) fun _ => ?_
  exact Relaxes.ite (fun _ => evalSwitch_relaxes hsub hmin crypto checker sigversion _ _ _ _ _)
    fun _ => .refl _

include hmin in
/-- The loop relaxes, by recursion on the script left. -/
theorem evalLoop_relaxes (pc : CScript) (st : EvalState) :
    Relaxes (evalLoop crypto G checker sigversion fG pc st) (evalLoop crypto F checker sigversion fF pc st) := by
  by_cases hpc : pc = []
  · subst hpc
    rw [evalLoop_nil, evalLoop_nil]
    exact .refl _
  obtain ⟨r, hr⟩ := getScriptOp_ok pc
  rcases r with _ | ⟨opcode, vchPushValue, rest⟩
  · rw [evalLoop_of_getScriptOp_none _ _ _ _ _ hpc hr, evalLoop_of_getScriptOp_none _ _ _ _ _ hpc hr]
    exact .refl _
  · rw [evalLoop_of_getScriptOp _ _ _ _ _ hpc hr, evalLoop_of_getScriptOp _ _ _ _ _ hpc hr]
    exact Relaxes.bind (evalStep_relaxes hsub hmin crypto checker sigversion _ _ _ _) fun st' =>
      evalLoop_relaxes rest st'
termination_by pc.length
decreasing_by exact length_lt_of_getScriptOp hr

omit hmin in
theorem evalScript_relaxes (stack : List valtype) (script : CScript) :
    Relaxes (evalScript crypto stack script G checker sigversion)
      (evalScript crypto stack script F checker sigversion) := by
  unfold evalScript
  have hmin : decide (F &&& SCRIPT_VERIFY_MINIMALDATA ≠ 0) = true →
      decide (G &&& SCRIPT_VERIFY_MINIMALDATA ≠ 0) = true := by
    simp only [decide_eq_true_eq]
    exact flag_of_subset hsub
  exact Relaxes.guard id (Relaxes.bind (evalLoop_relaxes hsub hmin crypto checker sigversion _ _)
    fun _ => .refl _)

/-! ## Witness programs -/

omit hmin sigversion in
theorem executeWitnessScript_relaxes (stack : List valtype) (scriptPubKey : CScript) :
    Relaxes (executeWitnessScript crypto G checker stack scriptPubKey)
      (executeWitnessScript crypto F checker stack scriptPubKey) := by
  unfold executeWitnessScript
  exact Relaxes.guard id (Relaxes.bind (evalScript_relaxes hsub crypto checker .WITNESS_V0 _ _)
    fun _ => .refl _)

omit hmin sigversion in
theorem verifyWitnessProgram_relaxes (witness : CScriptWitness) (witversion : Nat) (program : List UInt8) :
    Relaxes (verifyWitnessProgram crypto G checker witness witversion program)
      (verifyWitnessProgram crypto F checker witness witversion program) := by
  unfold verifyWitnessProgram
  refine Relaxes.ite (fun _ => Relaxes.ite (fun _ => ?_) fun _ => ?_) fun _ =>
    Relaxes.guard (flag_of_subset hsub) (.refl _)
  · generalize witness.stack.getLast? = last
    cases last with
    | none => exact .refl _
    | some scriptPubKey => exact Relaxes.guard id (executeWitnessScript_relaxes hsub crypto checker _ _)
  · exact Relaxes.ite (fun _ => Relaxes.guard id (executeWitnessScript_relaxes hsub crypto checker _ _))
      fun _ => .refl _

/-! ## The stages of `VerifyScript` -/

omit hmin sigversion in
theorem verifyBareWitness_relaxes (hW : F &&& SCRIPT_VERIFY_WITNESS ≠ 0) (scriptSig scriptPubKey : CScript)
    (witness : CScriptWitness) (stack : List valtype) :
    Relaxes (verifyBareWitness crypto G checker scriptSig scriptPubKey witness stack)
      (verifyBareWitness crypto F checker scriptSig scriptPubKey witness stack) := by
  unfold verifyBareWitness
  rw [if_neg hW, if_neg (flag_of_subset hsub hW)]
  generalize isWitnessProgram scriptPubKey = program
  cases program with
  | none => exact .refl _
  | some program =>
    exact Relaxes.guard id
      (Relaxes.bind (verifyWitnessProgram_relaxes hsub crypto checker _ _ _) fun _ => .refl _)

omit hmin sigversion in
/-- With `SCRIPT_VERIFY_WITNESS` in `F`, both runs take the same
pay-to-script-hash path. -/
theorem verifyP2SH_relaxes (hW : F &&& SCRIPT_VERIFY_WITNESS ≠ 0) (hF : FlagsConsistent F)
    (scriptSig scriptPubKey : CScript) (witness : CScriptWitness) (hadWitness : Bool)
    (stack stackCopy : List valtype) :
    Relaxes (verifyP2SH crypto G checker scriptSig scriptPubKey witness hadWitness stack stackCopy)
      (verifyP2SH crypto F checker scriptSig scriptPubKey witness hadWitness stack stackCopy) := by
  unfold verifyP2SH
  have hPF : F &&& SCRIPT_VERIFY_P2SH ≠ 0 := hF.1 hW
  have hPG := flag_of_subset hsub hPF
  by_cases hp : isPayToScriptHash scriptPubKey = true
  · rw [if_neg (not_not.mpr ⟨hPG, hp⟩), if_neg (not_not.mpr ⟨hPF, hp⟩)]
    refine Relaxes.guard id ?_
    cases stackCopy with
    | nil => exact .refl _
    | cons pubKey2 rest =>
      refine Relaxes.bind (Relaxes.mapError _ _ (evalScript_relaxes hsub crypto checker .BASE _ _))
        fun stack => Relaxes.guard id (Relaxes.guard id ?_)
      rw [if_neg hW, if_neg (flag_of_subset hsub hW)]
      generalize isWitnessProgram pubKey2 = program
      cases program with
      | none => exact .refl _
      | some program =>
        exact Relaxes.guard id (Relaxes.bind
          (Relaxes.mapError _ _ (verifyWitnessProgram_relaxes hsub crypto checker _ _ _)) fun _ => .refl _)
  · rw [if_pos fun h => hp h.2, if_pos fun h => hp h.2]
    exact .refl _

omit hmin sigversion in
/-- Without `SCRIPT_VERIFY_WITNESS` in `F`, its pay-to-script-hash stage
passes whenever `G`'s does: it reads only the copy of the stack, which is
the same in both runs where `F` has `SCRIPT_VERIFY_P2SH`, and stops before
any witness program. -/
theorem verifyP2SH_of_noWitness (hnW : F &&& SCRIPT_VERIFY_WITNESS = 0) {scriptSig scriptPubKey : CScript}
    {witness : CScriptWitness} {hadWitness : Bool} {stack stackCopy : List valtype}
    {r : Bool × List valtype} (hadWitness' : Bool) (stack' stackCopy' : List valtype)
    (hcopy : F &&& SCRIPT_VERIFY_P2SH ≠ 0 → stackCopy' = stackCopy)
    (h : verifyP2SH crypto G checker scriptSig scriptPubKey witness hadWitness stack stackCopy = .ok r) :
    ∃ r', verifyP2SH crypto F checker scriptSig scriptPubKey witness hadWitness' stack' stackCopy' = .ok r' := by
  unfold verifyP2SH at h ⊢
  by_cases hc : F &&& SCRIPT_VERIFY_P2SH ≠ 0 ∧ isPayToScriptHash scriptPubKey = true
  · rw [if_neg (not_not.mpr ⟨flag_of_subset hsub hc.1, hc.2⟩), ite_error_eq_ok] at h
    obtain ⟨hpush, h⟩ := h
    rw [if_neg (not_not.mpr hc), if_neg hpush, hcopy hc.1]
    cases stackCopy with
    | nil => cases h
    | cons pubKey2 rest =>
      obtain ⟨stack1, h1, h⟩ := Reader.bind_eq_ok.mp h
      rw [ite_error_eq_ok, ite_error_eq_ok] at h
      obtain ⟨hne, htrue, -⟩ := h
      refine ⟨(hadWitness', stack1), Reader.bind_eq_ok.mpr ⟨stack1, ?_, ?_⟩⟩
      · exact Relaxes.mapError _ _ (evalScript_relaxes hsub crypto checker .BASE _ _) stack1 h1
      · rw [if_neg hne, if_neg htrue, if_pos hnW]
  · rw [if_pos hc]
    exact ⟨_, rfl⟩

omit crypto checker hmin sigversion in
theorem verifyCleanStack_relaxes (hF : FlagsConsistent F) (stack : List valtype) :
    Relaxes (verifyCleanStack G stack) (verifyCleanStack F stack) := by
  unfold verifyCleanStack
  by_cases hC : F &&& SCRIPT_VERIFY_CLEANSTACK ≠ 0
  · obtain ⟨hP, hW⟩ := hF.2 hC
    rw [if_pos hC, if_neg hP, if_neg hW, if_pos (flag_of_subset hsub hC),
      if_neg (flag_of_subset hsub hP), if_neg (flag_of_subset hsub hW)]
    exact Relaxes.guard id (.refl _)
  · rw [if_neg hC]
    exact Relaxes.to_ok fun _ _ => rfl

omit crypto checker hmin sigversion in
theorem verifyWitnessUsed_relaxes (hF : FlagsConsistent F) (witness : CScriptWitness) (hadWitness : Bool) :
    Relaxes (verifyWitnessUsed G witness hadWitness) (verifyWitnessUsed F witness hadWitness) := by
  unfold verifyWitnessUsed
  by_cases hW : F &&& SCRIPT_VERIFY_WITNESS ≠ 0
  · have hP := hF.1 hW
    rw [if_pos hW, if_neg hP, if_pos (flag_of_subset hsub hW), if_neg (flag_of_subset hsub hP)]
    exact Relaxes.guard id (.refl _)
  · rw [if_neg hW]
    exact Relaxes.to_ok fun _ _ => rfl

end Flags

theorem verifyScript_softFork (crypto : ScriptCrypto) (checker : BaseSignatureChecker)
    (scriptSig scriptPubKey : CScript) (witness : CScriptWitness) (F G : UInt32)
    (hsub : F &&& G = F) (hF : FlagsConsistent F)
    (h : verifyScript crypto G checker scriptSig scriptPubKey witness = .ok ()) :
    verifyScript crypto F checker scriptSig scriptPubKey witness = .ok () := by
  obtain ⟨hpush, stack1, stack2, r1, r2, h1, h2, hne, htrue, hr1, hr2, hclean, hwit⟩ :=
    (verifyScript_eq_ok_iff crypto G checker scriptSig scriptPubKey witness).mp h
  have hpushF : ¬(F &&& SCRIPT_VERIFY_SIGPUSHONLY ≠ 0 ∧ (!isPushOnly scriptSig) = true) :=
    fun ⟨hS, hp⟩ => hpush ⟨flag_of_subset hsub hS, hp⟩
  have h1F := evalScript_relaxes hsub crypto checker .BASE _ _ stack1 h1
  have h2F := evalScript_relaxes hsub crypto checker .BASE _ _ stack2 h2
  rw [verifyScript_eq_ok_iff]
  by_cases hW : F &&& SCRIPT_VERIFY_WITNESS ≠ 0
  · -- both sets have the witness and pay-to-script-hash flags: every stage relaxes
    have hPF : F &&& SCRIPT_VERIFY_P2SH ≠ 0 := hF.1 hW
    rw [if_pos (flag_of_subset hsub hPF)] at hr2
    refine ⟨hpushF, stack1, stack2, r1, r2, h1F, h2F, hne, htrue,
      verifyBareWitness_relaxes hsub crypto checker hW _ _ _ _ r1 hr1, ?_,
      verifyCleanStack_relaxes hsub hF _ () hclean, verifyWitnessUsed_relaxes hsub hF _ _ () hwit⟩
    rw [if_pos hPF]
    exact verifyP2SH_relaxes hsub crypto checker hW hF _ _ _ _ _ _ r2 hr2
  · -- `F` has neither the witness stages nor the clean-stack check
    have hnW : F &&& SCRIPT_VERIFY_WITNESS = 0 := not_not.mp hW
    have hnC : ¬F &&& SCRIPT_VERIFY_CLEANSTACK ≠ 0 := fun hC => hW (hF.2 hC).2
    obtain ⟨r2', hr2'⟩ := verifyP2SH_of_noWitness hsub crypto checker hnW false stack2
      (if F &&& SCRIPT_VERIFY_P2SH ≠ 0 then stack1 else [])
      (fun hP => by rw [if_pos hP, if_pos (flag_of_subset hsub hP)]) hr2
    refine ⟨hpushF, stack1, stack2, (false, stack2), r2', h1F, h2F, hne, htrue, ?_, hr2', ?_, ?_⟩
    · rw [verifyBareWitness, if_pos hnW]
    · rw [verifyCleanStack, if_neg hnC]
    · rw [verifyWitnessUsed, if_neg hW]

/-- `OP_1` spent with an empty `scriptSig` verifies under the witness,
pay-to-script-hash, clean-stack and minimal-data rules, and so under
pay-to-script-hash alone. -/
theorem verifyScript_softFork_opTrue :
    verifyScript ⟨id, id, id, id, id, fun _ => true⟩
        (SCRIPT_VERIFY_P2SH ||| SCRIPT_VERIFY_WITNESS ||| SCRIPT_VERIFY_CLEANSTACK ||| SCRIPT_VERIFY_MINIMALDATA)
        baseSignatureChecker [] [OP_1] ⟨[]⟩ = .ok () ∧
    verifyScript ⟨id, id, id, id, id, fun _ => true⟩ SCRIPT_VERIFY_P2SH baseSignatureChecker [] [OP_1] ⟨[]⟩ =
      .ok () := by
  have hG : verifyScript ⟨id, id, id, id, id, fun _ => true⟩
      (SCRIPT_VERIFY_P2SH ||| SCRIPT_VERIFY_WITNESS ||| SCRIPT_VERIFY_CLEANSTACK ||| SCRIPT_VERIFY_MINIMALDATA)
      baseSignatureChecker [] [OP_1] ⟨[]⟩ = .ok () := by decide +kernel
  exact ⟨hG, verifyScript_softFork _ _ _ _ _ _ _ (by decide) (by unfold FlagsConsistent; decide) hG⟩

end Ring.Script
