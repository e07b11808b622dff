import Ring.Script.Interpreter
import Ring.Lib.Greedy

/-!
# What `OP_CHECKMULTISIG` checks

`OP_CHECKMULTISIG` walks its signatures and its keys from the top of the
stack down. Each round checks one signature against one key and moves on to
the next key; it moves on to the next signature only when `CheckSig` accepts
the pair, and it gives up once more signatures than keys are left. That is
the greedy walk `Ring.Lib.greedyMatch` with its early stop
(`multisigLoop_eq_greedyMatch`), so it finds a match whenever there is one.

Results:
* `opCheckMultisig_spec`: when the counts fit and the encodings pass, the
  opcode pushes true exactly when the signatures, in the order the script
  pushes them, are accepted by the keys of a sublist of the keys, in theirs;
  a failure with a non-empty signature is `SCRIPT_ERR_SIG_NULLFAIL` under
  `SCRIPT_VERIFY_NULLFAIL` (`multisigCleanup_spec`).
-/
namespace Ring.Script

open Ring.Lib List

/-- The `n` stack elements from index `i` on (from the top, from 0), read
with `getD` as the loop reads them. -/
def stackWindow (stack : List valtype) : Nat → Nat → List valtype
  | _, 0 => []
  | i, n + 1 => stack.getD i [] :: stackWindow stack (i + 1) n

@[simp] theorem length_stackWindow (stack : List valtype) : ∀ i n, (stackWindow stack i n).length = n
  | _, 0 => rfl
  | i, n + 1 => by rw [stackWindow, List.length_cons, length_stackWindow stack (i + 1) n]

theorem map_range_getD_eq_stackWindow (stack : List valtype) :
    ∀ i n, (List.range n).map (fun k => stack.getD (i + k) []) = stackWindow stack i n
  | _, 0 => rfl
  | i, n + 1 => by
    rw [List.range_succ_eq_map, List.map_cons, List.map_map, stackWindow,
      ← map_range_getD_eq_stackWindow stack (i + 1) n, Nat.add_zero]
    congr 1
    exact List.map_congr_left fun k _ => by
      simp only [Function.comp_apply]
      congr 1
      omega

/-- A window over the middle of a stack reads that middle back. -/
theorem stackWindow_append (pre l rest : List valtype) :
    stackWindow (pre ++ l ++ rest) pre.length l.length = l := by
  induction l generalizing pre with
  | nil => rfl
  | cons x l ih =>
    have hx : (pre ++ x :: l ++ rest).getD pre.length [] = x := by simp
    have hassoc : pre ++ x :: l ++ rest = (pre ++ [x]) ++ l ++ rest := by simp
    have hlen : pre.length + 1 = (pre ++ [x]).length := by simp
    rw [List.length_cons, stackWindow, hx, hassoc, hlen, ih]

section Loop

variable (crypto : ScriptCrypto) (flags : UInt32) (checker : BaseSignatureChecker)
  (sigversion : SigVersion)

/-- The signature loop is the greedy walk over the windows of signatures and
keys, its early stop included, whenever the encodings it checks pass. -/
theorem multisigLoop_eq_greedyMatch (stack : List valtype) (scriptCode : CScript) :
    ∀ nKeys isig ikey nSigs, nSigs ≤ nKeys →
      (∀ sig ∈ stackWindow stack isig nSigs, checkSignatureEncoding crypto sig flags = .ok ()) →
      (∀ key ∈ stackWindow stack ikey nKeys, checkPubKeyEncoding key flags sigversion = .ok ()) →
      multisigLoop crypto flags checker sigversion stack scriptCode nKeys isig ikey nSigs =
        .ok (greedyMatch (fun sig key => checker.checkSig sig key scriptCode sigversion)
          (stackWindow stack isig nSigs) (stackWindow stack ikey nKeys))
  | nKeys, isig, ikey, 0, _, _, _ => by
    rw [multisigLoop, if_pos rfl, stackWindow, greedyMatch_nil_left]
  | 0, _, _, _ + 1, hle, _, _ => absurd hle (by omega)
  | nKeys + 1, isig, ikey, nSigs + 1, hle, hsig, hkey => by
    have hs0 := hsig _ List.mem_cons_self
    have hk0 := hkey _ List.mem_cons_self
    rw [multisigLoop, if_neg (Nat.succ_ne_zero nSigs)]
    simp only [hs0, hk0, Reader.ok_bind]
    rw [stackWindow, stackWindow, greedyMatch_cons_cons]
    by_cases hok : checker.checkSig (stack.getD isig []) (stack.getD ikey []) scriptCode sigversion = true
    -- the pair matches: both windows move on
    · simp only [hok, if_true, Nat.add_sub_cancel]
      by_cases hlt : nSigs > nKeys
      · rw [if_pos hlt, greedyMatch_of_length_lt _ (by simp [length_stackWindow]; omega)]
      · rw [if_neg hlt]
        exact multisigLoop_eq_greedyMatch stack scriptCode nKeys (isig + 1) (ikey + 1) nSigs
          (by omega) (fun sig h => hsig sig (List.mem_cons_of_mem _ h))
          (fun key h => hkey key (List.mem_cons_of_mem _ h))
    -- no match: only the key moves on
    · simp only [hok, Bool.false_eq_true, if_false]
      have hwin : stack.getD isig [] :: stackWindow stack (isig + 1) nSigs = stackWindow stack isig (nSigs + 1) :=
        rfl
      rw [hwin]
      by_cases hlt : nSigs + 1 > nKeys
      · rw [if_pos hlt, greedyMatch_of_length_lt _ (by simp [length_stackWindow]; omega)]
      · rw [if_neg hlt]
        exact multisigLoop_eq_greedyMatch stack scriptCode nKeys isig (ikey + 1) (nSigs + 1)
          (by omega) hsig (fun key h => hkey key (List.mem_cons_of_mem _ h))

/-- The clean-up pops the `pre` elements above the signatures unchecked. -/
theorem multisigCleanup_above (fSuccess : Bool) (n : Nat) (s : List valtype) :
    ∀ pre : List valtype,
      multisigCleanup flags fSuccess (pre.length + n) pre.length (pre ++ s) = multisigCleanup flags fSuccess n 0 s
  | [] => by rw [List.length_nil, Nat.zero_add, List.nil_append]
  | x :: pre => by
    have hpops : (x :: pre).length + n = (pre.length + n) + 1 := by simp only [List.length_cons]; omega
    rw [hpops, multisigCleanup, if_neg (fun h => Nat.succ_ne_zero _ h.2.2.1), List.cons_append, popstack,
      Reader.ok_bind, List.length_cons, Nat.add_sub_cancel, multisigCleanup_above fSuccess n s pre]

/-- Then it pops the signatures, failing on the first non-empty one when the
check failed under `SCRIPT_VERIFY_NULLFAIL`. -/
theorem multisigCleanup_sigs (fSuccess : Bool) (rest : List valtype) :
    ∀ sigs : List valtype, multisigCleanup flags fSuccess sigs.length 0 (sigs ++ rest) =
      if fSuccess = false ∧ flags &&& SCRIPT_VERIFY_NULLFAIL ≠ 0 ∧ ∃ sig ∈ sigs, sig ≠ [] then
        .error .SCRIPT_ERR_SIG_NULLFAIL
      else .ok rest
  | [] => by simp [multisigCleanup]
  | s :: sigs => by
    rw [List.length_cons, multisigCleanup]
    by_cases hnf : fSuccess = false ∧ flags &&& SCRIPT_VERIFY_NULLFAIL ≠ 0
    · by_cases hs : s = []
      · have hcont : ¬((!fSuccess) = true ∧ flags &&& SCRIPT_VERIFY_NULLFAIL ≠ 0 ∧ (0 : Nat) = 0 ∧
            ((s :: sigs ++ rest).getD 0 []).length > 0) := by simp [hs]
        rw [if_neg hcont, List.cons_append, popstack, Reader.ok_bind, multisigCleanup_sigs fSuccess rest sigs]
        simp [hs]
      · have hstop : (!fSuccess) = true ∧ flags &&& SCRIPT_VERIFY_NULLFAIL ≠ 0 ∧ (0 : Nat) = 0 ∧
            ((s :: sigs ++ rest).getD 0 []).length > 0 := by
          simp only [hnf.1, Bool.not_false, ne_eq, hnf.2, not_false_eq_true, List.cons_append,
            List.getD_cons_zero, true_and, gt_iff_lt, List.length_pos_iff]
          exact hs
        rw [if_pos hstop, if_pos ⟨hnf.1, hnf.2, s, List.mem_cons_self, hs⟩]
    · have hcont : ¬((!fSuccess) = true ∧ flags &&& SCRIPT_VERIFY_NULLFAIL ≠ 0 ∧ (0 : Nat) = 0 ∧
          ((s :: sigs ++ rest).getD 0 []).length > 0) :=
        fun h => hnf ⟨by simpa using h.1, h.2.1⟩
      rw [if_neg hcont, List.cons_append, popstack, Reader.ok_bind, multisigCleanup_sigs fSuccess rest sigs,
        if_neg (fun h => hnf ⟨h.1, h.2.1⟩), if_neg (fun h => hnf ⟨h.1, h.2.1⟩)]

theorem multisigCleanup_spec (fSuccess : Bool) (pre sigs rest : List valtype) :
    multisigCleanup flags fSuccess (pre.length + sigs.length) pre.length (pre ++ sigs ++ rest) =
      if fSuccess = false ∧ flags &&& SCRIPT_VERIFY_NULLFAIL ≠ 0 ∧ ∃ sig ∈ sigs, sig ≠ [] then
        .error .SCRIPT_ERR_SIG_NULLFAIL
      else .ok rest := by
  rw [List.append_assoc, multisigCleanup_above, multisigCleanup_sigs]

end Loop

/-- What a multisignature check is for: each signature, in order, is
accepted by its own key, the keys taken in their order. -/
def MultisigAccepts (checker : BaseSignatureChecker) (scriptCode : CScript) (sigversion : SigVersion)
    (sigs keys : List valtype) : Prop :=
  SublistForall₂ (fun sig key => checker.checkSig sig key scriptCode sigversion = true) sigs keys

instance instDecidableMultisigAccepts (checker : BaseSignatureChecker) (scriptCode : CScript)
    (sigversion : SigVersion) (sigs keys : List valtype) :
    Decidable (MultisigAccepts checker scriptCode sigversion sigs keys) :=
  inferInstanceAs (Decidable (SublistForall₂ _ sigs keys))

/-- A key or signature count, serialized, reads back under either rule. -/
theorem evalScriptNum_count (fRequireMinimal : Bool) :
    ∀ n ≤ MAX_PUBKEYS_PER_MULTISIG,
      evalScriptNum (scriptNumSerialize n) fRequireMinimal nDefaultMaxNumSize = .ok n := by
  cases fRequireMinimal <;> decide

theorem getint_of_le {v : Int} (hlo : -2147483648 ≤ v) (hhi : v ≤ 2147483647) : getint v = v := by
  rw [getint, if_neg (by omega), if_neg (by omega)]

section Spec

variable (crypto : ScriptCrypto) (flags : UInt32) (checker : BaseSignatureChecker)
  (sigversion : SigVersion) (fRequireMinimal : Bool)

theorem opCheckMultisig_spec (keys sigs : List valtype) (dummy : valtype) (rest : List valtype)
    (st : EvalState) (scriptCode : CScript)
    (hstack : st.stack = scriptNumSerialize keys.length :: keys.reverse ++
      scriptNumSerialize sigs.length :: sigs.reverse ++ dummy :: rest)
    (hkeys : keys.length ≤ MAX_PUBKEYS_PER_MULTISIG) (hsigs : sigs.length ≤ keys.length)
    (hops : st.nOpCount + keys.length ≤ MAX_OPS_PER_SCRIPT)
    (hcode : sigs.reverse.foldlM (dropSignature flags sigversion) st.pbegincodehash = .ok scriptCode)
    (hsenc : ∀ sig ∈ sigs, checkSignatureEncoding crypto sig flags = .ok ())
    (hkenc : ∀ key ∈ keys, checkPubKeyEncoding key flags sigversion = .ok ())
    (hdummy : flags &&& SCRIPT_VERIFY_NULLDUMMY ≠ 0 → dummy = []) :
    opCheckMultisig crypto flags checker sigversion fRequireMinimal OP_CHECKMULTISIG st =
      if ¬MultisigAccepts checker scriptCode sigversion sigs keys ∧ flags &&& SCRIPT_VERIFY_NULLFAIL ≠ 0 ∧
          ∃ sig ∈ sigs, sig ≠ [] then .error .SCRIPT_ERR_SIG_NULLFAIL
      else .ok { st with
        stack := (if MultisigAccepts checker scriptCode sigversion sigs keys then vchTrue else vchFalse) :: rest,
        nOpCount := st.nOpCount + keys.length } := by
  have hkeys' : keys.length ≤ 20 := hkeys
  have hlen : st.stack.length = keys.length + sigs.length + 3 + rest.length := by
    rw [hstack]; simp; omega
  have hk0 : st.stack.getD 0 [] = scriptNumSerialize keys.length := by rw [hstack]; rfl
  -- the signatures and the keys as the windows the loop reads
  set pre := scriptNumSerialize keys.length :: keys.reverse ++ [scriptNumSerialize sigs.length] with hpre
  have hlayout : st.stack = pre ++ sigs.reverse ++ dummy :: rest := by rw [hstack]; simp [pre]
  have hpreLen : pre.length = keys.length + 2 := by simp [pre]
  have hk1 : st.stack.getD (keys.length + 1) [] = scriptNumSerialize sigs.length := by
    rw [hlayout, List.append_assoc, List.getD_append _ _ _ _ (by omega), hpre, List.cons_append,
      List.getD_cons_succ, List.getD_append_right _ _ _ _ (by simp)]
    simp
  have hkeysWin : stackWindow st.stack 1 keys.length = keys.reverse := by
    have h := stackWindow_append [scriptNumSerialize keys.length] keys.reverse
      (scriptNumSerialize sigs.length :: sigs.reverse ++ dummy :: rest)
    simpa [hstack] using h
  have hsigsWin : stackWindow st.stack (keys.length + 2) sigs.length = sigs.reverse := by
    have h := stackWindow_append pre sigs.reverse (dummy :: rest)
    rwa [hpreLen, List.length_reverse, ← hlayout] at h
  have hfold : foldlM (fun scriptCode k => dropSignature flags sigversion scriptCode
      (st.stack.getD (keys.length + 2 + k) [])) st.pbegincodehash (range sigs.length) = .ok scriptCode := by
    rw [← List.foldlM_map, map_range_getD_eq_stackWindow, hsigsWin, hcode]
  have hloop : multisigLoop crypto flags checker sigversion st.stack scriptCode keys.length (keys.length + 2) 1
      sigs.length = .ok (decide (MultisigAccepts checker scriptCode sigversion sigs keys)) := by
    rw [multisigLoop_eq_greedyMatch crypto flags checker sigversion _ _ _ _ _ _ hsigs
      (by rw [hsigsWin]; simpa using hsenc) (by rw [hkeysWin]; simpa using hkenc), hsigsWin, hkeysWin]
    congr 1
    rw [Bool.eq_iff_iff, greedyMatch_iff, decide_eq_true_iff, MultisigAccepts, sublistForall₂_reverse_iff]
  have hclean : ∀ b : Bool, multisigCleanup flags b (keys.length + sigs.length + 2) (keys.length + 2) st.stack =
      if b = false ∧ flags &&& SCRIPT_VERIFY_NULLFAIL ≠ 0 ∧ ∃ sig ∈ sigs, sig ≠ [] then
        .error .SCRIPT_ERR_SIG_NULLFAIL
      else .ok (dummy :: rest) := by
    intro b
    have h := multisigCleanup_spec flags b pre sigs.reverse (dummy :: rest)
    rw [hpreLen, List.length_reverse, ← hlayout] at h
    rw [show keys.length + sigs.length + 2 = keys.length + 2 + sigs.length by omega, h]
    simp only [List.mem_reverse]
  have hgk : getint (keys.length : Int) = keys.length := getint_of_le (by omega) (by omega)
  have hgs : getint (sigs.length : Int) = sigs.length := getint_of_le (by omega) (by omega)
  have c1 : ¬st.stack.length < 1 := by omega
  have c2 : ¬((keys.length : Int) < 0 ∨ (keys.length : Int) > (MAX_PUBKEYS_PER_MULTISIG : Int)) := by
    simp only [MAX_PUBKEYS_PER_MULTISIG]; omega
  have c3 : ¬st.nOpCount + keys.length > MAX_OPS_PER_SCRIPT := by omega
  have c4 : ¬st.stack.length < keys.length + 2 := by omega
  have c5 : ¬((sigs.length : Int) < 0 ∨ (sigs.length : Int) > (keys.length : Int)) := by omega
  have c6 : ¬st.stack.length < keys.length + sigs.length + 3 := by omega
  unfold opCheckMultisig
  simp only [c1, if_false, hk0, evalScriptNum_count fRequireMinimal _ hkeys, Reader.ok_bind, hgk, c2,
    Int.toNat_natCast, c3, c4, hk1, evalScriptNum_count fRequireMinimal _ (hsigs.trans hkeys), hgs, c5, c6,
    hfold, hloop, hclean]
  have hnd : ¬(flags &&& SCRIPT_VERIFY_NULLDUMMY ≠ 0 ∧ dummy.length > 0) := by
    rintro ⟨h, hl⟩
    rw [hdummy h] at hl
    exact absurd hl (Nat.lt_irrefl 0)
  have hop : ¬OP_CHECKMULTISIG = OP_CHECKMULTISIGVERIFY := by decide
  by_cases hacc : MultisigAccepts checker scriptCode sigversion sigs keys
  · simp only [hacc, decide_true, Bool.true_eq_false, false_and, if_false, not_true_eq_false,
      Reader.ok_bind, hnd, hop, if_true]
  · by_cases hnull : flags &&& SCRIPT_VERIFY_NULLFAIL ≠ 0 ∧ ∃ sig ∈ sigs, sig ≠ []
    · rw [if_pos ⟨decide_eq_false hacc, hnull⟩, Reader.error_bind]
      exact (if_pos ⟨hacc, hnull⟩).symm
    · simp only [hacc, decide_false, true_and, not_false_eq_true, hnull, if_false, Reader.ok_bind, hnd,
        hop, Bool.false_eq_true]

end Spec

/-- Two of three keys, checked by equality, accept `[1] [3]` against `[1] [2] [3]`. -/
theorem opCheckMultisig_spec_twoOfThree :
    opCheckMultisig ⟨id, id, id, id, id, fun _ => true⟩ 0 ⟨fun sig key _ _ => sig == key, fun _ => false, fun _ => false⟩
        .WITNESS_V0 true OP_CHECKMULTISIG
        { stack := [scriptNumSerialize 3, [3], [2], [1], scriptNumSerialize 2, [3], [1], [], [7]],
          altstack := [], vfExec := [], nOpCount := 0, pbegincodehash := [] } =
      .ok { stack := [vchTrue, [7]], altstack := [], vfExec := [], nOpCount := 3, pbegincodehash := [] } := by
  rw [opCheckMultisig_spec _ _ _ _ _ [[1], [2], [3]] [[1], [3]] [] [[7]] _ [] rfl (by decide) (by decide)
    (by decide) rfl (by decide) (by decide) (fun _ => rfl)]
  rfl

end Ring.Script
