import Ring.Script.Interpreter
import Ring.Lib.Simulation

/-!
# What `EvalScript` checks of every operation it reads

`EvalScript` reads a script operation by operation, and some of its checks
apply to every operation read, in an executed branch or not: the size of the
data pushed, the disabled opcodes, the count of operations above `OP_16`, the
`OP_CODESEPARATOR` rule of `SCRIPT_VERIFY_CONST_SCRIPTCODE`, and the nesting
of `OP_IF`/`OP_NOTIF`, `OP_ELSE` and `OP_ENDIF` that `vfExec` tracks.

A loop that returns is a run of its steps (`evalLoop_specRun`, a `SpecRun`
of `Ring.Lib`), one step for each operation the reading loop finds in the
script. A step is described once: its guards and its three ways through
(`evalStep_ok`), and the case groups of the `switch` (`evalSwitch_cases`).
Each result below is a one-step fact carried over the run by a rule of
`SpecRun`.

`condStep` is the nesting discipline on its own: the number of open
conditionals, which `OP_IF` and `OP_NOTIF` raise, `OP_ENDIF` lowers, and
which `OP_ELSE` and `OP_ENDIF` need above zero. The length of `vfExec`
follows it step by step (`evalStep_condStep`).

Results:
* `evalScript_balanced`: a script that `EvalScript` accepts reads as a whole,
  and its conditionals nest.
* `evalScript_staticLimits`: every operation of a script that `EvalScript`
  accepts pushes at most `MAX_SCRIPT_ELEMENT_SIZE` bytes, is not disabled and
  keeps the `OP_CODESEPARATOR` rule, and at most `MAX_OPS_PER_SCRIPT` of them
  are above `OP_16`.
-/
namespace Ring.Script

open Ring.Lib

deriving instance DecidableEq for EvalState

/-! ## The nesting of conditionals -/

/-- The number of open conditionals after `opcode`, with `depth` open before
it; `none` where an `OP_ELSE` or `OP_ENDIF` finds none open. -/
def condStep (depth : Nat) (opcode : UInt8) : Option Nat :=
  if opcode = OP_IF ∨ opcode = OP_NOTIF then some (depth + 1)
  else if opcode = OP_ELSE then (if depth = 0 then none else some depth)
  else if opcode = OP_ENDIF then (if depth = 0 then none else some (depth - 1))
  else some depth

/-- `condStep` over `opcodes` in turn. -/
def condDepth (depth : Nat) (opcodes : List UInt8) : Option Nat :=
  opcodes.foldlM condStep depth

theorem condStep_if (depth : Nat) : condStep depth OP_IF = some (depth + 1) := rfl

theorem condStep_notif (depth : Nat) : condStep depth OP_NOTIF = some (depth + 1) := rfl

theorem condStep_else (depth : Nat) : condStep (depth + 1) OP_ELSE = some (depth + 1) := rfl

theorem condStep_endif (depth : Nat) : condStep (depth + 1) OP_ENDIF = some depth := rfl

theorem condStep_of_not_conditional {opcode : UInt8} (hif : opcode ≠ OP_IF) (hnotif : opcode ≠ OP_NOTIF)
    (helse : opcode ≠ OP_ELSE) (hendif : opcode ≠ OP_ENDIF) (depth : Nat) :
    condStep depth opcode = some depth := by
  simp [condStep, hif, hnotif, helse, hendif]

theorem condStep_of_not_between {opcode : UInt8} (h : ¬(OP_IF ≤ opcode ∧ opcode ≤ OP_ENDIF)) (depth : Nat) :
    condStep depth opcode = some depth :=
  condStep_of_not_conditional (by rintro rfl; exact h (by decide)) (by rintro rfl; exact h (by decide))
    (by rintro rfl; exact h (by decide)) (by rintro rfl; exact h (by decide)) depth

/-- An opcode outside the three conditional case groups leaves the depth. -/
theorem condStep_of_switchCase {opcode : UInt8} (hif : switchCase opcode ≠ .ifNotIf)
    (helse : switchCase opcode ≠ .opElse) (hendif : switchCase opcode ≠ .opEndif) (depth : Nat) :
    condStep depth opcode = some depth :=
  condStep_of_not_conditional (by rintro rfl; exact hif rfl) (by rintro rfl; exact hif rfl)
    (by rintro rfl; exact helse rfl) (by rintro rfl; exact hendif rfl) depth

-- `split` on the 38 cases of `switchCase` runs out of time; the table is checked value by value
theorem switchCase_conditional_lt : ∀ n < 256,
    (switchCase (UInt8.ofNat n) = .ifNotIf → UInt8.ofNat n = OP_IF ∨ UInt8.ofNat n = OP_NOTIF) ∧
    (switchCase (UInt8.ofNat n) = .opElse → UInt8.ofNat n = OP_ELSE) ∧
    (switchCase (UInt8.ofNat n) = .opEndif → UInt8.ofNat n = OP_ENDIF) := by
  decide +kernel

/-- The opcodes of the three conditional case groups. -/
theorem switchCase_conditional (opcode : UInt8) :
    (switchCase opcode = .ifNotIf → opcode = OP_IF ∨ opcode = OP_NOTIF) ∧
    (switchCase opcode = .opElse → opcode = OP_ELSE) ∧
    (switchCase opcode = .opEndif → opcode = OP_ENDIF) := by
  have h := switchCase_conditional_lt opcode.toNat (UInt8.toNat_lt opcode)
  rwa [UInt8.ofNat_toNat] at h

/-! ## One step -/

section Step

variable (crypto : ScriptCrypto) (flags : UInt32) (checker : BaseSignatureChecker)
  (sigversion : SigVersion) (fRequireMinimal : Bool)

theorem opCheckMultisig_ok {opcode : UInt8} {st st' : EvalState}
    (h : opCheckMultisig crypto flags checker sigversion fRequireMinimal opcode st = .ok st') :
    ∃ stack n, st.nOpCount ≤ n ∧ n ≤ MAX_OPS_PER_SCRIPT ∧ st' = { st with stack, nOpCount := n } := by
  unfold opCheckMultisig at h
  dsimp only at h
  split at h
  · cases h
  obtain ⟨nk, -, h⟩ := Reader.bind_eq_ok.mp h
  split at h
  · cases h
  split at h
  · cases h
  rename_i hops
  split at h
  · cases h
  obtain ⟨ns, -, h⟩ := Reader.bind_eq_ok.mp h
  split at h
  · cases h
  split at h
  · cases h
  obtain ⟨sc, -, h⟩ := Reader.bind_eq_ok.mp h
  obtain ⟨fs, -, h⟩ := Reader.bind_eq_ok.mp h
  obtain ⟨stk, -, h⟩ := Reader.bind_eq_ok.mp h
  split at h
  · cases h
  split at h
  · cases h
  have hle : st.nOpCount + (getint nk).toNat ≤ MAX_OPS_PER_SCRIPT := Nat.le_of_not_lt hops
  -- `OP_CHECKMULTISIGVERIFY` and `OP_CHECKMULTISIG` end in the same fields
  split at h
  · split at h
    · cases h
      exact ⟨_, _, Nat.le_add_right _ _, hle, rfl⟩
    · cases h
  · cases h
    exact ⟨_, _, Nat.le_add_right _ _, hle, rfl⟩

/-- What each case group of the `switch` can do to the state: most touch the
two stacks only; the conditionals touch `vfExec`, `OP_CODESEPARATOR` the
script code, and the multisig checks the operation count. -/
theorem evalSwitch_cases {fExec : Bool} {opcode : UInt8} {pc : CScript} {st st' : EvalState}
    {c : SwitchCase}
    (h : evalSwitch crypto flags checker sigversion fRequireMinimal fExec opcode pc st c = .ok st') :
    (c ≠ .ifNotIf ∧ c ≠ .opElse ∧ c ≠ .opEndif ∧ ∃ stack altstack, st' = { st with stack, altstack }) ∨
    (c = .ifNotIf ∧ ∃ stack b, st' = { st with stack, vfExec := b :: st.vfExec }) ∨
    (c = .opElse ∧ ∃ b rest, st.vfExec = b :: rest ∧ st' = { st with vfExec := (!b) :: rest }) ∨
    (c = .opEndif ∧ ∃ b rest, st.vfExec = b :: rest ∧ st' = { st with vfExec := rest }) ∨
    (c = .codeSeparator ∧ st' = { st with pbegincodehash := pc }) ∨
    (c = .checkMultisig ∧
      ∃ stack n, st.nOpCount ≤ n ∧ n ≤ MAX_OPS_PER_SCRIPT ∧ st' = { st with stack, nOpCount := n }) := by
  cases c
  case ifNotIf =>
    obtain ⟨⟨b, stack⟩, -, h⟩ := Reader.bind_eq_ok.mp h
    cases h
    exact .inr (.inl ⟨rfl, stack, b, rfl⟩)
  case opElse =>
    simp only [evalSwitch] at h
    split at h
    · cases h
    · cases h
      exact .inr (.inr (.inl ⟨rfl, _, _, ‹_›, rfl⟩))
  case opEndif =>
    simp only [evalSwitch] at h
    split at h
    · cases h
    · cases h
      exact .inr (.inr (.inr (.inl ⟨rfl, _, _, ‹_›, rfl⟩)))
  case codeSeparator =>
    cases h
    exact .inr (.inr (.inr (.inr (.inl ⟨rfl, rfl⟩))))
  case checkMultisig =>
    exact .inr (.inr (.inr (.inr (.inr ⟨rfl, opCheckMultisig_ok crypto flags checker sigversion fRequireMinimal h⟩))))
  -- the other groups: a body that reads the stacks and writes them back
  all_goals
    refine .inl ⟨by decide, by decide, by decide, ?_⟩
    simp only [evalSwitch] at h
    try obtain ⟨_, -, h⟩ := Reader.bind_eq_ok.mp h
    repeat' split at h
    all_goals first
      | (cases h; exact ⟨_, _, rfl⟩)
      | cases h

/-- What one round of the loop checks of its operation, and its three ways
through: a push in an executed branch, the `switch`, or an operation skipped
in an unexecuted branch; `st₁` is the state after the operation count. -/
theorem evalStep_ok {opcode : UInt8} {vch : valtype} {pc : CScript} {st st' : EvalState}
    (h : evalStep crypto flags checker sigversion fRequireMinimal opcode vch pc st = .ok st') :
    vch.length ≤ MAX_SCRIPT_ELEMENT_SIZE ∧ (opcode > OP_16 → st.nOpCount + 1 ≤ MAX_OPS_PER_SCRIPT) ∧
    isDisabledOpcode opcode = false ∧
    ¬(opcode = OP_CODESEPARATOR ∧ sigversion = .BASE ∧ flags &&& SCRIPT_VERIFY_CONST_SCRIPTCODE ≠ 0) ∧
    st'.stack.length + st'.altstack.length ≤ MAX_STACK_SIZE ∧
    ∃ st₁, st₁ = (if opcode > OP_16 then { st with nOpCount := st.nOpCount + 1 } else st) ∧
      (opcode ≤ OP_PUSHDATA4 ∧ st' = { st₁ with stack := vch :: st₁.stack } ∨
       evalSwitch crypto flags checker sigversion fRequireMinimal (!st.vfExec.contains false) opcode pc st₁
         (switchCase opcode) = .ok st' ∨
       st.vfExec.contains false = true ∧ ¬(OP_IF ≤ opcode ∧ opcode ≤ OP_ENDIF) ∧ st' = st₁) := by
  unfold evalStep at h
  split at h
  · cases h
  rename_i hsize
  split at h
  · cases h
  rename_i hops
  dsimp only at h
  generalize (if opcode > OP_16 then { st with nOpCount := st.nOpCount + 1 } else st) = st₁ at h
  split at h
  · cases h
  rename_i hdis
  split at h
  · cases h
  rename_i hsep
  obtain ⟨st₂, h₂, h⟩ := Reader.bind_eq_ok.mp h
  split at h
  · cases h
  rename_i hroom
  cases h
  refine ⟨Nat.le_of_not_lt hsize, fun hgt => Nat.le_of_not_lt fun hlt => hops ⟨hgt, hlt⟩,
    Bool.eq_false_iff.mpr hdis, hsep, Nat.le_of_not_lt hroom, st₁, rfl, ?_⟩
  split at h₂
  · rename_i hpush
    split at h₂
    · cases h₂
    · cases h₂
      exact .inl ⟨hpush.2, rfl⟩
  · split at h₂
    · exact .inr (.inl h₂)
    · rename_i hskip
      cases h₂
      exact .inr (.inr ⟨by simpa using fun h => hskip (.inl h), fun hb => hskip (.inr hb), rfl⟩)

/-- In an executed branch an operation above `OP_PUSHDATA4` runs its case
group of the `switch`, on the state after the operation count. -/
theorem evalStep_switch_of_exec {opcode : UInt8} {vch : valtype} {pc : CScript} {st st' : EvalState}
    (hop : OP_PUSHDATA4 < opcode) (hexec : st.vfExec.contains false = false)
    (h : evalStep crypto flags checker sigversion fRequireMinimal opcode vch pc st = .ok st') :
    evalSwitch crypto flags checker sigversion fRequireMinimal true opcode pc
      (if opcode > OP_16 then { st with nOpCount := st.nOpCount + 1 } else st) (switchCase opcode) = .ok st' := by
  obtain ⟨-, -, -, -, -, st₁, rfl, hbody⟩ := evalStep_ok crypto flags checker sigversion fRequireMinimal h
  rcases hbody with ⟨hpush, -⟩ | hsw | ⟨hskip, -⟩
  · exact absurd (UInt8.lt_of_lt_of_le hop hpush) (UInt8.lt_irrefl _)
  · rwa [hexec, Bool.not_false] at hsw
  · rw [hexec] at hskip
    cases hskip

theorem vfExec_countOp (st : EvalState) (opcode : UInt8) :
    (if opcode > OP_16 then { st with nOpCount := st.nOpCount + 1 } else st).vfExec = st.vfExec := by
  split <;> rfl

theorem nOpCount_countOp (st : EvalState) (opcode : UInt8) :
    (if opcode > OP_16 then { st with nOpCount := st.nOpCount + 1 } else st).nOpCount =
      st.nOpCount + if opcode > OP_16 then 1 else 0 := by
  split <;> rfl

/-- The length of `vfExec` follows `condStep`. -/
theorem evalStep_condStep {opcode : UInt8} {vch : valtype} {pc : CScript} {st st' : EvalState}
    (h : evalStep crypto flags checker sigversion fRequireMinimal opcode vch pc st = .ok st') :
    condStep st.vfExec.length opcode = some st'.vfExec.length := by
  obtain ⟨-, -, -, -, -, st₁, hst₁, hbody⟩ := evalStep_ok crypto flags checker sigversion fRequireMinimal h
  have hv : st₁.vfExec = st.vfExec := hst₁ ▸ vfExec_countOp st opcode
  rcases hbody with ⟨hpush, rfl⟩ | hsw | ⟨-, hskip, rfl⟩
  · rw [← hv]
    exact condStep_of_not_between (fun hb => absurd (UInt8.le_trans hb.1 hpush) (by decide)) _
  · obtain ⟨hif, helse, hendif⟩ := switchCase_conditional opcode
    rcases evalSwitch_cases crypto flags checker sigversion fRequireMinimal hsw with
      ⟨hc1, hc2, hc3, _, _, rfl⟩ | ⟨hc, _, b, rfl⟩ | ⟨hc, b, rest, hvf, rfl⟩ | ⟨hc, b, rest, hvf, rfl⟩ |
      ⟨hc, rfl⟩ | ⟨hc, _, _, -, -, rfl⟩
    · rw [← hv]
      exact condStep_of_switchCase hc1 hc2 hc3 _
    · rw [List.length_cons, hv]
      rcases hif hc with rfl | rfl
      · exact condStep_if _
      · exact condStep_notif _
    · rw [← hv, hvf, helse hc]
      exact condStep_else _
    · rw [← hv, hvf, hendif hc]
      exact condStep_endif _
    all_goals
      rw [← hv]
      exact condStep_of_switchCase (by rw [hc]; decide) (by rw [hc]; decide) (by rw [hc]; decide) _
  · rw [← hv]
    exact condStep_of_not_between hskip _

/-- The case groups of the `switch` never lower the operation count, and only
the multisig checks raise it, to at most `MAX_OPS_PER_SCRIPT`. -/
theorem evalSwitch_nOpCount {fExec : Bool} {opcode : UInt8} {pc : CScript} {st st' : EvalState}
    {c : SwitchCase}
    (h : evalSwitch crypto flags checker sigversion fRequireMinimal fExec opcode pc st c = .ok st') :
    st.nOpCount ≤ st'.nOpCount ∧ (st.nOpCount ≤ MAX_OPS_PER_SCRIPT → st'.nOpCount ≤ MAX_OPS_PER_SCRIPT) := by
  rcases evalSwitch_cases crypto flags checker sigversion fRequireMinimal h with
    ⟨-, -, -, _, _, rfl⟩ | ⟨-, _, _, rfl⟩ | ⟨-, _, _, -, rfl⟩ | ⟨-, _, _, -, rfl⟩ | ⟨-, rfl⟩ |
    ⟨-, _, n, hle, hmax, rfl⟩
  any_goals exact ⟨Nat.le_refl _, id⟩
  exact ⟨hle, fun _ => hmax⟩

/-- Each operation above `OP_16` adds one to the count, which stays within
`MAX_OPS_PER_SCRIPT`. -/
theorem evalStep_nOpCount {opcode : UInt8} {vch : valtype} {pc : CScript} {st st' : EvalState}
    (h : evalStep crypto flags checker sigversion fRequireMinimal opcode vch pc st = .ok st') :
    st.nOpCount + (if opcode > OP_16 then 1 else 0) ≤ st'.nOpCount ∧
      (st.nOpCount ≤ MAX_OPS_PER_SCRIPT → st'.nOpCount ≤ MAX_OPS_PER_SCRIPT) := by
  obtain ⟨-, hops, -, -, -, st₁, hst₁, hbody⟩ := evalStep_ok crypto flags checker sigversion fRequireMinimal h
  have hn : st₁.nOpCount = st.nOpCount + if opcode > OP_16 then 1 else 0 := hst₁ ▸ nOpCount_countOp st opcode
  have hmax : st.nOpCount ≤ MAX_OPS_PER_SCRIPT → st₁.nOpCount ≤ MAX_OPS_PER_SCRIPT := by
    intro hle
    rw [hn]
    split
    · exact hops ‹_›
    · exact hle
  rw [← hn]
  rcases hbody with ⟨-, rfl⟩ | hsw | ⟨-, -, rfl⟩
  · exact ⟨Nat.le_refl _, hmax⟩
  · obtain ⟨hle, hkeep⟩ := evalSwitch_nOpCount crypto flags checker sigversion fRequireMinimal hsw
    exact ⟨hle, hkeep ∘ hmax⟩
  · exact ⟨Nat.le_refl _, hmax⟩

/-! ## Runs -/

/-- One round of the loop, on the operation `op`, with some script after it. -/
def StepOk (st : EvalState) (op : UInt8 × valtype) (st' : EvalState) : Prop :=
  ∃ pc, evalStep crypto flags checker sigversion fRequireMinimal op.1 op.2 pc st = .ok st'

/-- Rounds of fuel beyond a script's length change nothing in the reading loop. -/
theorem getScriptOps_fuel : ∀ (fuel fuel' : Nat) (s : CScript), s.length ≤ fuel → s.length ≤ fuel' →
    getScriptOps fuel s = getScriptOps fuel' s
  | fuel, fuel', [], _, _ => by cases fuel <;> cases fuel' <;> rfl
  | 0, _, _ :: _, h, _ => absurd h (by simp)
  | _, 0, _ :: _, _, h => absurd h (by simp)
  | fuel + 1, fuel' + 1, b :: s, h, h' => by
    obtain ⟨r, hr⟩ := getScriptOp_ok (b :: s)
    rcases r with _ | ⟨opcode, vch, rest⟩
    · simp only [getScriptOps, hr, Reader.ok_bind]
    · have hlt := length_lt_of_getScriptOp hr
      simp only [List.length_cons] at h h' hlt
      simp only [getScriptOps, hr, Reader.ok_bind,
        getScriptOps_fuel fuel fuel' rest (by omega) (by omega)]

theorem getScriptOps_cons {pc rest : CScript} {opcode : UInt8} {vch : valtype}
    {ops : List (UInt8 × List UInt8)} (hpc : pc ≠ []) (h : getScriptOp pc = .ok (some (opcode, vch, rest)))
    (hrest : getScriptOps rest.length rest = .ok (some ops)) :
    getScriptOps pc.length pc = .ok (some ((opcode, vch) :: ops)) := by
  obtain ⟨b, s, rfl⟩ := List.exists_cons_of_ne_nil hpc
  have hlt := length_lt_of_getScriptOp h
  simp only [List.length_cons] at hlt
  simp only [List.length_cons, getScriptOps, h, Reader.ok_bind,
    getScriptOps_fuel s.length rest.length rest (by omega) (Nat.le_refl _), hrest]
  rfl

/-- A loop that returns is a run of its rounds, one for each operation the
reading loop finds in the script. -/
theorem evalLoop_specRun (pc : CScript) (st st' : EvalState)
    (h : evalLoop crypto flags checker sigversion fRequireMinimal pc st = .ok st') :
    ∃ ops, getScriptOps pc.length pc = .ok (some ops) ∧
      SpecRun (StepOk crypto flags checker sigversion fRequireMinimal) st ops st' := by
  by_cases hpc : pc = []
  · subst hpc
    rw [evalLoop_nil] at h
    cases h
    exact ⟨[], rfl, .nil _⟩
  obtain ⟨r, hr⟩ := getScriptOp_ok pc
  rcases r with _ | ⟨opcode, vch, rest⟩
  · rw [evalLoop_of_getScriptOp_none _ _ _ _ _ hpc hr] at h
    cases h
  · rw [evalLoop_of_getScriptOp _ _ _ _ _ hpc hr] at h
    obtain ⟨st₁, h₁, h⟩ := Reader.bind_eq_ok.mp h
    obtain ⟨ops, hops, hrun⟩ := evalLoop_specRun rest st₁ st' h
    exact ⟨(opcode, vch) :: ops, getScriptOps_cons hpc hr hops, .cons ⟨rest, h₁⟩ hrun⟩
termination_by pc.length
decreasing_by exact length_lt_of_getScriptOp hr

end Step

namespace StepOk

variable {crypto : ScriptCrypto} {flags : UInt32} {checker : BaseSignatureChecker}
  {sigversion : SigVersion} {fRequireMinimal : Bool} {st st' : EvalState} {op : UInt8 × valtype}

theorem vfExec_length (h : StepOk crypto flags checker sigversion fRequireMinimal st op st') :
    condStep st.vfExec.length op.1 = some st'.vfExec.length := by
  obtain ⟨_, hs⟩ := h
  exact evalStep_condStep crypto flags checker sigversion fRequireMinimal hs

theorem nOpCount (h : StepOk crypto flags checker sigversion fRequireMinimal st op st') :
    st.nOpCount + (if op.1 > OP_16 then 1 else 0) ≤ st'.nOpCount ∧
      (st.nOpCount ≤ MAX_OPS_PER_SCRIPT → st'.nOpCount ≤ MAX_OPS_PER_SCRIPT) := by
  obtain ⟨_, hs⟩ := h
  exact evalStep_nOpCount crypto flags checker sigversion fRequireMinimal hs

theorem checks (h : StepOk crypto flags checker sigversion fRequireMinimal st op st') :
    op.2.length ≤ MAX_SCRIPT_ELEMENT_SIZE ∧ isDisabledOpcode op.1 = false ∧
      ¬(op.1 = OP_CODESEPARATOR ∧ sigversion = .BASE ∧ flags &&& SCRIPT_VERIFY_CONST_SCRIPTCODE ≠ 0) := by
  obtain ⟨_, hs⟩ := h
  obtain ⟨hsize, -, hdis, hsep, -, -⟩ := evalStep_ok crypto flags checker sigversion fRequireMinimal hs
  exact ⟨hsize, hdis, hsep⟩

end StepOk

/-! ## Scripts that `EvalScript` accepts -/

section Accepted

variable {crypto : ScriptCrypto} {stack : List valtype} {script : CScript} {flags : UInt32}
  {checker : BaseSignatureChecker} {sigversion : SigVersion} {stack' : List valtype}

/-- A script that `EvalScript` accepts is a run of its operations from the
initial state, to a state with no conditional open. -/
theorem evalScript_run (h : evalScript crypto stack script flags checker sigversion = .ok stack') :
    ∃ ops st', getScriptOps script.length script = .ok (some ops) ∧
      SpecRun (StepOk crypto flags checker sigversion (decide (flags &&& SCRIPT_VERIFY_MINIMALDATA ≠ 0)))
        { stack, altstack := [], vfExec := [], nOpCount := 0, pbegincodehash := script } ops st' ∧
      st'.vfExec = [] := by
  unfold evalScript at h
  split at h
  · cases h
  obtain ⟨st', hloop, h⟩ := Reader.bind_eq_ok.mp h
  split at h
  · cases h
  rename_i hempty
  obtain ⟨ops, hops, hrun⟩ := evalLoop_specRun crypto flags checker sigversion _ script _ st' hloop
  exact ⟨ops, st', hops, hrun, by simpa using hempty⟩

/-- `EvalScript` accepts only scripts that read as a whole and whose
conditionals nest: no `OP_ELSE` or `OP_ENDIF` without an open `OP_IF` or
`OP_NOTIF`, and none left open at the end, whatever the stack, flags and
checker. -/
theorem evalScript_balanced (h : evalScript crypto stack script flags checker sigversion = .ok stack') :
    ∃ ops, getScriptOps script.length script = .ok (some ops) ∧ condDepth 0 (ops.map Prod.fst) = some 0 := by
  obtain ⟨ops, st', hops, hrun, hvf⟩ := evalScript_run h
  refine ⟨ops, hops, ?_⟩
  have hdepth := hrun.foldlM_eq (fun depth op => condStep depth op.1) (fun st => st.vfExec.length)
    fun _ _ _ hs => hs.vfExec_length
  rw [condDepth, List.foldlM_map]
  rw [hvf] at hdepth
  exact hdepth

theorem evalScript_balanced_ifElse :
    evalScript ⟨id, id, id, id, id, fun _ => true⟩ [] [OP_1, OP_IF, OP_1, OP_ELSE, OP_0, OP_ENDIF]
        0 baseSignatureChecker .BASE = .ok [[1]] ∧
      ∃ ops, getScriptOps 6 [OP_1, OP_IF, OP_1, OP_ELSE, OP_0, OP_ENDIF] = .ok (some ops) ∧
        condDepth 0 (ops.map Prod.fst) = some 0 :=
  have hrun : evalScript ⟨id, id, id, id, id, fun _ => true⟩ [] [OP_1, OP_IF, OP_1, OP_ELSE, OP_0, OP_ENDIF]
      0 baseSignatureChecker .BASE = .ok [[1]] := by decide +kernel
  ⟨hrun, evalScript_balanced hrun⟩

/-- What `EvalScript` checks of every operation, executed or not: a script
it accepts pushes no element over `MAX_SCRIPT_ELEMENT_SIZE`, has no disabled
opcode, has no `OP_CODESEPARATOR` in a base script under
`SCRIPT_VERIFY_CONST_SCRIPTCODE`, and has at most `MAX_OPS_PER_SCRIPT`
operations above `OP_16`. -/
theorem evalScript_staticLimits (h : evalScript crypto stack script flags checker sigversion = .ok stack') :
    ∃ ops, getScriptOps script.length script = .ok (some ops) ∧
      (∀ op ∈ ops, op.2.length ≤ MAX_SCRIPT_ELEMENT_SIZE ∧ isDisabledOpcode op.1 = false ∧
        ¬(op.1 = OP_CODESEPARATOR ∧ sigversion = .BASE ∧ flags &&& SCRIPT_VERIFY_CONST_SCRIPTCODE ≠ 0)) ∧
      ops.countP (fun op => decide (op.1 > OP_16)) ≤ MAX_OPS_PER_SCRIPT := by
  obtain ⟨ops, st', hops, hrun, -⟩ := evalScript_run h
  refine ⟨ops, hops, hrun.forall_mem _ fun _ _ _ hs => hs.checks, ?_⟩
  have hcount := hrun.add_countP_le EvalState.nOpCount (fun op => decide (op.1 > OP_16))
    fun _ _ _ hs => by simpa using hs.nOpCount.1
  have hmax := hrun.invariant (fun st => st.nOpCount ≤ MAX_OPS_PER_SCRIPT) (fun _ _ _ hs => hs.nOpCount.2)
    (Nat.zero_le _)
  simpa using hcount.trans hmax

theorem evalScript_staticLimits_p2pkhLike :
    evalScript ⟨id, id, id, id, id, fun _ => true⟩ [[5]] [OP_DUP, OP_HASH160, OP_EQUAL]
        0 baseSignatureChecker .BASE = .ok [[1]] ∧
      ∃ ops, getScriptOps 3 [OP_DUP, OP_HASH160, OP_EQUAL] = .ok (some ops) ∧
        (∀ op ∈ ops, op.2.length ≤ MAX_SCRIPT_ELEMENT_SIZE ∧ isDisabledOpcode op.1 = false ∧
          ¬(op.1 = OP_CODESEPARATOR ∧ SigVersion.BASE = .BASE ∧ (0 : UInt32) &&& SCRIPT_VERIFY_CONST_SCRIPTCODE ≠ 0)) ∧
        ops.countP (fun op => decide (op.1 > OP_16)) ≤ MAX_OPS_PER_SCRIPT :=
  have hrun : evalScript ⟨id, id, id, id, id, fun _ => true⟩ [[5]] [OP_DUP, OP_HASH160, OP_EQUAL]
      0 baseSignatureChecker .BASE = .ok [[1]] := by decide +kernel
  ⟨hrun, evalScript_staticLimits hrun⟩

end Accepted

end Ring.Script
