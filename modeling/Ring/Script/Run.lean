import Ring.Script.Interpreter
import Ring.Script.Num

/-!
# Running scripts that `operator<<` builds

A script built from items (`buildScript`) is read by `EvalScript`'s loop one
item at a time, so its run is the run of the items' operations one after
another (`evalLoop_buildScript_append`); what the run does to its state is
then a fold of one-step facts.

A data push of the executed branch puts its bytes on the stack
(`evalStep_push`), and `OP_1NEGATE`, `OP_1` .. `OP_16` put their number
(`evalStep_pushValue`). The push `operator<<(vector)` writes is the minimal
one except for a single byte that a number opcode pushes
(`checkMinimalPush_pushOpcodeFor`); `operator<<(int64_t)` picks that opcode,
so its pushes are always minimal.

Results:
* `evalScript_pushData`: a script of data pushes leaves its data on the
  stack, last pushed on top, under every flag set whose minimal-push rule
  the data meets.
* `evalScript_pushData_minimal`: under `SCRIPT_VERIFY_MINIMALDATA` a
  one-element push runs exactly when its element is not such a byte.
* `evalScript_pushInt64`: `CScript() << n` leaves `CScriptNum(n)`'s bytes on
  the stack under every flag set, `SCRIPT_VERIFY_MINIMALDATA` included.
-/
namespace Ring.Script

open Ring.Lib

/-- A single byte that `OP_1` .. `OP_16` or `OP_1NEGATE` pushes: the only
data whose push by `operator<<(vector)` `CheckMinimalPush` refuses. -/
def IsSmallNumberByte (d : valtype) : Prop :=
  ∃ b, d = [b] ∧ ((1 ≤ b ∧ b ≤ 16) ∨ b = 0x81)

instance instDecidableIsSmallNumberByte (d : valtype) : Decidable (IsSmallNumberByte d) :=
  match d with
  | [b] => decidable_of_iff ((1 ≤ b ∧ b ≤ 16) ∨ b = 0x81) (by simp [IsSmallNumberByte])
  | [] => isFalse (by simp [IsSmallNumberByte])
  | _ :: _ :: _ => isFalse (by simp [IsSmallNumberByte])

/-- No opcode up to `OP_16` is disabled. -/
theorem isDisabledOpcode_of_le {opcode : UInt8} (h : opcode ≤ OP_16) : isDisabledOpcode opcode = false := by
  have hle : opcode.toNat ≤ 96 := UInt8.le_iff_toNat_le.mp h
  unfold isDisabledOpcode
  simp only [List.mem_cons, List.not_mem_nil, or_false, decide_eq_false_iff_not]
  rintro (rfl | rfl | rfl | rfl | rfl | rfl | rfl | rfl | rfl | rfl | rfl | rfl | rfl | rfl | rfl) <;>
    exact absurd hle (by decide)

/-- No push opcode `operator<<` writes is above `OP_PUSHDATA4`. -/
theorem pushOpcodeFor_le (n : Nat) : pushOpcodeFor n ≤ OP_PUSHDATA4 := by
  unfold pushOpcodeFor
  split_ifs with h1 h2 h3
  · rw [UInt8.le_iff_toNat_le, UInt8.toNat_ofNat', Nat.mod_eq_of_lt (by omega)]
    show n ≤ 78
    omega
  all_goals decide

/-- The push `operator<<(vector)` writes is the one `CheckMinimalPush` asks
for, unless the data is a single byte that a number opcode pushes. -/
theorem checkMinimalPush_pushOpcodeFor (d : valtype) :
    checkMinimalPush d (pushOpcodeFor d.length) = !decide (IsSmallNumberByte d) := by
  rcases d with _ | ⟨b, _ | ⟨b₂, bs⟩⟩
  · rfl
  · by_cases hsmall : (1 ≤ b ∧ b ≤ 16) ∨ b = 0x81
    · have hd : decide (IsSmallNumberByte [b]) = true := decide_eq_true ⟨b, rfl, hsmall⟩
      rw [hd]
      rcases hsmall with h | h
      · simp [checkMinimalPush, h]
      · subst h
        decide
    · have hd : decide (IsSmallNumberByte [b]) = false :=
        decide_eq_false (by rintro ⟨b', hb', h'⟩; cases hb'; exact hsmall h')
      rw [hd]
      have h1 : ¬(1 ≤ b ∧ b ≤ 16) := fun h => hsmall (.inl h)
      have h81 : ¬b = 0x81 := fun h => hsmall (.inr h)
      simp [checkMinimalPush, pushOpcodeFor, h1, h81]
  · have hd : decide (IsSmallNumberByte (b :: b₂ :: bs)) = false :=
      decide_eq_false (by rintro ⟨_, hb, _⟩; cases hb)
    rw [hd]
    have hlen : (b :: b₂ :: bs).length = bs.length + 2 := rfl
    rw [checkMinimalPush, hlen, if_neg (show ¬bs.length + 2 = 0 by omega),
      if_neg (show ¬(bs.length + 2 = 1 ∧ _) from fun h => absurd h.1 (by omega)),
      if_neg (show ¬(bs.length + 2 = 1 ∧ _) from fun h => absurd h.1 (by omega))]
    by_cases h75 : bs.length + 2 ≤ 75
    · rw [if_pos h75, pushOpcodeFor, if_pos (show bs.length + 2 < 76 by omega), UInt8.toNat_ofNat',
        Nat.mod_eq_of_lt (show bs.length + 2 < 2 ^ 8 by omega)]
      simp
    · rw [if_neg h75]
      by_cases h255 : bs.length + 2 ≤ 255
      · rw [if_pos h255, pushOpcodeFor, if_neg (show ¬bs.length + 2 < 76 by omega),
          if_pos (show bs.length + 2 < 256 by omega)]
        rfl
      · rw [if_neg h255]
        by_cases h65535 : bs.length + 2 ≤ 65535
        · rw [if_pos h65535, pushOpcodeFor, if_neg (show ¬bs.length + 2 < 76 by omega),
            if_neg (show ¬bs.length + 2 < 256 by omega), if_pos (show bs.length + 2 < 65536 by omega)]
          rfl
        · rw [if_neg h65535]
          rfl

section Steps

variable (crypto : ScriptCrypto) (flags : UInt32) (checker : BaseSignatureChecker)
  (sigversion : SigVersion) (fRequireMinimal : Bool)

/-- The operations of `items` run one after another from `st`, each with the
script after it, `rest` included, as the `pc` the loop passes on. -/
def runItems (rest : CScript) : List ScriptItem → EvalState → Except ScriptError EvalState
  | [], st => .ok st
  | it :: its, st =>
    evalStep crypto flags checker sigversion fRequireMinimal it.parsed.1 it.parsed.2 (buildScript its ++ rest) st >>=
      runItems rest its

/-- The loop runs a built script item by item. -/
theorem evalLoop_buildScript_append (rest : CScript) :
    ∀ (items : List ScriptItem), (∀ it ∈ items, it.Pushable) → ∀ st : EvalState,
      evalLoop crypto flags checker sigversion fRequireMinimal (buildScript items ++ rest) st =
        runItems crypto flags checker sigversion fRequireMinimal rest items st >>=
          evalLoop crypto flags checker sigversion fRequireMinimal rest
  | [], _, st => by rw [runItems, Reader.ok_bind]; rfl
  | it :: its, h, st => by
    have hpc : buildScript (it :: its) ++ rest = it.push [] ++ (buildScript its ++ rest) := by
      rw [buildScript_cons, List.append_assoc]
    have hne : it.push [] ++ (buildScript its ++ rest) ≠ [] :=
      List.append_ne_nil_of_left_ne_nil it.push_ne_nil _
    rw [hpc, evalLoop_of_getScriptOp _ _ _ _ _ hne (getScriptOp_item (h it List.mem_cons_self) _), runItems,
      bind_assoc]
    congr 1
    funext st'
    exact evalLoop_buildScript_append rest its (fun it' h' => h it' (List.mem_cons_of_mem _ h')) st'

/-- A data push in an executed branch puts its bytes on the stack. -/
theorem evalStep_push {opcode : UInt8} {vch : valtype} {pc : CScript} {st : EvalState}
    (hop : opcode ≤ OP_PUSHDATA4) (hsize : vch.length ≤ MAX_SCRIPT_ELEMENT_SIZE)
    (hexec : st.vfExec.contains false = false)
    (hmin : fRequireMinimal = true → checkMinimalPush vch opcode = true)
    (hroom : st.stack.length + st.altstack.length < MAX_STACK_SIZE) :
    evalStep crypto flags checker sigversion fRequireMinimal opcode vch pc st =
      .ok { st with stack := vch :: st.stack } := by
  have hop' : opcode.toNat ≤ 78 := UInt8.le_iff_toNat_le.mp hop
  have hsmall : ¬opcode > OP_16 := fun hgt => by
    have h16 : 96 < opcode.toNat := UInt8.lt_iff_toNat_lt.mp hgt
    omega
  have hsep : ¬(opcode = OP_CODESEPARATOR ∧ sigversion = .BASE ∧
      flags &&& SCRIPT_VERIFY_CONST_SCRIPTCODE ≠ 0) := by
    rintro ⟨rfl, -⟩
    exact absurd hop (by decide)
  have hminOk : ¬(fRequireMinimal = true ∧ (!checkMinimalPush vch opcode) = true) := by
    rintro ⟨hf, hc⟩
    simp [hmin hf] at hc
  unfold evalStep
  simp only [hexec, Bool.not_false, if_neg (not_lt.mpr hsize), hsmall, false_and, if_false,
    isDisabledOpcode_of_le (UInt8.le_iff_toNat_le.mpr (show opcode.toNat ≤ 96 by omega)), Bool.false_eq_true, hsep, true_and, hop, if_true,
    hminOk, Reader.ok_bind, List.length_cons]
  rw [if_neg (show ¬st.stack.length + 1 + st.altstack.length > MAX_STACK_SIZE by omega)]

/-- `OP_1NEGATE` and `OP_1` .. `OP_16` in an executed branch push their number. -/
theorem evalStep_pushValue {opcode : UInt8} {pc : CScript} {st : EvalState}
    (hop : opcode = OP_1NEGATE ∨ (OP_1 ≤ opcode ∧ opcode ≤ OP_16))
    (hexec : st.vfExec.contains false = false)
    (hroom : st.stack.length + st.altstack.length < MAX_STACK_SIZE) :
    evalStep crypto flags checker sigversion fRequireMinimal opcode [] pc st =
      .ok { st with stack := scriptNumSerialize ((opcode.toNat : Int) - (OP_1.toNat - 1)) :: st.stack } := by
  have hrange : 79 ≤ opcode.toNat ∧ opcode.toNat ≤ 96 := by
    rcases hop with rfl | ⟨h1, h16⟩
    · decide
    · exact ⟨le_trans (by decide) (UInt8.le_iff_toNat_le.mp h1), UInt8.le_iff_toNat_le.mp h16⟩
  have hsmall : ¬opcode > OP_16 := fun hgt => by
    have h16 : 96 < opcode.toNat := UInt8.lt_iff_toNat_lt.mp hgt
    omega
  have hpush : ¬opcode ≤ OP_PUSHDATA4 := fun hle => by
    have h78 : opcode.toNat ≤ 78 := UInt8.le_iff_toNat_le.mp hle
    omega
  have hsep : ¬(opcode = OP_CODESEPARATOR ∧ sigversion = .BASE ∧
      flags &&& SCRIPT_VERIFY_CONST_SCRIPTCODE ≠ 0) := by
    rintro ⟨rfl, -⟩
    exact absurd hrange.2 (by decide)
  unfold evalStep
  simp only [hexec, Bool.not_false, List.length_nil, hsmall, false_and, if_false,
    isDisabledOpcode_of_le (UInt8.le_iff_toNat_le.mpr (show opcode.toNat ≤ 96 by omega)), Bool.false_eq_true,
    hsep, true_and, hpush, true_or,
    if_true, switchCase, hop, evalSwitch, Reader.ok_bind, List.length_cons]
  rw [if_neg (show ¬0 > MAX_SCRIPT_ELEMENT_SIZE by decide),
    if_neg (show ¬st.stack.length + 1 + st.altstack.length > MAX_STACK_SIZE by omega)]

/-- Pushes of the data `ds` in an executed branch put it on the stack, last
pushed on top, whenever each push meets the minimal rule asked for. -/
theorem runItems_data (rest : CScript) :
    ∀ (ds : List valtype) (st : EvalState), st.vfExec.contains false = false →
      (∀ d ∈ ds, d.length ≤ MAX_SCRIPT_ELEMENT_SIZE) →
      (fRequireMinimal = true → ∀ d ∈ ds, ¬IsSmallNumberByte d) →
      st.stack.length + st.altstack.length + ds.length ≤ MAX_STACK_SIZE →
      runItems crypto flags checker sigversion fRequireMinimal rest (ds.map .data) st =
        .ok { st with stack := ds.reverse ++ st.stack }
  | [], st, _, _, _, _ => by simp [runItems]
  | d :: ds, st, hexec, hsize, hmin, hroom => by
    have hstep : evalStep crypto flags checker sigversion fRequireMinimal (pushOpcodeFor d.length) d
        (buildScript (ds.map .data) ++ rest) st = .ok { st with stack := d :: st.stack } :=
      evalStep_push crypto flags checker sigversion fRequireMinimal (pushOpcodeFor_le d.length)
        (hsize d List.mem_cons_self) hexec
      (fun hf => by
        rw [checkMinimalPush_pushOpcodeFor, Bool.not_eq_true', decide_eq_false_iff_not]
        exact hmin hf d List.mem_cons_self)
      (by simp at hroom; omega)
    rw [List.map_cons, runItems]
    simp only [ScriptItem.parsed]
    rw [hstep, Reader.ok_bind, runItems_data rest ds { st with stack := d :: st.stack } hexec
      (fun d' h => hsize d' (List.mem_cons_of_mem _ h))
      (fun hf d' h => hmin hf d' (List.mem_cons_of_mem _ h)) (by simp at hroom ⊢; omega)]
    simp

/-- A push in an executed branch that `CheckMinimalPush` refuses stops the
run under the minimal rule. -/
theorem evalStep_push_nonminimal {opcode : UInt8} {vch : valtype} {pc : CScript} {st : EvalState}
    (hop : opcode ≤ OP_PUSHDATA4) (hsize : vch.length ≤ MAX_SCRIPT_ELEMENT_SIZE)
    (hexec : st.vfExec.contains false = false) (hreq : fRequireMinimal = true)
    (hnot : checkMinimalPush vch opcode = false) :
    evalStep crypto flags checker sigversion fRequireMinimal opcode vch pc st = .error .SCRIPT_ERR_MINIMALDATA := by
  have hop' : opcode.toNat ≤ 78 := UInt8.le_iff_toNat_le.mp hop
  have hsmall : ¬opcode > OP_16 := fun hgt => by
    have h16 : 96 < opcode.toNat := UInt8.lt_iff_toNat_lt.mp hgt
    omega
  have hsep : ¬(opcode = OP_CODESEPARATOR ∧ sigversion = .BASE ∧
      flags &&& SCRIPT_VERIFY_CONST_SCRIPTCODE ≠ 0) := by
    rintro ⟨rfl, -⟩
    exact absurd hop (by decide)
  unfold evalStep
  simp only [hexec, Bool.not_false, if_neg (not_lt.mpr hsize), hsmall, false_and, if_false,
    isDisabledOpcode_of_le (UInt8.le_iff_toNat_le.mpr (show opcode.toNat ≤ 96 by omega)), Bool.false_eq_true,
    hsep, true_and, hop, if_true, hreq, hnot, Bool.not_false, Reader.error_bind]

end Steps

/-- `EvalScript` on a built script is the run of its items from the initial
state, followed by the check that every `OP_IF` is closed. -/
theorem evalScript_buildScript (crypto : ScriptCrypto) (flags : UInt32) (checker : BaseSignatureChecker)
    (sigversion : SigVersion) {items : List ScriptItem} (hpush : ∀ it ∈ items, it.Pushable)
    {stack : List valtype} (hsize : (buildScript items).length ≤ MAX_SCRIPT_SIZE) :
    evalScript crypto stack (buildScript items) flags checker sigversion =
      runItems crypto flags checker sigversion (decide (flags &&& SCRIPT_VERIFY_MINIMALDATA ≠ 0)) [] items
          { stack, altstack := [], vfExec := [], nOpCount := 0, pbegincodehash := buildScript items } >>=
        fun st => if !st.vfExec.isEmpty then .error .SCRIPT_ERR_UNBALANCED_CONDITIONAL else .ok st.stack := by
  have hloop := evalLoop_buildScript_append crypto flags checker sigversion
    (decide (flags &&& SCRIPT_VERIFY_MINIMALDATA ≠ 0)) [] items hpush
    { stack, altstack := [], vfExec := [], nOpCount := 0, pbegincodehash := buildScript items }
  rw [List.append_nil] at hloop
  rw [evalScript, if_neg (not_lt.mpr hsize)]
  simp only [hloop, bind_assoc, evalLoop_nil, Reader.ok_bind]

theorem length_scriptNumSerialize_le (v : Int) : (scriptNumSerialize v).length ≤ 9 := by
  have hmag := length_magnitudeBytes_le 8 v.natAbs
  unfold scriptNumSerialize
  split_ifs
  · simp
  · dsimp only
    split
    · exact hmag.trans (by decide)
    · split_ifs <;> simp <;> omega

/-- The only numbers whose serialization is a single byte that a number
opcode pushes are the numbers those opcodes push. -/
theorem isSmallNumberByte_serialize {n : Int} (hlo : -2 ^ 63 < n) (hhi : n < 2 ^ 63)
    (h : IsSmallNumberByte (scriptNumSerialize n)) : n = -1 ∨ (1 ≤ n ∧ n ≤ 16) := by
  obtain ⟨b, hb, hrange⟩ := h
  have hlow : b.toNat % 128 ≠ 0 := by
    rcases hrange with ⟨h1, h16⟩ | rfl
    · have h1' : 1 ≤ b.toNat := UInt8.le_iff_toNat_le.mp h1
      have h16' : b.toNat ≤ 16 := UInt8.le_iff_toNat_le.mp h16
      omega
    · decide
  have hread := scriptNumOfVch_serialize n hlo hhi
  rw [hb, show [b] = ([] : List UInt8) ++ [b] from rfl, scriptNumOfVch_of_minimal le_rfl (.inl hlow),
    scriptNumSetVch_append [] b (by simp)] at hread
  simp only [readLE, List.length_nil, pow_zero, mul_one, zero_add, Except.ok.injEq] at hread
  rcases hrange with ⟨h1, h16⟩ | rfl
  · have h1' : 1 ≤ b.toNat := UInt8.le_iff_toNat_le.mp h1
    have h16' : b.toNat ≤ 16 := UInt8.le_iff_toNat_le.mp h16
    rw [if_neg (by omega)] at hread
    omega
  · left
    rw [if_pos (by decide)] at hread
    rw [← hread]
    rfl

theorem length_pushData_le (s b : List UInt8) : (pushData s b).length ≤ s.length + 5 + b.length := by
  unfold pushData
  split_ifs <;> simp <;> omega

theorem pushable_data {d : valtype} (hsize : d.length ≤ MAX_SCRIPT_ELEMENT_SIZE) : (ScriptItem.data d).Pushable := by
  show d.length < 2 ^ 32
  simp only [MAX_SCRIPT_ELEMENT_SIZE] at hsize
  omega

/-- The item `operator<<(int64_t)` appends for `n`: the number opcode of `-1`
and `1` .. `16`, else the push of `CScriptNum(n)`'s bytes, no bytes for `0`
(which is `OP_0`). -/
def int64Item (n : Int) : ScriptItem :=
  if n = -1 ∨ (1 ≤ n ∧ n ≤ 16) then .opcode (UInt8.ofNat (n + (OP_1.toNat - 1)).toNat)
  else .data (scriptNumSerialize n)

theorem pushInt64_eq (s : CScript) (n : Int) : pushInt64 s n = (int64Item n).push s := by
  unfold pushInt64 int64Item
  split_ifs with hsmall h0
  · rfl
  · subst h0
    simp [ScriptItem.push, pushData, scriptNumSerialize, OP_0, OP_PUSHDATA1]
  · rfl

/-- The opcode of a number in `-1`, `1` .. `16`, as `operator<<` computes it. -/
theorem toNat_numberOpcode {n : Int} (hsmall : n = -1 ∨ (1 ≤ n ∧ n ≤ 16)) :
    ((UInt8.ofNat (n + (OP_1.toNat - 1)).toNat).toNat : Int) = n + 80 := by
  have h81 : OP_1.toNat = 81 := rfl
  rw [UInt8.toNat_ofNat', h81, Nat.mod_eq_of_lt (by omega)]
  omega

theorem pushable_int64Item (n : Int) : (int64Item n).Pushable := by
  unfold int64Item
  split_ifs with hsmall
  · exact UInt8.lt_iff_toNat_lt.mpr (show 78 < _ by have := toNat_numberOpcode hsmall; omega)
  · exact pushable_data ((length_scriptNumSerialize_le n).trans (by decide))

theorem length_int64Item_push_le (n : Int) : ((int64Item n).push []).length ≤ 10 := by
  unfold int64Item
  split_ifs
  · simp [ScriptItem.push, pushOpcode]
  · have hlen := length_scriptNumSerialize_le n
    simp only [ScriptItem.push]
    rw [length_pushData_short [] _ (by omega), List.length_nil]
    omega

section Int64

variable (crypto : ScriptCrypto) (flags : UInt32) (checker : BaseSignatureChecker)
  (sigversion : SigVersion) (fRequireMinimal : Bool)

/-- The item of an `int64_t` other than `INT64_MIN`, in an executed branch,
puts `CScriptNum(n)`'s bytes on the stack under either minimal rule. -/
theorem evalStep_int64Item {n : Int} (hlo : -2 ^ 63 < n) (hhi : n < 2 ^ 63) {pc : CScript} {st : EvalState}
    (hexec : st.vfExec.contains false = false) (hroom : st.stack.length + st.altstack.length < MAX_STACK_SIZE) :
    evalStep crypto flags checker sigversion fRequireMinimal (int64Item n).parsed.1 (int64Item n).parsed.2 pc st =
      .ok { st with stack := scriptNumSerialize n :: st.stack } := by
  unfold int64Item
  split_ifs with hsmall
  -- a number opcode
  · have hnat := toNat_numberOpcode hsmall
    have hop : UInt8.ofNat (n + (OP_1.toNat - 1)).toNat = OP_1NEGATE ∨
        (OP_1 ≤ UInt8.ofNat (n + (OP_1.toNat - 1)).toNat ∧ UInt8.ofNat (n + (OP_1.toNat - 1)).toNat ≤ OP_16) := by
      rcases hsmall with rfl | ⟨h1, h16⟩
      · exact .inl (UInt8.toNat_inj.mp (show _ = 79 by omega))
      · exact .inr ⟨UInt8.le_iff_toNat_le.mpr (show 81 ≤ _ by omega),
          UInt8.le_iff_toNat_le.mpr (show _ ≤ 96 by omega)⟩
    have hval : ((UInt8.ofNat (n + (OP_1.toNat - 1)).toNat).toNat : Int) - (OP_1.toNat - 1) = n := by
      rw [hnat, show OP_1.toNat = 81 from rfl]
      omega
    simp only [ScriptItem.parsed]
    rw [evalStep_pushValue crypto flags checker sigversion fRequireMinimal hop hexec hroom, hval]
  -- the number's bytes, pushed as data
  · have hsize : (scriptNumSerialize n).length ≤ MAX_SCRIPT_ELEMENT_SIZE :=
      (length_scriptNumSerialize_le n).trans (by decide)
    simp only [ScriptItem.parsed]
    exact evalStep_push crypto flags checker sigversion fRequireMinimal (pushOpcodeFor_le _) hsize hexec
      (fun _ => by
        rw [checkMinimalPush_pushOpcodeFor, Bool.not_eq_true', decide_eq_false_iff_not]
        exact fun hs => hsmall (isSmallNumberByte_serialize hlo hhi hs))
      hroom

end Int64

section Results

variable (crypto : ScriptCrypto) (flags : UInt32) (checker : BaseSignatureChecker)
  (sigversion : SigVersion)

/-- A script of data pushes written by `operator<<` leaves the data on the
stack, the last pushed on top, under every flag set whose minimal-push rule
the data meets. -/
theorem evalScript_pushData (ds stack : List valtype)
    (hsize : ∀ d ∈ ds, d.length ≤ MAX_SCRIPT_ELEMENT_SIZE)
    (hmin : flags &&& SCRIPT_VERIFY_MINIMALDATA ≠ 0 → ∀ d ∈ ds, ¬IsSmallNumberByte d)
    (hscript : (buildScript (ds.map .data)).length ≤ MAX_SCRIPT_SIZE)
    (hroom : stack.length + ds.length ≤ MAX_STACK_SIZE) :
    evalScript crypto stack (buildScript (ds.map .data)) flags checker sigversion = .ok (ds.reverse ++ stack) := by
  have hpush : ∀ it ∈ ds.map ScriptItem.data, it.Pushable := by
    intro it hit
    obtain ⟨d, hd, rfl⟩ := List.mem_map.mp hit
    exact pushable_data (hsize d hd)
  rw [evalScript_buildScript crypto flags checker sigversion hpush hscript,
    runItems_data crypto flags checker sigversion _ [] ds _ rfl hsize (fun hf => hmin (of_decide_eq_true hf))
      (by simpa using hroom)]
  rfl

/-- Two pushes under the minimal rule. -/
theorem evalScript_pushData_twoPushes :
    evalScript ⟨id, id, id, id, id, fun _ => true⟩ [] (buildScript ([[0x20, 0x30], [0x11]].map .data))
      SCRIPT_VERIFY_MINIMALDATA baseSignatureChecker .BASE = .ok [[0x11], [0x20, 0x30]] :=
  evalScript_pushData _ _ _ _ [[0x20, 0x30], [0x11]] [] (by decide) (fun _ => by decide) (by decide) (by decide)

/-- Under `SCRIPT_VERIFY_MINIMALDATA`, `CScript() << d` runs exactly when `d`
is not a single byte that a number opcode pushes; such a push stops the
script with `SCRIPT_ERR_MINIMALDATA`. -/
theorem evalScript_pushData_minimal (d : valtype) (stack : List valtype)
    (hmin : flags &&& SCRIPT_VERIFY_MINIMALDATA ≠ 0) (hsize : d.length ≤ MAX_SCRIPT_ELEMENT_SIZE)
    (hroom : stack.length < MAX_STACK_SIZE) :
    evalScript crypto stack (pushData [] d) flags checker sigversion =
      if IsSmallNumberByte d then .error .SCRIPT_ERR_MINIMALDATA else .ok (d :: stack) := by
  have hbuild : pushData [] d = buildScript [.data d] := rfl
  have hscript : (buildScript [.data d]).length ≤ MAX_SCRIPT_SIZE := by
    have := length_pushData_le [] d
    rw [← hbuild]
    simp only [MAX_SCRIPT_ELEMENT_SIZE] at hsize
    simp only [MAX_SCRIPT_SIZE, List.length_nil] at this ⊢
    omega
  have hpush : ∀ it ∈ [ScriptItem.data d], it.Pushable := by
    simp only [List.mem_singleton, forall_eq]
    exact pushable_data hsize
  rw [hbuild, evalScript_buildScript crypto flags checker sigversion hpush hscript]
  by_cases hs : IsSmallNumberByte d
  · have hstep : evalStep crypto flags checker sigversion (decide (flags &&& SCRIPT_VERIFY_MINIMALDATA ≠ 0))
        (pushOpcodeFor d.length) d (buildScript [] ++ [])
        { stack, altstack := [], vfExec := [], nOpCount := 0, pbegincodehash := buildScript [.data d] } =
        .error .SCRIPT_ERR_MINIMALDATA :=
      evalStep_push_nonminimal crypto flags checker sigversion _ (pushOpcodeFor_le d.length) hsize rfl
        (decide_eq_true hmin) (by rw [checkMinimalPush_pushOpcodeFor, decide_eq_true hs]; rfl)
    rw [if_pos hs, runItems]
    simp only [ScriptItem.parsed]
    rw [hstep]
    rfl
  · have hrun := runItems_data crypto flags checker sigversion (decide (flags &&& SCRIPT_VERIFY_MINIMALDATA ≠ 0))
      [] [d] { stack, altstack := [], vfExec := [], nOpCount := 0, pbegincodehash := buildScript [.data d] }
      rfl (by simpa using hsize) (fun _ => by simpa using hs) (by simp; omega)
    rw [if_neg hs, List.map_singleton] at *
    rw [hrun]
    rfl

/-- `CScript() << [5]` is refused under the minimal rule: `OP_5` pushes it. -/
theorem evalScript_pushData_minimal_five :
    evalScript ⟨id, id, id, id, id, fun _ => true⟩ [] (pushData [] [5]) SCRIPT_VERIFY_MINIMALDATA
      baseSignatureChecker .BASE = .error .SCRIPT_ERR_MINIMALDATA :=
  (evalScript_pushData_minimal _ _ _ _ [5] [] (by decide) (by decide) (by decide)).trans
    (if_pos ⟨5, rfl, .inl ⟨by decide, by decide⟩⟩)

/-- `CScript() << n` leaves the bytes of `CScriptNum(n)` on the stack under
every flag set: the operator writes `OP_0`, `OP_1NEGATE` or `OP_1` .. `OP_16`
for the numbers they push, so its pushes are always minimal. -/
theorem evalScript_pushInt64 (n : Int) (hlo : -2 ^ 63 < n) (hhi : n < 2 ^ 63) (stack : List valtype)
    (hroom : stack.length < MAX_STACK_SIZE) :
    evalScript crypto stack (pushInt64 [] n) flags checker sigversion = .ok (scriptNumSerialize n :: stack) := by
  have hscript : pushInt64 [] n = buildScript [int64Item n] := pushInt64_eq [] n
  have hpushable : ∀ it ∈ [int64Item n], it.Pushable := by
    simpa using pushable_int64Item n
  have hlen : (buildScript [int64Item n]).length ≤ MAX_SCRIPT_SIZE :=
    (length_int64Item_push_le n).trans (by decide)
  rw [hscript, evalScript_buildScript crypto flags checker sigversion hpushable hlen, runItems,
    evalStep_int64Item crypto flags checker sigversion _ hlo hhi rfl (by simpa using hroom)]
  rfl

/-- `CScript() << -1000` under the minimal rule. -/
theorem evalScript_pushInt64_minus1000 :
    evalScript ⟨id, id, id, id, id, fun _ => true⟩ [] (pushInt64 [] (-1000)) SCRIPT_VERIFY_MINIMALDATA
      baseSignatureChecker .BASE = .ok [[0xe8, 0x83]] :=
  evalScript_pushInt64 _ _ _ _ (-1000) (by decide) (by decide) [] (by decide)

end Results

end Ring.Script
