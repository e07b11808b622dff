import Ring.Chain.Serialize
import Ring.Script.Standard

/-!
# Context-free transaction checks (src/consensus/tx_verify.cpp)

`CheckTransaction` checks what a transaction must satisfy on any chain: it
has inputs and outputs, its size without witnesses fits the block weight,
every output value and their running sum stay in the money range, no
outpoint is spent twice, and the coinbase's script is 2 to 100 bytes while no
other transaction spends the null outpoint. `GetLegacySigOpCount` counts the
signature operations of every input and output script, the multisig ones at
their maximum. `CheckBlock` runs both over every transaction of a block.

Results:
* `checkTransaction_ok_iff`: `CheckTransaction` accepts exactly the
  transactions that meet those conditions, stated over the whole transaction.
-/
namespace Ring.Node

open Ring.Lib Ring.Arith Ring.Script Ring.Chain

/-- `MAX_BLOCK_WEIGHT`. -/
def MAX_BLOCK_WEIGHT : Nat := 4000000

/-- `WITNESS_SCALE_FACTOR`. -/
def WITNESS_SCALE_FACTOR : Nat := 4

/-- `MAX_BLOCK_SIGOPS_COST`. -/
def MAX_BLOCK_SIGOPS_COST : Nat := 80000

/-- `COIN`. -/
def COIN : Int := 100000000

/-- `MAX_MONEY`: the largest amount any value may hold.
mirrors src/amount.h:25 -/
def MAX_MONEY : Int := 21000000 * COIN

/-- `MoneyRange`.
mirrors src/amount.h:26 -/
def moneyRange (nValue : Int) : Bool := 0 ≤ nValue && nValue ≤ MAX_MONEY

/-- `::GetSerializeSize(tx, PROTOCOL_VERSION | SERIALIZE_TRANSACTION_NO_WITNESS)`:
the length of the basic format. -/
def txSerializeSize (tx : CTransaction) : Nat := (serializeTransaction false tx).length

/-- The output loop of `CheckTransaction`, from the sum `nValueOut` of the
outputs before. -/
def checkOutputValues : Int → List CTxOut → Except String Unit
  | _, [] => pure ()
  | nValueOut, txout :: vout => do
    if txout.nValue < 0 then throw "bad-txns-vout-negative"
    if txout.nValue > MAX_MONEY then throw "bad-txns-vout-toolarge"
    let nValueOut := nValueOut + txout.nValue
    if !moneyRange nValueOut then throw "bad-txns-txouttotal-toolarge"
    checkOutputValues nValueOut vout

/-- The input loop of `CheckTransaction` that inserts each outpoint into the
set `vInOutPoints`; an insertion that finds the outpoint there fails. -/
def checkDuplicateInputs : List COutPoint → List CTxIn → Except String Unit
  | _, [] => pure ()
  | vInOutPoints, txin :: vin =>
    if txin.prevout ∈ vInOutPoints then throw "bad-txns-inputs-duplicate"
    else checkDuplicateInputs (txin.prevout :: vInOutPoints) vin

/-- The last check of `CheckTransaction`: a coinbase's script is 2 to 100
bytes, and no other transaction spends the null outpoint. -/
def checkCoinbaseOrPrevouts (tx : CTransaction) : Except String Unit :=
  match tx.isCoinBase, tx.vin with
  | true, txin :: _ =>
    if txin.scriptSig.length < 2 || txin.scriptSig.length > 100 then throw "bad-cb-length" else pure ()
  | _, _ => if tx.vin.any (·.prevout.isNull) then throw "bad-txns-prevout-null" else pure ()

/-- `CheckTransaction(tx, state, fCheckDuplicateInputs)`: the reject reason of
the first check that fails.
mirrors src/consensus/tx_verify.cpp:159-206 -/
def checkTransaction (tx : CTransaction) (fCheckDuplicateInputs : Bool) : Except String Unit := do
  if tx.vin.isEmpty then throw "bad-txns-vin-empty"
  if tx.vout.isEmpty then throw "bad-txns-vout-empty"
  if txSerializeSize tx * WITNESS_SCALE_FACTOR > MAX_BLOCK_WEIGHT then throw "bad-txns-oversize"
  checkOutputValues 0 tx.vout
  if fCheckDuplicateInputs then checkDuplicateInputs [] tx.vin
  checkCoinbaseOrPrevouts tx

/-- `GetLegacySigOpCount(tx)`: `GetSigOpCount(false)` over the input scripts,
then the output scripts.
mirrors src/consensus/tx_verify.cpp:107-119 -/
def getLegacySigOpCount (tx : CTransaction) : Nat :=
  (tx.vin.map fun txin => getSigOpCount txin.scriptSig false).sum +
    (tx.vout.map fun txout => getSigOpCount txout.scriptPubKey false).sum

/-! ## What `CheckTransaction` accepts -/

/-- One output in the money range, from a running sum that is not negative:
the loop's step is the test of the new sum. -/
theorem checkOutputValues_cons_of_range {n : Int} (hn : 0 ≤ n) {txout : CTxOut}
    (hv : 0 ≤ txout.nValue ∧ txout.nValue ≤ MAX_MONEY) (vout : List CTxOut) :
    checkOutputValues n (txout :: vout) =
      if n + txout.nValue ≤ MAX_MONEY then checkOutputValues (n + txout.nValue) vout
      else .error "bad-txns-txouttotal-toolarge" := by
  have hneg : ¬ txout.nValue < 0 := by omega
  have hlarge : ¬ txout.nValue > MAX_MONEY := by omega
  by_cases hrange : n + txout.nValue ≤ MAX_MONEY
  · simp [checkOutputValues, moneyRange, hneg, hlarge, hrange, show 0 ≤ n + txout.nValue by omega]
  · simp [checkOutputValues, moneyRange, hneg, hlarge, hrange]

/-- From a running sum in the money range, the output loop passes exactly when
every output is in the money range and so is the sum with all of them: the
partial sums only grow, so the last one bounds them all. -/
theorem checkOutputValues_ok_iff (vout : List CTxOut) : ∀ {nValueOut : Int}, 0 ≤ nValueOut →
    nValueOut ≤ MAX_MONEY → (checkOutputValues nValueOut vout = .ok () ↔
      (∀ txout ∈ vout, 0 ≤ txout.nValue ∧ txout.nValue ≤ MAX_MONEY) ∧
        nValueOut + (vout.map (·.nValue)).sum ≤ MAX_MONEY) := by
  induction vout with
  | nil => intro n _ hmax; simp [checkOutputValues, hmax]
  | cons txout vout ih =>
    intro n h0 hmax
    simp only [List.mem_cons, forall_eq_or_imp, List.map_cons, List.sum_cons]
    by_cases hv : 0 ≤ txout.nValue ∧ txout.nValue ≤ MAX_MONEY
    · rw [checkOutputValues_cons_of_range h0 hv]
      by_cases hrange : n + txout.nValue ≤ MAX_MONEY
      -- the running sum stays in range: the loop goes on from it
      · rw [if_pos hrange, ih (by omega) hrange]
        constructor
        · rintro ⟨hall, hle⟩; exact ⟨⟨hv, hall⟩, by omega⟩
        · rintro ⟨⟨-, hall⟩, hle⟩; exact ⟨hall, by omega⟩
      -- the sum leaves the range here, and the later outputs cannot bring it back
      · rw [if_neg hrange]
        simp only [reduceCtorEq, false_iff, not_and]
        rintro ⟨-, hall⟩
        have := List.sum_nonneg (l := vout.map (·.nValue)) (by simpa using fun txout h => (hall txout h).1)
        omega
    · have hstep : ∃ reason, checkOutputValues n (txout :: vout) = .error reason := by
        by_cases hneg : txout.nValue < 0
        · exact ⟨"bad-txns-vout-negative", by simp [checkOutputValues, hneg]⟩
        · exact ⟨"bad-txns-vout-toolarge", by simp [checkOutputValues, hneg, show txout.nValue > MAX_MONEY by omega]⟩
      obtain ⟨reason, hstep⟩ := hstep
      rw [hstep]
      simp only [reduceCtorEq, false_iff, not_and]
      exact fun h _ => hv h.1

/-- The input loop passes exactly when the outpoints are distinct and none
was in the set before. -/
theorem checkDuplicateInputs_ok_iff (vin : List CTxIn) : ∀ {vInOutPoints : List COutPoint},
    checkDuplicateInputs vInOutPoints vin = .ok () ↔
      (vin.map (·.prevout)).Nodup ∧ ∀ txin ∈ vin, txin.prevout ∉ vInOutPoints := by
  induction vin with
  | nil => intro seen; simp [checkDuplicateInputs]
  | cons txin vin ih =>
    intro seen
    by_cases hmem : txin.prevout ∈ seen
    · simp [checkDuplicateInputs, hmem]
    · rw [checkDuplicateInputs, if_neg hmem, ih]
      simp only [List.map_cons, List.nodup_cons, List.mem_map, List.mem_cons, forall_eq_or_imp, not_or]
      constructor
      · rintro ⟨hnodup, hall⟩
        exact ⟨⟨fun ⟨t, ht, he⟩ => (hall t ht).1 he, hnodup⟩, hmem, fun t ht => (hall t ht).2⟩
      · rintro ⟨⟨hnew, hnodup⟩, -, hall⟩
        exact ⟨hnodup, fun t ht => ⟨fun he => hnew ⟨t, ht, he⟩, hall t ht⟩⟩

theorem vin_of_isCoinBase {tx : CTransaction} (h : tx.isCoinBase = true) : ∃ txin, tx.vin = [txin] := by
  unfold CTransaction.isCoinBase at h
  split at h
  · exact ⟨_, ‹_›⟩
  · cases h

/-- The last check passes exactly when every input's script is of a coinbase's
length, for a coinbase, or every input's outpoint is not null, for any other
transaction. -/
theorem checkCoinbaseOrPrevouts_ok_iff (tx : CTransaction) :
    checkCoinbaseOrPrevouts tx = .ok () ↔
      ∀ txin ∈ tx.vin, if tx.isCoinBase then 2 ≤ txin.scriptSig.length ∧ txin.scriptSig.length ≤ 100
        else txin.prevout.isNull = false := by
  cases hcb : tx.isCoinBase
  · simp [checkCoinbaseOrPrevouts, hcb]
  · obtain ⟨txin, hvin⟩ := vin_of_isCoinBase hcb
    simp only [checkCoinbaseOrPrevouts, hcb, hvin, List.mem_singleton, forall_eq, if_true]
    by_cases hlen : txin.scriptSig.length < 2 ∨ txin.scriptSig.length > 100
    · simp only [Bool.or_eq_true, decide_eq_true_eq, hlen, if_true, Reader.throw_eq_error]
      simp only [reduceCtorEq, false_iff, not_and, not_le]
      omega
    · simp only [Bool.or_eq_true, decide_eq_true_eq, hlen, if_false]
      simp only [Reader.pure_eq_ok, true_iff]
      omega

/-- `CheckTransaction` accepts exactly the transactions with inputs and
outputs, a size without witnesses within the block weight, every output and
their total in the money range, distinct outpoints when asked, and a coinbase
script of 2 to 100 bytes or no null outpoint. -/
theorem checkTransaction_ok_iff (tx : CTransaction) (fCheckDuplicateInputs : Bool) :
    checkTransaction tx fCheckDuplicateInputs = .ok () ↔
      tx.vin ≠ [] ∧ tx.vout ≠ [] ∧ txSerializeSize tx * WITNESS_SCALE_FACTOR ≤ MAX_BLOCK_WEIGHT ∧
      (∀ txout ∈ tx.vout, 0 ≤ txout.nValue ∧ txout.nValue ≤ MAX_MONEY) ∧
      (tx.vout.map (·.nValue)).sum ≤ MAX_MONEY ∧
      (fCheckDuplicateInputs = true → (tx.vin.map (·.prevout)).Nodup) ∧
      ∀ txin ∈ tx.vin, if tx.isCoinBase then 2 ≤ txin.scriptSig.length ∧ txin.scriptSig.length ≤ 100
        else txin.prevout.isNull = false := by
  have hout := checkOutputValues_ok_iff tx.vout (le_refl 0) (by decide)
  have hdup := @checkDuplicateInputs_ok_iff tx.vin []
  simp only [Int.zero_add] at hout
  simp only [List.not_mem_nil, not_false_eq_true, implies_true, and_true] at hdup
  unfold checkTransaction
  -- the three guards before the loops, in order
  by_cases h1 : tx.vin = []
  · simp [h1]
  by_cases h2 : tx.vout = []
  · simp [h1, h2]
  by_cases h3 : txSerializeSize tx * WITNESS_SCALE_FACTOR > MAX_BLOCK_WEIGHT
  · have h3' : ¬ txSerializeSize tx * WITNESS_SCALE_FACTOR ≤ MAX_BLOCK_WEIGHT := by omega
    simp [h1, h2, h3, h3']
  have h3' : txSerializeSize tx * WITNESS_SCALE_FACTOR ≤ MAX_BLOCK_WEIGHT := by omega
  -- then the loops and the last check, each run to its end
  simp only [List.isEmpty_iff, h1, h2, h3, if_false, Reader.bind_unit_eq_ok, hout]
  cases fCheckDuplicateInputs
  · simp [h1, h2, h3', checkCoinbaseOrPrevouts_ok_iff, and_assoc]
  · simp [h1, h2, h3', Reader.bind_unit_eq_ok, hdup, checkCoinbaseOrPrevouts_ok_iff, and_assoc]

end Ring.Node
