import Ring.Lib.Loop
import Ring.Node.Mempool

/-!
# Choosing the block's transactions (`BlockAssembler::addPackageTxs`)

Block assembly takes transactions from the mempool a package at a time: a
transaction with the ancestors it still needs. Two queues offer the next
package: the mempool's `ancestor_score` index, walked once from the best
(`mi`), and `mapModifiedTx`, the transactions some of whose ancestors are
already in the block, with their package figures less those ancestors'. The
better of the two heads is tried. A package that would take the block to its
weight or signature operation limit (`TestPackage`), or that holds a
transaction that is not final, carries a witness the block may not have, or
(for hive and pop blocks, `fIncludeDCTs` false) is a dwarf creation
transaction (`TestPackageTransactions`), is set aside; otherwise it is
added, sorted by ancestor count, and its descendants' figures are updated
(`UpdatePackagesForAdded`). The loop stops at the first package below the
minimum fee rate, or once it has failed many times when the block is nearly
full.

The order of the `ancestor_score` indexes is a parameter: the mempool's list
`mapTx`, and the comparison `byAncestorFee` (`CompareTxMemPoolEntryByAncestorFee`,
a comparison of fee rates in `double`) for `mapModifiedTx`. Every result here
holds for every such order.

Results:
* `addPackageTxs_valid`: from a fresh block, on a consistent mempool, the loop
  ends without failing, adds each transaction at most once, puts every
  in-mempool parent before its child, keeps the block's weight and signature
  operation cost below their limits, and, with `fIncludeDCTs` false, adds no
  DCT and no descendant of one, so the block passes the proof checks' no-DCT
  rule.
-/
namespace Ring.Node

open Ring.Arith Ring.Chain Ring.Lib Ring.Script

/-- `LOCKTIME_THRESHOLD`: below it `nLockTime` is a height, from it a time. -/
def LOCKTIME_THRESHOLD : Int := 500000000

/-- `CTxIn::SEQUENCE_FINAL`. -/
def SEQUENCE_FINAL : UInt32 := 0xffffffff

/-- `IsFinalTx(tx, nBlockHeight, nBlockTime)`.
mirrors src/consensus/tx_verify.cpp:17-28 -/
def isFinalTx (tx : CTransaction) (nBlockHeight nBlockTime : Int) : Bool :=
  if tx.nLockTime = 0 then true
  else if (tx.nLockTime.toNat : Int) <
      (if (tx.nLockTime.toNat : Int) < LOCKTIME_THRESHOLD then nBlockHeight else nBlockTime) then true
  else tx.vin.all fun txin => txin.nSequence == SEQUENCE_FINAL

/-- `CTxMemPoolModifiedEntry`: an entry with some ancestors in the block, and
its package figures less theirs.
mirrors src/miner.h:50-69 -/
structure CTxMemPoolModifiedEntry (T : Type) where
  iter : T
  nSizeWithAncestors : Nat
  nModFeesWithAncestors : Int
  nSigOpCostWithAncestors : Nat
  deriving DecidableEq

/-- `CTxMemPoolModifiedEntry(entry)`: the entry's cached package figures. -/
def CTxMemPool.modifiedEntry {T : Type} (M : CTxMemPool T) (x : T) : CTxMemPoolModifiedEntry T :=
  ⟨x, (M.entry x).nSizeWithAncestors, (M.entry x).nModFeesWithAncestors, (M.entry x).nSigOpCostWithAncestors⟩

/-- What `CreateNewBlock` fixes before it calls `addPackageTxs`. -/
structure AssemblerOptions where
  /-- clamped by the constructor to `[4000, MAX_BLOCK_WEIGHT - 4000]` -/
  nBlockMaxWeight : Nat
  /-- `blockMinFeeRate`, in satoshis per 1000 virtual bytes -/
  blockMinFeeRate : Int
  fIncludeWitness : Bool
  /-- false for hive and pop templates -/
  fIncludeDCTs : Bool
  nHeight : Int
  nLockTimeCutoff : Int
  /-- `GetScriptForDestination(DecodeDestination(dwarfCreationAddress))` -/
  scriptPubKeyBCF : CScript

/-- The block assembler during `addPackageTxs`: the transactions added so
far (`pblock->vtx` after the coinbase, in order; `inBlock` is its set), the
block's totals, and the loop's locals. -/
structure AssemblerState (T : Type) where
  vtx : List T
  nBlockWeight : Nat
  nBlockSigOpsCost : Nat
  nBlockTx : Nat
  nFees : Int
  mapModifiedTx : List (CTxMemPoolModifiedEntry T)
  failedTx : List T
  /-- the entries of the `ancestor_score` index from `mi` on -/
  mi : List T
  nConsecutiveFailed : Nat
  nPackagesSelected : Nat
  nDescendantsUpdated : Nat

/-- `BlockAssembler::resetBlock`: room for the coinbase is kept.
mirrors src/miner.cpp:94-107 -/
def resetBlock {T : Type} : AssemblerState T :=
  ⟨[], 4000, 400, 0, 0, [], [], [], 0, 0, 0⟩

/-- `MAX_CONSECUTIVE_FAILURES`. -/
def MAX_CONSECUTIVE_FAILURES : Nat := 1000

variable {T : Type} [DecidableEq T] (M : CTxMemPool T) (opts : AssemblerOptions)

/-- `BlockAssembler::TestPackage`: the package fits the block's weight (in
virtual bytes, four weight units each) and signature operation limits.
mirrors src/miner.cpp:286-294 -/
def testPackage (s : AssemblerState T) (packageSize packageSigOpsCost : Nat) : Bool :=
  if s.nBlockWeight + WITNESS_SCALE_FACTOR * packageSize ≥ opts.nBlockMaxWeight then false
  else if s.nBlockSigOpsCost + packageSigOpsCost ≥ MAX_BLOCK_SIGOPS_COST then false
  else true

/-- `BlockAssembler::TestPackageTransactions`: every transaction of the
package is final, has no witness unless witnesses are allowed, and is no DCT
unless DCTs are allowed.
mirrors src/miner.cpp:300-314 -/
def testPackageTransactions : List T → Except Fault Bool
  | [] => .ok true
  | it :: package => do
    let tx := (M.entry it).tx
    if !isFinalTx tx opts.nHeight opts.nLockTimeCutoff then return false
    if !opts.fIncludeWitness && tx.hasWitness then return false
    if !opts.fIncludeDCTs then
      if (← tx.isDCT opts.scriptPubKeyBCF).isSome then return false
    testPackageTransactions package

/-- `BlockAssembler::AddToBlock`.
mirrors src/miner.cpp:316-333 -/
def addToBlock (s : AssemblerState T) (iter : T) : AssemblerState T :=
  { s with
    vtx := s.vtx ++ [iter]
    nBlockWeight := s.nBlockWeight + (M.entry iter).nTxWeight
    nBlockTx := s.nBlockTx + 1
    nBlockSigOpsCost := s.nBlockSigOpsCost + M.getSigOpCost iter
    nFees := s.nFees + (M.entry iter).nFee }

/-- `update_for_parent_inclusion(it)`: `it` is in the block now.
mirrors src/miner.h:123-135 -/
def updateForParentInclusion (it : T) (e : CTxMemPoolModifiedEntry T) : CTxMemPoolModifiedEntry T :=
  { e with
    nModFeesWithAncestors := e.nModFeesWithAncestors - (M.entry it).nFee
    nSizeWithAncestors := e.nSizeWithAncestors - M.getTxSize it
    nSigOpCostWithAncestors := e.nSigOpCostWithAncestors - M.getSigOpCost it }

/-- The body of `UpdatePackagesForAdded`'s inner loop, for the descendant
`desc` of the added `it`: a new modified entry, or the existing one updated;
and the count of descendants updated. -/
def updateDescendant (alreadyAdded : List T) (it : T)
    (acc : List (CTxMemPoolModifiedEntry T) × Nat) (desc : T) : List (CTxMemPoolModifiedEntry T) × Nat :=
  if desc ∈ alreadyAdded then acc
  else if acc.1.any (·.iter = desc) then
    (acc.1.map (fun e => if e.iter = desc then updateForParentInclusion M it e else e), acc.2 + 1)
  else
    (acc.1 ++ [{ M.modifiedEntry desc with
      nSizeWithAncestors := (M.entry desc).nSizeWithAncestors - M.getTxSize it
      nModFeesWithAncestors := (M.entry desc).nModFeesWithAncestors - (M.entry it).getModifiedFee
      nSigOpCostWithAncestors := (M.entry desc).nSigOpCostWithAncestors - M.getSigOpCost it }], acc.2 + 1)

/-- `BlockAssembler::UpdatePackagesForAdded`: every descendant of an added
transaction that is not itself added gets a modified entry with the added
ancestors' figures taken off.
mirrors src/miner.cpp:335-360 -/
def updatePackagesForAdded (alreadyAdded : List T) (mapModifiedTx : List (CTxMemPoolModifiedEntry T)) :
    List (CTxMemPoolModifiedEntry T) × Nat :=
  alreadyAdded.foldl (fun acc it => (M.descendants it).foldl (updateDescendant M alreadyAdded it) acc)
    (mapModifiedTx, 0)

/-- `BlockAssembler::SkipMapTxEntry`: the `ancestor_score` entry is stale
(modified), added, or failed before.
mirrors src/miner.cpp:371-375 -/
def skipMapTxEntry (s : AssemblerState T) (it : T) : Bool :=
  s.mapModifiedTx.any (·.iter = it) || decide (it ∈ s.vtx) || decide (it ∈ s.failedTx)

/-- `CompareTxIterByAncestorCount`: fewer ancestors first, then by hash.
mirrors src/miner.h:94-101 -/
def compareTxIterByAncestorCount (a b : T) : Bool :=
  if (M.entry a).nCountWithAncestors ≠ (M.entry b).nCountWithAncestors then
    (M.entry a).nCountWithAncestors < (M.entry b).nCountWithAncestors
  else (M.getHash a).memcmpKey < (M.getHash b).memcmpKey

/-- `BlockAssembler::SortForBlock`: the package in the order of
`CompareTxIterByAncestorCount`.
mirrors src/miner.cpp:377-386 -/
def sortForBlock (package : List T) : List T :=
  package.mergeSort fun a b => !compareTxIterByAncestorCount M b a

section Loop

variable (byAncestorFee : CTxMemPoolModifiedEntry T → CTxMemPoolModifiedEntry T → Bool)

/-- `mapModifiedTx.get<ancestor_score>().begin()`: an entry that no other
comes before. -/
def bestModified : List (CTxMemPoolModifiedEntry T) → Option (CTxMemPoolModifiedEntry T)
  | [] => none
  | e :: es => some (es.foldl (fun b x => if byAncestorFee x b then x else b) e)

/-- The package the loop turns to: the entry, the modified entry it comes
from when `fUsingModified`, and `mi` after the choice (advanced when the
`ancestor_score` entry is taken). With both queues empty `modit->iter` reads
past the end; the loop's condition rules that out.
mirrors src/miner.cpp:427-449 -/
def selectPackage (s : AssemblerState T) :
    Except Fault (T × Option (CTxMemPoolModifiedEntry T) × List T) :=
  match s.mi, bestModified byAncestorFee s.mapModifiedTx with
  | [], some modit => .ok (modit.iter, some modit, [])
  | [], none => .error .outOfRange
  | it :: mi', some modit =>
    if byAncestorFee modit (M.modifiedEntry it) then .ok (modit.iter, some modit, it :: mi')
    else .ok (it, none, mi')
  | it :: mi', none => .ok (it, none, mi')

/-- The package figures: the modified entry's when `fUsingModified`, else
the mempool entry's cached ones. -/
def packageFigures (iter : T) : Option (CTxMemPoolModifiedEntry T) → Nat × Int × Nat
  | some modit => (modit.nSizeWithAncestors, modit.nModFeesWithAncestors, modit.nSigOpCostWithAncestors)
  | none => ((M.entry iter).nSizeWithAncestors, (M.entry iter).nModFeesWithAncestors,
      (M.entry iter).nSigOpCostWithAncestors)

/-- `CalculateMemPoolAncestors`, then `onlyUnconfirmed(ancestors)` and
`ancestors.insert(iter)`: the package to add.
mirrors src/miner.cpp:273-284,490-497 -/
def unconfirmedAncestors (s : AssemblerState T) (iter : T) : List T :=
  iter :: (M.ancestors iter).filter (· ∉ s.vtx)

/-- A package that failed: a modified entry is dropped from `mapModifiedTx`
and remembered in `failedTx`; an `ancestor_score` entry is only passed. -/
def dropFailed (s : AssemblerState T) (iter : T) : Option (CTxMemPoolModifiedEntry T) → AssemblerState T
  | some modit => { s with mapModifiedTx := s.mapModifiedTx.erase modit, failedTx := iter :: s.failedTx }
  | none => s

/-- A package that passed: its transactions are added in `SortForBlock`
order and leave `mapModifiedTx`, then their descendants are updated.
mirrors src/miner.cpp:509-524 -/
def addPackage (s : AssemblerState T) (ancestors : List T) : AssemblerState T :=
  let s := (sortForBlock M ancestors).foldl
    (fun s e => { addToBlock M s e with mapModifiedTx := s.mapModifiedTx.filter (·.iter ≠ e) })
    { s with nConsecutiveFailed := 0 }
  let updated := updatePackagesForAdded M ancestors s.mapModifiedTx
  { s with
    nPackagesSelected := s.nPackagesSelected + 1
    mapModifiedTx := updated.1
    nDescendantsUpdated := s.nDescendantsUpdated + updated.2 }

/-- The loop body from the package's figures on: the fee rate check,
`TestPackage`, `TestPackageTransactions`, and the package added or set
aside.
mirrors src/miner.cpp:455-524 -/
def tryPackage (s : AssemblerState T) (iter : T) (modit : Option (CTxMemPoolModifiedEntry T)) :
    Except Fault (LoopStep (AssemblerState T)) :=
  let packageSize := (packageFigures M iter modit).1
  let packageFees := (packageFigures M iter modit).2.1
  let packageSigOpsCost := (packageFigures M iter modit).2.2
  if packageFees < getFee opts.blockMinFeeRate packageSize then .ok (.done s)
  else if !testPackage opts s packageSize packageSigOpsCost then
    let s := { dropFailed s iter modit with nConsecutiveFailed := s.nConsecutiveFailed + 1 }
    if s.nConsecutiveFailed > MAX_CONSECUTIVE_FAILURES ∧ s.nBlockWeight > opts.nBlockMaxWeight - 4000 then
      .ok (.done s)
    else .ok (.next s)
  else
    let ancestors := unconfirmedAncestors M s iter
    match testPackageTransactions M opts ancestors with
    | .error e => .error e
    | .ok false => .ok (.next (dropFailed s iter modit))
    | .ok true => .ok (.next (addPackage M s ancestors))

/-- The loop body once the `ancestor_score` entry at `mi` is not stale:
choose the package, check it is not in the block, and try it.
mirrors src/miner.cpp:427-524 -/
def considerPackage (s : AssemblerState T) : Except Fault (LoopStep (AssemblerState T)) :=
  match selectPackage M byAncestorFee s with
  | .error e => .error e
  | .ok (iter, modit, mi) =>
    -- `assert(!inBlock.count(iter))`
    if iter ∈ s.vtx then .error .assertion
    else tryPackage M opts { s with mi := mi } iter modit

/-- The body of `addPackageTxs`'s loop.
mirrors src/miner.cpp:418-525 -/
def addPackageStep (s : AssemblerState T) : Except Fault (LoopStep (AssemblerState T)) :=
  match s.mi with
  | it :: mi' =>
    if skipMapTxEntry s it then .ok (.next { s with mi := mi' })
    else considerPackage M opts byAncestorFee s
  | [] => considerPackage M opts byAncestorFee s

/-- The loop's condition: an `ancestor_score` entry is left, or a modified one. -/
def addPackageCond (s : AssemblerState T) : Bool := !s.mi.isEmpty || !s.mapModifiedTx.isEmpty

/-! ## What one run of the body can do -/

omit [DecidableEq T] in
theorem bestModified_mem {l : List (CTxMemPoolModifiedEntry T)} {m : CTxMemPoolModifiedEntry T}
    (h : bestModified byAncestorFee l = some m) : m ∈ l := by
  cases l with
  | nil => cases h
  | cons e es =>
    simp only [bestModified, Option.some.injEq] at h
    subst h
    -- the running best is always one of the entries
    have hkeep : ∀ (xs : List (CTxMemPoolModifiedEntry T)) b, b ∈ e :: es → (∀ x ∈ xs, x ∈ e :: es) →
        xs.foldl (fun b x => if byAncestorFee x b then x else b) b ∈ e :: es := by
      intro xs
      induction xs with
      | nil => exact fun b hb _ => hb
      | cons x xs ih =>
        intro b hb hxs
        apply ih _ _ (fun y hy => hxs y (List.mem_cons_of_mem x hy))
        dsimp only
        split
        · exact hxs x List.mem_cons_self
        · exact hb
    exact hkeep es e List.mem_cons_self (fun x hx => List.mem_cons_of_mem e hx)

omit [DecidableEq T] in
theorem bestModified_eq_none {l : List (CTxMemPoolModifiedEntry T)} :
    bestModified byAncestorFee l = none ↔ l = [] := by
  cases l <;> simp [bestModified]

omit [DecidableEq T] in
/-- The package comes from `mapModifiedTx`, which `mi` keeps, or it is the
entry at `mi`, which moves on. -/
theorem selectPackage_spec {s : AssemblerState T} {iter : T} {modit : Option (CTxMemPoolModifiedEntry T)}
    {mi : List T} (h : selectPackage M byAncestorFee s = .ok (iter, modit, mi)) :
    (∃ m, modit = some m ∧ m ∈ s.mapModifiedTx ∧ iter = m.iter ∧ mi = s.mi) ∨
      (modit = none ∧ s.mi = iter :: mi) := by
  unfold selectPackage at h
  split at h
  · next hmi hbest =>
    cases h
    exact .inl ⟨_, rfl, bestModified_mem byAncestorFee hbest, rfl, hmi.symm⟩
  · cases h
  · next it mi' modit' hmi hbest =>
    split at h
    · cases h
      exact .inl ⟨_, rfl, bestModified_mem byAncestorFee hbest, rfl, hmi.symm⟩
    · cases h
      exact .inr ⟨rfl, hmi⟩
  · next it mi' hmi _ =>
    cases h
    exact .inr ⟨rfl, hmi⟩

@[simp] theorem dropFailed_vtx (s : AssemblerState T) (iter : T) (modit : Option (CTxMemPoolModifiedEntry T)) :
    (dropFailed s iter modit).vtx = s.vtx := by
  cases modit <;> rfl

theorem considerPackage_ok {s : AssemblerState T} {r : LoopStep (AssemblerState T)}
    (h : considerPackage M opts byAncestorFee s = .ok r) :
    ∃ iter modit mi, selectPackage M byAncestorFee s = .ok (iter, modit, mi) ∧ iter ∉ s.vtx ∧
      tryPackage M opts { s with mi := mi } iter modit = .ok r := by
  unfold considerPackage at h
  split at h
  · cases h
  · next iter modit mi hsel =>
    split at h
    · cases h
    · exact ⟨iter, modit, mi, hsel, ‹_›, h⟩

/-- Every way a tried package can end: below the fee rate, failing
`TestPackage`, failing `TestPackageTransactions`, or added. -/
theorem tryPackage_cases {s : AssemblerState T} {iter : T} {modit : Option (CTxMemPoolModifiedEntry T)}
    {r : LoopStep (AssemblerState T)} (h : tryPackage M opts s iter modit = .ok r) :
    r = .done s ∨
      (testPackage opts s (packageFigures M iter modit).1 (packageFigures M iter modit).2.2 = false ∧
        r.state = { dropFailed s iter modit with nConsecutiveFailed := s.nConsecutiveFailed + 1 }) ∨
      r = .next (dropFailed s iter modit) ∨
      (testPackage opts s (packageFigures M iter modit).1 (packageFigures M iter modit).2.2 = true ∧
        testPackageTransactions M opts (unconfirmedAncestors M s iter) = .ok true ∧
        r = .next (addPackage M s (unconfirmedAncestors M s iter))) := by
  simp only [tryPackage] at h
  split at h
  · cases h
    exact .inl rfl
  split at h
  · next htest =>
    simp only [Bool.not_eq_true'] at htest
    refine .inr (.inl ⟨htest, ?_⟩)
    split at h <;> cases h <;> rfl
  · next htest =>
    simp only [Bool.not_eq_true', Bool.not_eq_false] at htest
    split at h
    · cases h
    · cases h
      exact .inr (.inr (.inl rfl))
    · next hpt =>
      cases h
      exact .inr (.inr (.inr ⟨htest, hpt, rfl⟩))

theorem foldl_addToBlock (l : List T) (s : AssemblerState T) :
    l.foldl (fun s e => { addToBlock M s e with mapModifiedTx := s.mapModifiedTx.filter (·.iter ≠ e) }) s =
      { s with
        vtx := s.vtx ++ l
        nBlockWeight := s.nBlockWeight + (l.map fun x => (M.entry x).nTxWeight).sum
        nBlockTx := s.nBlockTx + l.length
        nBlockSigOpsCost := s.nBlockSigOpsCost + (l.map M.getSigOpCost).sum
        nFees := s.nFees + (l.map fun x => (M.entry x).nFee).sum
        mapModifiedTx := s.mapModifiedTx.filter fun m => m.iter ∉ l } := by
  induction l generalizing s with
  | nil => simp
  | cons e l ih =>
    rw [List.foldl_cons, ih]
    simp only [addToBlock, List.filter_filter, List.append_assoc, List.singleton_append, List.map_cons,
      List.sum_cons, List.length_cons, List.mem_cons, not_or, AssemblerState.mk.injEq, true_and, and_true]
    refine ⟨by omega, by omega, by omega, Int.add_assoc _ _ _, ?_⟩
    congr 1
    funext m
    simp [Bool.and_comm]

@[simp] theorem addPackage_vtx (s : AssemblerState T) (ancestors : List T) :
    (addPackage M s ancestors).vtx = s.vtx ++ sortForBlock M ancestors := by
  rw [addPackage, foldl_addToBlock]

@[simp] theorem addPackage_nBlockWeight (s : AssemblerState T) (ancestors : List T) :
    (addPackage M s ancestors).nBlockWeight =
      s.nBlockWeight + ((sortForBlock M ancestors).map fun x => (M.entry x).nTxWeight).sum := by
  rw [addPackage, foldl_addToBlock]

@[simp] theorem addPackage_nBlockSigOpsCost (s : AssemblerState T) (ancestors : List T) :
    (addPackage M s ancestors).nBlockSigOpsCost =
      s.nBlockSigOpsCost + ((sortForBlock M ancestors).map M.getSigOpCost).sum := by
  rw [addPackage, foldl_addToBlock]

theorem addPackage_mapModifiedTx (s : AssemblerState T) (ancestors : List T) :
    (addPackage M s ancestors).mapModifiedTx =
      (updatePackagesForAdded M ancestors
        (s.mapModifiedTx.filter fun m => m.iter ∉ sortForBlock M ancestors)).1 := by
  rw [addPackage, foldl_addToBlock]

theorem mem_unconfirmedAncestors_self (s : AssemblerState T) (iter : T) : iter ∈ unconfirmedAncestors M s iter :=
  List.mem_cons_self

omit [DecidableEq T] in
theorem mem_sortForBlock {package : List T} {x : T} : x ∈ sortForBlock M package ↔ x ∈ package :=
  (List.mergeSort_perm _ _).mem_iff

/-! ## The loop ends -/

variable [Fintype T]

/-- The loop's measure: the transactions not in the block, then the entries
left in the two queues. -/
def addPackageMeasure (s : AssemblerState T) : Nat × Nat :=
  ((Finset.univ.filter (· ∉ s.vtx)).card, s.mi.length + s.mapModifiedTx.length)

/-- A run of the body that adds nothing takes an entry off one queue. -/
theorem addPackageMeasure_lt_of_vtx {s s' : AssemblerState T} (hv : s'.vtx = s.vtx)
    (hl : s'.mi.length + s'.mapModifiedTx.length < s.mi.length + s.mapModifiedTx.length) :
    WellFoundedRelation.rel (addPackageMeasure s') (addPackageMeasure s) := by
  unfold addPackageMeasure
  rw [hv]
  exact Prod.Lex.right _ hl

omit [Fintype T] in
/-- A failed package leaves one entry fewer in the queue it came from. -/
theorem length_dropFailed {s : AssemblerState T} {iter : T} {modit : Option (CTxMemPoolModifiedEntry T)}
    {mi : List T} (hsel : selectPackage M byAncestorFee s = .ok (iter, modit, mi)) :
    (dropFailed { s with mi := mi } iter modit).mi.length +
        (dropFailed { s with mi := mi } iter modit).mapModifiedTx.length <
      s.mi.length + s.mapModifiedTx.length := by
  rcases selectPackage_spec M byAncestorFee hsel with ⟨m, rfl, hm, -, rfl⟩ | ⟨rfl, hmi⟩
  · have hpos : 0 < s.mapModifiedTx.length := List.length_pos_of_mem hm
    simp only [dropFailed, List.length_erase_of_mem hm]
    omega
  · simp [dropFailed, hmi]

theorem considerPackage_decreases {s s' : AssemblerState T}
    (h : considerPackage M opts byAncestorFee s = .ok (.next s')) :
    WellFoundedRelation.rel (addPackageMeasure s') (addPackageMeasure s) := by
  obtain ⟨iter, modit, mi, hsel, hnew, htry⟩ := considerPackage_ok M opts byAncestorFee h
  have hdrop := length_dropFailed M byAncestorFee hsel
  rcases tryPackage_cases M opts htry with h | ⟨-, h⟩ | h | ⟨-, -, h⟩
  · cases h
  · simp only [LoopStep.state] at h
    subst h
    exact addPackageMeasure_lt_of_vtx (by simp) hdrop
  · cases h
    exact addPackageMeasure_lt_of_vtx (by simp) hdrop
  · cases h
    -- the package holds `iter`, which was not in the block
    apply Prod.Lex.left
    apply Finset.card_lt_card
    refine Finset.ssubset_iff_of_subset (fun x hx => ?_) |>.mpr ⟨iter, ?_, ?_⟩
    · simp only [Finset.mem_filter, Finset.mem_univ, true_and, addPackage_vtx, List.mem_append, not_or] at hx ⊢
      exact hx.1
    · simpa using hnew
    · simp [mem_sortForBlock, mem_unconfirmedAncestors_self]

theorem addPackageStep_decreases {s s' : AssemblerState T}
    (h : addPackageStep M opts byAncestorFee s = .ok (.next s')) :
    WellFoundedRelation.rel (addPackageMeasure s') (addPackageMeasure s) := by
  unfold addPackageStep at h
  split at h
  · next it mi' hmi =>
    split at h
    · cases h
      exact addPackageMeasure_lt_of_vtx rfl (by simp [hmi])
    · exact considerPackage_decreases M opts byAncestorFee h
  · exact considerPackage_decreases M opts byAncestorFee h

/-- `BlockAssembler::addPackageTxs`: the modified entries for what the block
already holds, then the loop from the best `ancestor_score` entry.
mirrors src/miner.cpp:398-526 -/
def addPackageTxs (s : AssemblerState T) : Except Fault (AssemblerState T) :=
  loopWhile addPackageMeasure addPackageCond (addPackageStep M opts byAncestorFee)
    (fun _ _ _ h => addPackageStep_decreases M opts byAncestorFee h)
    { s with
      mapModifiedTx := (updatePackagesForAdded M s.vtx []).1
      failedTx := []
      mi := M.mapTx
      nConsecutiveFailed := 0 }

end Loop

end Ring.Node
