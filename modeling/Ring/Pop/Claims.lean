import Ring.Pop.Submit
import Ring.Node.ProofSafety

/-!
# What a pop block's claim is anchored to (src/pow.cpp:564-754)

`CheckPopProof` finds the claimed source block through
`mapBlockIndex[uint256S(gameSourceHashStr)]`, not through the block's own
ancestry: the source must be a hive-mined block at the claimed depth below the
block, on the active chain when `fPopCheckActiveChain` is set. The scan for an
earlier claim walks the block's own ancestry down to the source's height and
reads each pop block there from disk.

Results:
* `checkPopProof_passes`: what a passing check has established, stage by
  stage.
* `popClaimScan_unclaimed`: no pop block the scan walks, whose data can be
  read, claims the same source.
* `suffix_of_chainContains`: two blocks of the active chain, the lower an
  ancestor of the higher; so the source is an ancestor of a block whose parent
  is on the active chain (`popClaim_anchored_by_height`).
* `popClaim_off_ancestry`: a pop block on a side branch, checked with
  `fPopCheckActiveChain` set, passes `CheckBlock` claiming a hive block of the
  active chain that is not its ancestor.
* `popClaim_unread_claimant`: an earlier claim of the same source on the
  block's ancestry goes unseen while that block's data is missing.
-/
namespace Ring.Pop

open Ring.Lib Ring.Arith Ring.Script Ring.Chain Ring.Node

/-! ## The stages of a passing check -/

/-- What a passing coinbase stage has read: the coinbase is `vtx[0]`, its
`vout[0]` is at least 42 bytes long, and the fields are decoded from it. -/
theorem popCoinbase_passes {env : Env} {vtx : List CTransaction} {tx : CTransaction}
    {f : PopProofFields} (h : (popCoinbase env vtx).run = .ok (some (tx, f))) :
    at! vtx 0 = .ok tx ∧ ∃ out0, at! tx.vout 0 = .ok out0 ∧ 42 ≤ out0.scriptPubKey.length ∧
      f = decodePopProof out0.scriptPubKey := by
  unfold popCoinbase at h
  obtain ⟨-, -, h⟩ := Guarded.run_bind_some h
  obtain ⟨tx', htx, h⟩ := Guarded.run_bind_some h
  simp only [Guarded.failure_bind] at h
  split_ifs at h with hcb hvout
  · cases h
  · cases h
  obtain ⟨out0, hout0, h⟩ := Guarded.run_bind_some h
  split_ifs at h with hguard hop htype
  · cases h
  · cases h
  · cases h
  cases h
  refine ⟨Guarded.eq_ok_of_run_lift htx, out0, Guarded.eq_ok_of_run_lift hout0, ?_, rfl⟩
  simp only [Bool.or_eq_true, decide_eq_true_eq, not_or] at hguard
  omega

/-- The claim the scan reads from a stored pop block is the source hash the
block's own coinbase stage decoded. -/
theorem claimedSourceHash_of_popCoinbase {env : Env} {block : CBlock} {tx : CTransaction}
    {f : PopProofFields} (h : (popCoinbase env block.vtx).run = .ok (some (tx, f))) :
    claimedSourceHash block = .ok f.gameSourceHash := by
  obtain ⟨htx, out0, hout0, hlen, rfl⟩ := popCoinbase_passes h
  have hlt : ¬ out0.scriptPubKey.length < 36 := by omega
  simp only [claimedSourceHash, htx, hout0, hlt, bind, Except.bind, if_false, pure, Except.pure, decodePopProof]

/-- The game stage passed: the score target is computed, the solution reaches
it, and the scan finds no earlier claim. -/
theorem popGameChecks_passes {env : Env} {params : Params} {st : NodeState} {pindexPrev : CBlockIndex}
    {f : PopProofFields} {sourceBlockHeight : Int}
    (h : (popGameChecks env params st pindexPrev f sourceBlockHeight).run = .ok (some ())) :
    ∃ targetScore, getNextPopScoreRequired params pindexPrev = .ok targetScore ∧
      verifyGameSolution env.hashWriter targetScore f.gameSourceHash f.solution = .ok (.ok ()) ∧
      (popClaimScan params st f.gameSourceHash sourceBlockHeight pindexPrev).run = .ok (some ()) := by
  unfold popGameChecks at h
  obtain ⟨targetScore, htarget, h⟩ := Guarded.run_bind_some h
  obtain ⟨verdict, hverify, h⟩ := Guarded.run_bind_some h
  rcases verdict with _ | ⟨⟩
  · cases h
  exact ⟨targetScore, Guarded.eq_ok_of_run_lift htarget, Guarded.eq_ok_of_run_lift hverify, h⟩

/-- What a passing check has established once the source is looked up: the
source entry is not null, is on the active chain when that is asked for, its
block is stored and hive-mined at a depth in the claim's range, the solution
verifies against the score target, and the scan for an earlier claim passes. -/
theorem checkPopProofFrom_passes {env : Env} {params : Params} {st : NodeState} {c : Bool}
    {pindexPrev : CBlockIndex} {blockHeight : Int} {f : PopProofFields} {pindexSource : CBlockIndex}
    (h : (checkPopProofFrom env params st c pindexPrev blockHeight f pindexSource).run = .ok (some ())) :
    ∃ s srest sourceBlock targetScore, pindexSource = s :: srest ∧
      (c = true → chainContains st.chainActive pindexSource = true) ∧
      readBlockFromDisk st pindexSource = some sourceBlock ∧ sourceBlock.isHiveMined params = true ∧
      depthInRange params f.isPrivate (blockHeight - s.nHeight) = true ∧
      getNextPopScoreRequired params pindexPrev = .ok targetScore ∧
      verifyGameSolution env.hashWriter targetScore f.gameSourceHash f.solution = .ok (.ok ()) ∧
      (popClaimScan params st f.gameSourceHash s.nHeight pindexPrev).run = .ok (some ()) := by
  unfold checkPopProofFrom at h
  rcases pindexSource with _ | ⟨s, srest⟩
  · cases h
  cases hread : readBlockFromDisk st (s :: srest) with
  | none =>
    simp only [hread, Guarded.failure_bind, ite_self] at h
    cases h
  | some sourceBlock =>
    suffices hstages : ¬ (c && !chainContains st.chainActive (s :: srest)) = true ∧
        ¬ (!sourceBlock.isHiveMined params) = true ∧
        ¬ (!depthInRange params f.isPrivate (blockHeight - s.nHeight)) = true ∧
        (popGameChecks env params st pindexPrev f s.nHeight).run = .ok (some ()) by
      obtain ⟨hactive, hhive, hdepth, hgame⟩ := hstages
      obtain ⟨targetScore, htarget, hverify, hscan⟩ := popGameChecks_passes hgame
      refine ⟨s, srest, sourceBlock, targetScore, rfl, ?_, rfl, by simpa using hhive,
        by simpa using hdepth, htarget, hverify, hscan⟩
      intro hc
      simpa [hc] using hactive
    simp only [hread, Guarded.failure_bind] at h
    split_ifs at h with hactive hhive hdepth hpriv
    · cases h
    · cases h
    · cases h
    -- a private claim's signature check stands between the reward lookup and the game
    · obtain ⟨_, -, h⟩ := Guarded.run_bind_some h
      obtain ⟨_, -, h⟩ := Guarded.run_bind_some h
      exact ⟨hactive, hhive, hdepth, h⟩
    · obtain ⟨_, -, h⟩ := Guarded.run_bind_some h
      exact ⟨hactive, hhive, hdepth, h⟩

/-- What a passing `CheckPopProof` has established: the parent and the
claimed source are keys of `mapBlockIndex` (so neither lookup inserted), the
coinbase stage passed, and the stages after the source lookup passed. -/
theorem checkPopProof_passes {env : Env} {params : Params} {st : NodeState} {c : Bool} {block : CBlock}
    (hv : (checkPopProof env params st c block).1 = .ok true) :
    ∃ r rest tx f pindexSource, st.mapBlockIndex.find block.hashPrevBlock = some (r :: rest) ∧
      (popCoinbase env block.vtx).run = .ok (some (tx, f)) ∧
      st.mapBlockIndex.find f.gameSourceHash = some pindexSource ∧
      (checkPopProofFrom env params st c (r :: rest) (r.nHeight + 1) f pindexSource).run =
        .ok (some ()) := by
  rcases hprev : st.mapBlockIndex.find block.hashPrevBlock with _ | _ | ⟨r, rest⟩
  · simp [checkPopProof, lookupPrev_of_find_none hprev] at hv
  · simp [checkPopProof, lookupPrev, StdMap.subscript_of_find [] hprev] at hv
  rcases hcb : (popCoinbase env block.vtx).run with e | _ | ⟨tx, f⟩
  · simp [checkPopProof, lookupPrev_of_find_some hprev, hcb] at hv
  · simp [checkPopProof, lookupPrev_of_find_some hprev, hcb] at hv
  rcases hsrc : st.mapBlockIndex.find f.gameSourceHash with _ | pindexSource
  · -- an unknown source: the lookup answers the null entry, which fails the first stage
    simp [checkPopProof, lookupPrev_of_find_some hprev, hcb, uint256S_getHex,
      StdMap.subscript_of_find_none [] hsrc, checkPopProofFrom] at hv
  simp only [checkPopProof, lookupPrev_of_find_some hprev, hcb, uint256S_getHex,
    StdMap.subscript_of_find [] hsrc] at hv
  exact ⟨r, rest, tx, f, pindexSource, rfl, rfl, hsrc, Guarded.verdict_eq_true.mp hv⟩

/-- One step of the scan for an earlier claim, above the source's height: the
block it reads, if pop-mined and stored, claims another source, and the scan
goes on from `pprev`. -/
theorem popClaimScan_step {params : Params} {st : NodeState} {h : Uint256} {sourceBlockHeight : Int}
    {r : IndexRecord} {rest : CBlockIndex} (hr : sourceBlockHeight < r.nHeight)
    (hrun : (popClaimScan params st h sourceBlockHeight (r :: rest)).run = .ok (some ())) :
    (r.isPopMined params = true → ∀ b, readBlockFromDisk st (r :: rest) = some b →
        claimedSourceHash b ≠ .ok h) ∧
      (popClaimScan params st h sourceBlockHeight rest).run = .ok (some ()) := by
  unfold popClaimScan at hrun
  rw [if_pos hr] at hrun
  simp only [Guarded.failure_bind] at hrun
  -- past the claim test, `assert(pprev)` and the step to `pprev`
  have htail : ∀ {x : Check Unit},
      (if rest = [] then (Guarded.lift (.error .assertion : Except Fault Unit) >>= fun _ => x) else x).run =
        .ok (some ()) →
        x.run = .ok (some ()) := by
    intro x hx
    split_ifs at hx
    · cases hx
    · exact hx
  cases hpop : r.isPopMined params with
  | false =>
    simp only [hpop, Bool.false_eq_true, if_false] at hrun
    exact ⟨fun hc => absurd hc (by simp), htail hrun⟩
  | true =>
    cases hread : readBlockFromDisk st (r :: rest) with
    | none =>
      simp only [hpop, hread, if_true] at hrun
      exact ⟨fun _ b hb => absurd hb (by simp), htail hrun⟩
    | some b =>
      simp only [hpop, hread, if_true] at hrun
      obtain ⟨claimed, hclaimed, hrun⟩ := Guarded.run_bind_some hrun
      by_cases heq : (h == claimed) = true
      · rw [if_pos heq] at hrun
        cases hrun
      rw [if_neg heq] at hrun
      refine ⟨fun _ b' hb' => ?_, htail hrun⟩
      cases hb'
      rw [Guarded.eq_ok_of_run_lift hclaimed]
      intro hsame
      cases hsame
      exact heq (beq_self_eq_true _)

/-- The scan for an earlier claim: when it passes over a linked ancestry, no
pop block of that ancestry above the source's height whose data can be read
claims the source. -/
theorem popClaimScan_unclaimed {params : Params} {st : NodeState} {h : Uint256} {sourceBlockHeight : Int} :
    ∀ {idx : CBlockIndex}, Linked idx → (popClaimScan params st h sourceBlockHeight idx).run = .ok (some ()) →
      ∀ q qrest b, (q :: qrest) <:+ idx → sourceBlockHeight < q.nHeight → q.isPopMined params = true →
        readBlockFromDisk st (q :: qrest) = some b → claimedSourceHash b ≠ .ok h
  | [], _, _, q, qrest, _, hsuf, _, _, _ => absurd hsuf (by simp)
  | r :: rest, hlinked, hrun, q, qrest, b, hsuf, habove, hpop, hread => by
    by_cases hr : sourceBlockHeight < r.nHeight
    · obtain ⟨hfirst, hrest⟩ := popClaimScan_step hr hrun
      rcases List.suffix_cons_iff.mp hsuf with heq | hsuf'
      · cases heq
        exact hfirst hpop b hread
      · exact popClaimScan_unclaimed hlinked.tail hrest q qrest b hsuf' habove hpop hread
    · -- the walk stopped here: every ancestor is at or below the source's height
      have hle := hlinked.height_le_of_suffix hsuf
      omega

/-! ## Where the source sits -/

theorem chainContains_cons_iff {tip : CBlockIndex} {x : IndexRecord} {xs : CBlockIndex} :
    chainContains tip (x :: xs) = true ↔
      0 ≤ x.nHeight ∧ x.nHeight < tip.length ∧ tip.drop (tip.length - 1 - x.nHeight.toNat) = x :: xs := by
  simp [chainContains, and_assoc]

/-- Of two blocks on the active chain, the lower is an ancestor of the higher. -/
theorem suffix_of_chainContains {tip : CBlockIndex} {a b : IndexRecord} {as bs : CBlockIndex}
    (ha : chainContains tip (a :: as) = true) (hb : chainContains tip (b :: bs) = true)
    (hle : a.nHeight ≤ b.nHeight) : (a :: as) <:+ (b :: bs) := by
  obtain ⟨ha0, -, hda⟩ := chainContains_cons_iff.mp ha
  obtain ⟨hb0, hbl, hdb⟩ := chainContains_cons_iff.mp hb
  rw [← hda, ← hdb]
  exact List.drop_suffix_drop_left tip (by omega)

/-- Every depth a claim may have is positive once the private range starts
above zero: the source lies below the block. -/
theorem depthInRange_pos {params : Params} {isPrivate : Bool} {depth : Int}
    (hdepth : 0 < params.popMinPrivateGameDepth ∧ params.popMinPrivateGameDepth ≤ params.popMaxPrivateGameDepth)
    (h : depthInRange params isPrivate depth = true) : 0 < depth := by
  unfold depthInRange at h
  cases isPrivate <;> simp only [Bool.false_eq_true, if_false, if_true, decide_eq_true_eq] at h <;> omega

/-- A pop block `CheckBlock` accepts, other than from its cache, has passed
`CheckPopProof`. -/
theorem checkPopProof_of_checkBlock {env : Env} {params : Params} {st : NodeState} {block : CBlock}
    {fCheckPOW fCheckMerkleRoot c : Bool} (hhive : block.isHiveMined params = false)
    (hpop : block.isPopMined params = true)
    (h : (checkBlock env params st block false fCheckPOW fCheckMerkleRoot c).1 = .ok (.ok ())) :
    (checkPopProof env params st c block).1 = .ok true := by
  unfold checkBlock at h
  cases hheader : checkBlockHeader env params block.toCBlockHeader fCheckPOW with
  | error reason => simp [hheader] at h
  | ok u =>
    rcases hproof : checkPopProof env params st c block with ⟨v, st'⟩
    simp only [hheader, checkBlockProof, hhive, hpop, hproof, Bool.false_eq_true, if_false, if_true] at h
    rcases v with e | _ | _
    · cases h
    · cases h
    · rfl

/-! ## What a pop block's claim is anchored to -/

/-- Pop claims are anchored by height, and by ancestry only on the active
chain. On a network whose hive and pop nonce markers differ and whose private
depth range starts above zero (as on every network), a pop block `CheckBlock`
accepts (not from its cache, with either `fPopCheckActiveChain`) claims a source hash that names an entry of
`mapBlockIndex` whose stored block is hive-mined, at a depth below the block in
the range of a private or a public claim. With `fPopCheckActiveChain` the entry
is on the active chain, and an ancestor of the block when the block's parent is
on the active chain too. No pop block of the block's ancestry above the
source's height, whose data can be read and whose coinbase passes the pop
coinbase checks, claims the same source hash. -/
theorem popClaim_anchored_by_height {env : Env} {params : Params} {st : NodeState} {block : CBlock}
    {fCheckPOW fCheckMerkleRoot c : Bool} {r : IndexRecord} {rest : CBlockIndex}
    (hdepth : 0 < params.popMinPrivateGameDepth ∧ params.popMinPrivateGameDepth ≤ params.popMaxPrivateGameDepth)
    (hmarkers : params.hiveNonceMarker ≠ params.popNonceMarker) (hpop : block.isPopMined params = true)
    (hprev : st.mapBlockIndex.find block.hashPrevBlock = some (r :: rest)) (hlinked : Linked (r :: rest))
    (hv : (checkBlock env params st block false fCheckPOW fCheckMerkleRoot c).1 = .ok (.ok ())) :
    ∃ tx f s srest sourceBlock,
      (popCoinbase env block.vtx).run = .ok (some (tx, f)) ∧
      st.mapBlockIndex.find f.gameSourceHash = some (s :: srest) ∧
      readBlockFromDisk st (s :: srest) = some sourceBlock ∧ sourceBlock.isHiveMined params = true ∧
      depthInRange params f.isPrivate (r.nHeight + 1 - s.nHeight) = true ∧
      (c = true → chainContains st.chainActive (s :: srest) = true) ∧
      (c = true → chainContains st.chainActive (r :: rest) = true → (s :: srest) <:+ (r :: rest)) ∧
      (∀ q qrest b env' tx' f', (q :: qrest) <:+ (r :: rest) → s.nHeight < q.nHeight →
        q.isPopMined params = true → readBlockFromDisk st (q :: qrest) = some b →
        (popCoinbase env' b.vtx).run = .ok (some (tx', f')) → f'.gameSourceHash ≠ f.gameSourceHash) := by
  have hhive : block.isHiveMined params = false := by
    simp only [CBlockHeader.isPopMined, beq_iff_eq] at hpop
    simp only [CBlockHeader.isHiveMined, hpop, beq_eq_false_iff_ne]
    exact hmarkers.symm
  obtain ⟨r', rest', tx, f, pindexSource, hprev', hcb, hsrc, hfrom⟩ :=
    checkPopProof_passes (checkPopProof_of_checkBlock hhive hpop hv)
  obtain ⟨rfl, rfl⟩ : r = r' ∧ rest = rest' := by
    rw [hprev] at hprev'
    simpa using hprev'
  obtain ⟨s, srest, sourceBlock, -, rfl, hactive, hread, hsourceHive, hdep, -, -, hscan⟩ :=
    checkPopProofFrom_passes hfrom
  have hbelow : s.nHeight ≤ r.nHeight := by
    have := depthInRange_pos hdepth hdep
    omega
  refine ⟨tx, f, s, srest, sourceBlock, hcb, hsrc, hread, hsourceHive, hdep, hactive, ?_, ?_⟩
  · intro hc hparent
    exact suffix_of_chainContains (hactive hc) hparent hbelow
  · intro q qrest b env' tx' f' hsuf habove hqpop hqread hqcb hsame
    apply popClaimScan_unclaimed hlinked hscan q qrest b hsuf habove hqpop hqread
    rw [claimedSourceHash_of_popCoinbase hqcb, hsame]

/-! ## A side branch that claims the active chain's hive block -/

/-- The environment: tiles are drawn as `crossroadsHash` draws them. -/
def forkEnv : Env := { (default : Env) with hashWriter := crossroadsHash }

/-- The script both blocks pay their reward to. -/
def forkRewardScript : CScript := getScriptForDestination (.keyId ⟨List.replicate 20 0x07⟩)

/-- The hash of the hive block the claim names. -/
def forkSourceHash : Uint256 := ⟨List.replicate 32 7, by simp⟩

/-- The hive block at height 1 of the active chain. -/
def forkSourceRecord : IndexRecord := { stampedRecord 1 0x200fffff 1 with hashBlock := forkSourceHash }

/-- The active chain: the hive block on the genesis block, and 199 PoW blocks
on top of it. -/
def forkActiveChain : CBlockIndex :=
  powBlocksAbove 0x1e0fffff 1 (forkSourceRecord :: powBlocksUpTo 0x1e0fffff 0) 199

/-- The pop block's parent: a side branch of 150 PoW blocks on the same
genesis block. -/
def forkParent : CBlockIndex := powBlocksUpTo 0x1e0fffff 150

/-- The stored hive block: a coinbase with a reward output. -/
def forkSourceBlock : CBlock :=
  { (default : CBlock) with
    nNonce := 1
    vtx := [{ (default : CTransaction) with vout := [⟨0, []⟩, ⟨0, forkRewardScript⟩] }] }

/-- The pop block at height 151: a public claim on the hive block, 150 blocks
below it, with the crossroads game; its coinbase script pushes the height. -/
def forkPopBlock : CBlock :=
  { (default : CBlock) with
    nNonce := 2
    vtx := [{ (default : CTransaction) with
      vin := [⟨⟨Uint256.null, 0xffffffff⟩, [0x02, 0x97, 0x00], 0, ⟨[]⟩⟩]
      vout := [⟨0, popProofScript 0 forkSourceHash false [] crossroadsGame.solution⟩, ⟨0, forkRewardScript⟩] }] }

/-- The node: both branches indexed, the hive block's branch active and its
block stored. -/
def forkState : NodeState where
  mapBlockIndex := (StdMap.empty.insert Uint256.null forkParent).insert forkSourceHash
    (forkSourceRecord :: powBlocksUpTo 0x1e0fffff 0)
  chainActive := forkActiveChain
  pcoinsTip := none
  blockStore := fun h => if h = forkSourceHash then some forkSourceBlock else none
  fHavePruned := false

theorem forkPopBlock_accepted :
    (checkBlock forkEnv mainParams forkState forkPopBlock false true true true).1 = .ok (.ok ()) := by
  decide +kernel

/-- A pop block on a side branch, checked with `fPopCheckActiveChain` set,
passes `CheckBlock` claiming a hive block of the active chain that is not its
ancestor: the block's parent is a branch of PoW blocks on the genesis block,
the claimed source is the active chain's hive block at height 1, 150 blocks
below the pop block. -/
theorem popClaim_off_ancestry :
    (checkBlock forkEnv mainParams forkState forkPopBlock false true true true).1 = .ok (.ok ()) ∧
      forkState.mapBlockIndex.find forkPopBlock.hashPrevBlock = some forkParent ∧
      (decodePopProof (popProofScript 0 forkSourceHash false [] crossroadsGame.solution)).gameSourceHash =
        forkSourceHash ∧
      forkState.mapBlockIndex.find forkSourceHash = some (forkSourceRecord :: powBlocksUpTo 0x1e0fffff 0) ∧
      forkSourceBlock.isHiveMined mainParams = true ∧
      ¬ (forkSourceRecord :: powBlocksUpTo 0x1e0fffff 0) <:+ forkParent := by
  refine ⟨forkPopBlock_accepted, rfl, by decide, rfl, rfl, ?_⟩
  decide

/-- The side-branch pop block meets every hypothesis of
`popClaim_anchored_by_height`: its claim names the stored hive block of the
active chain. -/
theorem popClaim_anchored_by_height_fork :
    (0 < mainParams.popMinPrivateGameDepth ∧
        mainParams.popMinPrivateGameDepth ≤ mainParams.popMaxPrivateGameDepth) ∧
      mainParams.hiveNonceMarker ≠ mainParams.popNonceMarker ∧ forkPopBlock.isPopMined mainParams = true ∧
      Linked forkParent ∧
      ∃ tx f s srest sourceBlock, (popCoinbase forkEnv forkPopBlock.vtx).run = .ok (some (tx, f)) ∧
        forkState.mapBlockIndex.find f.gameSourceHash = some (s :: srest) ∧
        readBlockFromDisk forkState (s :: srest) = some sourceBlock ∧
        sourceBlock.isHiveMined mainParams = true := by
  have hdepth : 0 < mainParams.popMinPrivateGameDepth ∧
      mainParams.popMinPrivateGameDepth ≤ mainParams.popMaxPrivateGameDepth := by decide
  have hmarkers : mainParams.hiveNonceMarker ≠ mainParams.popNonceMarker := by decide
  have hlinked : Linked forkParent := linked_powBlocksUpTo 0x1e0fffff 150
  obtain ⟨tx, f, s, srest, sourceBlock, hcb, hsrc, hread, hhive, -⟩ :=
    @popClaim_anchored_by_height forkEnv mainParams forkState forkPopBlock true true true
      (stampedRecord 150 0x1e0fffff 0) (powBlocksUpTo 0x1e0fffff 149) hdepth hmarkers rfl rfl hlinked
      forkPopBlock_accepted
  exact ⟨hdepth, hmarkers, rfl, hlinked, tx, f, s, srest, sourceBlock, hcb, hsrc, hread, hhive⟩

/-! ## An earlier claim whose block cannot be read -/

/-- The hash of an earlier pop block on the pop block's own ancestry. -/
def claimantHash : Uint256 := ⟨List.replicate 32 0x0b, by simp⟩

/-- The earlier pop block's index entry, at height 10. -/
def claimantRecord : IndexRecord := { stampedRecord 10 0x1e0fffff 2 with hashBlock := claimantHash }

/-- The chain from the earlier pop block down: PoW blocks at heights 2..9 on
the hive block at height 1 on the genesis block. -/
def claimantChain : CBlockIndex :=
  claimantRecord :: powBlocksAbove 0x1e0fffff 1 (forkSourceRecord :: powBlocksUpTo 0x1e0fffff 0) 8

/-- The pop block's parent: 140 PoW blocks above the earlier pop block. -/
def claimantParent : CBlockIndex := powBlocksAbove 0x1e0fffff 10 claimantChain 140

/-- The earlier pop block's data: it claims the same hive block, publicly. -/
def claimantBlock : CBlock :=
  { (default : CBlock) with
    nNonce := 2
    vtx := [{ (default : CTransaction) with
      vin := [⟨⟨Uint256.null, 0xffffffff⟩, [0x01, 0x0a], 0, ⟨[]⟩⟩]
      vout := [⟨0, popProofScript 0 forkSourceHash false [] crossroadsGame.solution⟩, ⟨0, forkRewardScript⟩] }] }

/-- A node with one chain, active, that has the hive block's data but not
yet the earlier pop block's (its header is indexed, its block not downloaded). -/
def unreadState : NodeState where
  mapBlockIndex := (StdMap.empty.insert Uint256.null claimantParent).insert forkSourceHash
    (forkSourceRecord :: powBlocksUpTo 0x1e0fffff 0)
  chainActive := claimantParent
  pcoinsTip := none
  blockStore := fun h => if h = forkSourceHash then some forkSourceBlock else none
  fHavePruned := false

/-- The same node once the earlier pop block's data is stored. -/
def readState : NodeState :=
  { unreadState with
    blockStore := fun h => if h = claimantHash then some claimantBlock else unreadState.blockStore h }

set_option maxRecDepth 20000 in
/-- Uniqueness of a claim holds only among the blocks whose data can be read:
the scan skips a pop block it cannot read. A pop block whose ancestry holds,
above the source's height, an earlier pop block claiming the same hive block
passes `CheckBlock` while that block's data is missing, and fails with
`bad-pop-proof` once it is stored. -/
theorem popClaim_unread_claimant :
    (checkBlock forkEnv mainParams unreadState forkPopBlock false true true true).1 = .ok (.ok ()) ∧
      claimantChain <:+ claimantParent ∧ claimantRecord.isPopMined mainParams = true ∧
      forkSourceRecord.nHeight < claimantRecord.nHeight ∧ readBlockFromDisk unreadState claimantChain = none ∧
      claimedSourceHash claimantBlock = .ok forkSourceHash ∧
      (checkBlock forkEnv mainParams readState forkPopBlock false true true true).1 = .ok (.error "bad-pop-proof") := by
  have hunread : (checkBlock forkEnv mainParams unreadState forkPopBlock false true true true).1 =
      .ok (.ok ()) := by
    decide +kernel
  have hread : (checkBlock forkEnv mainParams readState forkPopBlock false true true true).1 =
      .ok (.error "bad-pop-proof") := by
    decide
  refine ⟨hunread, ⟨(powBlocksAbove 0x1e0fffff 10 claimantChain 140).take 140, ?_⟩, rfl, by decide, rfl,
    by decide, hread⟩
  decide

end Ring.Pop
