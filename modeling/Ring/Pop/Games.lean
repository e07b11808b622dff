import Ring.Pop.Claims

/-!
# The games a wallet offers (src/wallet/wallet.cpp:3131-3216)

`CWallet::GetAvailableGames` walks the active chain back from its tip at
height `t` in three windows, measured by the depth `d = t - s` of a block at
height `s`:

* the private window, `popMinPrivateGameDepth ≤ d < popMaxPrivateGameDepth`:
  hive blocks whose reward destination the wallet can spend;
* the public window, `popMaxPrivateGameDepth ≤ d < popMaxPublicGameDepth`:
  every hive block;
* the last `popMaxPublicGameDepth` blocks: the source a stored pop block
  claims is taken off the list.

`CheckPopProof` judges a pop block at `t + 1`, where the same block lies at
depth `d + 1`: a private claim for `popMinPrivateGameDepth ≤ d + 1 ≤
popMaxPrivateGameDepth`, a public one for `popMaxPrivateGameDepth ≤ d + 1 ≤
popMaxPublicGameDepth`. The upper edges agree; at each lower edge the wallet
offers a source one block after consensus takes a claim on it.

Results:
* `walkAbove_invariant`, `walkAbove_claimedGameVisit`: what the three walks
  keep and what the last one removes.
* `getAvailableGames_offered`: every offered game names a hive block of the
  active chain inside its window, whose reward the wallet can spend when the
  game is private, with `blocksRemaining` the window's blocks left, and no
  readable pop block of the last `popMaxPublicGameDepth` blocks claims it.
* `getAvailableGames_depthInRange`: so a pop block on the tip claiming an
  offered game passes the depth range of `CheckPopProof`.
* `availableGames_miss_first_depth`: the converse fails at both lower edges.
-/
namespace Ring.Pop

open Ring.Lib Ring.Arith Ring.Script Ring.Chain Ring.Node

/-- `CAvailableGame`. -/
structure CAvailableGame where
  gameSourceHash : Uint256
  blocksRemaining : Int
  isPrivate : Bool
  deriving DecidableEq

/-- `CChain::Height()`: the number of blocks of the active chain minus one.
mirrors src/chain.h:503-505 -/
def chainHeight (tip : CBlockIndex) : Int := (tip.length : Int) - 1

/-- `chainActive[nHeight]`: the tip's ancestor at `nHeight`, null out of range.
mirrors src/chain.h:477-481 -/
def chainAt (tip : CBlockIndex) (nHeight : Int) : CBlockIndex :=
  if 0 ≤ nHeight ∧ nHeight < tip.length then tip.drop (tip.length - 1 - nHeight.toNat) else []

/-- `potentialGames[game.gameSourceHash.ToString()] = game`: the map is keyed
by the source hash. -/
def setGame (games : List CAvailableGame) (game : CAvailableGame) : List CAvailableGame :=
  games.filter (·.gameSourceHash != game.gameSourceHash) ++ [game]

/-- `potentialGames.erase(tempGameSourceHashStr)`. -/
def eraseGame (games : List CAvailableGame) (h : Uint256) : List CAvailableGame :=
  games.filter (·.gameSourceHash != h)

/-- `while (pblockindex->nHeight > stopHeight)`: visit the block, assert
`pprev` and step to it. The three loops of `GetAvailableGames` differ only in
`visit`; the walk returns where it stopped and the map. -/
def walkAbove (visit : CBlockIndex → List CAvailableGame → Except Fault (List CAvailableGame))
    (stopHeight : Int) : CBlockIndex → List CAvailableGame → Except Fault (CBlockIndex × List CAvailableGame)
  | [], _ => .error .nullDeref
  | r :: rest, games =>
    if r.nHeight > stopHeight then do
      let games ← visit (r :: rest) games
      if rest = [] then throw .assertion
      walkAbove visit stopHeight rest games
    else pure (r :: rest, games)

/-- The private loop's body: a hive block whose stored coinbase pays, in
`vout[1]`, a valid destination the wallet can spend (`ISMINE_SPENDABLE`).
mirrors src/wallet/wallet.cpp:3149-3166 -/
def privateGameVisit (env : Env) (params : Params) (st : NodeState) (isMine : CTxDestination → Bool)
    (tipHeight : Int) (pindex : CBlockIndex) (games : List CAvailableGame) :
    Except Fault (List CAvailableGame) :=
  match pindex with
  | [] => .error .nullDeref
  | r :: _ =>
    if !r.isHiveMined params then pure games else
    match readBlockFromDisk st pindex with
    | none => pure games
    | some block => do
      let tx0 ← at! block.vtx 0
      let out1 ← at! tx0.vout 1
      match env.extractDestination out1.scriptPubKey with
      | none => pure games
      | some rewardDestination =>
        if isValidDestination rewardDestination && isMine rewardDestination then
          let depth := tipHeight - r.nHeight
          pure (setGame games ⟨r.hashBlock, params.popMaxPrivateGameDepth - depth, true⟩)
        else pure games

/-- The public loop's body: every hive block.
mirrors src/wallet/wallet.cpp:3177-3184 -/
def publicGameVisit (params : Params) (tipHeight : Int) (pindex : CBlockIndex) (games : List CAvailableGame) :
    Except Fault (List CAvailableGame) :=
  match pindex with
  | [] => .error .nullDeref
  | r :: _ =>
    if r.isHiveMined params then
      let depth := tipHeight - r.nHeight
      pure (setGame games ⟨r.hashBlock, params.popMaxPublicGameDepth - depth, false⟩)
    else pure games

/-- The removal loop's body: a readable pop block's claimed source, bytes
4..35 of its coinbase's `vout[0]`, leaves the map.
mirrors src/wallet/wallet.cpp:3193-3205 -/
def claimedGameVisit (params : Params) (st : NodeState) (pindex : CBlockIndex) (games : List CAvailableGame) :
    Except Fault (List CAvailableGame) :=
  match pindex with
  | [] => .error .nullDeref
  | r :: _ =>
    if r.isPopMined params then
      match readBlockFromDisk st pindex with
      | none => pure games
      | some block => do
        let tempGameSourceHash ← claimedSourceHash block
        pure (eraseGame games tempGameSourceHash)
    else pure games

/-- `CWallet::GetAvailableGames`, the wallet's keys given by `isMine`; the
order of the result, an `unordered_map`'s, is not modelled.
mirrors src/wallet/wallet.cpp:3131-3216 -/
def getAvailableGames (env : Env) (params : Params) (st : NodeState) (isMine : CTxDestination → Bool) :
    Except Fault (List CAvailableGame) := do
  if chainHeight st.chainActive < params.popMaxPublicGameDepth then return []
  let tipHeight := chainHeight st.chainActive
  let stopHeight := tipHeight - params.popMaxPrivateGameDepth
  let pblockindex := chainAt st.chainActive (tipHeight - params.popMinPrivateGameDepth)
  if pblockindex = [] then return []
  let (pblockindex, games) ←
    walkAbove (privateGameVisit env params st isMine tipHeight) stopHeight pblockindex []
  let stopHeight := tipHeight - params.popMaxPublicGameDepth
  let (_, games) ← walkAbove (publicGameVisit params tipHeight) stopHeight pblockindex games
  let (_, games) ← walkAbove (claimedGameVisit params st) stopHeight st.chainActive games
  return games

/-! ## What the walks keep -/

/-- The wallet can sign for a hive block's reward: its stored coinbase pays,
in `vout[1]`, a valid destination the wallet can spend. -/
def RewardIsMine (env : Env) (st : NodeState) (isMine : CTxDestination → Bool) (pindex : CBlockIndex) :
    Prop :=
  ∃ block tx0 out1 d, readBlockFromDisk st pindex = some block ∧ at! block.vtx 0 = .ok tx0 ∧
    at! tx0.vout 1 = .ok out1 ∧ env.extractDestination out1.scriptPubKey = some d ∧
    isValidDestination d = true ∧ isMine d = true

/-- A game the wallet may offer at tip height `t`: it names a hive block `r`
of the active chain, either in the private window with a reward the wallet
can spend or in the public window, and `blocksRemaining` counts the blocks
left of that window. -/
def InWindow (env : Env) (params : Params) (st : NodeState) (isMine : CTxDestination → Bool) (t : Int)
    (g : CAvailableGame) : Prop :=
  ∃ r rest, (r :: rest) <:+ st.chainActive ∧ r.hashBlock = g.gameSourceHash ∧
    r.isHiveMined params = true ∧
    if g.isPrivate then
      params.popMinPrivateGameDepth ≤ t - r.nHeight ∧ t - r.nHeight < params.popMaxPrivateGameDepth ∧
        g.blocksRemaining = params.popMaxPrivateGameDepth - (t - r.nHeight) ∧
        RewardIsMine env st isMine (r :: rest)
    else
      params.popMaxPrivateGameDepth ≤ t - r.nHeight ∧ t - r.nHeight < params.popMaxPublicGameDepth ∧
        g.blocksRemaining = params.popMaxPublicGameDepth - (t - r.nHeight)

/-- No readable pop block of `p` above `stop` claims the game's source. -/
def Unclaimed (params : Params) (st : NodeState) (stop : Int) (p : CBlockIndex) (g : CAvailableGame) : Prop :=
  ∀ q qrest, (q :: qrest) <:+ p → stop < q.nHeight → q.isPopMined params = true →
    ∀ block, readBlockFromDisk st (q :: qrest) = some block → claimedSourceHash block ≠ .ok g.gameSourceHash

theorem mem_setGame {games : List CAvailableGame} {game g : CAvailableGame} (h : g ∈ setGame games game) :
    g ∈ games ∨ g = game := by
  simp only [setGame, List.mem_append, List.mem_filter, List.mem_singleton] at h
  rcases h with ⟨hg, -⟩ | rfl
  · exact .inl hg
  · exact .inr rfl

theorem mem_eraseGame {games : List CAvailableGame} {h : Uint256} {g : CAvailableGame} :
    g ∈ eraseGame games h ↔ g ∈ games ∧ g.gameSourceHash ≠ h := by
  simp [eraseGame]

/-- The ancestor `chainActive[nHeight]` of a linked chain is at `nHeight`. -/
theorem chainAt_cons {tip : CBlockIndex} (hlinked : Linked tip) {nHeight : Int} {r : IndexRecord}
    {rest : CBlockIndex} (hat : chainAt tip nHeight = r :: rest) :
    r.nHeight = nHeight ∧ (r :: rest) <:+ tip := by
  unfold chainAt at hat
  split_ifs at hat with hrange
  have hsuf : (r :: rest) <:+ tip := hat ▸ List.drop_suffix _ _
  have hlen : rest.length + 1 = tip.length - (tip.length - 1 - nHeight.toNat) := by
    rw [← List.length_cons, ← hat, List.length_drop]
  have htoNat := Int.toNat_of_nonneg hrange.1
  refine ⟨?_, hsuf⟩
  rw [(hlinked.of_suffix hsuf).height]
  omega

/-- A walk keeps any property of the map that each visit above `stop`
keeps, and stops at an ancestor at or below `stop`. -/
theorem walkAbove_invariant (P : CAvailableGame → Prop)
    {visit : CBlockIndex → List CAvailableGame → Except Fault (List CAvailableGame)} {stop : Int} :
    ∀ {p : CBlockIndex} {games : List CAvailableGame} {p' : CBlockIndex} {games' : List CAvailableGame},
      (∀ g ∈ games, P g) →
      (∀ r rest, (r :: rest) <:+ p → stop < r.nHeight →
        ∀ x x', (∀ g ∈ x, P g) → visit (r :: rest) x = .ok x' → ∀ g ∈ x', P g) →
      walkAbove visit stop p games = .ok (p', games') →
      (∀ g ∈ games', P g) ∧ p' <:+ p ∧ ∀ r rest, p' = r :: rest → r.nHeight ≤ stop
  | [], _, _, _, _, _, h => by simp [walkAbove] at h
  | r :: rest, games, p', games', hgames, hvisit, h => by
    unfold walkAbove at h
    by_cases hr : r.nHeight > stop
    · -- one round: visit the block, then walk on from its parent
      rw [if_pos hr] at h
      rcases hx : visit (r :: rest) games with e | x
      · simp [hx, bind, Except.bind] at h
      have hxP := hvisit r rest List.suffix_rfl hr games x hgames hx
      simp only [hx, bind, Except.bind] at h
      split_ifs at h with hrest
      obtain ⟨hP, hsuf, hstop⟩ := walkAbove_invariant P hxP
        (fun q qrest hq => hvisit q qrest (hq.trans (List.suffix_cons r rest))) h
      exact ⟨hP, hsuf.trans (List.suffix_cons r rest), hstop⟩
    · rw [if_neg hr] at h
      simp only [pure, Except.pure, Except.ok.injEq, Prod.mk.injEq] at h
      obtain ⟨rfl, rfl⟩ := h
      refine ⟨hgames, List.suffix_rfl, fun q qrest hq => ?_⟩
      cases hq
      omega

/-- The removal loop's body takes off at most the source the pop block it
stands on claims. -/
theorem claimedGameVisit_mem {params : Params} {st : NodeState} {r : IndexRecord} {rest : CBlockIndex}
    {games x : List CAvailableGame} (hx : claimedGameVisit params st (r :: rest) games = .ok x) :
    ∀ g ∈ x, g ∈ games ∧ (r.isPopMined params = true → ∀ block, readBlockFromDisk st (r :: rest) = some block →
      claimedSourceHash block ≠ .ok g.gameSourceHash) := by
  intro g hg
  simp only [claimedGameVisit] at hx
  by_cases hpop : r.isPopMined params = true
  · rw [if_pos hpop] at hx
    rcases hread : readBlockFromDisk st (r :: rest) with _ | block
    · simp only [hread, pure, Except.pure, Except.ok.injEq] at hx
      subst hx
      exact ⟨hg, fun _ _ h => by cases h⟩
    rcases hclaim : claimedSourceHash block with e | h'
    · simp [hread, hclaim, bind, Except.bind] at hx
    simp only [hread, hclaim, bind, Except.bind, pure, Except.pure, Except.ok.injEq] at hx
    subst hx
    obtain ⟨hg, hne⟩ := mem_eraseGame.mp hg
    refine ⟨hg, fun _ b hb => ?_⟩
    cases hb
    rw [hclaim]
    exact fun heq => hne (Except.ok.inj heq).symm
  · rw [if_neg hpop] at hx
    simp only [pure, Except.pure, Except.ok.injEq] at hx
    subst hx
    exact ⟨hg, fun h => absurd h hpop⟩

/-- The removal walk only takes games off, and what is left is claimed by no
readable pop block it passed. -/
theorem walkAbove_claimedGameVisit {params : Params} {st : NodeState} {stop : Int} :
    ∀ {p : CBlockIndex} {games : List CAvailableGame} {p' : CBlockIndex} {games' : List CAvailableGame},
      Linked p → walkAbove (claimedGameVisit params st) stop p games = .ok (p', games') →
      ∀ g ∈ games', g ∈ games ∧ Unclaimed params st stop p g
  | [], _, _, _, _, h => by simp [walkAbove] at h
  | r :: rest, games, p', games', hlinked, h => by
    unfold walkAbove at h
    by_cases hr : r.nHeight > stop
    · rw [if_pos hr] at h
      rcases hx : claimedGameVisit params st (r :: rest) games with e | x
      · simp [hx, bind, Except.bind] at h
      simp only [hx, bind, Except.bind] at h
      split_ifs at h with hrest
      intro g hg
      obtain ⟨hgx, hrest'⟩ := walkAbove_claimedGameVisit hlinked.tail h g hg
      obtain ⟨hgames, hr'⟩ := claimedGameVisit_mem hx g hgx
      refine ⟨hgames, fun q qrest hq hqs hqpop block hread => ?_⟩
      -- the block the visit stood on, or one the rest of the walk passed
      rcases List.suffix_cons_iff.mp hq with heq | hq
      · cases heq
        exact hr' hqpop block hread
      · exact hrest' q qrest hq hqs hqpop block hread
    · rw [if_neg hr] at h
      simp only [pure, Except.pure, Except.ok.injEq, Prod.mk.injEq] at h
      obtain ⟨rfl, rfl⟩ := h
      -- in a linked chain every block the walk did not reach is at or below `stop`
      refine fun g hg => ⟨hg, fun q qrest hq hqs _ _ _ => ?_⟩
      have := hlinked.height_le_of_suffix hq
      omega

/-- The private loop's body adds at most the block it stands on, when that
is a hive block whose reward the wallet can spend. -/
theorem privateGameVisit_mem {env : Env} {params : Params} {st : NodeState} {isMine : CTxDestination → Bool}
    {tipHeight : Int} {r : IndexRecord} {rest : CBlockIndex} {games x : List CAvailableGame}
    (hx : privateGameVisit env params st isMine tipHeight (r :: rest) games = .ok x) :
    ∀ g ∈ x, g ∈ games ∨
      (g = ⟨r.hashBlock, params.popMaxPrivateGameDepth - (tipHeight - r.nHeight), true⟩ ∧
        r.isHiveMined params = true ∧ RewardIsMine env st isMine (r :: rest)) := by
  intro g hg
  simp only [privateGameVisit] at hx
  by_cases hhive : r.isHiveMined params = true
  swap
  · simp only [hhive, Bool.not_false, if_true, pure, Except.pure, Except.ok.injEq] at hx
    subst hx
    exact .inl hg
  simp only [hhive, Bool.not_true, Bool.false_eq_true, if_false] at hx
  -- the reads of the stored coinbase's `vout[1]`, each of which may stop the visit
  rcases hread : readBlockFromDisk st (r :: rest) with _ | block
  · simp only [hread, pure, Except.pure, Except.ok.injEq] at hx
    subst hx
    exact .inl hg
  rcases htx0 : at! block.vtx 0 with e | tx0
  · simp [hread, htx0, bind, Except.bind] at hx
  rcases hout1 : at! tx0.vout 1 with e | out1
  · simp [hread, htx0, hout1, bind, Except.bind] at hx
  rcases hdest : env.extractDestination out1.scriptPubKey with _ | d
  · simp only [hread, htx0, hout1, hdest, bind, Except.bind, pure, Except.pure, Except.ok.injEq] at hx
    subst hx
    exact .inl hg
  simp only [hread, htx0, hout1, hdest, bind, Except.bind] at hx
  by_cases hmine : (isValidDestination d && isMine d) = true
  · simp only [hmine, if_true, pure, Except.pure, Except.ok.injEq] at hx
    subst hx
    rcases mem_setGame hg with hg | rfl
    · exact .inl hg
    · rw [Bool.and_eq_true] at hmine
      exact .inr ⟨rfl, hhive, block, tx0, out1, d, hread, htx0, hout1, hdest, hmine.1, hmine.2⟩
  · simp only [hmine, Bool.false_eq_true, if_false, pure, Except.pure, Except.ok.injEq] at hx
    subst hx
    exact .inl hg

/-- The public loop's body adds at most the block it stands on, when that is
a hive block. -/
theorem publicGameVisit_mem {params : Params} {tipHeight : Int} {r : IndexRecord} {rest : CBlockIndex}
    {games x : List CAvailableGame} (hx : publicGameVisit params tipHeight (r :: rest) games = .ok x) :
    ∀ g ∈ x, g ∈ games ∨
      (g = ⟨r.hashBlock, params.popMaxPublicGameDepth - (tipHeight - r.nHeight), false⟩ ∧
        r.isHiveMined params = true) := by
  intro g hg
  simp only [publicGameVisit] at hx
  by_cases hhive : r.isHiveMined params = true
  · simp only [hhive, if_true, pure, Except.pure, Except.ok.injEq] at hx
    subst hx
    rcases mem_setGame hg with hg | rfl
    · exact .inl hg
    · exact .inr ⟨rfl, hhive⟩
  · simp only [hhive, Bool.false_eq_true, if_false, pure, Except.pure, Except.ok.injEq] at hx
    subst hx
    exact .inl hg

/-! ## The offered games -/

/-- Every game `GetAvailableGames` returns names a hive block of the active
chain inside its window, whose reward the wallet can spend when the game is
private, and no readable pop block of the last `popMaxPublicGameDepth` blocks
claims it. -/
theorem getAvailableGames_offered {env : Env} {params : Params} {st : NodeState}
    {isMine : CTxDestination → Bool} {games : List CAvailableGame} (hlinked : Linked st.chainActive)
    (h : getAvailableGames env params st isMine = .ok games) :
    ∀ g ∈ games, InWindow env params st isMine (chainHeight st.chainActive) g ∧
      Unclaimed params st (chainHeight st.chainActive - params.popMaxPublicGameDepth) st.chainActive g := by
  unfold getAvailableGames at h
  set t := chainHeight st.chainActive
  -- the early returns: a short chain, no block at `popMinPrivateGameDepth`
  by_cases hshort : t < params.popMaxPublicGameDepth
  · simp only [hshort, if_true, pure, Except.pure, Except.ok.injEq] at h
    subst h
    simp
  simp only [hshort, if_false] at h
  rcases hstart : chainAt st.chainActive (t - params.popMinPrivateGameDepth) with _ | ⟨r0, rest0⟩
  · simp only [hstart, if_true, pure, Except.pure, Except.ok.injEq] at h
    subst h
    simp
  obtain ⟨hr0, hsuf0⟩ := chainAt_cons hlinked hstart
  have hlinked0 : Linked (r0 :: rest0) := hlinked.of_suffix hsuf0
  simp only [hstart, reduceCtorEq, if_false] at h
  -- the three walks
  rcases hw1 : walkAbove (privateGameVisit env params st isMine t) (t - params.popMaxPrivateGameDepth)
      (r0 :: rest0) [] with e | ⟨p1, games1⟩
  · simp [hw1, bind, Except.bind] at h
  rcases hw2 : walkAbove (publicGameVisit params t) (t - params.popMaxPublicGameDepth) p1 games1 with
    e | ⟨p2, games2⟩
  · simp [hw1, hw2, bind, Except.bind] at h
  rcases hw3 : walkAbove (claimedGameVisit params st) (t - params.popMaxPublicGameDepth) st.chainActive
      games2 with e | ⟨p3, games3⟩
  · simp [hw1, hw2, hw3, bind, Except.bind] at h
  simp only [hw1, hw2, hw3, bind, Except.bind, pure, Except.pure, Except.ok.injEq] at h
  subst h
  -- the private walk visits the blocks from `t - popMinPrivateGameDepth` down
  -- to just above `t - popMaxPrivateGameDepth`
  obtain ⟨hP1, hsuf1, hstop1⟩ := walkAbove_invariant (InWindow env params st isMine t) (by simp)
    (fun r rest hsuf hr x x' hx hvisit g hg => by
      rcases privateGameVisit_mem hvisit g hg with hg | ⟨rfl, hhive, hmine⟩
      · exact hx g hg
      have hle := hlinked0.height_le_of_suffix hsuf
      refine ⟨r, rest, hsuf.trans hsuf0, rfl, hhive, ?_⟩
      simp only [if_true]
      exact ⟨by omega, by omega, trivial, hmine⟩) hw1
  -- the public walk goes on from where the private one stopped
  obtain ⟨hP2, -, -⟩ := walkAbove_invariant (InWindow env params st isMine t) hP1
    (fun r rest hsuf hr x x' hx hvisit g hg => by
      rcases publicGameVisit_mem hvisit g hg with hg | ⟨rfl, hhive⟩
      · exact hx g hg
      rcases p1 with _ | ⟨q, qrest⟩
      · cases List.eq_nil_of_suffix_nil hsuf
      have hle := (hlinked0.of_suffix hsuf1).height_le_of_suffix hsuf
      have hq := hstop1 q qrest rfl
      refine ⟨r, rest, (hsuf.trans hsuf1).trans hsuf0, rfl, hhive, ?_⟩
      simp only [Bool.false_eq_true, if_false]
      exact ⟨by omega, by omega, trivial⟩) hw2
  -- the removal walk keeps a subset
  intro g hg
  obtain ⟨hg2, hunclaimed⟩ := walkAbove_claimedGameVisit hlinked hw3 g hg
  exact ⟨hP2 g hg2, hunclaimed⟩

/-- What an offered game promises a pop block on the tip: the game names a
hive block of the active chain inside its window, whose reward the wallet can
spend when the game is private, that no readable pop block of the last
`popMaxPublicGameDepth` blocks claims; and at `t + 1` that block lies one
deeper than the wallet measured, still inside the depth range of
`CheckPopProof` for the game's kind. -/
theorem getAvailableGames_depthInRange {env : Env} {params : Params} {st : NodeState}
    {isMine : CTxDestination → Bool} {games : List CAvailableGame} (hlinked : Linked st.chainActive)
    (h : getAvailableGames env params st isMine = .ok games) :
    ∀ g ∈ games, InWindow env params st isMine (chainHeight st.chainActive) g ∧
      Unclaimed params st (chainHeight st.chainActive - params.popMaxPublicGameDepth) st.chainActive g ∧
      ∃ r rest, (r :: rest) <:+ st.chainActive ∧ r.hashBlock = g.gameSourceHash ∧
        depthInRange params g.isPrivate (chainHeight st.chainActive + 1 - r.nHeight) = true := by
  intro g hg
  obtain ⟨hwindow, hunclaimed⟩ := getAvailableGames_offered hlinked h g hg
  refine ⟨hwindow, hunclaimed, ?_⟩
  obtain ⟨r, rest, hsuf, hhash, -, hwin⟩ := hwindow
  refine ⟨r, rest, hsuf, hhash, ?_⟩
  cases hpriv : g.isPrivate
  · simp only [hpriv, Bool.false_eq_true, if_false] at hwin
    simp only [depthInRange, Bool.false_eq_true, if_false, decide_eq_true_eq]
    omega
  · simp only [hpriv, if_true] at hwin
    simp only [depthInRange, if_true, decide_eq_true_eq]
    omega

/-! ## Both lower edges on the main network -/

/-- The key the hive blocks pay their reward to. -/
def gamesPubKey : List UInt8 := 0x02 :: List.replicate 32 0x3c

/-- The script paying to `gamesPubKey`'s id. -/
def gamesRewardScript : CScript := getScriptForDestination (.keyId ⟨List.replicate 20 0x3c⟩)

/-- The environment: every signature recovers `gamesPubKey`, a key's id is
read off its bytes, and tiles are drawn as `crossroadsHash` draws them. -/
def gamesEnv : Env :=
  { (default : Env) with
    hashWriter := crossroadsHash
    recoverCompact := fun _ _ => some gamesPubKey
    getID := fun pubkey => ⟨(pubkey.drop 1).take 20⟩ }

/-- The hash of the hive block at height 201. -/
def gamesHashA : Uint256 := ⟨List.replicate 32 8, by simp⟩

/-- The hash of the hive block at height 251. -/
def gamesHashB : Uint256 := ⟨List.replicate 32 9, by simp⟩

/-- The active chain, its tip at height 350: hive blocks at 201 and 251, PoW
blocks elsewhere. -/
def gamesChain : CBlockIndex :=
  powBlocksAbove 0x1e0fffff 251
    ({ stampedRecord 251 0x200fffff 1 with hashBlock := gamesHashB } ::
      powBlocksAbove 0x1e0fffff 201
        ({ stampedRecord 201 0x200fffff 1 with hashBlock := gamesHashA } :: powBlocksUpTo 0x1e0fffff 200) 49)
    99

/-- The stored hive blocks: a coinbase with a reward output to `gamesPubKey`. -/
def gamesSourceBlock : CBlock :=
  { (default : CBlock) with
    nNonce := 1
    vtx := [{ (default : CTransaction) with vout := [⟨0, []⟩, ⟨0, gamesRewardScript⟩] }] }

/-- A pop block on the tip claiming `source` with the crossroads game, signed
when private. -/
def gamesPopBlock (source : Uint256) (isPrivate : Bool) : CBlock :=
  { (default : CBlock) with
    nNonce := 2
    vtx := [{ (default : CTransaction) with
      vin := [⟨⟨Uint256.null, 0xffffffff⟩, [], 0, ⟨[]⟩⟩]
      vout := [⟨0, popProofScript 0 source isPrivate (if isPrivate then List.replicate 65 0 else [])
        crossroadsGame.solution⟩, ⟨0, gamesRewardScript⟩] }] }

/-- The node: the active chain indexed by its tip and its two hive blocks,
whose blocks are stored. -/
def gamesState : NodeState where
  mapBlockIndex := ((StdMap.empty.insert Uint256.null gamesChain).insert gamesHashA (gamesChain.drop 149)).insert
    gamesHashB (gamesChain.drop 99)
  chainActive := gamesChain
  pcoinsTip := none
  blockStore := fun h => if h = gamesHashA ∨ h = gamesHashB then some gamesSourceBlock else none
  fHavePruned := false

/-- The active chain's heights count down to 0: two hive blocks inside three
runs of PoW blocks. -/
theorem linked_gamesChain : Linked gamesChain := by
  have h200 : Linked (powBlocksUpTo 0x1e0fffff 200) := linked_powBlocksUpTo 0x1e0fffff 200
  have hA : Linked ({ stampedRecord 201 0x200fffff 1 with hashBlock := gamesHashA } :: powBlocksUpTo 0x1e0fffff 200) :=
    Linked.cons h200 (by rw [head_powBlocksUpTo]; rfl) rfl
  obtain ⟨h250, hhead250⟩ := linked_powBlocksAbove 0x1e0fffff 201 hA rfl 49
  have hB : Linked ({ stampedRecord 251 0x200fffff 1 with hashBlock := gamesHashB } ::
      powBlocksAbove 0x1e0fffff 201
        ({ stampedRecord 201 0x200fffff 1 with hashBlock := gamesHashA } :: powBlocksUpTo 0x1e0fffff 200) 49) :=
    Linked.cons h250 hhead250 (by simp [stampedRecord])
  exact (linked_powBlocksAbove 0x1e0fffff 251 hB rfl 99).1

set_option maxRecDepth 20000 in
/-- With a wallet that can spend every reward, the node offers the private
game on the hive block at 201 only. -/
theorem getAvailableGames_gamesState :
    getAvailableGames gamesEnv mainParams gamesState (fun _ => true) = .ok [⟨gamesHashA, 1, true⟩] := by
  decide

/-- The offered private game on the block at 201 is claimable from the tip. -/
theorem getAvailableGames_depthInRange_games :
    InWindow gamesEnv mainParams gamesState (fun _ => true) (chainHeight gamesState.chainActive)
        ⟨gamesHashA, 1, true⟩ ∧
      Unclaimed mainParams gamesState (chainHeight gamesState.chainActive - mainParams.popMaxPublicGameDepth)
        gamesState.chainActive ⟨gamesHashA, 1, true⟩ ∧
      ∃ r rest, (r :: rest) <:+ gamesState.chainActive ∧ r.hashBlock = gamesHashA ∧
        depthInRange mainParams true (chainHeight gamesState.chainActive + 1 - r.nHeight) = true :=
  getAvailableGames_depthInRange linked_gamesChain getAvailableGames_gamesState _ List.mem_cons_self

set_option maxRecDepth 20000 in
/-- Consensus takes a claim one block before the wallet offers it, at both
lower edges. On the main network, with the active chain at height 350, hive
blocks at 201 and 251 and a wallet that can spend every reward,
`GetAvailableGames` offers only the private game on the block at 201. At
height 351 `CheckPopProof` accepts a public claim on that block, 150 blocks
below (`popMaxPrivateGameDepth`), and a private claim on the block at 251, 100
blocks below (`popMinPrivateGameDepth`); the wallet offers neither. -/
theorem availableGames_miss_first_depth :
    chainHeight gamesState.chainActive = 350 ∧
      gamesState.mapBlockIndex.find gamesHashA = some (gamesChain.drop 149) ∧
      (gamesChain.drop 149).head?.map IndexRecord.nHeight = some 201 ∧
      gamesState.mapBlockIndex.find gamesHashB = some (gamesChain.drop 99) ∧
      (gamesChain.drop 99).head?.map IndexRecord.nHeight = some 251 ∧
      getAvailableGames gamesEnv mainParams gamesState (fun _ => true) = .ok [⟨gamesHashA, 1, true⟩] ∧
      (checkPopProof gamesEnv mainParams gamesState true (gamesPopBlock gamesHashA false)).1 = .ok true ∧
      (checkPopProof gamesEnv mainParams gamesState true (gamesPopBlock gamesHashB true)).1 = .ok true := by
  refine ⟨by decide, by decide, by decide, by decide, by decide,
    getAvailableGames_gamesState, ?_, ?_⟩
  · decide
  · decide

end Ring.Pop
