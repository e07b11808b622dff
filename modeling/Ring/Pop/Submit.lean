import Ring.Pop.Play
import Ring.Pop.Proof
import Ring.Chain.Retarget

/-!
# Submitting a solution (src/wallet/wallet.cpp:2905-3022)

`CWallet::SubmitSolution` writes a won game into the script a pop block's
coinbase carries in `vout[0]`:
`OP_RETURN OP_GAME <gameType> <32:sourceHash> OP_TRUE|OP_FALSE [<65:sig>] <solution>`.
The wallet's own checks around it (peers, the source block, its keys) are not
modelled; `messageProofVec` is the signature `SignCompact` returns.

Results:
* `popProofScript_decode`: for game type 0, a 65-byte signature and a solution
  of 4 to 75 moves, the script passes the length and opcode guards of
  `CheckPopProof`, and `decodePopProof` reads back the source hash, the flag,
  the signature of a private claim and the solution.
* `popMinScoreTarget_le_getNextPopScoreRequired`: the score target never falls
  below `popMinScoreTarget`.
* `submitSolution_verifies`: a game won against the tip's target is decoded by
  `CheckPopProof` into the fields the wallet wrote, and its solution verifies.
-/
namespace Ring.Pop

open Ring.Lib Ring.Arith Ring.Script Ring.Chain Ring.Node

/-- The proof script `SubmitSolution` assembles: the source hash's bytes go in
reversed, the signature only for a private claim.
mirrors src/wallet/wallet.cpp:2941-3017 -/
def popProofScript (gameType : UInt8) (gameSourceHash : Uint256) (isPrivate : Bool)
    (messageProofVec solution : List UInt8) : CScript :=
  let gameSourceHashVec := gameSourceHash.data.reverse
  let privateFlag := if isPrivate then OP_TRUE else OP_FALSE
  let s := pushInt64 (pushOpcode (pushOpcode [] OP_RETURN) OP_GAME) gameType.toNat
  let s := pushOpcode (pushData s gameSourceHashVec) privateFlag
  let s := if isPrivate then pushData s messageProofVec else s
  pushData s solution

/-- The script of game type 0, byte by byte. -/
theorem popProofScript_eq (h : Uint256) (isPrivate : Bool) (sig sol : List UInt8)
    (hsig : sig.length = 65) (hsol : sol.length < 76) :
    popProofScript 0 h isPrivate sig sol =
      [OP_RETURN, OP_GAME, OP_0, 32] ++ h.data.reverse ++
        (if isPrivate then OP_TRUE else OP_FALSE) ::
          ((if isPrivate then 65 :: sig else []) ++ UInt8.ofNat sol.length :: sol) := by
  have h32 : h.data.reverse.length = 32 := by simp [h.size_eq]
  cases isPrivate <;>
    simp [popProofScript, pushOpcode, pushInt64, pushData_short _ _ hsol, h32, hsig,
      pushData_short _ _ (by omega : h.data.reverse.length < 76),
      pushData_short _ _ (by omega : sig.length < 76)]

/-- The proof round trip. The script of game type 0 with a 65-byte signature
and a solution of 4 to 75 bytes passes the length guard of `CheckPopProof`,
starts `OP_RETURN OP_GAME`, and decodes into game type 0, the source hash, the
flag, the signature of a private claim and the solution. -/
theorem popProofScript_decode (h : Uint256) (isPrivate : Bool) (sig sol : List UInt8)
    (hsig : sig.length = 65) (hsol : 4 ≤ sol.length ∧ sol.length < 76) :
    ((popProofScript 0 h isPrivate sig sol).length < 42 ||
        ((popProofScript 0 h isPrivate sig sol).getD 36 0 == OP_TRUE &&
          (popProofScript 0 h isPrivate sig sol).length < 108)) = false ∧
      (popProofScript 0 h isPrivate sig sol).getD 0 0 = OP_RETURN ∧
      (popProofScript 0 h isPrivate sig sol).getD 1 0 = OP_GAME ∧
      (decodePopProof (popProofScript 0 h isPrivate sig sol)).gameType = 0 ∧
      (decodePopProof (popProofScript 0 h isPrivate sig sol)).gameSourceHash = h ∧
      (decodePopProof (popProofScript 0 h isPrivate sig sol)).isPrivate = isPrivate ∧
      (isPrivate = true → (decodePopProof (popProofScript 0 h isPrivate sig sol)).messageSig = sig) ∧
      (decodePopProof (popProofScript 0 h isPrivate sig sol)).solution = sol := by
  set spk := popProofScript 0 h isPrivate sig sol
  set flag : UInt8 := if isPrivate then OP_TRUE else OP_FALSE
  -- everything before the solution: its length fixes where `CheckPopProof` reads it
  set pre : List UInt8 := [OP_RETURN, OP_GAME, OP_0, 32] ++ h.data.reverse ++ flag ::
    ((if isPrivate then 65 :: sig else []) ++ [UInt8.ofNat sol.length])
  have h32 : h.data.reverse.length = 32 := by simp [h.size_eq]
  have hspk : spk = [OP_RETURN, OP_GAME, OP_0, 32] ++ h.data.reverse ++ flag ::
      ((if isPrivate then 65 :: sig else []) ++ UInt8.ofNat sol.length :: sol) :=
    popProofScript_eq h isPrivate sig sol hsig hsol.2
  have hsplit : spk = pre ++ sol := by simp [hspk, pre]
  have hpre : pre.length = if isPrivate then 104 else 38 := by
    cases isPrivate <;> simp [pre, h32, hsig]
  have hflag : (spk.getD 36 0 == OP_TRUE) = isPrivate := by
    rw [getD_of_append hspk (by simp [h32])]
    cases isPrivate <;> rfl
  have hsource : readSourceHash spk 4 = h := by
    have hhash : slice spk 4 32 = h.data.reverse := slice_of_append hspk rfl h32
    apply Uint256.ext
    rw [readSourceHash, hhash, setHex_hexStr _ h32, List.reverse_reverse]
  refine ⟨?guard, by simp [hspk], by simp [hspk], by simp [decodePopProof, hspk, OP_0], hsource,
    hflag, ?sig, ?solution⟩
  case guard =>
    rw [hflag, hsplit, List.length_append, hpre]
    cases isPrivate <;> simp <;> omega
  case sig =>
    rintro rfl
    have hlayout : spk = [OP_RETURN, OP_GAME, OP_0, 32] ++ h.data.reverse ++ [flag, 65] ++ sig ++
        UInt8.ofNat sol.length :: sol := by
      rw [hspk]
      simp
    exact slice_of_append hlayout (by simp [h32]) hsig
  case solution =>
    simp only [decodePopProof]
    rw [hflag, ← hpre, hsplit, List.drop_left]

/-! ## The score target -/

/-- The pop score target is never below `popMinScoreTarget`: the share of pop
blocks in the window only adds to it. -/
theorem popMinScoreTarget_le_getNextPopScoreRequired {params : Params} {pindexLast : CBlockIndex}
    {t : Int} (hw : params.popScoreAdjustWindowSize ≠ 0) (hmin : 0 ≤ params.popMinScoreTarget)
    (hle : params.popMinScoreTarget ≤ params.popMaxScoreTarget)
    (h : getNextPopScoreRequired params pindexLast = .ok t) : params.popMinScoreTarget ≤ t := by
  unfold getNextPopScoreRequired at h
  cases hloop : popCountLoop params params.popScoreAdjustWindowSize.toNat pindexLast 0 with
  | error e => simp [hloop] at h
  | ok score =>
    set S := params.popScoreAdjustWindowSize * params.popScoreAdjustWindowSize
    set minScore := params.popMinScoreTarget * S
    set d := (score * score * (params.popMaxScoreTarget * S - minScore)).tdiv S
    have ht : t = (minScore + d).tdiv S := by
      simp only [hloop] at h
      exact (Except.ok.inj h).symm
    have hS : 0 < S := by
      rcases Int.lt_or_gt_of_ne hw with hneg | hpos
      · exact Int.mul_pos_of_neg_of_neg hneg hneg
      · exact Int.mul_pos hpos hpos
    have hd : 0 ≤ d := by
      have hsq : 0 ≤ score * score := by
        rw [← Int.natAbs_mul_self' score]
        exact Int.mul_nonneg (Int.natCast_nonneg _) (Int.natCast_nonneg _)
      have hspread : minScore ≤ params.popMaxScoreTarget * S := Int.mul_le_mul_of_nonneg_right hle hS.le
      exact Int.tdiv_nonneg (Int.mul_nonneg hsq (by omega)) hS.le
    have hminScore : 0 ≤ minScore := Int.mul_nonneg hmin hS.le
    rw [ht, Int.tdiv_eq_ediv_of_nonneg (by omega), Int.le_ediv_iff_mul_le hS]
    omega

/-! ## A won game, submitted -/

/-- Proof of play end to end, on a network whose score floor is above 50 (it is
70 on every network) and below its ceiling. Take moves on the board that
`PlaceTile` accepts from `InitGame(h)`, reaching a score at least the tip's
target `t`. The script `SubmitSolution` writes for them, with a 65-byte
signature, passes the length and opcode guards of `CheckPopProof`; it decodes
into game type 0, the source hash `h`, the same flag, the signature of a
private claim and exactly the game's solution; and
`VerifyGameSolution(t, h, solution)` returns true. -/
theorem submitSolution_verifies {params : Params} {hashWriter : List UInt8 → Uint256} {tip : CBlockIndex}
    {h : Uint256} {isPrivate : Bool} {sig : List UInt8} {moves : List (Int × Int × Int)} {g : Game0}
    {t score : Int} (hwindow : params.popScoreAdjustWindowSize ≠ 0) (hfloor : 50 < params.popMinScoreTarget)
    (hceiling : params.popMinScoreTarget ≤ params.popMaxScoreTarget)
    (hsig : sig.length = 65) (hmoves : ∀ mv ∈ moves, MoveInRange mv)
    (hplay : playMoves hashWriter (initGame hashWriter h) moves = .ok g)
    (ht : getNextPopScoreRequired params tip = .ok t)
    (hscore : calculateScore g.tileMap = .ok score) (hwin : t ≤ score) :
    ((popProofScript 0 h isPrivate sig g.solution).length < 42 ||
        ((popProofScript 0 h isPrivate sig g.solution).getD 36 0 == OP_TRUE &&
          (popProofScript 0 h isPrivate sig g.solution).length < 108)) = false ∧
      (popProofScript 0 h isPrivate sig g.solution).getD 0 0 = OP_RETURN ∧
      (popProofScript 0 h isPrivate sig g.solution).getD 1 0 = OP_GAME ∧
      (decodePopProof (popProofScript 0 h isPrivate sig g.solution)).gameType = 0 ∧
      (decodePopProof (popProofScript 0 h isPrivate sig g.solution)).gameSourceHash = h ∧
      (decodePopProof (popProofScript 0 h isPrivate sig g.solution)).isPrivate = isPrivate ∧
      (isPrivate = true →
        (decodePopProof (popProofScript 0 h isPrivate sig g.solution)).messageSig = sig) ∧
      (decodePopProof (popProofScript 0 h isPrivate sig g.solution)).solution = g.solution ∧
      verifyGameSolution hashWriter t
          (decodePopProof (popProofScript 0 h isPrivate sig g.solution)).gameSourceHash
          (decodePopProof (popProofScript 0 h isPrivate sig g.solution)).solution =
        .ok (.ok ()) := by
  have htarget : params.popMinScoreTarget ≤ t :=
    popMinScoreTarget_le_getNextPopScoreRequired hwindow (by omega) hceiling ht
  obtain ⟨h4, h49⟩ := length_solution_bounds hmoves hplay hscore (by omega)
  obtain ⟨hguard, hop0, hop1, htype, hsource, hflag, hsigAt, hsol⟩ :=
    popProofScript_decode h isPrivate sig g.solution hsig ⟨h4, by omega⟩
  refine ⟨hguard, hop0, hop1, htype, hsource, hflag, hsigAt, hsol, ?_⟩
  rw [hsource, hsol]
  exact verifyGameSolution_of_play hmoves hplay hscore hwin

/-- A hash chain that draws crossroads (tile 4) for the first three tiles and
rooms with one door (tile 7) after them: byte 13 of the hash depends only on
how much is hashed. -/
def crossroadsHash (bs : List UInt8) : Uint256 :=
  ⟨List.replicate 13 0 ++ [if bs.length ≤ 34 then 4 else 7] ++ List.replicate 18 0, by simp⟩

/-- Three crossroads in a row, then eight rooms whose doors face them. -/
def crossroadsMoves : List (Int × Int × Int) :=
  [(3, 3, 0), (2, 3, 0), (4, 3, 0), (2, 2, 0), (3, 2, 0), (4, 2, 0), (2, 4, 2), (3, 4, 2), (4, 4, 2),
   (1, 3, 3), (5, 3, 1)]

/-- The game those moves reach from the zero source hash. -/
def crossroadsGame : Game0 :=
  match playMoves crossroadsHash (initGame crossroadsHash Uint256.null) crossroadsMoves with
  | .ok g => g
  | .error _ => initGame crossroadsHash Uint256.null

/-- Every room reaches the seven others through the crossroads: the game scores
80 against a target of 70, the target 25 PoW blocks give, and its private claim
verifies after the round trip through the script. -/
theorem submitSolution_verifies_crossroads :
    playMoves crossroadsHash (initGame crossroadsHash Uint256.null) crossroadsMoves = .ok crossroadsGame ∧
      getNextPopScoreRequired mainParams (powBlocksUpTo 0x1e0fffff 30) = .ok 70 ∧
      calculateScore crossroadsGame.tileMap = .ok 80 ∧
      verifyGameSolution crossroadsHash 70
          (decodePopProof (popProofScript 0 Uint256.null true (List.replicate 65 0)
            crossroadsGame.solution)).gameSourceHash
          (decodePopProof (popProofScript 0 Uint256.null true (List.replicate 65 0)
            crossroadsGame.solution)).solution =
        .ok (.ok ()) := by
  have hplay : playMoves crossroadsHash (initGame crossroadsHash Uint256.null) crossroadsMoves =
      .ok crossroadsGame := rfl
  have ht : getNextPopScoreRequired mainParams (powBlocksUpTo 0x1e0fffff 30) = .ok 70 := by decide
  have hscore : calculateScore crossroadsGame.tileMap = .ok 80 := by decide
  have hmoves : ∀ mv ∈ crossroadsMoves, MoveInRange mv := by decide
  exact ⟨hplay, ht, hscore,
    (submitSolution_verifies (by decide) (by decide) (by decide) (by rfl) hmoves hplay ht hscore
      (by decide)).2.2.2.2.2.2.2.2⟩

end Ring.Pop
