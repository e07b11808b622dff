import Ring.Pop.Score

/-!
# Playing Game0 and replaying the solution (src/crypto/pop/game0/game0.cpp)

A player's moves go to `Game0::PlaceTile` one by one (`Game0Board::placeTile`
in src/qt/pop/game0/game0board.cpp, with the rotation kept in `0 .. 3`);
`playMoves` is that loop. Every move that succeeds fills one empty cell of
the board with a tile and appends its byte to the solution, so the state
keeps `GameWF`: 49 cells, rotations `0 .. 3`, the tiles to come in
`0 .. 14`, and as many occupied cells as solution bytes.

`VerifyGameSolution` replays the solution from `InitGame(sourceHash)`. A
move's byte unpacks to its `(x, y, rotation)` (`unpack_packMove`), so the
replay takes the same steps as the play (`replayMoves_pack`) and ends on the
same board: the solution of a game that reached the target verifies
(`verifyGameSolution_of_play`), has at most 49 bytes, and has at least four
once the target is above 50 (`length_solution_bounds`).
-/
namespace Ring.Pop

open Ring.Lib Ring.Arith Ring.Node

/-- The moves of a player, each `(x, y, rotation)`, through `PlaceTile` until
the first refusal. -/
def playMoves (hashWriter : List UInt8 → Uint256) (g : Game0) : List (Int × Int × Int) →
    Except String Game0
  | [] => .ok g
  | (x, y, rotation) :: rest => do
    let g ← placeTile hashWriter g x y rotation
    playMoves hashWriter g rest

/-- A move `PlaceTile` accepts from the board: on the board, with a rotation
`0 .. 3`. -/
def MoveInRange (mv : Int × Int × Int) : Prop :=
  0 ≤ mv.1 ∧ mv.1 < 7 ∧ 0 ≤ mv.2.1 ∧ mv.2.1 < 7 ∧ 0 ≤ mv.2.2 ∧ mv.2.2 ≤ 3

instance : DecidablePred MoveInRange := fun mv =>
  inferInstanceAs (Decidable (0 ≤ mv.1 ∧ mv.1 < 7 ∧ 0 ≤ mv.2.1 ∧ mv.2.1 < 7 ∧ 0 ≤ mv.2.2 ∧ mv.2.2 ≤ 3))

/-- The byte a move is logged as. -/
def packTriple (mv : Int × Int × Int) : UInt8 := packMove mv.1 mv.2.1 mv.2.2

/-- What every state of a game keeps. -/
structure GameWF (g : Game0) : Prop where
  length_tileMap : g.tileMap.length = 49
  rotations : RotationsInRange g.tileMap
  currentTile_mem : 0 ≤ g.currentTile ∧ g.currentTile < 15
  nextTile_mem : 0 ≤ g.nextTile ∧ g.nextTile < 15
  card_occupied : (occupiedCells g.tileMap).card = g.solution.length

/-! ## One placement -/

/-- A drawn tile is one of the 15 types. -/
theorem getNextTile_mem (hashWriter : List UInt8 → Uint256) (g : Game0) :
    0 ≤ (getNextTile hashWriter g).2 ∧ (getNextTile hashWriter g).2 < 15 := by
  simp only [getNextTile]
  omega

/-- Writing cell `(x, y)` changes what `tileAt` reads there and nowhere else
on the board. -/
theorem tileAt_set {m : TileMap} (hm : m.length = 49) {x y x' y' : Int} (t : Game0Tile)
    (hxy : 0 ≤ x ∧ x < 7 ∧ 0 ≤ y ∧ y < 7) (hxy' : 0 ≤ x' ∧ x' < 7 ∧ 0 ≤ y' ∧ y' < 7) :
    tileAt (m.set (7 * y + x).toNat t) x' y' = if x' = x ∧ y' = y then t else tileAt m x' y' := by
  unfold tileAt
  rw [List.getD_eq_getElem?_getD, List.getD_eq_getElem?_getD, List.getElem?_set]
  by_cases he : x' = x ∧ y' = y
  · obtain ⟨rfl, rfl⟩ := he
    simp only [hm, if_true]
    rw [if_pos (by omega)]
    rfl
  · have hne : (7 * y + x).toNat ≠ (7 * y' + x').toNat := by omega
    simp [hne, he]

/-- Placing a tile on an empty cell of the board adds that cell to the
occupied ones. -/
theorem occupiedCells_set {m : TileMap} (hm : m.length = 49) {x y : Int} {t : Game0Tile}
    (hxy : 0 ≤ x ∧ x < 7 ∧ 0 ≤ y ∧ y < 7) (ht : t.tileTypeIndex ≠ -1) :
    occupiedCells (m.set (7 * y + x).toNat t) = insert (x, y) (occupiedCells m) := by
  ext ⟨x', y'⟩
  simp only [mem_occupiedCells, Finset.mem_insert, Prod.mk.injEq]
  constructor
  · rintro ⟨hxy', hocc⟩
    rw [tileAt_set hm t hxy hxy'] at hocc
    by_cases he : x' = x ∧ y' = y
    · exact .inl he
    · rw [if_neg he] at hocc
      exact .inr ⟨hxy', hocc⟩
  · rintro (⟨rfl, rfl⟩ | ⟨hxy', hocc⟩)
    · refine ⟨hxy, ?_⟩
      rw [tileAt_set hm t hxy hxy, if_pos ⟨rfl, rfl⟩]
      exact ht
    · refine ⟨hxy', ?_⟩
      rw [tileAt_set hm t hxy hxy']
      split_ifs with he
      · exact ht
      · exact hocc

theorem rotations_set {m : TileMap} (hrot : RotationsInRange m) {t : Game0Tile}
    (ht : 0 ≤ t.rotation ∧ t.rotation ≤ 3) (i : Nat) : RotationsInRange (m.set i t) := by
  intro t' ht'
  rcases List.mem_or_eq_of_mem_set ht' with hmem | rfl
  · exact hrot t' hmem
  · exact ht

/-- A placement `PlaceTile` accepts: the cell is on the board and empty; the
current tile goes there with the rotation, the move's byte is logged, and the
next tile becomes current. -/
theorem placeTile_ok {hashWriter : List UInt8 → Uint256} {g g' : Game0} {x y rotation : Int}
    (h : placeTile hashWriter g x y rotation = .ok g') :
    (0 ≤ x ∧ x < 7 ∧ 0 ≤ y ∧ y < 7) ∧ (tileAt g.tileMap x y).tileTypeIndex = -1 ∧
      g'.tileMap = g.tileMap.set (7 * y + x).toNat ⟨g.currentTile, rotation⟩ ∧
      g'.solution = g.solution ++ [packMove x y rotation] ∧ g'.currentTile = g.nextTile ∧
      0 ≤ g'.nextTile ∧ g'.nextTile < 15 := by
  unfold placeTile at h
  split_ifs at h with hrange hocc hneigh
  obtain ⟨hn0, hn15⟩ := getNextTile_mem hashWriter
    { g with tileMap := g.tileMap.set (7 * y + x).toNat ⟨g.currentTile, rotation⟩,
             solution := g.solution ++ [packMove x y rotation],
             tilesPlaced := g.tilesPlaced + 1, currentTile := g.nextTile }
  cases h
  refine ⟨by simp [GAME0_BOARD_SIZE] at hrange; omega, by simpa using hocc, rfl, rfl, rfl, hn0, hn15⟩

/-- One placement keeps `GameWF` and logs its byte. -/
theorem placeTile_wf {hashWriter : List UInt8 → Uint256} {g g' : Game0} {x y rotation : Int}
    (hwf : GameWF g) (hr : 0 ≤ rotation ∧ rotation ≤ 3) (h : placeTile hashWriter g x y rotation = .ok g') :
    GameWF g' ∧ g'.solution = g.solution ++ [packMove x y rotation] := by
  obtain ⟨hxy, hempty, hmap, hsol, hcur, hn0, hn15⟩ := placeTile_ok h
  have hnot : (x, y) ∉ occupiedCells g.tileMap := fun hmem => (mem_occupiedCells.1 hmem).2 hempty
  have htile : (⟨g.currentTile, rotation⟩ : Game0Tile).tileTypeIndex ≠ -1 := by
    have := hwf.currentTile_mem
    dsimp only
    omega
  refine ⟨⟨?_, ?_, ?_, ⟨hn0, hn15⟩, ?_⟩, hsol⟩
  · rw [hmap, List.length_set, hwf.length_tileMap]
  · rw [hmap]
    exact rotations_set hwf.rotations hr _
  · rw [hcur]
    exact hwf.nextTile_mem
  · rw [hmap, occupiedCells_set hwf.length_tileMap hxy htile, Finset.card_insert_of_notMem hnot,
      hwf.card_occupied, hsol, List.length_append, List.length_singleton]

/-! ## A whole game -/

/-- A run of moves keeps `GameWF` and logs one byte per move. -/
theorem playMoves_wf {hashWriter : List UInt8 → Uint256} :
    ∀ {moves : List (Int × Int × Int)} {g g' : Game0}, GameWF g → (∀ mv ∈ moves, MoveInRange mv) →
      playMoves hashWriter g moves = .ok g' →
      GameWF g' ∧ g'.solution = g.solution ++ moves.map packTriple
  | [], g, g', hwf, _, h => by
    cases h
    exact ⟨hwf, by simp⟩
  | (x, y, r) :: rest, g, g', hwf, hmoves, h => by
    simp only [playMoves, bind, Except.bind] at h
    rcases hp : placeTile hashWriter g x y r with e | g₁ <;> rw [hp] at h
    · cases h
    have hr := hmoves (x, y, r) List.mem_cons_self
    obtain ⟨hwf₁, hsol₁⟩ := placeTile_wf hwf ⟨hr.2.2.2.2.1, hr.2.2.2.2.2⟩ hp
    obtain ⟨hwf', hsol'⟩ := playMoves_wf hwf₁ (fun mv hmv => hmoves mv (List.mem_cons_of_mem _ hmv)) h
    refine ⟨hwf', ?_⟩
    rw [hsol', hsol₁]
    simp [packTriple]

theorem tileAt_emptyBoard (x y : Int) : tileAt emptyBoard x y = emptyTile := by
  unfold tileAt emptyBoard
  rw [List.getD_eq_getElem?_getD, List.getElem?_replicate]
  split <;> rfl

/-- `InitGame`: the empty board, no solution, two tiles drawn. -/
theorem initGame_wf (hashWriter : List UInt8 → Uint256) (sourceHash : Uint256) :
    GameWF (initGame hashWriter sourceHash) ∧ (initGame hashWriter sourceHash).solution = [] := by
  have hmap : (initGame hashWriter sourceHash).tileMap = emptyBoard := rfl
  refine ⟨⟨rfl, ?_, getNextTile_mem _ _, getNextTile_mem _ _, ?_⟩, rfl⟩
  · intro t ht
    rw [hmap, emptyBoard] at ht
    simp only [List.eq_of_mem_replicate ht, emptyTile]
    omega
  · rw [hmap, show (initGame hashWriter sourceHash).solution.length = 0 from rfl, Finset.card_eq_zero]
    apply Finset.eq_empty_of_forall_notMem
    intro p hp
    apply (mem_occupiedCells.1 hp).2
    rw [tileAt_emptyBoard]
    rfl

/-- At most 49 cells are occupied. -/
theorem card_occupiedCells_le (m : TileMap) : (occupiedCells m).card ≤ 49 :=
  calc (occupiedCells m).card
      ≤ (boardCells.filter fun p => (tileAt m p.1 p.2).tileTypeIndex != -1).length := List.toFinset_card_le _
    _ ≤ boardCells.length := List.length_filter_le _ _
    _ = 49 := by decide

/-! ## The replay -/

/-- A move's byte unpacks to the move: `x` and `y` in three bits each, the
rotation in the top two. -/
theorem unpack_packMove {x y r : Int} (hx : 0 ≤ x ∧ x < 8) (hy : 0 ≤ y ∧ y < 8) (hr : 0 ≤ r ∧ r ≤ 3) :
    moveX (packMove x y r) = x ∧ moveY (packMove x y r) = y ∧ moveRotation (packMove x y r) = r := by
  have hval : (packMove x y r).toNat = (r * 64 + x * 8 + y).toNat := by
    simp only [packMove, UInt8.toNat_ofNat']
    omega
  simp only [moveX, moveY, moveRotation, hval, Nat.shiftRight_eq_div_pow,
    show (7 : Nat) = 2 ^ 3 - 1 from rfl, Nat.and_two_pow_sub_one_eq_mod]
  omega

/-- Replaying the bytes of moves takes the same steps as playing the moves. -/
theorem replayMoves_pack (hashWriter : List UInt8 → Uint256) :
    ∀ {moves : List (Int × Int × Int)} (g : Game0), (∀ mv ∈ moves, MoveInRange mv) →
      replayMoves hashWriter g (moves.map packTriple) = playMoves hashWriter g moves
  | [], _, _ => rfl
  | (x, y, r) :: rest, g, hmoves => by
    obtain ⟨hx0, hx7, hy0, hy7, hr0, hr3⟩ := hmoves (x, y, r) List.mem_cons_self
    obtain ⟨hux, huy, hur⟩ := unpack_packMove ⟨hx0, by omega⟩ ⟨hy0, by omega⟩ ⟨hr0, hr3⟩
    simp only [List.map_cons, replayMoves, playMoves, packTriple, hux, huy, hur]
    rcases placeTile hashWriter g x y r with e | g₁
    · rfl
    · exact replayMoves_pack hashWriter g₁ (fun mv hmv => hmoves mv (List.mem_cons_of_mem _ hmv))

/-- The solution of a game played from `InitGame(sourceHash)` that reached the
target verifies against that target. -/
theorem verifyGameSolution_of_play {hashWriter : List UInt8 → Uint256} {sourceHash : Uint256}
    {moves : List (Int × Int × Int)} {g : Game0} {targetScore score : Int}
    (hmoves : ∀ mv ∈ moves, MoveInRange mv)
    (hplay : playMoves hashWriter (initGame hashWriter sourceHash) moves = .ok g)
    (hscore : calculateScore g.tileMap = .ok score) (hwin : targetScore ≤ score) :
    verifyGameSolution hashWriter targetScore sourceHash g.solution = .ok (.ok ()) := by
  obtain ⟨hwf₀, hsol₀⟩ := initGame_wf hashWriter sourceHash
  obtain ⟨hwf, hsol⟩ := playMoves_wf hwf₀ hmoves hplay
  rw [hsol₀, List.nil_append] at hsol
  have hlen : g.solution.length ≤ 49 := hwf.card_occupied ▸ card_occupiedCells_le g.tileMap
  have hreplay : replayMoves hashWriter (initGame hashWriter sourceHash) g.solution = .ok g := by
    rw [hsol, replayMoves_pack hashWriter _ hmoves, hplay]
  unfold verifyGameSolution
  rw [if_neg (by simp [GAME0_BOARD_SIZE]; omega), hreplay]
  simp only [hscore, bind, Except.bind]
  rw [if_neg (by omega)]
  rfl

/-- A game that scores above 50 logged at least four moves, and a game logs
at most 49. -/
theorem length_solution_bounds {hashWriter : List UInt8 → Uint256} {sourceHash : Uint256}
    {moves : List (Int × Int × Int)} {g : Game0} {score : Int} (hmoves : ∀ mv ∈ moves, MoveInRange mv)
    (hplay : playMoves hashWriter (initGame hashWriter sourceHash) moves = .ok g)
    (hscore : calculateScore g.tileMap = .ok score) (h50 : 50 < score) :
    4 ≤ g.solution.length ∧ g.solution.length ≤ 49 := by
  obtain ⟨hwf₀, -⟩ := initGame_wf hashWriter sourceHash
  obtain ⟨hwf, -⟩ := playMoves_wf hwf₀ hmoves hplay
  rw [← hwf.card_occupied]
  exact ⟨four_le_occupied_of_score hwf.rotations hscore h50, card_occupiedCells_le _⟩

end Ring.Pop
