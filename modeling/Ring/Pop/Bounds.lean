import Ring.Pop.Rooms
import Ring.Pop.Play

/-!
# Game0 verification stays on the board and terminates

`findRooms` stands for a recursion that C++ runs without a bound, and reads
`tileMap[y][x]` unchecked. Here `FindRooms` is run as the machine runs it
(`findRoomsCounted`): the board is read through the checked `tileMapAt`, the
atlas through `atlasConnections`, and a ghost counter counts the calls. Its
first component is `findRooms` on every input (`findRoomsCounted_map_fst`),
so the board read is always in range and the atlas reads fault exactly where
`findRooms` does.

One call (`findRoomsCall`, with the nested calls a parameter) returns at once
on a followed key, or records a fresh key and then ends or follows at most
four connections of an occupied cell (`findRoomsCall_cases`). Hence

* `findRoomsCounted_callsWithin`: a search that starts on a board key of a
  board with rotations `0 .. 3` adds only fresh board keys and makes at most
  `1 + 4 * (keys added)` calls;
* `findRoomsCounted_fuel`: with more fuel than board keys left, more fuel
  changes nothing: the recursion ends before the bound does.

For any bytes, the replay only places tiles `0 .. 14` (byte 13 of a hash
modulo 15) with rotations `0 .. 3` (the top two bits of a byte), so every
board `CalculateScore` sees is valid (`replayMoves_validBoard`), and
`VerifyGameSolution` never faults (`verifyGameSolution_ok`). The reads of
`tileMap[y][x]` in `PlaceTile`, `GetTileTypeIndex` and the loop of
`CalculateScore` stand behind a test of `x` and `y` against the board or
inside a loop over it.
-/
namespace Ring.Pop

open Ring.Lib Ring.Arith Ring.Chain

/-! ## `FindRooms` with checked reads and counted calls -/

/-- `tileMap[y][x]`, checked: a cell off the board is a fault. -/
def tileMapAt (m : TileMap) (x y : Int) : Except Fault Game0Tile :=
  if 0 ≤ x ∧ x < GAME0_BOARD_SIZE ∧ 0 ≤ y ∧ y < GAME0_BOARD_SIZE then .ok (tileAt m x y)
  else .error .outOfRange

/-- The loop of `FindRooms` over the outgoing connections `conns` of the tile
at `(x, y)`, with `recurse` for the nested calls. -/
def followConnections (recurse : SearchState × Nat → Int → Int → Int → Except Fault (SearchState × Nat))
    (x y rotation : Int) (conns : Nat) (sc : SearchState × Nat) : Except Fault (SearchState × Nat) :=
  [0, 1, 2, 3].foldlM (fun sc (i : Nat) =>
    if conns &&& (1 <<< i) != 0 then recurse sc x y ((i + rotation).tmod 4) else .ok sc) sc

/-- One call of `Game0::FindRooms(x, y, connection)`, the nested calls done
by `recurse`; the state carries the number of calls made so far.
mirrors src/crypto/pop/game0/game0.cpp:199-247 -/
def findRoomsCall (m : TileMap) (sx sy : Int)
    (recurse : SearchState × Nat → Int → Int → Int → Except Fault (SearchState × Nat)) :
    SearchState × Nat → Int → Int → Int → Except Fault (SearchState × Nat)
  | (s, calls), x, y, connection =>
    if (x, y, connection) ∈ s.followed then .ok (s, calls + 1) else
    let s := { s with followed := (x, y, connection) :: s.followed }
    let (x, y, connection) := crossSide x y connection
    if y < 0 ∨ y ≥ GAME0_BOARD_SIZE ∨ x < 0 ∨ x ≥ GAME0_BOARD_SIZE then .ok (s, calls + 1)
    else if x = sx ∧ y = sy then .ok (s, calls + 1)
    else
      match tileMapAt m x y with
      | .error e => .error e
      | .ok tile =>
        if tile.tileTypeIndex = -1 then .ok (s, calls + 1)
        else
          let connection := connection - tile.rotation
          let connection := if connection < 0 then connection + 4 else connection
          match atlasConnections tile.tileTypeIndex connection with
          | .error e => .error e
          | .ok connections =>
            if connections &&& 16 != 0 then
              .ok ({ s with candidateCandles := s.candidateCandles ++ [(x, y)],
                            connectedRooms := s.connectedRooms + 1 }, calls + 1)
            else followConnections recurse x y tile.rotation connections (s, calls + 1)

/-- `FindRooms` with its calls counted, to depth `fuel`. -/
def findRoomsCounted (m : TileMap) (sx sy : Int) : Nat → SearchState × Nat → Int → Int → Int →
    Except Fault (SearchState × Nat)
  | 0, sc, _, _, _ => .ok sc
  | fuel + 1, sc, x, y, connection => findRoomsCall m sx sy (findRoomsCounted m sx sy fuel) sc x y connection

theorem tileMapAt_of_onBoard {m : TileMap} {x y : Int} (h : 0 ≤ x ∧ x < 7 ∧ 0 ≤ y ∧ y < 7) :
    tileMapAt m x y = .ok (tileAt m x y) :=
  if_pos h

/-- What one call can do, whatever its nested calls do: on a followed key it
returns at once; otherwise it records the key and either ends (with a fault,
or with the key recorded and maybe one more room) or follows the connections
of an occupied cell on the board. -/
theorem findRoomsCall_cases (m : TileMap) (sx sy : Int) (s : SearchState) (n : Nat) (x y c : Int) :
    ((x, y, c) ∈ s.followed ∧ ∀ recurse, findRoomsCall m sx sy recurse (s, n) x y c = .ok (s, n + 1)) ∨
    ((x, y, c) ∉ s.followed ∧ ∃ r : Except Fault (SearchState × Nat),
        (∀ sc', r = .ok sc' → sc'.1.followed = (x, y, c) :: s.followed ∧ sc'.2 = n + 1) ∧
        ∀ recurse, findRoomsCall m sx sy recurse (s, n) x y c = r) ∨
    ((x, y, c) ∉ s.followed ∧ ∃ x' y' conns, (0 ≤ x' ∧ x' < 7 ∧ 0 ≤ y' ∧ y' < 7) ∧
        ∀ recurse, findRoomsCall m sx sy recurse (s, n) x y c =
          followConnections recurse x' y' (tileAt m x' y').rotation conns
            ({ s with followed := (x, y, c) :: s.followed }, n + 1)) := by
  by_cases hmem : (x, y, c) ∈ s.followed
  · exact .inl ⟨hmem, fun _ => by simp [findRoomsCall, hmem]⟩
  refine .inr ?_
  simp only [findRoomsCall, if_neg hmem]
  rcases crossSide x y c with ⟨x', y', c'⟩
  dsimp only
  by_cases hboard : y' < 0 ∨ y' ≥ GAME0_BOARD_SIZE ∨ x' < 0 ∨ x' ≥ GAME0_BOARD_SIZE
  · exact .inl ⟨hmem, _, fun sc' h => by cases h; exact ⟨rfl, rfl⟩, fun _ => if_pos hboard⟩
  simp only [if_neg hboard]
  have hon : 0 ≤ x' ∧ x' < 7 ∧ 0 ≤ y' ∧ y' < 7 := by
    simp only [GAME0_BOARD_SIZE] at hboard
    omega
  by_cases hstart : x' = sx ∧ y' = sy
  · exact .inl ⟨hmem, _, fun sc' h => by cases h; exact ⟨rfl, rfl⟩, fun _ => if_pos hstart⟩
  simp only [if_neg hstart, tileMapAt_of_onBoard hon]
  by_cases hempty : (tileAt m x' y').tileTypeIndex = -1
  · exact .inl ⟨hmem, _, fun sc' h => by cases h; exact ⟨rfl, rfl⟩, fun _ => if_pos hempty⟩
  simp only [if_neg hempty]
  rcases atlasConnections (tileAt m x' y').tileTypeIndex
      (if c' - (tileAt m x' y').rotation < 0 then c' - (tileAt m x' y').rotation + 4
        else c' - (tileAt m x' y').rotation) with e | conns
  · exact .inl ⟨hmem, .error e, fun _ h => (by cases h), fun _ => rfl⟩
  dsimp only
  by_cases hroom : (conns &&& 16 != 0) = true
  · exact .inl ⟨hmem, _, fun sc' h => by cases h; exact ⟨rfl, rfl⟩, fun _ => if_pos hroom⟩
  exact .inr ⟨hmem, x', y', conns, hon, fun _ => if_neg hroom⟩

/-- The counted run computes what `findRooms` computes, on every input: its
checked read of the board never fails. -/
theorem findRoomsCounted_map_fst (m : TileMap) (sx sy : Int) :
    ∀ (fuel : Nat) (s : SearchState) (n : Nat) (x y c : Int),
      (findRoomsCounted m sx sy fuel (s, n) x y c).map Prod.fst = findRooms m sx sy fuel s x y c
  | 0, _, _, _, _, _ => rfl
  | fuel + 1, s, n, x, y, c => by
    simp only [findRoomsCounted, findRoomsCall, findRooms]
    by_cases hmem : (x, y, c) ∈ s.followed
    · simp only [if_pos hmem]
      rfl
    simp only [if_neg hmem]
    rcases crossSide x y c with ⟨x', y', c'⟩
    dsimp only
    by_cases hboard : y' < 0 ∨ y' ≥ GAME0_BOARD_SIZE ∨ x' < 0 ∨ x' ≥ GAME0_BOARD_SIZE
    · simp only [if_pos hboard]
      rfl
    have hon : 0 ≤ x' ∧ x' < 7 ∧ 0 ≤ y' ∧ y' < 7 := by
      simp only [GAME0_BOARD_SIZE] at hboard
      omega
    by_cases hstart : x' = sx ∧ y' = sy
    · simp only [if_neg hboard, if_pos hstart]
      rfl
    simp only [if_neg hboard, if_neg hstart, tileMapAt_of_onBoard hon]
    by_cases hempty : (tileAt m x' y').tileTypeIndex = -1
    · simp only [if_pos hempty]
      rfl
    simp only [if_neg hempty]
    rcases atlasConnections (tileAt m x' y').tileTypeIndex
        (if c' - (tileAt m x' y').rotation < 0 then c' - (tileAt m x' y').rotation + 4
          else c' - (tileAt m x' y').rotation) with e | conns
    · rfl
    dsimp only
    by_cases hroom : (conns &&& 16 != 0) = true
    · simp only [if_pos hroom]
      rfl
    simp only [if_neg hroom, followConnections]
    refine foldlM_except_map_fst _ _ (fun t k i => ?_) _ _ _
    split
    · exact findRoomsCounted_map_fst m sx sy fuel t k _ _ _
    · rfl

/-- A counted call only ever adds keys in front of `followedBranches`. -/
theorem findRoomsCounted_suffix (m : TileMap) (sx sy : Int) :
    ∀ (fuel : Nat) (sc sc' : SearchState × Nat) (x y c : Int),
      findRoomsCounted m sx sy fuel sc x y c = .ok sc' → sc.1.followed <:+ sc'.1.followed
  | 0, _, _, _, _, _, h => by
    cases h
    exact List.suffix_refl _
  | fuel + 1, (s, n), sc', x, y, c, h => by
    simp only [findRoomsCounted] at h
    rcases findRoomsCall_cases m sx sy s n x y c with ⟨-, hcall⟩ | ⟨-, r, hr, hcall⟩ |
      ⟨-, x', y', conns, -, hcall⟩
    · rw [hcall] at h
      cases h
      exact List.suffix_refl _
    · rw [hcall] at h
      rw [(hr sc' h).1]
      exact List.suffix_cons _ _
    · rw [hcall, followConnections] at h
      refine (List.suffix_cons _ _).trans (foldlM_except_invariant
        (fun t : SearchState × Nat => ((x, y, c) :: s.followed) <:+ t.1.followed) _ _ _ _
        (List.suffix_refl _) (fun i _ t t' ht hstep => ?_) h)
      split at hstep
      · exact ht.trans (findRoomsCounted_suffix m sx sy fuel t t' _ _ _ hstep)
      · cases hstep
        exact ht

/-! ## The calls of a search -/

/-- A counted search that went from `sc` to `sc'`: `followedBranches` grew in
front by keys it did not hold, all on the board, and the calls made are at
most one plus four for each key added. -/
structure CallsWithin (sc sc' : SearchState × Nat) : Prop where
  nodup : sc'.1.followed.Nodup
  suffix : sc.1.followed <:+ sc'.1.followed
  board : ∀ k ∈ sc'.1.followed, k ∉ sc.1.followed → k ∈ boardKeys
  calls : sc'.2 + 4 * sc.1.followed.length ≤ sc.2 + 1 + 4 * sc'.1.followed.length

/-- A nested call of a search on a board with rotations `0 .. 3` starts on a
board key: the cell is on the board and the side is `(i + rotation) % 4`. -/
theorem nestedKey_mem_boardKeys {m : TileMap} (hrot : RotationsInRange m) {x y : Int}
    (hon : 0 ≤ x ∧ x < 7 ∧ 0 ≤ y ∧ y < 7) (i : Nat) :
    (x, y, ((i : Int) + (tileAt m x y).rotation).tmod 4) ∈ boardKeys := by
  obtain ⟨hr0, -⟩ := rotation_tileAt hrot x y
  obtain ⟨h0, h3⟩ := tmod_four_bounds (by omega : 0 ≤ (i : Int) + (tileAt m x y).rotation)
  exact mem_boardKeys.2 ⟨mem_boardCells.2 hon, h0, h3⟩

/-- One call keeps `CallsWithin` when its nested calls do. The loop over the
connections is amortised: each nested call raises `calls - 4 * keys` by at
most one, and there are at most four of them. -/
theorem findRoomsCall_callsWithin {m : TileMap} (hrot : RotationsInRange m) {sx sy : Int}
    {recurse : SearchState × Nat → Int → Int → Int → Except Fault (SearchState × Nat)}
    (hrec : ∀ t (k : Key) t', t.1.followed.Nodup → k ∈ boardKeys → recurse t k.1 k.2.1 k.2.2 = .ok t' →
      CallsWithin t t')
    {s : SearchState} {n : Nat} {x y c : Int} {sc' : SearchState × Nat} (hnodup : s.followed.Nodup)
    (hk : (x, y, c) ∈ boardKeys) (h : findRoomsCall m sx sy recurse (s, n) x y c = .ok sc') :
    CallsWithin (s, n) sc' := by
  rcases findRoomsCall_cases m sx sy s n x y c with ⟨-, hcall⟩ | ⟨hnew, r, hr, hcall⟩ |
    ⟨hnew, x', y', conns, hon, hcall⟩
  · rw [hcall] at h
    cases h
    exact ⟨hnodup, List.suffix_refl _, fun k hk' hn => absurd hk' hn, Nat.le_refl _⟩
  · rw [hcall] at h
    obtain ⟨hf, hn⟩ := hr sc' h
    refine ⟨hf ▸ List.nodup_cons.2 ⟨hnew, hnodup⟩, hf ▸ List.suffix_cons _ _, fun k hk' hn' => ?_, ?_⟩
    · rw [hf] at hk'
      rcases List.mem_cons.1 hk' with rfl | hk'
      · exact hk
      · exact absurd hk' hn'
    · rw [hf, hn, List.length_cons]
      dsimp only
      omega
  rw [hcall, followConnections] at h
  let P : SearchState × Nat → Prop := fun t => t.1.followed.Nodup ∧ ((x, y, c) :: s.followed) <:+ t.1.followed ∧
    ∀ k ∈ t.1.followed, k ∉ (x, y, c) :: s.followed → k ∈ boardKeys
  -- one round of the loop, a nested call or nothing, raises `calls - 4 * keys` by at most one
  have hround : ∀ (i : Nat) (t t' : SearchState × Nat), P t →
      (if conns &&& (1 <<< i) != 0 then recurse t x' y' ((i + (tileAt m x' y').rotation).tmod 4) else .ok t) =
        .ok t' → P t' ∧ (t'.2 : Int) - 4 * t'.1.followed.length ≤ (t.2 : Int) - 4 * t.1.followed.length + 1 := by
    rintro i t t' ⟨htn, hts, htb⟩ hstep
    split at hstep
    · have hw := hrec t _ t' htn (nestedKey_mem_boardKeys hrot hon i) hstep
      refine ⟨⟨hw.nodup, hts.trans hw.suffix, fun k hk' hn' => ?_⟩, ?_⟩
      · by_cases hkt : k ∈ t.1.followed
        · exact htb k hkt hn'
        · exact hw.board k hk' hkt
      · have := hw.calls
        omega
    · cases hstep
      exact ⟨⟨htn, hts, htb⟩, by omega⟩
  obtain ⟨⟨hnodup', hsuffix', hboard'⟩, hΦ⟩ := foldlM_except_potential P
    (fun t => (t.2 : Int) - 4 * t.1.followed.length) 1 _ hround [0, 1, 2, 3] _ sc'
    ⟨List.nodup_cons.2 ⟨hnew, hnodup⟩, List.suffix_refl _, fun k hk' hn' => absurd hk' hn'⟩ h
  refine ⟨hnodup', (List.suffix_cons _ _).trans hsuffix', fun k hk' hn' => ?_, ?_⟩
  · by_cases hk1 : k ∈ (x, y, c) :: s.followed
    · rcases List.mem_cons.1 hk1 with rfl | hk1
      · exact hk
      · exact absurd hk1 hn'
    · exact hboard' k hk' hk1
  · dsimp only [List.length_cons, List.length_nil] at hΦ ⊢
    omega

/-- A counted search from a board key of a board with rotations `0 .. 3`, from
a state without repeated keys, adds fresh board keys and makes at most
`1 + 4 * (keys added)` calls. -/
theorem findRoomsCounted_callsWithin {m : TileMap} (hrot : RotationsInRange m) (sx sy : Int) :
    ∀ (fuel : Nat) (sc sc' : SearchState × Nat) (k : Key), sc.1.followed.Nodup → k ∈ boardKeys →
      findRoomsCounted m sx sy fuel sc k.1 k.2.1 k.2.2 = .ok sc' → CallsWithin sc sc'
  | 0, _, _, _, hnodup, _, h => by
    cases h
    exact ⟨hnodup, List.suffix_refl _, fun k hk hn => absurd hk hn, by omega⟩
  | fuel + 1, (_, _), _, (_, _, _), hnodup, hk, h =>
    findRoomsCall_callsWithin hrot (fun t k t' => findRoomsCounted_callsWithin hrot sx sy fuel t t' k) hnodup hk h

/-! ## Enough fuel -/

/-- Once the fuel exceeds the board keys a search has not followed, more fuel
changes nothing: a call that recurses records a new board key first. -/
theorem findRoomsCounted_fuel {m : TileMap} (hrot : RotationsInRange m) (sx sy : Int) :
    ∀ (fuel : Nat) (sc : SearchState × Nat) (k : Key), k ∈ boardKeys → (unvisited sc.1.followed).card < fuel →
      ∀ j, findRoomsCounted m sx sy (fuel + j) sc k.1 k.2.1 k.2.2 =
        findRoomsCounted m sx sy fuel sc k.1 k.2.1 k.2.2 := by
  intro fuel
  induction fuel with
  | zero => exact fun _ _ _ hfuel => absurd hfuel (Nat.not_lt_zero _)
  | succ fuel ih =>
    rintro ⟨s, n⟩ ⟨x, y, c⟩ hk hfuel j
    rw [Nat.add_right_comm]
    simp only [findRoomsCounted]
    rcases findRoomsCall_cases m sx sy s n x y c with ⟨-, hcall⟩ | ⟨-, r, -, hcall⟩ |
      ⟨hnew, x', y', conns, hon, hcall⟩
    · rw [hcall, hcall]
    · rw [hcall, hcall]
    rw [hcall, hcall, followConnections, followConnections]
    have hcard : (unvisited ((x, y, c) :: s.followed)).card < fuel := by
      have := card_unvisited_cons hk hnew
      dsimp only at hfuel
      omega
    refine foldlM_except_congr (fun t : SearchState × Nat => ((x, y, c) :: s.followed) <:+ t.1.followed) _ _
      (fun i t ht => ?_) (fun i t t' ht hstep => ?_) _ _ (List.suffix_refl _)
    · split
      · exact ih t _ (nestedKey_mem_boardKeys hrot hon i)
          (lt_of_le_of_lt (card_unvisited_le fun _ hj => ht.subset hj) hcard) j
      · rfl
    · split at hstep
      · exact ht.trans (findRoomsCounted_suffix m sx sy _ t t' _ _ _ hstep)
      · cases hstep
        exact ht

/-! ## Whatever the bytes -/

/-- The rotation of a logged move is its top two bits. -/
theorem moveRotation_bounds (mv : UInt8) : 0 ≤ moveRotation mv ∧ moveRotation mv ≤ 3 := by
  have := mv.toNat_lt
  simp only [moveRotation, Nat.shiftRight_eq_div_pow]
  omega

theorem validBoard_set {m : TileMap} (hv : ValidBoard m) {t : Game0Tile} (ht : ValidTile t) (i : Nat) :
    ValidBoard (m.set i t) := by
  intro t' ht'
  rcases List.mem_or_eq_of_mem_set ht' with hmem | rfl
  · exact hv t' hmem
  · exact ht

theorem validBoard_initGame (hashWriter : List UInt8 → Uint256) (sourceHash : Uint256) :
    ValidBoard (initGame hashWriter sourceHash).tileMap := by
  intro t ht
  rw [show (initGame hashWriter sourceHash).tileMap = emptyBoard from rfl, emptyBoard,
    List.mem_replicate] at ht
  rw [ht.2]
  decide

/-- A placement puts down the current tile, one of the 15 types, with the
move's rotation. -/
theorem placeTile_validBoard {hashWriter : List UInt8 → Uint256} {g g' : Game0} {x y rotation : Int}
    (hwf : GameWF g) (hv : ValidBoard g.tileMap) (hr : 0 ≤ rotation ∧ rotation ≤ 3)
    (h : placeTile hashWriter g x y rotation = .ok g') : ValidBoard g'.tileMap := by
  obtain ⟨-, -, hmap, -⟩ := placeTile_ok h
  rw [hmap]
  exact validBoard_set hv ⟨.inr hwf.currentTile_mem, hr⟩ _

/-- Whatever the bytes, the replay keeps `GameWF` and a valid board. -/
theorem replayMoves_validBoard {hashWriter : List UInt8 → Uint256} :
    ∀ {moves : List UInt8} {g g' : Game0}, GameWF g → ValidBoard g.tileMap →
      replayMoves hashWriter g moves = .ok g' → GameWF g' ∧ ValidBoard g'.tileMap
  | [], _, _, hwf, hv, h => by
    cases h
    exact ⟨hwf, hv⟩
  | mv :: _, _, _, hwf, hv, h => by
    obtain ⟨g₁, hp, h⟩ := Reader.bind_eq_ok.1 h
    have hr := moveRotation_bounds mv
    exact replayMoves_validBoard (placeTile_wf hwf hr hp).1 (placeTile_validBoard hwf hv hr hp) h

/-- `CalculateScore` returns on every valid board. -/
theorem calculateScore_ok {m : TileMap} (hv : ValidBoard m) : ∃ score, calculateScore m = .ok score := by
  obtain ⟨best, hbest, -⟩ := foldlM_except_foldl (fun a => a.maxConnectedRooms.toNat)
    (fun v (c : Int × Int) => [0, 1, 2, 3].foldl (fun v side => max v (doorValue m (c, side))) v)
    (fun acc (c : Int × Int) => scoreCell m acc c.1 c.2) boardCells ⟨0, []⟩
    fun c hc acc => scoreCell_best hv acc hc
  unfold calculateScore
  rw [hbest, Reader.ok_bind]
  exact ⟨_, rfl⟩

/-- `VerifyGameSolution` never faults: whatever the bytes, the board it scores
is valid, so every atlas read is in range. -/
theorem verifyGameSolution_ok (hashWriter : List UInt8 → Uint256) (targetScore : Int) (sourceHash : Uint256)
    (solutionToVerify : List UInt8) :
    ∃ r, verifyGameSolution hashWriter targetScore sourceHash solutionToVerify = .ok r := by
  unfold verifyGameSolution
  split_ifs
  · exact ⟨_, rfl⟩
  rcases hreplay : replayMoves hashWriter (initGame hashWriter sourceHash) solutionToVerify with e | g
  · exact ⟨_, rfl⟩
  obtain ⟨-, hv⟩ := replayMoves_validBoard (initGame_wf hashWriter sourceHash).1
    (validBoard_initGame hashWriter sourceHash) hreplay
  obtain ⟨score, hscore⟩ := calculateScore_ok hv
  dsimp only
  rw [hscore, Reader.ok_bind]
  split_ifs <;> exact ⟨_, rfl⟩

/-- Every search `CalculateScore` can start on a valid board, from any cell and
side: the counted run returns what `searchFromDoor` returns, the same for all
fuel above `findRoomsFuel`, after adding only distinct board keys and making
at most `1 + 4 * (keys added)` calls. -/
theorem searchFromDoor_counted {m : TileMap} (hv : ValidBoard m) {x y : Int} (hxy : (x, y) ∈ boardCells)
    (side : Nat) :
    ∃ s calls, searchFromDoor m x y (tileAt m x y) side = .ok s ∧
      (∀ j, findRoomsCounted m x y (findRoomsFuel + j) (⟨[], 0, [(x, y)]⟩, 0) x y
        (((side : Int) + (tileAt m x y).rotation).tmod 4) = .ok (s, calls)) ∧
      s.followed.Nodup ∧ (∀ k ∈ s.followed, k ∈ boardKeys) ∧ calls ≤ 1 + 4 * s.followed.length := by
  have hrot := rotationsInRange_of_validBoard hv
  have hkey := nestedKey_mem_boardKeys hrot (mem_boardCells.1 hxy) side
  have hfuel : (unvisited []).card < findRoomsFuel :=
    lt_of_le_of_lt ((Finset.card_filter_le _ _).trans card_boardKeys_le) (by decide)
  obtain ⟨s, hs, -, -⟩ := findRooms_visit hv x y findRoomsFuel ⟨[], 0, [(x, y)]⟩ _ hkey hfuel
  have hmap := findRoomsCounted_map_fst m x y findRoomsFuel ⟨[], 0, [(x, y)]⟩ 0 x y
    (((side : Int) + (tileAt m x y).rotation).tmod 4)
  rw [hs] at hmap
  rcases hc : findRoomsCounted m x y findRoomsFuel (⟨[], 0, [(x, y)]⟩, 0) x y
      (((side : Int) + (tileAt m x y).rotation).tmod 4) with e | ⟨s', calls⟩ <;> rw [hc] at hmap
  · exact nomatch hmap
  cases hmap
  have hw := findRoomsCounted_callsWithin hrot x y findRoomsFuel _ _ _ List.nodup_nil hkey hc
  have hstable := findRoomsCounted_fuel hrot x y findRoomsFuel (⟨[], 0, [(x, y)]⟩, 0) _ hkey hfuel
  refine ⟨s', calls, hs, fun j => ?_, hw.nodup, fun k hk => hw.board k hk List.not_mem_nil, ?_⟩
  · rw [hstable j]
    exact hc
  have := hw.calls
  dsimp only [List.length_nil] at this
  omega

/-- A room whose door faces another's: one call finds it. -/
example : findRoomsCounted ((emptyBoard.set 0 ⟨7, 0⟩).set 7 ⟨12, 1⟩) 0 0 findRoomsFuel (⟨[], 0, [(0, 0)]⟩, 0) 0 0 2 =
    .ok (⟨[(0, 0, 2)], 1, [(0, 0), (0, 1)]⟩, 1) := by decide

theorem verifyGameSolution_bounded (hashWriter : List UInt8 → Uint256) (targetScore : Int)
    (sourceHash : Uint256) (solutionToVerify : List UInt8) :
    (∃ r, verifyGameSolution hashWriter targetScore sourceHash solutionToVerify = .ok r) ∧
      ∀ g, replayMoves hashWriter (initGame hashWriter sourceHash) solutionToVerify = .ok g →
        ValidBoard g.tileMap ∧ ∀ x y, (x, y) ∈ boardCells → ∀ side : Nat,
          ∃ s calls, searchFromDoor g.tileMap x y (tileAt g.tileMap x y) side = .ok s ∧
            (∀ j, findRoomsCounted g.tileMap x y (findRoomsFuel + j) (⟨[], 0, [(x, y)]⟩, 0) x y
              (((side : Int) + (tileAt g.tileMap x y).rotation).tmod 4) = .ok (s, calls)) ∧
            s.followed.Nodup ∧ (∀ k ∈ s.followed, k ∈ boardKeys) ∧ calls ≤ 1 + 4 * s.followed.length := by
  refine ⟨verifyGameSolution_ok hashWriter targetScore sourceHash solutionToVerify, fun g hg => ?_⟩
  have hv := (replayMoves_validBoard (initGame_wf hashWriter sourceHash).1
    (validBoard_initGame hashWriter sourceHash) hg).2
  exact ⟨hv, fun x y hxy side => searchFromDoor_counted hv hxy side⟩

end Ring.Pop
