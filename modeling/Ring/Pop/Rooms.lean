import Mathlib
import Ring.Pop.Score
import Ring.Lib.Dfs
import Ring.Lib.Wire

/-!
# Game0 scoring is room reachability

`CalculateScore` is meant to score the largest group of rooms a room's door
connects to. This module states that as reachability and proves that the
code computes it.

A walk leaves a tile by one of its four world sides (a `Key`: the cell and the
side). It enters the tile across that side, which has to be on the board,
occupied, and not the room the walk started from; it enters by the opposite
world side, turned back by the tile's rotation into the tile's own side.
When that side opens on the tile's room the walk has reached the room's door
(`EntersRoom`). Otherwise the walk goes on by each connection bit `i` of the
side, leaving by world side `(i + rotation) % 4` (`WalkStep`).
`reachedRooms` are the rooms whose door a walk from a door reaches, and
`mostReachedRooms` is the largest number of them over all doors of the board.

Results:
* `findRooms_visit`: `FindRooms` visits, as `followedBranches`, exactly the
  keys reachable from its first key. The depth-first visit is described by
  `Ring.Lib.VisitGrows`, and the fuel never runs out.
* `findRooms_roomCount`: `connectedRooms` counts the visited keys that enter
  a room.
* `searchFromDoor_connectedRooms`: a search from a door counts its reached
  rooms, each once, because every tile type has at most one door.
* `calculateScore_rooms`: on every board of tiles `0 .. 14` with rotations
  `0 .. 3`, `CalculateScore` returns `10 * (m + 1)` for `m = mostReachedRooms`
  when `m > 0`, and `0` otherwise.
-/
namespace Ring.Pop

open Ring.Lib Relation

/-! ## Boards -/

/-- A cell of a board: empty, or a tile type `0 .. 14`, with a rotation
`0 .. 3`. -/
def ValidTile (t : Game0Tile) : Prop :=
  (t.tileTypeIndex = -1 ∨ 0 ≤ t.tileTypeIndex ∧ t.tileTypeIndex < 15) ∧ 0 ≤ t.rotation ∧ t.rotation ≤ 3

def ValidBoard (m : TileMap) : Prop := ∀ t ∈ m, ValidTile t

instance : DecidablePred ValidTile := fun t =>
  inferInstanceAs (Decidable ((t.tileTypeIndex = -1 ∨ 0 ≤ t.tileTypeIndex ∧ t.tileTypeIndex < 15) ∧
    0 ≤ t.rotation ∧ t.rotation ≤ 3))

instance : DecidablePred ValidBoard := fun m => inferInstanceAs (Decidable (∀ t ∈ m, ValidTile t))

/-- The connection bits of side `e` of tile type `t`. -/
def atlasAt (t e : Int) : Nat := (game0TileAtlas.getD t.toNat []).getD e.toNat 0

/-- The world side by which the cell across `k` is entered. -/
def entrySide (k : Key) : Int := (crossSide k.1 k.2.1 k.2.2).2.2

/-- The tile across `k`. -/
def tileAcross (m : TileMap) (k : Key) : Game0Tile := tileAt m (across k).1 (across k).2

/-! ## Walks between rooms -/

/-- The connection bits of the side by which a walk leaving by `k` enters the
next tile, when that tile is on the board, occupied and not `start`. -/
def entryConnections (m : TileMap) (start : Int × Int) (k : Key) : Option Nat :=
  if across k ∈ occupiedCells m ∧ across k ≠ start then
    some (atlasAt (tileAcross m k).tileTypeIndex ((entrySide k - (tileAcross m k).rotation) % 4))
  else none

/-- A walk leaving by `k` goes on by a connection bit `i` of the side it
enters by, leaving the next tile by world side `(i + rotation) % 4`. -/
def WalkStep (m : TileMap) (start : Int × Int) (k k' : Key) : Prop :=
  ∃ conns, entryConnections m start k = some conns ∧ conns &&& 16 = 0 ∧
    ∃ i < 4, conns &&& (1 <<< i) ≠ 0 ∧
      k' = ((across k).1, (across k).2, ((i : Int) + (tileAcross m k).rotation) % 4)

/-- A walk leaving by `k` enters the tile `p` by its room's door. -/
def EntersRoom (m : TileMap) (start : Int × Int) (k : Key) (p : Int × Int) : Prop :=
  ∃ conns, entryConnections m start k = some conns ∧ conns &&& 16 ≠ 0 ∧ p = across k

/-- The rooms whose door a walk from `k₀`, the door of the room at `start`,
reaches. -/
def reachedRooms (m : TileMap) (start : Int × Int) (k₀ : Key) : Set (Int × Int) :=
  {p | ∃ k, ReflTransGen (WalkStep m start) k₀ k ∧ EntersRoom m start k p}

/-- The doors of a board: an occupied cell and a side of its tile that opens
on its room. -/
def doors (m : TileMap) : Finset ((Int × Int) × Nat) :=
  (occupiedCells m ×ˢ Finset.range 4).filter fun d =>
    atlasAt (tileAt m d.1.1 d.1.2).tileTypeIndex d.2 &&& 16 ≠ 0

/-- The key by which a walk leaves a door: its cell and its world side. -/
def doorKey (m : TileMap) (d : (Int × Int) × Nat) : Key :=
  (d.1.1, d.1.2, ((d.2 : Int) + (tileAt m d.1.1 d.1.2).rotation) % 4)

/-- The most rooms a walk from one door reaches. -/
noncomputable def mostReachedRooms (m : TileMap) : Nat :=
  (doors m).sup fun d => (reachedRooms m d.1 (doorKey m d)).ncard

/-- Ten points for each room of a group of `n + 1` connected rooms, none for a
lone room. -/
def roomScore (n : Nat) : Int := if n > 0 then 10 * ((n : Int) + 1) else 0

/-! ## `FindRooms` on a valid board -/

theorem validTile_tileAt {m : TileMap} (hv : ValidBoard m) (x y : Int) : ValidTile (tileAt m x y) := by
  unfold tileAt
  rw [List.getD_eq_getElem?_getD]
  rcases h : m[(7 * y + x).toNat]? with _ | t
  · decide
  · exact hv t (List.mem_of_getElem? h)

theorem rotationsInRange_of_validBoard {m : TileMap} (hv : ValidBoard m) : RotationsInRange m :=
  fun t ht => (hv t ht).2

theorem entrySide_bounds {x y c : Int} (hc0 : 0 ≤ c) (hc3 : c ≤ 3) :
    0 ≤ entrySide (x, y, c) ∧ entrySide (x, y, c) ≤ 3 := by
  have : c = 0 ∨ c = 1 ∨ c = 2 ∨ c = 3 := by omega
  rcases this with rfl | rfl | rfl | rfl <;> simp [entrySide, crossSide]

theorem atlasConnections_eq {t e : Int} (ht : 0 ≤ t ∧ t < 15) (he : 0 ≤ e ∧ e < 4) :
    atlasConnections t e = .ok (atlasAt t e) := by
  simp [atlasConnections, atlasAt, ht, he]

/-- One call of `FindRooms` on a valid board, by the walk's terms: a key already
followed returns the state; otherwise the key is recorded and the call stops
where the walk cannot enter, counts a room whose door it enters, or follows
the entered side's connections. -/
theorem findRooms_succ_eq {m : TileMap} (hv : ValidBoard m) (sx sy : Int) (fuel : Nat)
    (s : SearchState) {x y c : Int} (hc0 : 0 ≤ c) (hc3 : c ≤ 3) :
    findRooms m sx sy (fuel + 1) s x y c =
      if (x, y, c) ∈ s.followed then .ok s
      else match entryConnections m (sx, sy) (x, y, c) with
        | none => .ok { s with followed := (x, y, c) :: s.followed }
        | some conns =>
          if conns &&& 16 != 0 then
            .ok { s with followed := (x, y, c) :: s.followed,
                         candidateCandles := s.candidateCandles ++ [across (x, y, c)],
                         connectedRooms := s.connectedRooms + 1 }
          else
            [0, 1, 2, 3].foldlM (fun t (i : Nat) =>
              if conns &&& (1 <<< i) != 0 then
                findRooms m sx sy fuel t (across (x, y, c)).1 (across (x, y, c)).2
                  ((i + (tileAcross m (x, y, c)).rotation).tmod 4)
              else .ok t) { s with followed := (x, y, c) :: s.followed } := by
  obtain ⟨he0, he3⟩ := @entrySide_bounds x y c hc0 hc3
  conv_lhs => unfold findRooms
  by_cases hmem : (x, y, c) ∈ s.followed
  · simp [hmem]
  rw [if_neg hmem, if_neg hmem]
  rcases hcs : crossSide x y c with ⟨x', y', c'⟩
  have hacross : across (x, y, c) = (x', y') := by simp [across, hcs]
  have hside : entrySide (x, y, c) = c' := by simp [entrySide, hcs]
  rw [hside] at he0 he3
  have htile : tileAcross m (x, y, c) = tileAt m x' y' := by simp [tileAcross, hacross]
  obtain ⟨htype, hr0, hr3⟩ := validTile_tileAt hv x' y'
  simp only [entryConnections, hacross, htile, hside]
  by_cases hin : (x', y') ∈ occupiedCells m ∧ (x', y') ≠ (sx, sy)
  · obtain ⟨hocc, hne⟩ := hin
    obtain ⟨⟨hx0, hx7, hy0, hy7⟩, hnonempty⟩ := mem_occupiedCells.1 hocc
    dsimp only at hx0 hx7 hy0 hy7 hnonempty
    have hstart : ¬ (x' = sx ∧ y' = sy) := fun h => hne (Prod.ext h.1 h.2)
    have hconn : atlasConnections (tileAt m x' y').tileTypeIndex
        (if c' - (tileAt m x' y').rotation < 0 then c' - (tileAt m x' y').rotation + 4
          else c' - (tileAt m x' y').rotation) =
        .ok (atlasAt (tileAt m x' y').tileTypeIndex ((c' - (tileAt m x' y').rotation) % 4)) := by
      rw [atlasConnections_eq (by omega) (by split <;> omega)]
      congr 2
      split <;> omega
    have hboard : ¬ (y' < 0 ∨ y' ≥ GAME0_BOARD_SIZE ∨ x' < 0 ∨ x' ≥ GAME0_BOARD_SIZE) := by
      simp only [GAME0_BOARD_SIZE]
      omega
    rw [if_neg hboard, if_neg hstart, if_neg hnonempty, hconn,
      if_pos (show (x', y') ∈ occupiedCells m ∧ (x', y') ≠ (sx, sy) from ⟨hocc, hne⟩)]
  · rw [if_neg hin]
    rcases not_and_or.1 hin with hout | hstart
    · rw [mem_occupiedCells] at hout
      by_cases hboard : y' < 0 ∨ y' ≥ GAME0_BOARD_SIZE ∨ x' < 0 ∨ x' ≥ GAME0_BOARD_SIZE
      · rw [if_pos hboard]
      · rw [if_neg hboard]
        have hempty : (tileAt m x' y').tileTypeIndex = -1 := by
          by_contra h
          exact hout ⟨by simp only [GAME0_BOARD_SIZE] at hboard; omega, h⟩
        split_ifs <;> rfl
    · have hs : x' = sx ∧ y' = sy := Prod.mk.inj (not_not.1 hstart)
      split_ifs <;> rfl

/-! ## The visit -/

/-- The keys of the board: a cell and one of its four sides. -/
def boardKeys : Finset Key :=
  (boardCells.toFinset ×ˢ Finset.range 4).image fun d => (d.1.1, d.1.2, (d.2 : Int))

theorem mem_boardKeys {k : Key} : k ∈ boardKeys ↔ (k.1, k.2.1) ∈ boardCells ∧ 0 ≤ k.2.2 ∧ k.2.2 ≤ 3 := by
  obtain ⟨x, y, c⟩ := k
  simp only [boardKeys, Finset.mem_image, Finset.mem_product, List.mem_toFinset, Finset.mem_range,
    Prod.exists, Prod.mk.injEq]
  constructor
  · rintro ⟨x', y', i, ⟨hxy, hi⟩, rfl, rfl, rfl⟩
    exact ⟨hxy, by omega, by omega⟩
  · rintro ⟨hxy, hc0, hc3⟩
    exact ⟨x, y, c.toNat, ⟨hxy, by omega⟩, rfl, rfl, by omega⟩

theorem card_boardKeys_le : boardKeys.card ≤ 196 := by
  have hcells : boardCells.toFinset.card ≤ 49 := (List.toFinset_card_le _).trans (by decide)
  calc boardKeys.card ≤ (boardCells.toFinset ×ˢ Finset.range 4).card := Finset.card_image_le
    _ = boardCells.toFinset.card * 4 := by rw [Finset.card_product, Finset.card_range]
    _ ≤ 196 := by omega

/-- The board keys a search has not followed yet. -/
def unvisited (followed : List Key) : Finset Key := boardKeys.filter (· ∉ followed)

theorem card_unvisited_le {F F' : List Key} (h : ∀ j ∈ F, j ∈ F') :
    (unvisited F').card ≤ (unvisited F).card :=
  Finset.card_le_card fun j hj => by
    simp only [unvisited, Finset.mem_filter] at hj ⊢
    exact ⟨hj.1, fun hF => hj.2 (h j hF)⟩

theorem card_unvisited_cons {k : Key} {F : List Key} (hk : k ∈ boardKeys) (hnew : k ∉ F) :
    (unvisited F).card = (unvisited (k :: F)).card + 1 := by
  have heq : unvisited F = insert k (unvisited (k :: F)) := by
    ext j
    simp only [unvisited, Finset.mem_filter, Finset.mem_insert, List.mem_cons, not_or]
    constructor
    · rintro ⟨hj, hjF⟩
      by_cases hjk : j = k
      · exact .inl hjk
      · exact .inr ⟨hj, hjk, hjF⟩
    · rintro (rfl | ⟨hj, -, hjF⟩)
      · exact ⟨hk, hnew⟩
      · exact ⟨hj, hjF⟩
  rw [heq, Finset.card_insert_of_notMem]
  simp [unvisited]

/-- The key a walk leaves the tile across `k` by, for connection bit `i`. -/
def nextKey (m : TileMap) (k : Key) (i : Nat) : Key :=
  ((across k).1, (across k).2, ((i : Int) + (tileAcross m k).rotation).tmod 4)

theorem walkStep_nextKey {m : TileMap} (hv : ValidBoard m) {start : Int × Int} {k : Key} {conns : Nat}
    (hentry : entryConnections m start k = some conns) (h16 : conns &&& 16 = 0) {i : Nat} (hi : i < 4)
    (hbit : conns &&& (1 <<< i) ≠ 0) : WalkStep m start k (nextKey m k i) := by
  obtain ⟨-, hr0, -⟩ := validTile_tileAt hv (across k).1 (across k).2
  refine ⟨conns, hentry, h16, i, hi, hbit, ?_⟩
  rw [nextKey, Int.tmod_eq_emod_of_nonneg (by simp only [tileAcross]; omega)]

/-- `FindRooms` from key `k` is a depth-first visit from `k`: it returns, it
visits `k`, and what it adds to `followedBranches` is reachable from `k` and
closed under the walk's steps. The fuel never runs out: every call that
recurses adds a new board key. -/
theorem findRooms_visit {m : TileMap} (hv : ValidBoard m) (sx sy : Int) :
    ∀ (fuel : Nat) (s : SearchState) (k : Key), k ∈ boardKeys → (unvisited s.followed).card < fuel →
      ∃ s', findRooms m sx sy fuel s k.1 k.2.1 k.2.2 = .ok s' ∧
        VisitGrows (WalkStep m (sx, sy)) k {j | j ∈ s.followed} {j | j ∈ s'.followed} ∧
        k ∈ s'.followed
  := by
  intro fuel
  induction fuel with
  | zero => exact fun _ _ _ hfuel => absurd hfuel (Nat.not_lt_zero _)
  | succ fuel ih =>
    rintro s ⟨x, y, c⟩ hk hfuel
    obtain ⟨-, hc0, hc3⟩ := mem_boardKeys.1 hk
    rw [findRooms_succ_eq hv sx sy fuel s hc0 hc3]
    by_cases hmem : (x, y, c) ∈ s.followed
    · exact ⟨s, if_pos hmem, VisitGrows.refl _ _, hmem⟩
    rw [if_neg hmem]
    have hins : {j | j ∈ (x, y, c) :: s.followed} = insert (x, y, c) {j | j ∈ s.followed} := by
      ext j
      simp
    rcases hentry : entryConnections m (sx, sy) (x, y, c) with _ | conns
    · -- the walk cannot enter the next cell: the key has no successor
      refine ⟨_, rfl, ?_, List.mem_cons_self⟩
      rw [hins]
      exact VisitGrows.mark_of_no_step _ fun j' ⟨_, h, _⟩ => by simp [hentry] at h
    dsimp only
    by_cases hroom : (conns &&& 16 != 0) = true
    · -- a room's door: the walk stops there
      rw [if_pos hroom]
      refine ⟨_, rfl, ?_, List.mem_cons_self⟩
      rw [hins]
      refine VisitGrows.mark_of_no_step _ fun j' ⟨conns', h, h16, _⟩ => ?_
      rw [hentry, Option.some.injEq] at h
      subst h
      simp [h16] at hroom
    rw [if_neg hroom]
    have h16 : conns &&& 16 = 0 := by simpa using hroom
    -- the connections of the entered side, followed one after another
    have hacc : across (x, y, c) ∈ occupiedCells m := by
      by_contra hn
      simp [entryConnections, hn] at hentry
    have hcells : ((across (x, y, c)).1, (across (x, y, c)).2) ∈ boardCells :=
      mem_boardCells.2 (mem_occupiedCells.1 hacc).1
    have hcard : (unvisited ((x, y, c) :: s.followed)).card < fuel := by
      have := card_unvisited_cons hk hmem
      omega
    obtain ⟨s', hfold, hgrow, hnext⟩ := foldlM_except_exists
      (fun t t' => VisitGrows (WalkStep m (sx, sy)) (x, y, c) {j | j ∈ t.followed} {j | j ∈ t'.followed})
      (fun t => VisitGrows.refl _ _) (fun _ _ _ h h' => h.trans h')
      (fun (i : Nat) t => conns &&& (1 <<< i) ≠ 0 → nextKey m (x, y, c) i ∈ t.followed)
      (fun _ _ _ hP h hbit => h.subset (hP hbit))
      (fun t (i : Nat) => if conns &&& (1 <<< i) != 0 then
        findRooms m sx sy fuel t (across (x, y, c)).1 (across (x, y, c)).2
          ((i + (tileAcross m (x, y, c)).rotation).tmod 4)
      else .ok t) [0, 1, 2, 3]
      { s with followed := (x, y, c) :: s.followed } (by
        intro i hi t ht
        by_cases hbit : (conns &&& (1 <<< i) != 0) = true
        · have hbit' : conns &&& (1 <<< i) ≠ 0 := by simpa using hbit
          have hi4 : i < 4 := by simp at hi; omega
          have hkey : nextKey m (x, y, c) i ∈ boardKeys := by
            obtain ⟨-, hr0, -⟩ := validTile_tileAt hv (across (x, y, c)).1 (across (x, y, c)).2
            obtain ⟨h0, h3⟩ := tmod_four_bounds (by simp only [tileAcross]; omega :
              0 ≤ (i : Int) + (tileAcross m (x, y, c)).rotation)
            exact mem_boardKeys.2 ⟨hcells, h0, h3⟩
          have hfuel' : (unvisited t.followed).card < fuel :=
            lt_of_le_of_lt (card_unvisited_le fun j hj => ht.subset hj) hcard
          obtain ⟨t', ht', hgrow', hmem'⟩ := ih t _ hkey hfuel'
          refine ⟨t', ?_, VisitGrows.of_step (walkStep_nextKey hv hentry h16 hi4 hbit') hgrow',
            fun _ => hmem'⟩
          exact (if_pos hbit).trans ht'
        · refine ⟨t, if_neg hbit, VisitGrows.refl _ _, fun hbit' => ?_⟩
          simp [hbit'] at hbit)
    refine ⟨s', hfold, ?_, hgrow.subset (List.mem_cons_self)⟩
    rw [hins] at hgrow
    refine VisitGrows.of_mark hgrow fun j' ⟨conns', h, _, i, hi, hbit, hj'⟩ => ?_
    rw [hentry, Option.some.injEq] at h
    subst h
    have hmemi : i ∈ [0, 1, 2, 3] := by
      have : i = 0 ∨ i = 1 ∨ i = 2 ∨ i = 3 := by omega
      rcases this with rfl | rfl | rfl | rfl <;> simp
    have hj : j' = nextKey m (x, y, c) i := by
      obtain ⟨-, hr0, -⟩ := validTile_tileAt hv (across (x, y, c)).1 (across (x, y, c)).2
      rw [hj', nextKey, Int.tmod_eq_emod_of_nonneg (by simp only [tileAcross]; omega)]
    rw [hj]
    exact hnext i hmemi hbit

/-! ## The count -/

/-- Whether a walk leaving by `k` enters a room's door. -/
def isRoomKey (m : TileMap) (start : Int × Int) (k : Key) : Bool :=
  match entryConnections m start k with
  | some conns => conns &&& 16 != 0
  | none => false

/-- `connectedRooms` counts the followed keys that enter a room, and no key is
followed twice. -/
def RoomCount (m : TileMap) (start : Int × Int) (s : SearchState) : Prop :=
  s.followed.Nodup ∧ s.connectedRooms = ((s.followed.filter (isRoomKey m start)).length : Int)

theorem roomCount_cons {m : TileMap} {start : Int × Int} {s : SearchState} {k : Key}
    (h : RoomCount m start s) (hnew : k ∉ s.followed) (hroom : isRoomKey m start k = false) :
    RoomCount m start { s with followed := k :: s.followed } :=
  ⟨List.nodup_cons.2 ⟨hnew, h.1⟩, by simp [hroom, h.2]⟩

theorem findRooms_roomCount {m : TileMap} (hv : ValidBoard m) (sx sy : Int) :
    ∀ (fuel : Nat) (s : SearchState) (x y c : Int) {s' : SearchState}, 0 ≤ c → c ≤ 3 →
      RoomCount m (sx, sy) s → findRooms m sx sy fuel s x y c = .ok s' → RoomCount m (sx, sy) s' := by
  intro fuel
  induction fuel with
  | zero =>
    intro s x y c s' _ _ hs h
    cases h
    exact hs
  | succ fuel ih =>
    intro s x y c s' hc0 hc3 hs h
    rw [findRooms_succ_eq hv sx sy fuel s hc0 hc3] at h
    by_cases hmem : (x, y, c) ∈ s.followed
    · rw [if_pos hmem] at h
      cases h
      exact hs
    rw [if_neg hmem] at h
    rcases hentry : entryConnections m (sx, sy) (x, y, c) with _ | conns <;> rw [hentry] at h
    · cases h
      exact roomCount_cons hs hmem (by simp [isRoomKey, hentry])
    dsimp only at h
    by_cases hroom : (conns &&& 16 != 0) = true
    · rw [if_pos hroom] at h
      cases h
      refine ⟨List.nodup_cons.2 ⟨hmem, hs.1⟩, ?_⟩
      have hk : isRoomKey m (sx, sy) (x, y, c) = true := by simp [isRoomKey, hentry, hroom]
      simp [hk, hs.2]
    rw [if_neg hroom] at h
    -- each call the loop makes keeps the count
    refine foldlM_except_invariant (RoomCount m (sx, sy)) _ _ _ s'
      (roomCount_cons hs hmem (by simpa [isRoomKey, hentry] using hroom)) ?_ h
    intro i _ t t' ht hstep
    split_ifs at hstep
    · obtain ⟨-, hr0, -⟩ := validTile_tileAt hv (across (x, y, c)).1 (across (x, y, c)).2
      obtain ⟨h0, h3⟩ := tmod_four_bounds (by simp only [tileAcross]; omega :
        0 ≤ (i : Int) + (tileAcross m (x, y, c)).rotation)
      exact ih t _ _ _ h0 h3 ht hstep
    · cases hstep
      exact ht

/-! ## Each room once -/

/-- Every tile type has at most one side that opens on its room. -/
theorem atlas_one_door : ∀ t : Nat, t < 15 → ∀ e : Nat, e < 4 → ∀ e' : Nat, e' < 4 →
    atlasAt t e &&& 16 ≠ 0 → atlasAt t e' &&& 16 ≠ 0 → e = e' := by
  decide

theorem door_unique {t e e' : Int} (ht : 0 ≤ t ∧ t < 15) (he : 0 ≤ e ∧ e < 4) (he' : 0 ≤ e' ∧ e' < 4)
    (h : atlasAt t e &&& 16 ≠ 0) (h' : atlasAt t e' &&& 16 ≠ 0) : e = e' := by
  rw [← Int.toNat_of_nonneg ht.1, ← Int.toNat_of_nonneg he.1] at h
  rw [← Int.toNat_of_nonneg ht.1, ← Int.toNat_of_nonneg he'.1] at h'
  have := atlas_one_door t.toNat (by omega) e.toNat (by omega) e'.toNat (by omega) h h'
  omega

theorem crossSide_inj {x y c x' y' c' : Int} (hc0 : 0 ≤ c) (hc3 : c ≤ 3) (hc0' : 0 ≤ c') (hc3' : c' ≤ 3)
    (h : crossSide x y c = crossSide x' y' c') : (x, y, c) = (x', y', c') := by
  have : c = 0 ∨ c = 1 ∨ c = 2 ∨ c = 3 := by omega
  have : c' = 0 ∨ c' = 1 ∨ c' = 2 ∨ c' = 3 := by omega
  rcases ‹c = 0 ∨ _› with rfl | rfl | rfl | rfl <;> rcases ‹c' = 0 ∨ _› with rfl | rfl | rfl | rfl <;>
    simp [crossSide] at h ⊢ <;> omega

theorem entryConnections_eq_some {m : TileMap} {start : Int × Int} {k : Key} {conns : Nat} :
    entryConnections m start k = some conns ↔
      (across k ∈ occupiedCells m ∧ across k ≠ start) ∧
        conns = atlasAt (tileAcross m k).tileTypeIndex ((entrySide k - (tileAcross m k).rotation) % 4) := by
  unfold entryConnections
  by_cases h : across k ∈ occupiedCells m ∧ across k ≠ start
  · simp [h, eq_comm]
  · rw [if_neg h]
    simp only [reduceCtorEq, h, false_and]

theorem entersRoom_iff {m : TileMap} {start : Int × Int} {k : Key} {p : Int × Int} :
    EntersRoom m start k p ↔ isRoomKey m start k = true ∧ p = across k := by
  unfold EntersRoom isRoomKey
  rcases entryConnections m start k with _ | conns <;> simp

/-- Two keys that enter the same room enter it by its one door, across the
same side of the same neighbour. -/
theorem roomKey_inj {m : TileMap} (hv : ValidBoard m) {start : Int × Int} {k k' : Key}
    (hk : 0 ≤ k.2.2 ∧ k.2.2 ≤ 3) (hk' : 0 ≤ k'.2.2 ∧ k'.2.2 ≤ 3)
    (hr : isRoomKey m start k = true) (hr' : isRoomKey m start k' = true) (h : across k = across k') :
    k = k' := by
  obtain ⟨x, y, c⟩ := k
  obtain ⟨x', y', c'⟩ := k'
  unfold isRoomKey at hr hr'
  rcases he : entryConnections m start (x, y, c) with _ | conns <;> rw [he] at hr
  · cases hr
  rcases he' : entryConnections m start (x', y', c') with _ | conns' <;> rw [he'] at hr'
  · cases hr'
  obtain ⟨⟨hocc, -⟩, rfl⟩ := entryConnections_eq_some.1 he
  obtain ⟨-, rfl⟩ := entryConnections_eq_some.1 he'
  have htile : tileAcross m (x', y', c') = tileAcross m (x, y, c) := by simp only [tileAcross, h]
  rw [htile] at hr'
  have hvt : ValidTile (tileAcross m (x, y, c)) := validTile_tileAt hv _ _
  have hocc' := (mem_occupiedCells.1 hocc).2
  obtain ⟨htype, hr0, hr3⟩ := hvt
  have htype' : 0 ≤ (tileAcross m (x, y, c)).tileTypeIndex ∧ (tileAcross m (x, y, c)).tileTypeIndex < 15 :=
    htype.resolve_left hocc'
  obtain ⟨he0, he3⟩ := @entrySide_bounds x y c hk.1 hk.2
  obtain ⟨he0', he3'⟩ := @entrySide_bounds x' y' c' hk'.1 hk'.2
  have hdoor := @door_unique _ ((entrySide (x, y, c) - (tileAcross m (x, y, c)).rotation) % 4)
    ((entrySide (x', y', c') - (tileAcross m (x, y, c)).rotation) % 4) htype' (by omega) (by omega)
    (by simpa using hr) (by simpa using hr')
  have hside : entrySide (x, y, c) = entrySide (x', y', c') := by omega
  unfold across at h
  simp only [Prod.mk.injEq] at h
  exact crossSide_inj hk.1 hk.2 hk'.1 hk'.2 (Prod.ext h.1 (Prod.ext h.2 hside))

theorem side_of_reach {m : TileMap} {start : Int × Int} {k₀ k : Key}
    (h₀ : 0 ≤ k₀.2.2 ∧ k₀.2.2 ≤ 3) (h : ReflTransGen (WalkStep m start) k₀ k) : 0 ≤ k.2.2 ∧ k.2.2 ≤ 3 := by
  induction h with
  | refl => exact h₀
  | tail _ hs _ =>
    obtain ⟨_, _, _, i, _, _, rfl⟩ := hs
    dsimp only
    omega

/-- The rooms reached from `k₀` are the cells across the reachable keys that
enter a room. -/
theorem reachedRooms_eq_image (m : TileMap) (start : Int × Int) (k₀ : Key) :
    reachedRooms m start k₀ = across '' {k | ReflTransGen (WalkStep m start) k₀ k ∧ isRoomKey m start k = true} := by
  ext p
  simp only [reachedRooms, entersRoom_iff, Set.mem_ofPred_eq, Set.mem_image]
  constructor
  · rintro ⟨k, hreach, hroom, rfl⟩
    exact ⟨k, ⟨hreach, hroom⟩, rfl⟩
  · rintro ⟨k, ⟨hreach, hroom⟩, rfl⟩
    exact ⟨k, hreach, hroom, rfl⟩

theorem length_filter_eq_ncard {α : Type} [DecidableEq α] {l : List α} (hl : l.Nodup) (p : α → Bool) :
    (l.filter p).length = {a | a ∈ l ∧ p a = true}.ncard := by
  rw [← List.toFinset_card_of_nodup (hl.filter p), ← Set.ncard_coe_finset]
  congr 1
  ext a
  simp

/-- A search from a door of an occupied cell returns, and counts the rooms a
walk from the door reaches, each once. -/
theorem searchFromDoor_connectedRooms {m : TileMap} (hv : ValidBoard m) {x y : Int}
    (hxy : (x, y) ∈ occupiedCells m) (side : Nat) :
    ∃ s, searchFromDoor m x y (tileAt m x y) side = .ok s ∧
      s.connectedRooms = ((reachedRooms m (x, y) (doorKey m ((x, y), side))).ncard : Int) := by
  obtain ⟨-, hr0, -⟩ := validTile_tileAt hv x y
  have hside : ((side : Int) + (tileAt m x y).rotation).tmod 4 = ((side : Int) + (tileAt m x y).rotation) % 4 :=
    Int.tmod_eq_emod_of_nonneg (by omega)
  obtain ⟨h0, h3⟩ := tmod_four_bounds (by omega : 0 ≤ (side : Int) + (tileAt m x y).rotation)
  have hkey : (x, y, ((side : Int) + (tileAt m x y).rotation).tmod 4) ∈ boardKeys :=
    mem_boardKeys.2 ⟨mem_boardCells.2 (mem_occupiedCells.1 hxy).1, h0, h3⟩
  have hfuel : (unvisited []).card < findRoomsFuel :=
    lt_of_le_of_lt ((Finset.card_filter_le _ _).trans card_boardKeys_le) (by decide)
  obtain ⟨s', hs', hgrow, hroot⟩ := findRooms_visit hv x y findRoomsFuel ⟨[], 0, [(x, y)]⟩ _ hkey hfuel
  have hcount := findRooms_roomCount hv x y findRoomsFuel _ _ _ _ h0 h3 ⟨List.nodup_nil, rfl⟩ hs'
  have hempty : {j | j ∈ ([] : List Key)} = ∅ := by simp
  rw [hempty] at hgrow
  have hreach := Set.ext_iff.1 (hgrow.eq_reach hroot)
  have hset : {j | j ∈ s'.followed ∧ isRoomKey m (x, y) j = true} =
      {k | ReflTransGen (WalkStep m (x, y)) (doorKey m ((x, y), side)) k ∧ isRoomKey m (x, y) k = true} := by
    ext j
    simp only [Set.mem_ofPred_eq] at hreach ⊢
    rw [hreach j, doorKey, hside]
  refine ⟨s', hs', ?_⟩
  rw [hcount.2, length_filter_eq_ncard hcount.1, hset, reachedRooms_eq_image, Set.InjOn.ncard_image]
  rintro k ⟨hk, hkr⟩ k' ⟨hk', hkr'⟩ hacc
  have hd : 0 ≤ (doorKey m ((x, y), side)).2.2 ∧ (doorKey m ((x, y), side)).2.2 ≤ 3 := by
    simpa [doorKey, ← hside] using And.intro h0 h3
  exact roomKey_inj hv (side_of_reach hd hk) (side_of_reach hd hk') hkr hkr' hacc

/-! ## The best door -/

theorem mem_doors {m : TileMap} {d : (Int × Int) × Nat} :
    d ∈ doors m ↔ d.1 ∈ occupiedCells m ∧ d.2 < 4 ∧ atlasAt (tileAt m d.1.1 d.1.2).tileTypeIndex d.2 &&& 16 ≠ 0 := by
  simp [doors, and_assoc]

/-- What a search from side `d.2` of cell `d.1` counts: the rooms it reaches
when the side is a door, and nothing otherwise. -/
noncomputable def doorValue (m : TileMap) (d : (Int × Int) × Nat) : Nat :=
  if d ∈ doors m then (reachedRooms m d.1 (doorKey m d)).ncard else 0

theorem foldl_max_eq_sup {α β : Type} [LinearOrder α] [OrderBot α] [DecidableEq β] (f : β → α) :
    ∀ (l : List β) (v : α), l.foldl (fun v b => max v (f b)) v = max v (l.toFinset.sup f)
  | [], v => by simp
  | b :: l, v => by
    rw [List.foldl_cons, foldl_max_eq_sup f l, List.toFinset_cons, Finset.sup_insert]
    rw [max_assoc]

/-- `scoreCell` raises the best count to the count of each door of the cell. -/
theorem scoreCell_best {m : TileMap} (hv : ValidBoard m) (acc : ScoreState) {x y : Int}
    (hxy : (x, y) ∈ boardCells) :
    ∃ acc', scoreCell m acc x y = .ok acc' ∧
      acc'.maxConnectedRooms.toNat =
        [0, 1, 2, 3].foldl (fun v side => max v (doorValue m ((x, y), side))) acc.maxConnectedRooms.toNat := by
  obtain ⟨htype, -, -⟩ := validTile_tileAt hv x y
  unfold scoreCell
  dsimp only
  by_cases hempty : (tileAt m x y).tileTypeIndex < 0
  · -- an empty cell has no doors
    rw [if_pos hempty]
    have hnone : ∀ side, doorValue m ((x, y), side) = 0 := fun side => if_neg fun hd => by
      have := (mem_occupiedCells.1 (mem_doors.1 hd).1).2
      dsimp only at this
      omega
    refine ⟨acc, rfl, ?_⟩
    simp [hnone]
  rw [if_neg hempty]
  have hocc : (x, y) ∈ occupiedCells m := mem_occupiedCells.2 ⟨mem_boardCells.1 hxy, by dsimp only; omega⟩
  apply foldlM_except_foldl (fun a => a.maxConnectedRooms.toNat) _ _ [0, 1, 2, 3] acc
  intro side hside a
  have hside4 : side < 4 := by simp at hside; omega
  rw [atlasConnections_eq (by omega) (by omega), Reader.ok_bind]
  by_cases hbit : (atlasAt (tileAt m x y).tileTypeIndex side &&& 16 != 0) = true
  · rw [if_pos hbit]
    obtain ⟨s, hs, hcount⟩ := searchFromDoor_connectedRooms hv hocc side
    have hdoor : ((x, y), side) ∈ doors m := mem_doors.2 ⟨hocc, hside4, by simpa using hbit⟩
    have hval : (doorValue m ((x, y), side) : Int) = s.connectedRooms := by
      rw [hcount, doorValue, if_pos hdoor]
    rw [hs, Reader.ok_bind]
    split_ifs with hgt
    · exact ⟨_, rfl, by dsimp only; omega⟩
    · exact ⟨a, rfl, by omega⟩
  · rw [if_neg hbit]
    have hnot : ((x, y), side) ∉ doors m := fun hd => hbit (by simpa using (mem_doors.1 hd).2.2)
    exact ⟨a, rfl, by simp [doorValue, hnot]⟩

theorem le_mostReachedRooms {m : TileMap} {d : (Int × Int) × Nat} (hd : d ∈ doors m) :
    (reachedRooms m d.1 (doorKey m d)).ncard ≤ mostReachedRooms m := by
  have h := Finset.le_sup (f := fun d => (reachedRooms m d.1 (doorKey m d)).ncard) hd
  exact h

/-- The doors are the sides of the cells `CalculateScore` visits that count. -/
theorem sup_doorValue (m : TileMap) :
    (boardCells.toFinset ×ˢ [0, 1, 2, 3].toFinset).sup (doorValue m) = mostReachedRooms m := by
  apply le_antisymm
  · apply Finset.sup_le
    intro d _
    unfold doorValue
    split_ifs with hd
    · exact le_mostReachedRooms hd
    · exact Nat.zero_le _
  · apply Finset.sup_le
    intro d hd
    obtain ⟨hocc, hside, -⟩ := mem_doors.1 hd
    have hmem : d ∈ boardCells.toFinset ×ˢ [0, 1, 2, 3].toFinset := by
      simp only [Finset.mem_product, List.mem_toFinset, mem_boardCells]
      exact ⟨(mem_occupiedCells.1 hocc).1, by simp; omega⟩
    have hval : doorValue m d = (reachedRooms m d.1 (doorKey m d)).ncard := if_pos hd
    exact hval ▸ Finset.le_sup hmem

theorem calculateScore_rooms {m : TileMap} (hv : ValidBoard m) :
    calculateScore m = .ok (roomScore (mostReachedRooms m)) := by
  obtain ⟨best, hbest, hval⟩ := foldlM_except_foldl (fun a => a.maxConnectedRooms.toNat)
    (fun v (c : Int × Int) => [0, 1, 2, 3].foldl (fun v side => max v (doorValue m (c, side))) v)
    (fun acc (c : Int × Int) => scoreCell m acc c.1 c.2) boardCells ⟨0, []⟩
    fun c hc acc => scoreCell_best hv acc hc
  -- the two loops of `CalculateScore` take the largest count over every side of every cell
  have hsup : best.maxConnectedRooms.toNat = mostReachedRooms m := by
    simp only [hval, foldl_max_eq_sup, ← sup_doorValue, Finset.sup_product_left]
    simp
  unfold calculateScore
  rw [hbest, Reader.ok_bind, roomScore]
  congr 1
  split_ifs <;> omega

theorem calculateScore_rooms_pairedRooms :
    ValidBoard ((emptyBoard.set 0 ⟨7, 0⟩).set 7 ⟨12, 1⟩) ∧
      calculateScore ((emptyBoard.set 0 ⟨7, 0⟩).set 7 ⟨12, 1⟩) =
        .ok (roomScore (mostReachedRooms ((emptyBoard.set 0 ⟨7, 0⟩).set 7 ⟨12, 1⟩))) :=
  ⟨by decide, calculateScore_rooms (by decide)⟩

/-- Two rooms whose doors face each other form a group of two. -/
example : calculateScore ((emptyBoard.set 0 ⟨7, 0⟩).set 7 ⟨12, 1⟩) = .ok 20 := by rfl

end Ring.Pop
