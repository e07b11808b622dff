import Mathlib
import Ring.Pop.Game0

/-!
# How far a Game0 score can go with few tiles

`FindRooms` never follows a `followedBranches` key twice, and counts a room
only when it leaves an occupied cell by one of its four sides into another
occupied cell that is not the start (`roomEntries`). The count of a search
plus the room entries it has not yet followed never grows
(`findRooms_potential`), so a search counts at most as many rooms as there
are room entries. An entry is fixed by the cell it leaves and the cell it
enters, and the entered cell is not the start; with `n` occupied cells there
are at most `(n - 1)^2` of them (`card_roomEntries_le`). Hence

* `calculateScore_le`: a board whose tiles have rotations `0 .. 3` and `n`
  occupied cells scores at most `10 * ((n - 1)^2 + 1)`;
* `four_le_occupied_of_score`: a score above 50 needs at least four tiles.
-/
namespace Ring.Pop

open Ring.Lib

/-- A `followedBranches` key: a cell and the side a search leaves it by. -/
abbrev Key := Int × Int × Int

/-- The occupied cells of the board. -/
def occupiedCells (m : TileMap) : Finset (Int × Int) :=
  (boardCells.filter fun p => (tileAt m p.1 p.2).tileTypeIndex != -1).toFinset

/-- The cell across the side of a key. -/
def across (k : Key) : Int × Int := ((crossSide k.1 k.2.1 k.2.2).1, (crossSide k.1 k.2.1 k.2.2).2.1)

/-- The keys a search from `start` can count a room by: an occupied cell, one
of its four sides, and across it an occupied cell other than `start`. -/
def roomEntries (m : TileMap) (start : Int × Int) : Finset Key :=
  ((occupiedCells m ×ˢ ({0, 1, 2, 3} : Finset Int)).image fun pc => (pc.1.1, pc.1.2, pc.2)).filter
    fun k => across k ∈ occupiedCells m ∧ across k ≠ start

/-- The room entries a search has not followed yet. -/
def unfollowed (m : TileMap) (start : Int × Int) (followed : List Key) : Finset Key :=
  (roomEntries m start).filter (· ∉ followed)

/-- What never grows along a search: rooms counted plus room entries left. -/
def searchPotential (m : TileMap) (start : Int × Int) (s : SearchState) : Int :=
  s.connectedRooms + ((unfollowed m start s.followed).card : Int)

/-- Every tile on the board has a rotation `0 .. 3`, as `PlaceTile` writes
them from a move. -/
def RotationsInRange (m : TileMap) : Prop := ∀ t ∈ m, 0 ≤ t.rotation ∧ t.rotation ≤ 3

/-! ## Cells and keys -/

theorem mem_boardCells {p : Int × Int} : p ∈ boardCells ↔ 0 ≤ p.1 ∧ p.1 < 7 ∧ 0 ≤ p.2 ∧ p.2 < 7 := by
  obtain ⟨x, y⟩ := p
  simp [boardCells]
  constructor
  · rintro ⟨b, hb, a, ha, rfl, rfl⟩
    omega
  · rintro ⟨hx0, hx, hy0, hy⟩
    exact ⟨y.toNat, by omega, x.toNat, by omega, by omega, by omega⟩

theorem mem_occupiedCells {m : TileMap} {p : Int × Int} :
    p ∈ occupiedCells m ↔
      (0 ≤ p.1 ∧ p.1 < 7 ∧ 0 ≤ p.2 ∧ p.2 < 7) ∧ (tileAt m p.1 p.2).tileTypeIndex ≠ -1 := by
  simp [occupiedCells, mem_boardCells]

theorem mem_roomEntries {m : TileMap} {start : Int × Int} {k : Key} :
    k ∈ roomEntries m start ↔
      (k.1, k.2.1) ∈ occupiedCells m ∧ 0 ≤ k.2.2 ∧ k.2.2 ≤ 3 ∧ across k ∈ occupiedCells m ∧
        across k ≠ start := by
  obtain ⟨x, y, c⟩ := k
  simp only [roomEntries, Finset.mem_filter, Finset.mem_image, Finset.mem_product, Finset.mem_insert,
    Finset.mem_singleton, Prod.exists, Prod.mk.injEq]
  constructor
  · rintro ⟨⟨x', y', c', ⟨hocc, hc⟩, rfl, rfl, rfl⟩, hacross⟩
    exact ⟨hocc, by omega, by omega, hacross⟩
  · rintro ⟨hocc, hc0, hc3, hacross⟩
    exact ⟨⟨x, y, c, ⟨hocc, by omega⟩, rfl, rfl, rfl⟩, hacross⟩

/-- Across one of the four sides lies another cell. -/
theorem across_ne {x y c : Int} (hc0 : 0 ≤ c) (hc3 : c ≤ 3) : across (x, y, c) ≠ (x, y) := by
  have : c = 0 ∨ c = 1 ∨ c = 2 ∨ c = 3 := by omega
  rcases this with rfl | rfl | rfl | rfl <;> simp [across, crossSide]

/-- The four sides lead to four different cells. -/
theorem across_inj {x y c c' : Int} (hc0 : 0 ≤ c) (hc3 : c ≤ 3) (hc0' : 0 ≤ c') (hc3' : c' ≤ 3)
    (h : across (x, y, c) = across (x, y, c')) : c = c' := by
  have : c = 0 ∨ c = 1 ∨ c = 2 ∨ c = 3 := by omega
  have : c' = 0 ∨ c' = 1 ∨ c' = 2 ∨ c' = 3 := by omega
  rcases ‹c = 0 ∨ _› with rfl | rfl | rfl | rfl <;> rcases ‹c' = 0 ∨ _› with rfl | rfl | rfl | rfl <;>
    simp [across, crossSide] at h ⊢ <;> omega

/-- A cell of the board holds a tile of the list or the empty tile. -/
theorem rotation_tileAt {m : TileMap} (hrot : RotationsInRange m) (x y : Int) :
    0 ≤ (tileAt m x y).rotation ∧ (tileAt m x y).rotation ≤ 3 := by
  unfold tileAt
  rw [List.getD_eq_getElem?_getD]
  rcases h : m[(7 * y + x).toNat]? with _ | t
  · simp [emptyTile]
  · exact hrot t (List.mem_of_getElem? h)

/-- A side turned by a rotation, `(side + rotation) % 4` for non-negative
values, is one of the four sides. -/
theorem tmod_four_bounds {a : Int} (h : 0 ≤ a) : 0 ≤ a.tmod 4 ∧ a.tmod 4 ≤ 3 := by
  rw [Int.tmod_eq_emod_of_nonneg h]
  omega

/-! ## The potential of a search -/

theorem card_unfollowed_cons_le (m : TileMap) (start : Int × Int) (k : Key) (followed : List Key) :
    (unfollowed m start (k :: followed)).card ≤ (unfollowed m start followed).card := by
  apply Finset.card_le_card
  intro k' hk'
  simp only [unfollowed, Finset.mem_filter, List.mem_cons, not_or] at hk' ⊢
  exact ⟨hk'.1, hk'.2.2⟩

/-- Following a room entry for the first time uses it up. -/
theorem card_unfollowed_cons_of_mem {m : TileMap} {start : Int × Int} {k : Key} {followed : List Key}
    (hk : k ∈ roomEntries m start) (hnew : k ∉ followed) :
    (unfollowed m start followed).card = (unfollowed m start (k :: followed)).card + 1 := by
  have heq : unfollowed m start followed = insert k (unfollowed m start (k :: followed)) := by
    ext k'
    simp only [unfollowed, Finset.mem_filter, Finset.mem_insert, List.mem_cons, not_or]
    constructor
    · rintro ⟨hk', hnot⟩
      by_cases h : k' = k
      · exact .inl h
      · exact .inr ⟨hk', h, hnot⟩
    · rintro (rfl | ⟨hk', -, hnot⟩)
      · exact ⟨hk, hnew⟩
      · exact ⟨hk', hnot⟩
  rw [heq, Finset.card_insert_of_notMem]
  simp [unfollowed]

/-- One call of `FindRooms`, taken apart: a key already followed returns the
state; otherwise the key is recorded and the call stops (off the board, back
at the start, at an empty cell), counts a room entered across the side, or
follows the entered tile's other connections. -/
theorem findRooms_succ {m : TileMap} {sx sy : Int} {fuel : Nat} {s s' : SearchState} {x y c : Int}
    (h : findRooms m sx sy (fuel + 1) s x y c = .ok s') :
    ((x, y, c) ∈ s.followed ∧ s' = s) ∨
      (x, y, c) ∉ s.followed ∧
        (s' = { s with followed := (x, y, c) :: s.followed } ∨
          ∃ conns, across (x, y, c) ∈ occupiedCells m ∧ across (x, y, c) ≠ (sx, sy) ∧
            (s' = { s with followed := (x, y, c) :: s.followed,
                           connectedRooms := s.connectedRooms + 1,
                           candidateCandles := s.candidateCandles ++ [across (x, y, c)] } ∨
              [0, 1, 2, 3].foldlM (fun s (i : Nat) =>
                  if conns &&& (1 <<< i) != 0 then
                    findRooms m sx sy fuel s (across (x, y, c)).1 (across (x, y, c)).2
                      ((i + (tileAt m (across (x, y, c)).1 (across (x, y, c)).2).rotation).tmod 4)
                  else .ok s)
                { s with followed := (x, y, c) :: s.followed } = .ok s')) := by
  unfold findRooms at h
  split_ifs at h with hmem
  · cases h
    exact .inl ⟨hmem, rfl⟩
  refine .inr ⟨hmem, ?_⟩
  rcases hcs : crossSide x y c with ⟨x', y', c'⟩
  have hacross : across (x, y, c) = (x', y') := by simp [across, hcs]
  simp only [hcs] at h
  rw [hacross]
  -- the side the next tile is entered by, turned into the tile's own frame
  generalize (if c' - (tileAt m x' y').rotation < 0 then c' - (tileAt m x' y').rotation + 4
    else c' - (tileAt m x' y').rotation) = entry at h
  split_ifs at h with hout hstart hempty
  · cases h
    exact .inl rfl
  · cases h
    exact .inl rfl
  · cases h
    exact .inl rfl
  -- the tile entered is on the board, occupied, and not the start
  have hocc : (x', y') ∈ occupiedCells m := mem_occupiedCells.2 ⟨by simp [GAME0_BOARD_SIZE] at hout; omega, hempty⟩
  have hne : (x', y') ≠ (sx, sy) := fun he => hstart (Prod.mk.inj he)
  refine .inr ?_
  split at h
  · cases h
  · rename_i conns _
    refine ⟨conns, hocc, hne, ?_⟩
    split_ifs at h
    · cases h
      exact .inl rfl
    · exact .inr h

/-- A search never raises its potential: each room it counts uses up a room
entry it had not followed. The calls start from an occupied cell, by one of
its four sides. -/
theorem findRooms_potential {m : TileMap} (hrot : RotationsInRange m) (sx sy : Int) :
    ∀ (fuel : Nat) (s : SearchState) (x y c : Int) {s' : SearchState},
      (x, y) ∈ occupiedCells m → 0 ≤ c → c ≤ 3 → findRooms m sx sy fuel s x y c = .ok s' →
      searchPotential m (sx, sy) s' ≤ searchPotential m (sx, sy) s := by
  intro fuel
  induction fuel with
  | zero =>
    intro s x y c s' _ _ _ h
    cases h
    exact le_rfl
  | succ fuel ih =>
    intro s x y c s' hxy hc0 hc3 h
    set s₁ : SearchState := { s with followed := (x, y, c) :: s.followed }
    have hs₁ : searchPotential m (sx, sy) s₁ ≤ searchPotential m (sx, sy) s := by
      have := card_unfollowed_cons_le m (sx, sy) (x, y, c) s.followed
      simp only [searchPotential, s₁]
      omega
    rcases findRooms_succ h with ⟨-, rfl⟩ | ⟨hnew, rfl | ⟨conns, hocc, hne, rfl | hfold⟩⟩
    · exact le_rfl
    · exact hs₁
    · -- a room: the key is a room entry, and this is its first use
      have hentry : (x, y, c) ∈ roomEntries m (sx, sy) := mem_roomEntries.2 ⟨hxy, hc0, hc3, hocc, hne⟩
      have hcard := card_unfollowed_cons_of_mem hentry hnew
      simp only [searchPotential]
      omega
    · -- the outgoing connections: every call made from the entered cell keeps the bound
      refine le_trans ?_ hs₁
      refine foldlM_except_invariant (fun t => searchPotential m (sx, sy) t ≤ searchPotential m (sx, sy) s₁)
        _ _ s₁ s' le_rfl ?_ hfold
      intro i _ t t' ht hstep
      split_ifs at hstep
      · obtain ⟨r0, -⟩ := rotation_tileAt hrot (across (x, y, c)).1 (across (x, y, c)).2
        obtain ⟨hi0, hi3⟩ := tmod_four_bounds (by omega : 0 ≤ (i : Int) + (tileAt m (across (x, y, c)).1
          (across (x, y, c)).2).rotation)
        exact le_trans (ih t _ _ _ (by simpa using hocc) hi0 hi3 hstep) ht
      · cases hstep
        exact ht

/-- A search from a door of the occupied cell `(x, y)` counts at most as many
rooms as there are room entries. -/
theorem searchFromDoor_le {m : TileMap} (hrot : RotationsInRange m) {x y : Int} {side : Nat}
    {s : SearchState} (hxy : (x, y) ∈ occupiedCells m)
    (h : searchFromDoor m x y (tileAt m x y) side = .ok s) :
    s.connectedRooms ≤ (roomEntries m (x, y)).card := by
  obtain ⟨r0, -⟩ := rotation_tileAt hrot x y
  obtain ⟨hc0, hc3⟩ := tmod_four_bounds (by omega : 0 ≤ (side : Int) + (tileAt m x y).rotation)
  have hpot := findRooms_potential hrot x y findRoomsFuel _ x y _ hxy hc0 hc3 h
  have hstart : searchPotential m (x, y) ⟨[], 0, [(x, y)]⟩ = (roomEntries m (x, y)).card := by
    simp [searchPotential, unfollowed]
  have hleft : 0 ≤ ((unfollowed m (x, y) s.followed).card : Int) := Int.natCast_nonneg _
  simp only [searchPotential] at hpot hstart
  omega

/-- At most `(n - 1)^2` room entries for `n` occupied cells, the start among
them: an entry is fixed by the cell it leaves and the cell it enters, two
different occupied cells, the entered one not the start. -/
theorem card_roomEntries_le (m : TileMap) {start : Int × Int} (hs : start ∈ occupiedCells m) :
    (roomEntries m start).card ≤ ((occupiedCells m).card - 1) ^ 2 := by
  set occ := occupiedCells m
  set pairs := (occ.erase start ×ˢ occ).filter fun qp => qp.1 ≠ qp.2
  -- entries inject into (entered, left) pairs of different cells
  have hinj : (roomEntries m start).card ≤ pairs.card := by
    apply Finset.card_le_card_of_injOn (fun k => (across k, (k.1, k.2.1)))
    · intro k hk
      obtain ⟨hleft, hc0, hc3, hin, hne⟩ := mem_roomEntries.1 hk
      simp only [pairs, Finset.mem_coe, Finset.mem_filter, Finset.mem_product, Finset.mem_erase]
      exact ⟨⟨⟨hne, hin⟩, hleft⟩, across_ne hc0 hc3⟩
    · intro k hk k' hk' he
      obtain ⟨-, hc0, hc3, -⟩ := mem_roomEntries.1 hk
      obtain ⟨-, hc0', hc3', -⟩ := mem_roomEntries.1 hk'
      simp only [Prod.mk.injEq] at he
      obtain ⟨hacross, hx, hy⟩ := he
      obtain ⟨x, y, c⟩ := k
      obtain ⟨x', y', c'⟩ := k'
      dsimp only at hx hy hc0 hc3 hc0' hc3'
      subst hx hy
      rw [across_inj hc0 hc3 hc0' hc3' hacross]
  -- the pairs are all of `(occ - start) × occ` but its diagonal
  have hdiag : (occ.erase start).card ≤ ((occ.erase start ×ˢ occ).filter fun qp => ¬ qp.1 ≠ qp.2).card := by
    apply Finset.card_le_card_of_injOn (fun q => (q, q))
    · intro q hq
      simp only [Finset.mem_coe, Finset.mem_filter, Finset.mem_product, not_not]
      exact ⟨⟨hq, Finset.mem_of_mem_erase hq⟩, trivial⟩
    · intro q _ q' _ he
      exact (Prod.mk.inj he).1
  have hsplit : pairs.card + ((occ.erase start ×ˢ occ).filter fun qp => ¬ qp.1 ≠ qp.2).card =
      (occ.erase start ×ˢ occ).card := Finset.card_filter_add_card_filter_not _
  rw [Finset.card_product, Finset.card_erase_of_mem hs] at hsplit
  rw [Finset.card_erase_of_mem hs] at hdiag
  have hn : 1 ≤ occ.card := Finset.card_pos.2 ⟨start, hs⟩
  obtain ⟨k, hk⟩ : ∃ k, occ.card = k + 1 := ⟨occ.card - 1, by omega⟩
  rw [hk] at hsplit hdiag ⊢
  simp only [Nat.add_sub_cancel, Nat.mul_succ, Nat.pow_two] at hsplit hdiag ⊢
  generalize k * k = kk at hsplit ⊢
  omega

/-! ## The score -/

/-- Every search `CalculateScore` starts at a cell keeps the best count
within `B`, a bound on the room entries from any occupied start. -/
theorem scoreCell_le {m : TileMap} (hrot : RotationsInRange m) {B : Int}
    (hB : ∀ start ∈ occupiedCells m, ((roomEntries m start).card : Int) ≤ B)
    {acc acc' : ScoreState} {x y : Int} (hxy : (x, y) ∈ boardCells) (hacc : acc.maxConnectedRooms ≤ B)
    (h : scoreCell m acc x y = .ok acc') : acc'.maxConnectedRooms ≤ B := by
  unfold scoreCell at h
  dsimp only at h
  split_ifs at h with hempty
  · cases h
    exact hacc
  have hocc : (x, y) ∈ occupiedCells m := mem_occupiedCells.2 ⟨mem_boardCells.1 hxy, by dsimp only; omega⟩
  refine foldlM_except_invariant (fun a => a.maxConnectedRooms ≤ B) _ _ acc acc' hacc ?_ h
  intro side _ a a' ha hstep
  simp only [bind, Except.bind] at hstep
  rcases hc : atlasConnections (tileAt m x y).tileTypeIndex side with e | c <;> rw [hc] at hstep
  · cases hstep
  dsimp only at hstep
  split_ifs at hstep
  · -- a door of the room: one search, whose count is within the bound
    rcases hs : searchFromDoor m x y (tileAt m x y) side with e | s <;> rw [hs] at hstep
    · cases hstep
    dsimp only at hstep
    have hsearch := searchFromDoor_le hrot hocc hs
    have hstart := hB (x, y) hocc
    split_ifs at hstep <;> cases hstep
    · dsimp only
      omega
    · exact ha
  · cases hstep
    exact ha

/-- A board whose tiles have rotations `0 .. 3` and `n` occupied cells scores
at most `10 * ((n - 1)^2 + 1)`. -/
theorem calculateScore_le {m : TileMap} (hrot : RotationsInRange m) {score : Int}
    (h : calculateScore m = .ok score) :
    score ≤ 10 * (((((occupiedCells m).card - 1) ^ 2 : Nat) : Int) + 1) := by
  set B : Int := ((((occupiedCells m).card - 1) ^ 2 : Nat) : Int)
  have hB : ∀ start ∈ occupiedCells m, ((roomEntries m start).card : Int) ≤ B := fun start hs => by
    have := card_roomEntries_le m hs
    omega
  simp only [calculateScore, bind, Except.bind] at h
  rcases hbest : boardCells.foldlM (fun acc (c : Int × Int) => scoreCell m acc c.1 c.2) ⟨0, []⟩ with
    e | best <;> rw [hbest] at h
  · cases h
  dsimp only at h
  have hle : best.maxConnectedRooms ≤ B := by
    refine foldlM_except_invariant (fun a => a.maxConnectedRooms ≤ B) _ _ _ best (Int.natCast_nonneg _) ?_
      hbest
    intro c hc a a' ha hstep
    exact scoreCell_le hrot hB hc ha hstep
  simp only [pure, Except.pure, Except.ok.injEq] at h
  subst h
  split_ifs <;> omega

/-- A score above 50 takes at least four tiles. -/
theorem four_le_occupied_of_score {m : TileMap} (hrot : RotationsInRange m) {score : Int}
    (h : calculateScore m = .ok score) (hscore : 50 < score) : 4 ≤ (occupiedCells m).card := by
  by_contra hlt
  have hsq : ((occupiedCells m).card - 1) ^ 2 ≤ 2 ^ 2 := Nat.pow_le_pow_left (by omega) 2
  have hle := calculateScore_le hrot h
  omega

end Ring.Pop
