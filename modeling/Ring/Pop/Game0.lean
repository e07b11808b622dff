import Ring.Node.State

/-!
# Game0, the first proof-of-play game (src/crypto/pop/game0/game0.cpp)

A 7×7 board is filled with tiles one at a time. The tile to place is drawn
from a hash chain: `GetNextTile` hashes the current mutated hash together
with the solution so far and takes byte 13 modulo 15. A move places the
current tile, with a rotation, on an empty cell next to an occupied one
(anywhere for the first tile); the move is logged in the solution as the
byte `(rotation << 6) + (x << 3) + y`.

`CalculateScore` looks, from every room door, for other room doors reachable
through the tiles' connections (`FindRooms`, a depth-first search that never
follows the same `(x, y, connection)` twice) and scores `10 * (m + 1)` for the
largest count `m > 0`. `VerifyGameSolution` replays a solution from the
source hash and compares the score with the target.

The hash is `Env.hashWriter`. `FindRooms` recurses once per new key of
`followedBranches`; `fuel` bounds that depth.
-/
namespace Ring.Pop

open Ring.Lib Ring.Arith Ring.Chain Ring.Node

/-- `GAME0_BOARD_SIZE`. -/
def GAME0_BOARD_SIZE : Int := 7

/-- `GAME0_NUM_TILES`. -/
def GAME0_NUM_TILES : Int := 15

/-- `Game0Tile`: a type index (`-1` when empty) and a rotation. -/
structure Game0Tile where
  tileTypeIndex : Int
  rotation : Int
  deriving DecidableEq, Repr

/-- The connections of each side of each tile type (`game0TileAtlas`; the
water field is never read): bit `i` joins side `i`, bit 4 the inner room.
mirrors src/crypto/pop/game0/game0.cpp:10-26 -/
def game0TileAtlas : List (List Nat) :=
  [[2, 1, 0, 0], [4, 0, 1, 0], [8, 4, 2, 1], [8 + 2, 8 + 1, 0, 1 + 2],
   [2 + 4 + 8, 1 + 4 + 8, 1 + 2 + 8, 1 + 2 + 4], [2, 1, 0, 0], [0, 0, 0, 0],
   [0, 0, 16, 0], [16, 0, 8, 4], [16, 8, 0, 2], [0, 0, 0, 0], [4, 8, 1, 2],
   [0, 0, 0, 16], [16, 8, 0, 2], [0, 0, 0, 0]]

/-- `game0TileAtlas[t].connections[c]`, undefined outside the arrays. -/
def atlasConnections (t c : Int) : Except Fault Nat :=
  if 0 ≤ t ∧ t < 15 ∧ 0 ≤ c ∧ c < 4 then
    .ok ((game0TileAtlas.getD t.toNat []).getD c.toNat 0)
  else .error .outOfRange

/-- The empty cell. -/
def emptyTile : Game0Tile := ⟨-1, 0⟩

/-- The board, row-major: `tileMap[y][x]` is entry `7 * y + x`. -/
abbrev TileMap := List Game0Tile

def emptyBoard : TileMap := List.replicate 49 emptyTile

/-- `tileMap[y][x]` for `x`, `y` on the board. -/
def tileAt (m : TileMap) (x y : Int) : Game0Tile := m.getD (7 * y + x).toNat emptyTile

/-- `Game0::GetTileTypeIndex`: `-1` off the board. -/
def getTileTypeIndex (m : TileMap) (x y : Int) : Int :=
  if 0 ≤ x ∧ x < 7 ∧ 0 ≤ y ∧ y < 7 then (tileAt m x y).tileTypeIndex else -1

/-- `Game0::HasNeighbour`.
mirrors src/crypto/pop/game0/game0.cpp:140-147 -/
def hasNeighbour (m : TileMap) (x y : Int) : Bool :=
  getTileTypeIndex m (x + 1) y != -1 || getTileTypeIndex m (x - 1) y != -1 ||
    getTileTypeIndex m x (y + 1) != -1 || getTileTypeIndex m x (y - 1) != -1

/-- The game state `PlaceTile` and `GetNextTile` change. -/
structure Game0 where
  gameSourceHash : Uint256
  gameMutatedHash : Uint256
  tilesPlaced : Int
  solution : List UInt8
  tileMap : TileMap
  currentTile : Int
  nextTile : Int

/-- `Game0::GetNextTile`: `ss << gameMutatedHash << solution`, the hash becomes
the new mutated hash, and its byte 13 modulo 15 is the tile.
mirrors src/crypto/pop/game0/game0.cpp:149-155 -/
def getNextTile (hashWriter : List UInt8 → Uint256) (g : Game0) : Game0 × Int :=
  let h := hashWriter (g.gameMutatedHash.data ++ writeCompactSize g.solution.length ++ g.solution)
  ({ g with gameMutatedHash := h }, ((h.data.getD 13 0).toNat % 15 : Nat))

/-- `Game0::InitGame`: empty board and solution, then the first two tiles.
mirrors src/crypto/pop/game0/game0.cpp:37-52 -/
def initGame (hashWriter : List UInt8 → Uint256) (sourceHash : Uint256) : Game0 :=
  let g : Game0 := { gameSourceHash := sourceHash, gameMutatedHash := sourceHash, tilesPlaced := 0,
                     solution := [], tileMap := emptyBoard, currentTile := 0, nextTile := 0 }
  let (g, t1) := getNextTile hashWriter g
  let (g, t2) := getNextTile hashWriter g
  { g with currentTile := t1, nextTile := t2 }

/-- The byte a move is logged as: `(rotation << 6) + (x << 3) + y` stored in an
`unsigned char`. -/
def packMove (x y rotation : Int) : UInt8 := UInt8.ofNat ((rotation * 64 + x * 8 + y) % 256).toNat

/-- `Game0::PlaceTile`: the new state, or the error text.
mirrors src/crypto/pop/game0/game0.cpp:85-121 -/
def placeTile (hashWriter : List UInt8 → Uint256) (g : Game0) (x y rotation : Int) :
    Except String Game0 :=
  if x < 0 ∨ x ≥ GAME0_BOARD_SIZE ∨ y < 0 ∨ y ≥ GAME0_BOARD_SIZE then
    .error "Attempted out-of-range placement"
  else if (tileAt g.tileMap x y).tileTypeIndex != -1 then
    .error "Attempted to place on an occupied tile"
  else if g.tilesPlaced > 0 ∧ !hasNeighbour g.tileMap x y then
    .error "Attempted to place without occupied neighbour"
  else
    let g := { g with tileMap := g.tileMap.set (7 * y + x).toNat ⟨g.currentTile, rotation⟩,
                      solution := g.solution ++ [packMove x y rotation],
                      tilesPlaced := g.tilesPlaced + 1,
                      currentTile := g.nextTile }
    let (g, t) := getNextTile hashWriter g
    .ok { g with nextTile := t }

/-- `==` on a `followedBranches` key is equality; named once, so that every `∈`
test on keys uses this one proof. -/
instance instLawfulBEqKey : LawfulBEq (Int × Int × Int) := inferInstance

/-- The state of one room search: `followedBranches` (as its key list),
`connectedRooms`, `candidateCandles`. -/
structure SearchState where
  followed : List (Int × Int × Int)
  connectedRooms : Int
  candidateCandles : List (Int × Int)
  deriving DecidableEq

/-- The cell across side `connection` and the side it is entered by; the
`switch` leaves both unchanged for any other value. -/
def crossSide (x y connection : Int) : Int × Int × Int :=
  if connection = 0 then (x, y - 1, 2)
  else if connection = 1 then (x + 1, y, 3)
  else if connection = 2 then (x, y + 1, 0)
  else if connection = 3 then (x - 1, y, 1)
  else (x, y, connection)

/-- `Game0::FindRooms(x, y, connection)` from the search start `(sx, sy)`; the
loop over the outgoing connections is the fold over `i = 0 .. 3`.
mirrors src/crypto/pop/game0/game0.cpp:195-247 -/
def findRooms (m : TileMap) (sx sy : Int) : Nat → SearchState → Int → Int → Int →
    Except Fault SearchState
  | 0, s, _, _, _ => .ok s
  | fuel + 1, s, x, y, connection =>
    if (x, y, connection) ∈ s.followed then .ok s else
    let s := { s with followed := (x, y, connection) :: s.followed }
    let (x, y, connection) := crossSide x y connection
    if y < 0 ∨ y ≥ GAME0_BOARD_SIZE ∨ x < 0 ∨ x ≥ GAME0_BOARD_SIZE then .ok s
    else if x = sx ∧ y = sy then .ok s
    else
      let tile := tileAt m x y
      if tile.tileTypeIndex = -1 then .ok s
      else
        let connection := connection - tile.rotation
        let connection := if connection < 0 then connection + 4 else connection
        match atlasConnections tile.tileTypeIndex connection with
        | .error e => .error e
        | .ok connections =>
          if connections &&& 16 != 0 then
            .ok { s with candidateCandles := s.candidateCandles ++ [(x, y)],
                         connectedRooms := s.connectedRooms + 1 }
          else
            [0, 1, 2, 3].foldlM (fun s (i : Nat) =>
              if connections &&& (1 <<< i) != 0 then
                findRooms m sx sy fuel s x y ((i + tile.rotation).tmod 4)
              else .ok s) s

/-- Enough depth for every search: a call's key has `x`, `y` on the board and
a connection in `-3 .. 3`, and each call that recurses adds a new key. -/
def findRoomsFuel : Nat := 7 * 7 * 7 + 1

/-- What `CalculateScore` keeps across doors: the best count and its candles. -/
structure ScoreState where
  maxConnectedRooms : Int
  candles : List (Int × Int)
  deriving DecidableEq

/-- The search from side `side` of the tile at `(x, y)`: a fresh
`followedBranches`, no rooms yet, the start cell as the first candle. -/
def searchFromDoor (m : TileMap) (x y : Int) (tile : Game0Tile) (side : Nat) :
    Except Fault SearchState :=
  findRooms m x y findRoomsFuel ⟨[], 0, [(x, y)]⟩ x y ((side + tile.rotation).tmod 4)

/-- The body of `CalculateScore` for the cell `(x, y)`: a search from each
side that opens on the tile's room, keeping the largest count. -/
def scoreCell (m : TileMap) (acc : ScoreState) (x y : Int) : Except Fault ScoreState :=
  let tile := tileAt m x y
  if tile.tileTypeIndex < 0 then .ok acc
  else
    [0, 1, 2, 3].foldlM (fun acc (side : Nat) => do
      let c ← atlasConnections tile.tileTypeIndex side
      if c &&& 16 != 0 then
        let s ← searchFromDoor m x y tile side
        if s.connectedRooms > acc.maxConnectedRooms then pure ⟨s.connectedRooms, s.candidateCandles⟩
        else pure acc
      else pure acc) acc

/-- The cells in the order `CalculateScore` visits them: row by row. -/
def boardCells : List (Int × Int) :=
  (List.range 7).flatMap fun y => (List.range 7).map fun x => ((x : Int), (y : Int))

/-- `Game0::CalculateScore`: `10 * (m + 1)` for the largest group `m > 0` of
connected rooms, else `0`.
mirrors src/crypto/pop/game0/game0.cpp:159-193 -/
def calculateScore (m : TileMap) : Except Fault Int := do
  let best ← boardCells.foldlM (fun acc (c : Int × Int) => scoreCell m acc c.1 c.2) ⟨0, []⟩
  return if best.maxConnectedRooms > 0 then (best.maxConnectedRooms + 1) * 10 else 0

/-- The fields of a logged move: `x = (m >> 3) & 7`, `y = m & 7`,
`rotation = m >> 6`. -/
def moveX (m : UInt8) : Int := ((m.toNat >>> 3) &&& 7 : Nat)
def moveY (m : UInt8) : Int := (m.toNat &&& 7 : Nat)
def moveRotation (m : UInt8) : Int := (m.toNat >>> 6 : Nat)

/-- The placement loop of `VerifyGameSolution`: stops at the first move
`PlaceTile` refuses. -/
def replayMoves (hashWriter : List UInt8 → Uint256) (g : Game0) : List UInt8 → Except String Game0
  | [] => .ok g
  | mv :: rest => do
    let g ← placeTile hashWriter g (moveX mv) (moveY mv) (moveRotation mv)
    replayMoves hashWriter g rest

/-- `Game0::VerifyGameSolution`: `.ok (.ok ())` for `true`, `.ok (.error strError)`
for `false`.
mirrors src/crypto/pop/game0/game0.cpp:56-86 -/
def verifyGameSolution (hashWriter : List UInt8 → Uint256) (targetScore : Int)
    (sourceHash : Uint256) (solutionToVerify : List UInt8) : Except Fault (Except String Unit) :=
  if (solutionToVerify.length : Int) > GAME0_BOARD_SIZE * GAME0_BOARD_SIZE then
    .ok (.error "Impossible solution size")
  else
    match replayMoves hashWriter (initGame hashWriter sourceHash) solutionToVerify with
    | .error e => .ok (.error e)
    | .ok g => do
      let score ← calculateScore g.tileMap
      if score < targetScore then
        return .error ("Solution does not meet score target; score=" ++ toString score ++
          ", target=" ++ toString targetScore)
      return .ok ()

end Ring.Pop
