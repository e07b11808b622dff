import Ring.Chain.Block

/-!
# The block index (`CBlockIndex`, src/chain.h)

A `CBlockIndex*` is modelled by the chain it starts: the record it points to,
then the record of `pprev`, of `pprev->pprev`, and so on down to the genesis
block; `nullptr` is the empty chain. Following `pprev` is taking the tail, so
every backward walk of the source is structural recursion over the chain.

In a block tree built by `AddToBlockIndex` every record's height is one more
than its parent's and the genesis block has height 0 (`Linked`): the height
of the pointed-to record is the number of its ancestors.

Results:
* `Linked.height`: in a linked chain the tip's height is the chain's length
  minus one, and `Linked.tail` passes the property to `pprev`, and
  `Linked.of_suffix` to every ancestor.
-/
namespace Ring.Chain

open Ring.Arith

/-- The fields of one `CBlockIndex` other than its links: the block hash
(`*phashBlock`), height, status bits, transaction count and the header
fields it keeps. -/
structure IndexRecord where
  hashBlock : Uint256
  nHeight : Int
  nStatus : UInt32
  nTx : UInt32
  nVersion : Int32
  hashMerkleRoot : Uint256
  nTime : UInt32
  nBits : UInt32
  nNonce : UInt32
  deriving DecidableEq, Inhabited

/-- A `CBlockIndex*`: the pointed-to record and its ancestors, parent first;
`[]` is `nullptr`. -/
abbrev CBlockIndex := List IndexRecord

/-- `BLOCK_HAVE_DATA`: the full block is in a `blk*.dat` file. -/
def BLOCK_HAVE_DATA : UInt32 := 8

namespace IndexRecord

/-- `pindex->GetBlockHeader().IsHiveMined(params)`: only `nNonce` is read. -/
def isHiveMined (r : IndexRecord) (p : Params) : Bool := r.nNonce == p.hiveNonceMarker

/-- `pindex->GetBlockHeader().IsPopMined(params)`. -/
def isPopMined (r : IndexRecord) (p : Params) : Bool := r.nNonce == p.popNonceMarker

/-- `GetBlockTime()`: `nTime` as an `int64_t`. -/
def blockTime (r : IndexRecord) : Int := r.nTime.toNat

end IndexRecord

/-- `CBlockIndex::GetBlockHeader`: the header the record was built from;
`hashPrevBlock` is the parent's hash, null at the genesis block. -/
def blockHeader : CBlockIndex → Option CBlockHeader
  | [] => none
  | r :: rest =>
    some { nVersion := r.nVersion
           hashPrevBlock := (rest.head?.map IndexRecord.hashBlock).getD Uint256.null
           hashMerkleRoot := r.hashMerkleRoot
           nTime := r.nTime, nBits := r.nBits, nNonce := r.nNonce }

/-- Heights as `AddToBlockIndex` assigns them: one more than the parent's,
zero at the genesis block. -/
def Linked : CBlockIndex → Prop
  | [] => True
  | [r] => r.nHeight = 0
  | r :: r' :: rest => r.nHeight = r'.nHeight + 1 ∧ Linked (r' :: rest)

theorem Linked.tail {r : IndexRecord} {rest : CBlockIndex} (h : Linked (r :: rest)) : Linked rest := by
  cases rest with
  | nil => trivial
  | cons r' rest => exact h.2

theorem Linked.height {r : IndexRecord} {rest : CBlockIndex} (h : Linked (r :: rest)) :
    r.nHeight = rest.length := by
  induction rest generalizing r with
  | nil => exact h
  | cons r' rest ih =>
    obtain ⟨h1, h2⟩ := h
    rw [h1, ih h2]
    simp

/-- A block one height above the top of a linked chain extends it. -/
theorem Linked.cons {r : IndexRecord} {l : CBlockIndex} {h : Int} (hl : Linked l)
    (hhead : l.head?.map IndexRecord.nHeight = some h) (hr : r.nHeight = h + 1) : Linked (r :: l) := by
  cases l with
  | nil => cases hhead
  | cons r' rest =>
    simp only [List.head?_cons, Option.map_some, Option.some.injEq] at hhead
    exact ⟨by omega, hl⟩

/-- An ancestor of a linked chain is linked. -/
theorem Linked.of_suffix {l l' : CBlockIndex} (h : Linked l) (hs : l' <:+ l) : Linked l' := by
  obtain ⟨t, rfl⟩ := hs
  induction t with
  | nil => exact h
  | cons x t ih => exact ih (Linked.tail h)

/-- An ancestor is no higher than the chain it is an ancestor of. -/
theorem Linked.height_le_of_suffix {r q : IndexRecord} {rest qrest : CBlockIndex} (h : Linked (r :: rest))
    (hs : (q :: qrest) <:+ (r :: rest)) : q.nHeight ≤ r.nHeight := by
  have hlen := hs.length_le
  rw [h.height, (h.of_suffix hs).height]
  simp only [List.length_cons] at hlen
  omega

/-- `GetMedianTimePast`: the median of the times of the record and its ten
nearest ancestors (fewer near genesis), `pbegin[(pend - pbegin) / 2]` after
sorting.
mirrors src/chain.h:332-344 -/
def getMedianTimePast (p : CBlockIndex) : Int :=
  let times := ((p.take 11).map IndexRecord.blockTime).mergeSort (· ≤ ·)
  times.getD (times.length / 2) 0

/-- The heights, counted back from `pindexPrev`, whose block hashes make up
the deterministic random string. -/
def detRandHeights : List Nat := [0, 21, 173, 471, 1363, 12103]

/-- The loop of `GetDeterministicRandString`: at `steps` back from the start,
with the heights not yet hit. It stops when every height is hit or when
`pprev` is null.
mirrors src/validation.cpp:3243-3261 -/
def detRandLoop : CBlockIndex → Nat → List Nat → List Char
  | [], _, _ => []
  | _, _, [] => []
  | r :: rest, steps, h :: hs =>
    let (hit, hs') := if steps = h then (r.hashBlock.getHex, hs) else ([], h :: hs)
    hit ++ (if rest = [] then [] else detRandLoop rest (steps + 1) hs')

/-- `GetDeterministicRandString(pindexPrev)`. -/
def getDeterministicRandString (pindexPrev : CBlockIndex) : List Char :=
  detRandLoop pindexPrev 0 detRandHeights

end Ring.Chain
