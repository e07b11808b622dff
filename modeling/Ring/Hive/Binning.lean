import Mathlib
import Ring.Hive.Miner

/-!
# The dwarf bins of `BusyDwarves` (src/miner.cpp:914-980)

`BusyDwarves` keeps the wallet's mature DCTs and splits their dwarves into
bins of `dwarvesPerBin`, one bin a thread. A bin is a list of `CDwarfRange`s
`(txid, offset, count)`. A DCT that does not fit into what is left of a bin
is split: its first part closes the bin and the rest opens the next one.
When a bin is filled exactly, the next DCT still gets a range of the
`spaceLeft = 0` dwarves left, so the full bin ends with an empty range.

Results:
* `fillBin_tiles`: one bin, appended to any tiling of what is left, tiles
  what there was.
* `binLoop_ok`: with `dwarvesPerBin ≥ 1` the outer loop ends within one round
  per dwarf and DCT.
* `binDwarves_partition`: the ranges, read in order, tile each DCT's dwarves
  `[0, dwarfCount)` from offset 0 with no gap or overlap, every bin holds at
  most `dwarvesPerBin` dwarves and every bin but the last exactly that many,
  and `CheckBin` over the bins meets every dwarf of every DCT once, in order.
-/
namespace Ring.Hive

open Ring.Arith Ring.Node

/-- The lifespan status `GetDCT` reports (`dwarfStatus`). -/
inductive DwarfStatus where
  | immature
  | mature
  | expired
  deriving DecidableEq, Repr

/-- `CDwarfCreationTransactionInfo`, the fields `BusyDwarves` reads. -/
structure CDwarfCreationTransactionInfo where
  txid : List Char
  dwarfCount : Int
  communityContrib : Bool
  dwarfStatus : DwarfStatus
  rewardAddress : List Char
  deriving DecidableEq

/-- The range of dwarves `dwarfOffset .. dwarfOffset + count - 1` of `dct`. -/
def dctRange (dct : CDwarfCreationTransactionInfo) (dwarfOffset count : Int) : CDwarfRange :=
  ⟨dct.txid, dct.rewardAddress, dct.communityContrib, dwarfOffset, count⟩

@[simp] theorem dctRange_count (dct : CDwarfCreationTransactionInfo) (o c : Int) :
    (dctRange dct o c).count = c := rfl

@[simp] theorem dctRange_offset (dct : CDwarfCreationTransactionInfo) (o c : Int) :
    (dctRange dct o c).offset = o := rfl

@[simp] theorem dctRange_txid (dct : CDwarfCreationTransactionInfo) (o c : Int) :
    (dctRange dct o c).txid = dct.txid := rfl

/-- The inner `while` of the binning: fill the bin holding `dwarvesInBin`
dwarves from the current DCT (the head) at `dwarfOffset` on. The bin, the DCTs
left (the current one first) and the new offset. After a DCT that fits, the
`do ... while` moves on to the next mature DCT.
mirrors src/miner.cpp:951-975 -/
def fillBin (dwarvesPerBin : Int) (dcts : List CDwarfCreationTransactionInfo)
    (dwarfOffset dwarvesInBin : Int) (currentBin : List CDwarfRange) :
    List CDwarfRange × List CDwarfCreationTransactionInfo × Int :=
  match dcts with
  | [] => (currentBin, [], dwarfOffset)
  | dct :: rest =>
    let spaceLeft := dwarvesPerBin - dwarvesInBin
    if dct.dwarfCount - dwarfOffset ≤ spaceLeft then
      fillBin dwarvesPerBin (rest.dropWhile (·.dwarfStatus != .mature)) 0
        (dwarvesInBin + (dct.dwarfCount - dwarfOffset))
        (currentBin ++ [dctRange dct dwarfOffset (dct.dwarfCount - dwarfOffset)])
    else (currentBin ++ [dctRange dct dwarfOffset spaceLeft], dct :: rest, dwarfOffset + spaceLeft)
termination_by dcts.length
decreasing_by
  have := List.length_dropWhile_le (·.dwarfStatus != .mature) rest
  simp only [List.length_cons]
  omega

/-- The outer `while` of the binning, one bin a round, for at most `fuel`
rounds (`none` when they run out).
mirrors src/miner.cpp:948-977 -/
def binLoop (dwarvesPerBin : Int) : Nat → List CDwarfCreationTransactionInfo → Int →
    Option (List (List CDwarfRange))
  | 0, _, _ => none
  | _ + 1, [], _ => some []
  | fuel + 1, dct :: rest, dwarfOffset =>
    let (currentBin, dcts, dwarfOffset) := fillBin dwarvesPerBin (dct :: rest) dwarfOffset 0 []
    (binLoop dwarvesPerBin fuel dcts dwarfOffset).map (currentBin :: ·)

/-- The binning from the first mature DCT at offset 0. -/
def binDwarves (dwarvesPerBin : Int) (fuel : Nat) (dcts : List CDwarfCreationTransactionInfo) :
    Option (List (List CDwarfRange)) :=
  binLoop dwarvesPerBin fuel dcts 0

/-! ## Tilings -/

/-- `rs` tiles the dwarves `o .. dwarfCount - 1` of `dct`: ranges of `dct`
with non-negative counts, each starting where the one before ended, the
last ending at `dwarfCount`. -/
def TilesFrom (dct : CDwarfCreationTransactionInfo) : Int → List CDwarfRange → Prop
  | o, [] => o = dct.dwarfCount
  | o, r :: rs => r = dctRange dct o r.count ∧ 0 ≤ r.count ∧ TilesFrom dct (o + r.count) rs

/-- `rs` tiles the DCTs in order, the first from offset `o`, the others from 0. -/
def Tiles : List CDwarfCreationTransactionInfo → Int → List CDwarfRange → Prop
  | [], _, rs => rs = []
  | dct :: rest, o, rs => ∃ r₁ r₂, rs = r₁ ++ r₂ ∧ TilesFrom dct o r₁ ∧ Tiles rest 0 r₂

/-- The dwarves a bin holds. -/
def binSize (bin : List CDwarfRange) : Int := (bin.map (·.count)).sum

/-- The state the binning loops keep: mature DCTs with non-negative counts,
the offset inside the current DCT. -/
def BinState (dcts : List CDwarfCreationTransactionInfo) (dwarfOffset : Int) : Prop :=
  (∀ d ∈ dcts, d.dwarfStatus = .mature ∧ 0 ≤ d.dwarfCount) ∧
    ∀ d ∈ dcts.head?, 0 ≤ dwarfOffset ∧ dwarfOffset ≤ d.dwarfCount

/-- The dwarves not yet binned plus the DCTs left: each round of the outer
loop takes at least one of them. -/
def pendingWork : List CDwarfCreationTransactionInfo → Int → Int
  | [], _ => 0
  | dct :: rest, dwarfOffset =>
    dct.dwarfCount - dwarfOffset + 1 + ((rest.map (·.dwarfCount)).sum + rest.length)

theorem dropWhile_of_mature {l : List CDwarfCreationTransactionInfo}
    (h : ∀ d ∈ l, d.dwarfStatus = .mature) : l.dropWhile (·.dwarfStatus != .mature) = l := by
  cases l with
  | nil => rfl
  | cons d rest => simp [h d List.mem_cons_self]

theorem binSize_cons (r : CDwarfRange) (bin : List CDwarfRange) :
    binSize (r :: bin) = r.count + binSize bin := by
  simp [binSize]

theorem pendingWork_nonneg {dcts : List CDwarfCreationTransactionInfo} {o : Int}
    (h : BinState dcts o) : 0 ≤ pendingWork dcts o := by
  cases dcts with
  | nil => simp [pendingWork]
  | cons d rest =>
    have hsum : 0 ≤ (rest.map (·.dwarfCount)).sum :=
      List.sum_nonneg fun x hx => by
        obtain ⟨d', hd', rfl⟩ := List.mem_map.mp hx
        exact (h.1 d' (List.mem_cons_of_mem d hd')).2
    have ho := h.2 d rfl
    simp only [pendingWork]
    omega

/-- One bin. Filling a bin that holds `n ≤ dwarvesPerBin` dwarves appends
ranges `new`: appended to any tiling of what is left, they tile what there
was; the bin then holds at most `dwarvesPerBin` dwarves, exactly that many
unless the DCTs ran out; the state stays a binning state; and the pending
work does not grow, and shrinks when the bin had room. -/
theorem fillBin_tiles (dwarvesPerBin : Int) :
    ∀ (dcts : List CDwarfCreationTransactionInfo) (o n : Int) (bin : List CDwarfRange),
      BinState dcts o → 0 ≤ n → n ≤ dwarvesPerBin →
      ∃ new, (fillBin dwarvesPerBin dcts o n bin).1 = bin ++ new ∧
        (∀ rs, Tiles (fillBin dwarvesPerBin dcts o n bin).2.1 (fillBin dwarvesPerBin dcts o n bin).2.2 rs →
          Tiles dcts o (new ++ rs)) ∧
        n + binSize new ≤ dwarvesPerBin ∧
        ((fillBin dwarvesPerBin dcts o n bin).2.1 ≠ [] → n + binSize new = dwarvesPerBin) ∧
        BinState (fillBin dwarvesPerBin dcts o n bin).2.1 (fillBin dwarvesPerBin dcts o n bin).2.2 ∧
        pendingWork (fillBin dwarvesPerBin dcts o n bin).2.1 (fillBin dwarvesPerBin dcts o n bin).2.2 ≤
          pendingWork dcts o ∧
        (dcts ≠ [] → n < dwarvesPerBin →
          pendingWork (fillBin dwarvesPerBin dcts o n bin).2.1 (fillBin dwarvesPerBin dcts o n bin).2.2 <
            pendingWork dcts o)
  | [], o, n, bin, hs, _, hn => by
    refine ⟨[], by simp [fillBin], fun rs h => ?_, by simp [binSize]; omega, by simp [fillBin],
      by simpa [fillBin] using hs, by simp [fillBin], fun h => absurd rfl h⟩
    simpa [fillBin, Tiles] using h
  | dct :: rest, o, n, bin, hs, hn0, hn => by
    obtain ⟨hall, hhead⟩ := hs
    obtain ⟨ho0, hoc⟩ := hhead dct rfl
    have hrest : ∀ d ∈ rest, d.dwarfStatus = .mature ∧ 0 ≤ d.dwarfCount :=
      fun d hd => hall d (List.mem_cons_of_mem dct hd)
    by_cases hfit : dct.dwarfCount - o ≤ dwarvesPerBin - n
    · -- the whole DCT fits: its last range, then the bin goes on with the next DCT
      have heq : fillBin dwarvesPerBin (dct :: rest) o n bin =
          fillBin dwarvesPerBin rest 0 (n + (dct.dwarfCount - o))
            (bin ++ [dctRange dct o (dct.dwarfCount - o)]) := by
        rw [fillBin, if_pos hfit, dropWhile_of_mature fun d hd => (hrest d hd).1]
      have hs' : BinState rest 0 := ⟨hrest, fun d hd => ⟨Int.le_refl 0, (hrest d (List.mem_of_mem_head? hd)).2⟩⟩
      obtain ⟨new, happ, htiles, hsize, hfull, hstate, hle, -⟩ :=
        fillBin_tiles dwarvesPerBin rest 0 (n + (dct.dwarfCount - o))
          (bin ++ [dctRange dct o (dct.dwarfCount - o)]) hs' (by omega) (by omega)
      have hpend : pendingWork rest 0 + (dct.dwarfCount - o) + 1 = pendingWork (dct :: rest) o := by
        cases rest with
        | nil => simp [pendingWork]
        | cons d' rest' => simp [pendingWork]; omega
      have hp0 := pendingWork_nonneg hstate
      rw [heq]
      refine ⟨dctRange dct o (dct.dwarfCount - o) :: new, by simp [happ], fun rs h => ?_,
        by rw [binSize_cons, dctRange_count]; omega,
        fun h => by rw [binSize_cons, dctRange_count]; have := hfull h; omega,
        hstate, by omega, fun _ _ => by omega⟩
      refine ⟨[dctRange dct o (dct.dwarfCount - o)], new ++ rs, rfl, ?_, htiles rs h⟩
      exact ⟨rfl, by rw [dctRange_count]; omega, by simp [TilesFrom]⟩
    · -- the DCT is split: what fits closes the bin, the rest stays current
      have heq : fillBin dwarvesPerBin (dct :: rest) o n bin =
          (bin ++ [dctRange dct o (dwarvesPerBin - n)], dct :: rest, o + (dwarvesPerBin - n)) := by
        rw [fillBin, if_neg hfit]
      have hsize : binSize [dctRange dct o (dwarvesPerBin - n)] = dwarvesPerBin - n := by
        simp [binSize]
      rw [heq]
      dsimp only
      refine ⟨[dctRange dct o (dwarvesPerBin - n)], rfl, fun rs h => ?_, by omega, fun _ => by omega,
        ⟨hall, fun d hd => ?_⟩, by simp [pendingWork]; omega, fun _ hlt => by simp [pendingWork]; omega⟩
      · obtain ⟨r₁, r₂, rfl, h₁, h₂⟩ := h
        exact ⟨dctRange dct o (dwarvesPerBin - n) :: r₁, r₂, rfl,
          ⟨rfl, by rw [dctRange_count]; omega, by simpa using h₁⟩, h₂⟩
      · obtain rfl : dct = d := by simpa using hd
        omega
termination_by dcts => dcts.length

theorem pendingWork_le {dcts : List CDwarfCreationTransactionInfo} (h : BinState dcts 0) :
    pendingWork dcts 0 ≤ (dcts.map (·.dwarfCount)).sum + dcts.length := by
  cases dcts with
  | nil => simp [pendingWork]
  | cons d rest => simp [pendingWork]; omega

theorem binLoop_nil {dwarvesPerBin : Int} {fuel : Nat} {o : Int} {bins : List (List CDwarfRange)}
    (h : binLoop dwarvesPerBin fuel [] o = some bins) : bins = [] := by
  cases fuel with
  | zero => cases h
  | succ fuel => simpa [binLoop] using h.symm

/-- The outer loop. With `dwarvesPerBin ≥ 1` and more rounds than pending
work, the loop ends; its bins tile the DCTs, each holds at most
`dwarvesPerBin` dwarves and each but the last exactly that many. Induction on
the rounds, one `fillBin_tiles` a round. -/
theorem binLoop_ok {dwarvesPerBin : Int} (hP : 1 ≤ dwarvesPerBin) :
    ∀ (fuel : Nat) (dcts : List CDwarfCreationTransactionInfo) (o : Int), BinState dcts o →
      pendingWork dcts o < fuel →
      ∃ bins, binLoop dwarvesPerBin fuel dcts o = some bins ∧ Tiles dcts o bins.flatten ∧
        (∀ b ∈ bins, binSize b ≤ dwarvesPerBin) ∧ ∀ b ∈ bins.dropLast, binSize b = dwarvesPerBin
  | 0, dcts, o, hs, hlt => absurd hlt (by have := pendingWork_nonneg hs; omega)
  | _ + 1, [], _, _, _ => ⟨[], rfl, rfl, by simp, by simp⟩
  | fuel + 1, dct :: rest, o, hs, hlt => by
    obtain ⟨new, happ, htiles, hsize, hfull, hstate, -, hdec⟩ :=
      fillBin_tiles dwarvesPerBin (dct :: rest) o 0 [] hs (Int.le_refl 0) (by omega)
    have hlt' := hdec (List.cons_ne_nil _ _) (by omega)
    rcases hf : fillBin dwarvesPerBin (dct :: rest) o 0 [] with ⟨bin', dcts', o'⟩
    rw [hf] at happ htiles hfull hstate hlt'
    dsimp only at htiles hfull hstate hlt'
    simp only [List.nil_append] at happ
    subst happ
    obtain ⟨bins, hrun, htile, hle, hfullBins⟩ := binLoop_ok hP fuel dcts' o' hstate (by omega)
    refine ⟨bin' :: bins, by simp [binLoop, hf, hrun], htiles _ htile, ?_, ?_⟩
    · intro b hb
      rcases List.mem_cons.mp hb with rfl | hb
      · omega
      · exact hle b hb
    · -- the new bin is followed by another exactly when DCTs are left, and then it is full
      cases bins with
      | nil => simp
      | cons b bs =>
        have hne : dcts' ≠ [] := fun h => by subst h; cases binLoop_nil hrun
        intro b' hb'
        rw [List.dropLast_cons_of_ne_nil (List.cons_ne_nil b bs)] at hb'
        rcases List.mem_cons.mp hb' with rfl | hb'
        · have := hfull hne
          omega
        · exact hfullBins b' hb'

/-! ## The dwarves the bins hold -/

/-- The dwarves of a range, as `(txid, nonce)`. -/
def rangeDwarves (r : CDwarfRange) : List (List Char × Int) :=
  (List.range r.count.toNat).map fun (k : Nat) => (r.txid, r.offset + (k : Int))

/-- The dwarves of a DCT, `0 .. dwarfCount - 1`. -/
def dctDwarves (dct : CDwarfCreationTransactionInfo) : List (List Char × Int) :=
  (List.range dct.dwarfCount.toNat).map fun (k : Nat) => (dct.txid, (k : Int))

/-- The dwarves of a bin in the order `CheckBin` hashes them, with their range. -/
def binDwarfList (bin : List CDwarfRange) : List (CDwarfRange × Int) :=
  bin.flatMap fun r => (List.range r.count.toNat).map fun (k : Nat) => (r, r.offset + (k : Int))

theorem le_of_tilesFrom {dct : CDwarfCreationTransactionInfo} :
    ∀ {o : Int} {rs : List CDwarfRange}, TilesFrom dct o rs → o ≤ dct.dwarfCount
  | _, [], h => le_of_eq h
  | _, _ :: _, ⟨_, hc, h⟩ => by have := le_of_tilesFrom h; omega

theorem tilesFrom_dwarves {dct : CDwarfCreationTransactionInfo} :
    ∀ {o : Int} {rs : List CDwarfRange}, TilesFrom dct o rs →
      rs.flatMap rangeDwarves = (List.range (dct.dwarfCount - o).toNat).map fun (k : Nat) => (dct.txid, o + k)
  | _, [], h => by
    obtain rfl : _ = dct.dwarfCount := h
    simp
  | o, r :: rs, ⟨hr, hc, h⟩ => by
    have hle := le_of_tilesFrom h
    -- the range's nonces come first, then those of the ranges after it
    have hlen : (dct.dwarfCount - o).toNat = r.count.toNat + (dct.dwarfCount - (o + r.count)).toNat := by
      omega
    rw [List.flatMap_cons, tilesFrom_dwarves h, hlen, List.range_add, List.map_append, List.map_map]
    rw [hr]
    simp only [rangeDwarves, dctRange_txid, dctRange_offset, dctRange_count]
    congr 1
    refine List.map_congr_left fun k _ => ?_
    simp only [Function.comp, Prod.mk.injEq, true_and]
    omega

theorem tiles_dwarves :
    ∀ {dcts : List CDwarfCreationTransactionInfo} {rs : List CDwarfRange}, Tiles dcts 0 rs →
      rs.flatMap rangeDwarves = dcts.flatMap dctDwarves
  | [], _, h => by
    obtain rfl : _ = [] := h
    rfl
  | dct :: rest, _, ⟨r₁, r₂, hrs, h₁, h₂⟩ => by
    rw [hrs, List.flatMap_append, tilesFrom_dwarves h₁, tiles_dwarves h₂, List.flatMap_cons]
    simp [dctDwarves]

/-- `checkBin` writes its nonces `offset + k` through the list monad. -/
theorem bind_range_natCast (n : Nat) :
    (do let a ← List.range n; pure (a : Int)) = (List.range n).map fun (k : Nat) => (k : Int) := by
  rw [List.map_eq_flatMap]
  rfl

/-- `CheckBin` hashes the dwarves of its bin in order and stops at the first
below the target. -/
theorem checkBin_eq (env : Env) (bin : List CDwarfRange) (drs : List Char) (dwarfHashTarget : ArithUint256) :
    checkBin env bin drs dwarfHashTarget =
      (binDwarfList bin).find? fun p => dwarfHash env (checkBinPreimage drs p.1.txid p.2) < dwarfHashTarget := by
  unfold checkBin binDwarfList
  rw [List.find?_flatMap]
  congr 1
  funext r
  rw [bind_range_natCast, List.map_map, List.find?_map, List.find?_map, Option.map_map]
  rfl
theorem binDwarfList_dwarves (bin : List CDwarfRange) :
    (binDwarfList bin).map (fun p => (p.1.txid, p.2)) = bin.flatMap rangeDwarves := by
  simp only [binDwarfList, List.map_flatMap, List.map_map]
  rfl

/-! ## The binning partitions the work -/

/-- `BusyDwarves`' binning of any list of mature DCTs with non-negative dwarf
counts into bins of `dwarvesPerBin ≥ 1`: the loop ends within `T + k` rounds
(`T` dwarves, `k` DCTs); read in order, the ranges tile each DCT's dwarves
`[0, dwarfCount)` from offset 0 with no gap or overlap; every bin holds at
most `dwarvesPerBin` dwarves and every bin but the last exactly that many;
and the dwarves the bins' `CheckBin` runs hash (`checkBin_eq`) are every
dwarf of every DCT, once, in order. -/
theorem binDwarves_partition {dwarvesPerBin : Int} (hP : 1 ≤ dwarvesPerBin)
    {dcts : List CDwarfCreationTransactionInfo}
    (hdcts : ∀ d ∈ dcts, d.dwarfStatus = .mature ∧ 0 ≤ d.dwarfCount) {fuel : Nat}
    (hfuel : (dcts.map (·.dwarfCount)).sum + dcts.length < fuel) :
    ∃ bins, binDwarves dwarvesPerBin fuel dcts = some bins ∧ Tiles dcts 0 bins.flatten ∧
      (∀ b ∈ bins, binSize b ≤ dwarvesPerBin) ∧ (∀ b ∈ bins.dropLast, binSize b = dwarvesPerBin) ∧
      (∀ (env : Env) (drs : List Char) (dwarfHashTarget : ArithUint256), ∀ b ∈ bins,
        checkBin env b drs dwarfHashTarget = (binDwarfList b).find? fun p =>
          dwarfHash env (checkBinPreimage drs p.1.txid p.2) < dwarfHashTarget) ∧
      (bins.flatMap binDwarfList).map (fun p => (p.1.txid, p.2)) = dcts.flatMap dctDwarves := by
  have hs : BinState dcts 0 :=
    ⟨hdcts, fun d hd => ⟨Int.le_refl 0, (hdcts d (List.mem_of_mem_head? hd)).2⟩⟩
  obtain ⟨bins, hrun, htile, hle, hfull⟩ :=
    binLoop_ok hP fuel dcts 0 hs (lt_of_le_of_lt (pendingWork_le hs) hfuel)
  refine ⟨bins, hrun, htile, hle, hfull, fun env drs t b _ => checkBin_eq env b drs t, ?_⟩
  rw [← tiles_dwarves htile, List.map_flatMap, List.flatten_eq_flatMap, List.flatMap_assoc]
  simp only [binDwarfList_dwarves, id]

/-- Two mature DCTs of two dwarves each, in bins of two: the first bin is
filled exactly and still closes with an empty range of the second DCT. -/
def exactFitDcts : List CDwarfCreationTransactionInfo :=
  [⟨"a".toList, 2, false, .mature, []⟩, ⟨"b".toList, 2, false, .mature, []⟩]

example : binDwarves 2 10 exactFitDcts =
    some [[⟨"a".toList, [], false, 0, 2⟩, ⟨"b".toList, [], false, 0, 0⟩], [⟨"b".toList, [], false, 0, 2⟩]] := by
  decide +kernel

theorem binDwarves_partition_exact_fit :
    (1 : Int) ≤ 2 ∧ (∀ d ∈ exactFitDcts, d.dwarfStatus = .mature ∧ 0 ≤ d.dwarfCount) ∧
      (exactFitDcts.map (·.dwarfCount)).sum + exactFitDcts.length < (10 : Nat) ∧
      ∃ bins, binDwarves 2 10 exactFitDcts = some bins ∧ Tiles exactFitDcts 0 bins.flatten ∧
        (∀ b ∈ bins, binSize b ≤ 2) ∧ (∀ b ∈ bins.dropLast, binSize b = 2) ∧
        (∀ (env : Env) (drs : List Char) (dwarfHashTarget : ArithUint256), ∀ b ∈ bins,
          checkBin env b drs dwarfHashTarget = (binDwarfList b).find? fun p =>
            dwarfHash env (checkBinPreimage drs p.1.txid p.2) < dwarfHashTarget) ∧
        (bins.flatMap binDwarfList).map (fun p => (p.1.txid, p.2)) = exactFitDcts.flatMap dctDwarves :=
  ⟨by decide, by decide, by decide, binDwarves_partition (by decide) (by decide) (by decide)⟩

end Ring.Hive
