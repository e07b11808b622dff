import Ring.Chain.BlockIndex

/-!
# The skip list of the block index (`pskip`, `GetAncestor`, src/chain.cpp)

Besides `pprev`, every `CBlockIndex` has a skip pointer `pskip` to an older
ancestor, which `BuildSkip` sets, once its `pprev` is set, to the ancestor at
height `GetSkipHeight(nHeight)`. `GetAncestor(height)` walks from the index
down to the requested height, taking `pskip` where it does not overshoot (and
`pprev->pskip` would not do better) and `pprev` otherwise.

A `SkipIndex` is an index with both links; the pointers are the subterms they
point to. `Built` is the trees `AddToBlockIndex` makes: heights one more than
the parent's, zero at the genesis block, and `pskip` as `BuildSkip` computed
it from the parent.

Results:
* `getSkipHeight_lt`: the skip height is below the height, so every jump
  goes back.
* `walk_exact`: the walk of `GetAncestor` from a built index reaches the
  ancestor at the requested height, and never fails its `assert(pprev)`.
* `getAncestor_exact`: `GetAncestor(h)` is the index `nHeight - h` `pprev`
  steps back for `0 <= h <= nHeight`, and `nullptr` otherwise.
-/
namespace Ring.Chain

/-- A `CBlockIndex` with the links `GetAncestor` follows. -/
inductive SkipIndex where
  | mk (r : IndexRecord) (pprev : Option SkipIndex) (pskip : Option SkipIndex)

namespace SkipIndex

def r : SkipIndex → IndexRecord
  | mk r _ _ => r

def pprev : SkipIndex → Option SkipIndex
  | mk _ pprev _ => pprev

def pskip : SkipIndex → Option SkipIndex
  | mk _ _ pskip => pskip

def nHeight (p : SkipIndex) : Int := p.r.nHeight

@[simp] theorem pprev_mk (r : IndexRecord) (pprev pskip : Option SkipIndex) :
    (mk r pprev pskip).pprev = pprev := rfl
@[simp] theorem pskip_mk (r : IndexRecord) (pprev pskip : Option SkipIndex) :
    (mk r pprev pskip).pskip = pskip := rfl
@[simp] theorem nHeight_mk (r : IndexRecord) (pprev pskip : Option SkipIndex) :
    (mk r pprev pskip).nHeight = r.nHeight := rfl

/-- The index `k` `pprev` steps back, `nullptr` past the genesis block. -/
def prevN : Nat → SkipIndex → Option SkipIndex
  | 0, p => some p
  | k + 1, p => p.pprev.bind (prevN k)

/-- The chain of records from the index down to the genesis block, as the
rest of the model sees a `CBlockIndex*`. -/
def chain : SkipIndex → CBlockIndex
  | mk r none _ => [r]
  | mk r (some q) _ => r :: chain q

end SkipIndex

/-- `InvertLowestOne`: `n & (n - 1)`, on the non-negative values it is used
on (at `0` both give `0`).
mirrors src/chain.cpp:74 -/
def invertLowestOne (n : Nat) : Nat := n &&& (n - 1)

/-- `GetSkipHeight`.
mirrors src/chain.cpp:77-85 -/
def getSkipHeight (height : Int) : Int :=
  if height < 2 then 0
  else if height.toNat % 2 = 1 then invertLowestOne (invertLowestOne (height.toNat - 1)) + 1
  else invertLowestOne height.toNat

/-- The loop of `GetAncestor`: at `pindexWalk`, whose height is `heightWalk`.
mirrors src/chain.cpp:93-110 -/
def getAncestorWalk (height : Int) : SkipIndex → Int → Except Fault SkipIndex
  | pindexWalk@(.mk _ pprev pskip), heightWalk =>
    if heightWalk > height then
      let heightSkip := getSkipHeight heightWalk
      let heightSkipPrev := getSkipHeight (heightWalk - 1)
      match pskip, pprev with
      | some s, pprev =>
        if heightSkip = height ∨
            (heightSkip > height ∧ ¬(heightSkipPrev < heightSkip - 2 ∧ heightSkipPrev ≥ height)) then
          getAncestorWalk height s heightSkip
        else
          match pprev with
          | some q => getAncestorWalk height q (heightWalk - 1)
          | none => .error .assertion
      | none, some q => getAncestorWalk height q (heightWalk - 1)
      | none, none => .error .assertion
    else .ok pindexWalk

/-- `CBlockIndex::GetAncestor`: `none` is `nullptr`.
mirrors src/chain.cpp:87-112 -/
def SkipIndex.getAncestor (p : SkipIndex) (height : Int) : Except Fault (Option SkipIndex) :=
  if height > p.nHeight ∨ height < 0 then .ok none
  else (getAncestorWalk height p p.nHeight).map some

/-- `BuildSkip` on a new index with record `r` and parent `pprev`.
mirrors src/chain.cpp:119-123 -/
def buildSkip (r : IndexRecord) (pprev : Option SkipIndex) : Except Fault SkipIndex :=
  match pprev with
  | none => .ok (.mk r none none)
  | some q => (q.getAncestor (getSkipHeight r.nHeight)).map fun pskip => .mk r (some q) pskip

/-- The indices of a block tree: each made by `AddToBlockIndex`, one height
above its parent, with `BuildSkip` run once its parent was set. -/
inductive Built : SkipIndex → Prop
  | genesis (r : IndexRecord) (h0 : r.nHeight = 0) : Built (.mk r none none)
  | extend (r : IndexRecord) {q p : SkipIndex} (hq : Built q) (hh : r.nHeight = q.nHeight + 1)
      (hb : buildSkip r (some q) = .ok p) : Built p

/-! ## Skip heights -/

theorem invertLowestOne_le (n : Nat) : invertLowestOne n ≤ n - 1 := Nat.and_le_right

theorem getSkipHeight_nonneg (height : Int) : 0 ≤ getSkipHeight height := by
  unfold getSkipHeight
  split_ifs <;> omega

/-- A skip goes back at least one block. -/
theorem getSkipHeight_lt {height : Int} (h : 1 ≤ height) : getSkipHeight height < height := by
  unfold getSkipHeight
  split_ifs with h2 hodd
  · omega
  · have h1 := invertLowestOne_le (height.toNat - 1)
    have h2 := invertLowestOne_le (invertLowestOne (height.toNat - 1))
    omega
  · have := invertLowestOne_le height.toNat
    omega

/-! ## Built trees -/

namespace SkipIndex

theorem prevN_add (a : Nat) : ∀ (b : Nat) (p : SkipIndex), p.prevN (a + b) = (p.prevN b).bind (prevN a)
  | 0, _ => rfl
  | b + 1, p => by
    rw [← Nat.add_assoc, prevN, prevN, Option.bind_assoc]
    congr 1
    funext q
    exact prevN_add a b q

end SkipIndex

theorem buildSkip_some {r : IndexRecord} {q p : SkipIndex} :
    buildSkip r (some q) = .ok p ↔
      ∃ pskip, q.getAncestor (getSkipHeight r.nHeight) = .ok pskip ∧ p = .mk r (some q) pskip := by
  simp only [buildSkip]
  cases q.getAncestor (getSkipHeight r.nHeight) with
  | error e => simp [Except.map]
  | ok pskip => simp [Except.map, eq_comm]

/-- What an index of a built tree is: a genesis block, or one block above a
built parent, with its `pskip` from `GetAncestor` on the parent. -/
theorem Built.inv {p : SkipIndex} (hp : Built p) :
    (p.pprev = none ∧ p.nHeight = 0) ∨
      ∃ q, p.pprev = some q ∧ Built q ∧ p.nHeight = q.nHeight + 1 ∧
        q.getAncestor (getSkipHeight p.nHeight) = .ok p.pskip := by
  cases hp with
  | genesis r h0 => exact .inl ⟨rfl, h0⟩
  | extend r hq hh hb =>
    obtain ⟨pskip, hskip, rfl⟩ := buildSkip_some.mp hb
    exact .inr ⟨_, rfl, hq, hh, hskip⟩

theorem Built.nHeight_nonneg {p : SkipIndex} (hp : Built p) : 0 ≤ p.nHeight := by
  induction hp with
  | genesis r h0 => simp [h0]
  | extend r hq hh hb ih =>
    obtain ⟨pskip, -, rfl⟩ := buildSkip_some.mp hb
    simp only [SkipIndex.nHeight_mk]
    omega

/-- Down to the genesis block, `k` steps back is a built index `k` blocks lower. -/
theorem Built.prevN {p : SkipIndex} (hp : Built p) :
    ∀ k : Nat, k ≤ p.nHeight → ∃ q, p.prevN k = some q ∧ Built q ∧ q.nHeight = p.nHeight - k
  | 0, _ => ⟨p, rfl, hp, by simp⟩
  | k + 1, hk => by
    rcases hp.inv with ⟨-, h0⟩ | ⟨q, hq, hqb, hh, -⟩
    · omega
    · obtain ⟨q', hq', hb', hh'⟩ := hqb.prevN k (by omega)
      refine ⟨q', ?_, hb', by omega⟩
      rw [SkipIndex.prevN, hq, Option.bind_some, hq']

/-! ## The walk -/

/-- `GetAncestor` in range is its walk. -/
theorem getAncestor_of_le {p : SkipIndex} {height : Int} (h0 : 0 ≤ height) (hle : height ≤ p.nHeight) :
    p.getAncestor height = (getAncestorWalk height p p.nHeight).map some := by
  rw [SkipIndex.getAncestor, if_neg (by omega)]

/-- The walk from a built index reaches the ancestor at the requested height;
the induction is on the height, and the skip pointers met on the way are
right because `GetAncestor` is already right on the lower parent that
`BuildSkip` called it on. -/
theorem walk_exact {w : SkipIndex} (hw : Built w) {height : Int} (h0 : 0 ≤ height) (hle : height ≤ w.nHeight) :
    (getAncestorWalk height w w.nHeight).map some = .ok (w.prevN (w.nHeight - height).toNat) := by
  induction hn : w.nHeight.toNat using Nat.strong_induction_on generalizing w height with
  | _ n ih =>
  have hwalk : ∀ v, Built v → v.nHeight.toNat < n → ∀ h', 0 ≤ h' → h' ≤ v.nHeight →
      (getAncestorWalk h' v v.nHeight).map some = .ok (v.prevN (v.nHeight - h').toNat) :=
    fun v hv hlt h' h0' hv' => ih _ hlt hv h0' hv' rfl
  obtain ⟨r, pprev, pskip⟩ := w
  by_cases hgt : height < r.nHeight
  · rcases hw.inv with ⟨-, h0'⟩ | ⟨q, hq, hqb, hh, hskip⟩
    · simp only [SkipIndex.nHeight_mk] at h0'
      omega
    simp only [SkipIndex.pprev_mk, SkipIndex.nHeight_mk, SkipIndex.pskip_mk] at hq hh hskip hn
    subst hq
    have hqn := hqb.nHeight_nonneg
    -- the skip pointer is the ancestor at the skip height
    have hsH := getSkipHeight_lt (show 1 ≤ r.nHeight by omega)
    have hsH0 := getSkipHeight_nonneg r.nHeight
    obtain ⟨s, hs, hsb, hsn⟩ := hqb.prevN (q.nHeight - getSkipHeight r.nHeight).toNat (by omega)
    rw [getAncestor_of_le hsH0 (by omega), hwalk q hqb (by omega) _ hsH0 (by omega), hs] at hskip
    cases hskip
    have hws : (SkipIndex.mk r (some q) (some s)).prevN (r.nHeight - getSkipHeight r.nHeight).toNat = some s := by
      rw [show (r.nHeight - getSkipHeight r.nHeight).toNat = (q.nHeight - getSkipHeight r.nHeight).toNat + 1 by omega]
      exact hs
    rw [getAncestorWalk, if_pos (by simpa using hgt)]
    simp only [SkipIndex.nHeight_mk]
    by_cases hc : getSkipHeight r.nHeight = height ∨ (getSkipHeight r.nHeight > height ∧
        ¬(getSkipHeight (r.nHeight - 1) < getSkipHeight r.nHeight - 2 ∧ getSkipHeight (r.nHeight - 1) ≥ height))
    · -- the jump lands no lower than the requested height
      have hle' : height ≤ s.nHeight := by omega
      simp only [hc, ↓reduceIte]
      rw [show getSkipHeight r.nHeight = s.nHeight by omega, hwalk s hsb (by omega) _ h0 hle',
        show (r.nHeight - height).toNat = (s.nHeight - height).toNat + (r.nHeight - getSkipHeight r.nHeight).toNat
          by omega, SkipIndex.prevN_add, hws, Option.bind_some]
    · simp only [hc, ↓reduceIte]
      rw [show r.nHeight - 1 = q.nHeight by omega, hwalk q hqb (by omega) _ h0 (by omega),
        show (r.nHeight - height).toNat = (q.nHeight - height).toNat + 1 by omega]
      rfl
  · have heq : height = r.nHeight := by simp only [SkipIndex.nHeight_mk] at hle; omega
    subst heq
    rw [getAncestorWalk, if_neg (by simp)]
    simp [SkipIndex.prevN, Except.map]

theorem getAncestor_exact {p : SkipIndex} (hp : Built p) (h : Int) :
    p.getAncestor h = .ok (if 0 ≤ h ∧ h ≤ p.nHeight then p.prevN (p.nHeight - h).toNat else none) := by
  by_cases hin : 0 ≤ h ∧ h ≤ p.nHeight
  · rw [if_pos hin, getAncestor_of_le hin.1 hin.2, walk_exact hp hin.1 hin.2]
  · rw [if_neg hin, SkipIndex.getAncestor, if_pos (by omega)]

/-- Three blocks on one another, with the skip pointers `BuildSkip` sets. -/
def skipRecord (n : Int) : IndexRecord := { (default : IndexRecord) with nHeight := n }
def skipGenesis : SkipIndex := .mk (skipRecord 0) none none
def skipBlock1 : SkipIndex := .mk (skipRecord 1) (some skipGenesis) (some skipGenesis)
def skipBlock2 : SkipIndex := .mk (skipRecord 2) (some skipBlock1) (some skipGenesis)

theorem built_skipBlock2 : Built skipBlock2 :=
  .extend (skipRecord 2) (q := skipBlock1) (.extend (skipRecord 1) (.genesis (skipRecord 0) rfl) rfl rfl) rfl rfl

theorem getAncestor_exact_skipBlock2 :
    Built skipBlock2 ∧ skipBlock2.getAncestor 1 =
      .ok (if 0 ≤ (1 : Int) ∧ 1 ≤ skipBlock2.nHeight then skipBlock2.prevN (skipBlock2.nHeight - 1).toNat else none) :=
  ⟨built_skipBlock2, getAncestor_exact built_skipBlock2 1⟩

/-- Stepping back along `pprev` drops records from the chain. -/
theorem chain_prevN : ∀ (k : Nat) {p q : SkipIndex}, p.prevN k = some q → q.chain = p.chain.drop k
  | 0, _, _, h => by
    cases h
    rfl
  | k + 1, .mk r pprev pskip, q, h => by
    cases pprev with
    | none => cases h
    | some p' =>
      rw [SkipIndex.chain, List.drop_succ_cons]
      exact chain_prevN k h

end Ring.Chain
