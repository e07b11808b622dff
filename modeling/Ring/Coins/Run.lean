import Ring.Coins.Cache

/-!
# A stack of coin caches behaves as one map

A caller works on the top cache of a stack: it reads (`AccessCoin`, `GetCoin`,
`HaveCoin`), writes (`AddCoin`, `SpendCoin`), uncaches or flushes any cache, and
pushes or pops caches. `CoinsStack.run` runs such a sequence; `UtxoSet.run` runs
it on the one map the stack stands for, where a read answers from the map and a
write updates it (an unspendable output is never stored).

The caller keeps a contract (`UtxoSet.RunAllowed`): a coin it adds is not spent
(`AddCoin` asserts it), and it asks for no overwrite only where the map holds no
unspent coin (or `AddCoin` may throw, or mark an entry `FRESH` over an unspent
coin below it).

Results:
* `CoinsStack.step_spec`, `CoinsStack.run_spec`: from a stack that keeps its
  promises, over a base view that takes every best block, every allowed step,
  and so every allowed run, raises nothing, answers what the map answers, leaves
  the stack standing for the updated map, and keeps the promises.
* `coinsStack_run_refines`: a stack of new caches over the simulation test's
  base view answers every allowed run as the map does, and flushing every cache
  afterwards leaves the map in the base view, whatever the test's random draws.
* `coinsStack_run_assertions`: adding a spent coin fails its assertion on any
  stack; and over the coins database, the first flush into it fails the
  assertion on the best block, which a new cache leaves null.
-/
namespace Ring.Coins

open Ring.Lib Ring.Arith Ring.Chain Ring.Node Ring.Script

/-- An operation on a stack of caches: the reads and writes of the top cache,
`Uncache` or `Flush` of the `layer`-th cache from the top, and pushing or popping
a cache. -/
inductive CoinsOp where
  | addCoin (outpoint : COutPoint) (coin : Coin) (possible_overwrite : Bool)
  | spendCoin (outpoint : COutPoint)
  | accessCoin (outpoint : COutPoint)
  | getCoin (outpoint : COutPoint)
  | haveCoin (outpoint : COutPoint)
  | uncache (layer : Nat) (outpoint : COutPoint)
  | flush (layer : Nat)
  | push
  | pop

/-- What an operation answers: the coin `AccessCoin` returns, what `GetCoin`
finds, what `HaveCoin` says, or nothing. -/
inductive CoinsAnswer where
  | coin (coin : Coin)
  | found (coin : Option Coin)
  | has (b : Bool)
  | done
  deriving DecidableEq

namespace CoinsStack

/-- One operation on the stack. -/
def step (s : CoinsStack) : CoinsOp → Except CoinsFault (CoinsAnswer × CoinsStack)
  | .addCoin outpoint coin possible_overwrite => do
    let s ← s.addCoin outpoint coin possible_overwrite
    pure (.done, s)
  | .spendCoin outpoint => .ok (.done, (s.spendCoin outpoint).2)
  | .accessCoin outpoint => .ok (.coin (s.accessCoin outpoint).1, (s.accessCoin outpoint).2)
  | .getCoin outpoint => .ok (.found (s.getCoin outpoint).1, (s.getCoin outpoint).2)
  | .haveCoin outpoint => .ok (.has (s.haveCoin outpoint).1, (s.haveCoin outpoint).2)
  | .uncache layer outpoint => .ok (.done, s.uncache layer outpoint)
  | .flush layer => do
    let s ← s.flush layer
    pure (.done, s)
  | .push => .ok (.done, s.push)
  | .pop => do
    let s ← s.pop
    pure (.done, s)

/-- Operations one after another: the answers, and the stack at the end. -/
def run (s : CoinsStack) : List CoinsOp → Except CoinsFault (List CoinsAnswer × CoinsStack)
  | [] => .ok ([], s)
  | op :: ops => do
    let (a, s) ← s.step op
    let (as, s) ← s.run ops
    pure (a :: as, s)

end CoinsStack

namespace UtxoSet

/-- One operation on the map: its answer, and the map afterwards. -/
def step (u : UtxoSet) : CoinsOp → CoinsAnswer × UtxoSet
  | .addCoin outpoint coin _ => (.done, u.addCoin outpoint coin)
  | .spendCoin outpoint => (.done, u.spendCoin outpoint)
  | .accessCoin outpoint => (.coin ((u outpoint).getD coinEmpty), u)
  | .getCoin outpoint => (.found (u outpoint), u)
  | .haveCoin outpoint => (.has (u outpoint).isSome, u)
  | .uncache _ _ | .flush _ | .push | .pop => (.done, u)

/-- Operations one after another on the map. -/
def run (u : UtxoSet) : List CoinsOp → List CoinsAnswer × UtxoSet
  | [] => ([], u)
  | op :: ops => ((u.step op).1 :: ((u.step op).2.run ops).1, ((u.step op).2.run ops).2)

/-- The caller's side of an operation: a coin it adds is not spent, and it asks
for no overwrite only where the map has no unspent coin. -/
def Allows (u : UtxoSet) : CoinsOp → Prop
  | .addCoin outpoint coin possible_overwrite =>
    coin.isSpent = false ∧ (possible_overwrite = false → u outpoint = none)
  | _ => True

/-- Every operation of a run is allowed on the map it meets. -/
def RunAllowed (u : UtxoSet) : List CoinsOp → Prop
  | [] => True
  | op :: ops => u.Allows op ∧ RunAllowed (u.step op).2 ops

end UtxoSet

namespace CoinsStack

/-- An allowed operation on a stack that keeps its promises, over a base view
that takes every best block, raises nothing, answers as the map does, and leaves
the stack standing for the updated map. -/
theorem step_spec {s : CoinsStack} (hs : s.Ok) (hacc : s.base.AcceptsAll) {op : CoinsOp}
    (hop : s.view.Allows op) :
    ∃ a s', s.step op = .ok (a, s') ∧ s'.Ok ∧ s'.base.AcceptsAll ∧ a = (s.view.step op).1 ∧
      s'.view = (s.view.step op).2 := by
  cases op with
  | addCoin outpoint coin possible_overwrite =>
    obtain ⟨s', h, hok, hview⟩ := addCoin_spec hs hop.1 hop.2
    exact ⟨.done, s', by simp [step, h], hok, (addCoin_frame h).1 ▸ hacc, rfl, hview⟩
  | spendCoin outpoint =>
    obtain ⟨hok, hview, -⟩ := spendCoin_spec hs outpoint
    exact ⟨.done, _, rfl, hok, acceptsAll_spendCoin hs hacc outpoint, rfl, hview⟩
  | accessCoin outpoint =>
    obtain ⟨h1, h2, h3⟩ := accessCoin_spec hs outpoint
    exact ⟨_, _, rfl, h3, (acceptsAll_reads hs hacc outpoint).1, by rw [h1]; rfl, h2⟩
  | getCoin outpoint =>
    obtain ⟨h1, h2, h3⟩ := getCoin_top_spec hs outpoint
    exact ⟨_, _, rfl, h3, (acceptsAll_reads hs hacc outpoint).2.2, by rw [h1]; rfl, h2⟩
  | haveCoin outpoint =>
    obtain ⟨h1, h2, h3⟩ := haveCoin_spec hs outpoint
    exact ⟨_, _, rfl, h3, (acceptsAll_reads hs hacc outpoint).2.1, by rw [h1]; rfl, h2⟩
  | uncache layer outpoint =>
    obtain ⟨hok, hview⟩ := uncache_spec hs layer outpoint
    refine ⟨.done, _, rfl, hok, ?_, rfl, hview⟩
    cases layer <;> exact hacc
  | flush layer =>
    obtain ⟨s', h, hok, hview, hacc'⟩ := flush_spec hs hacc layer
    exact ⟨.done, s', by simp [step, h], hok, hacc', rfl, hview⟩
  | push =>
    obtain ⟨hok, hview⟩ := push_spec hs
    exact ⟨.done, _, rfl, hok, hacc, rfl, hview⟩
  | pop =>
    obtain ⟨s', h, hok, hview, hacc'⟩ := pop_spec hs hacc
    exact ⟨.done, s', by simp [step, h], hok, hacc', rfl, hview⟩

/-- An allowed run, by induction on its operations with `step_spec`. -/
theorem run_spec : ∀ (ops : List CoinsOp) (s : CoinsStack), s.Ok → s.base.AcceptsAll →
    s.view.RunAllowed ops →
    ∃ as s', s.run ops = .ok (as, s') ∧ s'.Ok ∧ as = (s.view.run ops).1 ∧ s'.view = (s.view.run ops).2 ∧
      s'.base.AcceptsAll
  | [], s, hs, hacc, _ => ⟨[], s, rfl, hs, rfl, rfl, hacc⟩
  | op :: ops, s, hs, hacc, ⟨hop, hops⟩ => by
    obtain ⟨a, s₁, h₁, hs₁, hacc₁, ha, hv₁⟩ := step_spec hs hacc hop
    obtain ⟨as, s', h', hs', has, hv', hacc'⟩ := run_spec ops s₁ hs₁ hacc₁ (hv₁ ▸ hops)
    refine ⟨a :: as, s', by simp [run, h₁, h'], hs', ?_, ?_, hacc'⟩
    · rw [ha, has, hv₁]
      rfl
    · rw [hv', hv₁]
      rfl

end CoinsStack

/-- `n + 1` new caches over a base view. -/
def newStack (base : BaseView) (n : Nat) : CoinsStack := ⟨base, newCache, List.replicate n newCache⟩

theorem viewOf_replicate_newCache (base : BaseView) (hb : base.Ok) :
    ∀ n : Nat, viewOf base (List.replicate n newCache) = base.coins ∧ StackOk base (List.replicate n newCache)
  | 0 => ⟨rfl, hb⟩
  | n + 1 => by
    obtain ⟨hview, hok⟩ := viewOf_replicate_newCache base hb n
    refine ⟨?_, layerOk_empty _, hok⟩
    simp only [List.replicate_succ, viewOf, newCache, overlay_empty]
    exact hview

theorem newStack_spec (base : BaseView) (hb : base.Ok) (n : Nat) :
    (newStack base n).Ok ∧ (newStack base n).view = base.coins := by
  obtain ⟨hview, hok⟩ := viewOf_replicate_newCache base hb n
  refine ⟨⟨layerOk_empty _, hok⟩, ?_⟩
  simp only [CoinsStack.view, CoinsStack.layers, newStack, viewOf, newCache, overlay_empty]
  exact hview

/-- A stack of new caches over the simulation test's base view behaves as one
map, whatever the test's random draws: every allowed run raises nothing, every
read answers what the map holds, and flushing every cache afterwards leaves
exactly the map in the base view. -/
theorem coinsStack_run_refines (v : CCoinsViewTest) (hv : v.Ok) (n : Nat) (ops : List CoinsOp)
    (hops : v.coins.RunAllowed ops) :
    ∃ as s, (newStack (.test v) n).run ops = .ok (as, s) ∧ as = (v.coins.run ops).1 ∧
      ∃ base, s.flushAll = .ok base ∧ base.coins = (v.coins.run ops).2 := by
  obtain ⟨hok, hview⟩ := newStack_spec (.test v) hv n
  rw [show v.coins = (BaseView.test v).coins from rfl, ← hview] at hops ⊢
  obtain ⟨as, s, hrun, hs, has, hv', hacc⟩ :=
    CoinsStack.run_spec ops _ hok (BaseView.acceptsAll_test v) hops
  obtain ⟨base, hflush, hcoins⟩ := CoinsStack.flushAll_spec hs hacc
  exact ⟨as, s, hrun, has, base, hflush, hcoins.trans hv'⟩

theorem coinsStack_run_refines_addFlushSpend :
    ∃ as s, (newStack (.test ⟨fun _ => none, Uint256.null, fun _ => 0, 0⟩) 1).run
        [.addCoin default ⟨⟨50, []⟩, 1, false⟩ false, .flush 0, .spendCoin default, .accessCoin default] =
          .ok (as, s) ∧
      as = (UtxoSet.run (fun _ => none)
        [.addCoin default ⟨⟨50, []⟩, 1, false⟩ false, .flush 0, .spendCoin default, .accessCoin default]).1 ∧
      ∃ base, s.flushAll = .ok base ∧ base.coins = (UtxoSet.run (fun _ => none)
        [.addCoin default ⟨⟨50, []⟩, 1, false⟩ false, .flush 0, .spendCoin default, .accessCoin default]).2 :=
  coinsStack_run_refines _ (fun _ _ h => absurd h (by simp)) 1 _ ⟨⟨rfl, fun _ => rfl⟩, trivial, trivial, trivial, trivial⟩

/-- `AddCoin` asserts that its coin is not spent: a run that adds the empty coin
stops there, on every stack. -/
theorem run_addCoin_coinEmpty (s : CoinsStack) (outpoint : COutPoint) (possible_overwrite : Bool)
    (ops : List CoinsOp) :
    s.run (.addCoin outpoint coinEmpty possible_overwrite :: ops) = .error (.assertion "!coin.IsSpent()") :=
  rfl

/-- Over the coins database, a run that flushes the only cache, which is new and
so has a null best block, stops at the database's assertion, whatever the cache
holds. -/
theorem run_flush_db_newStack (v : CCoinsViewDB) (outpoint : COutPoint) (coin : Coin) (hcoin : coin.isSpent = false)
    (ops : List CoinsOp) :
    (newStack (.db v) 0).run (.addCoin outpoint coin true :: .flush 0 :: ops) =
      .error (.assertion "!hashBlock.IsNull()") := by
  obtain ⟨s, hs, -, -⟩ := @CoinsStack.addCoin_spec _ (newStack_spec (.db v) trivial 0).1 outpoint coin true hcoin
    (fun h => nomatch h)
  obtain ⟨hbase, hnull, hbelow⟩ := CoinsStack.addCoin_frame hs
  have hflush := CoinsStack.flush_db_null hbase hbelow (by rw [hnull]; exact (show Uint256.null.isNull = true by decide))
  simp [CoinsStack.run, CoinsStack.step, hs, hflush, bind, Except.bind, pure, Except.pure]

/-- Two runs the claim allows stop at an assertion: adding the empty coin, and,
over an empty coins database, flushing a new cache that holds one coin. -/
theorem coinsStack_run_assertions :
    (newStack (.test ⟨fun _ => none, Uint256.null, fun _ => 0, 0⟩) 0).run [.addCoin default coinEmpty false] =
        .error (.assertion "!coin.IsSpent()") ∧
      (newStack (.db ⟨fun _ => none, (fun _ _ h => nomatch h), Uint256.null, []⟩) 0).run
          [.addCoin default ⟨⟨50, []⟩, 1, false⟩ true, .flush 0] =
        .error (.assertion "!hashBlock.IsNull()") :=
  ⟨run_addCoin_coinEmpty _ _ _ _, run_flush_db_newStack _ _ _ rfl _⟩

end Ring.Coins
