import Ring.Node.State
import Ring.Lib.Overlay
import Ring.Lib.Wire

/-!
# Coin caches over a base view

`CCoinsViewCache` keeps, over a base view, a map from outpoints to entries (a
coin, spent or not, and two flags) and the best block it stands for
(`hashBlock`, null in a new cache). `DIRTY` marks an entry that may differ from
the base; `FRESH` one whose outpoint has no unspent coin in the base, so that
spending it can simply forget it. Caches stack: the base of a cache is another
cache or, at the bottom, a base view (`BaseView`): the coins database
`CCoinsViewDB`, or `CCoinsViewTest`, the map the cache simulation test puts under
its caches. A read pulls what it finds below into every cache on its way up
(`FetchCoin`); `Flush` writes a cache's dirty entries and its best block into its
base (`BatchWrite`) and empties it; `Uncache` drops an entry that carries no flag.

The two base views differ in what `BatchWrite` asserts: the database asserts a
best block that is not null (and, after an interrupted write, the one that write
was heading for), the test's map takes any batch. The test's map may also keep
a spent coin and answer it, where the database erases it; which it does is drawn
from the test's random generator.

A stack stands for one UTXO set, `viewOf`: each outpoint as the topmost cache
with an entry for it shows it, or as the base view holds it unspent. `StackOk`
is what the flags promise about the view below each cache: a `FRESH` entry has
no unspent coin below it, an entry that is not `DIRTY` shows what is below it,
and a spent entry holds the empty coin.

Results, each for a stack that keeps those promises:
* `getCoin_spec`, `CoinsStack.fetch_spec`: a read answers what the view holds,
  and leaves the view and the promises as they were;
* `CoinsStack.addCoin_spec`, `CoinsStack.spendCoin_spec`: the two writes change
  the view as `UtxoSet.addCoin` and `UtxoSet.spendCoin` do and keep the
  promises, and `AddCoin` raises nothing when the caller's promise holds;
* `CoinsStack.flush_spec`, `CoinsStack.uncache_spec`: over a base view that
  takes every best block, flushing or uncaching any cache keeps the view, and
  `BatchWrite` never throws;
* `CoinsStack.flush_db_null`: the database refuses the flush of a cache whose
  best block is null.
-/
namespace Ring.Coins

open Ring.Lib Ring.Arith Ring.Chain Ring.Node Ring.Script

/-- What the coins code raises: a `std::logic_error` with its text, or a failed
`assert` with its condition. -/
inductive CoinsFault where
  | logicError (what : String)
  | assertion (expr : String)
  deriving DecidableEq, Repr

/-- The UTXO set a coins view stands for: the unspent coin at each outpoint. -/
abbrev UtxoSet := COutPoint → Option Coin

namespace UtxoSet

/-- `AddCoin` on the set: an unspendable output is never stored. -/
def addCoin (u : UtxoSet) (outpoint : COutPoint) (coin : Coin) : UtxoSet :=
  if isUnspendable coin.out.scriptPubKey then u else Function.update u outpoint (some coin)

/-- `SpendCoin` on the set. -/
def spendCoin (u : UtxoSet) (outpoint : COutPoint) : UtxoSet := Function.update u outpoint none

/-- No coin of the set is spent. -/
def Unspent (u : UtxoSet) : Prop := ∀ outpoint coin, u outpoint = some coin → coin.isSpent = false

end UtxoSet

/-- A stored coin as `CCoinsViewCache::GetCoin` reports it: not at all when spent. -/
def unspentCoin (coin : Coin) : Option Coin := if coin.isSpent then none else some coin

theorem unspentCoin_eq_some {c coin : Coin} : unspentCoin c = some coin ↔ c = coin ∧ coin.isSpent = false := by
  unfold unspentCoin
  by_cases h : c.isSpent = true
  · simp only [h, if_true, reduceCtorEq, false_iff, not_and]
    rintro rfl
    simp [h]
  · simp only [h, if_false, Option.some.injEq, Bool.false_eq_true]
    constructor
    · rintro rfl
      exact ⟨rfl, by simpa using h⟩
    · rintro ⟨rfl, -⟩
      rfl

theorem unspentCoin_of_spent {c : Coin} (h : c.isSpent = true) : unspentCoin c = none := by
  simp [unspentCoin, h]

/-- `CCoinsCacheEntry`: the cached coin and the flags `DIRTY` and `FRESH`.
mirrors src/coins.h:103-119 -/
structure CCoinsCacheEntry where
  coin : Coin
  dirty : Bool
  fresh : Bool
  deriving DecidableEq

/-- What `GetCoin` reads from an entry: its coin, unless it is spent. -/
def CCoinsCacheEntry.unspent (it : CCoinsCacheEntry) : Option Coin :=
  if it.coin.isSpent then none else some it.coin

theorem CCoinsCacheEntry.unspent_eq_some {it : CCoinsCacheEntry} {coin : Coin} :
    it.unspent = some coin ↔ it.coin = coin ∧ coin.isSpent = false :=
  unspentCoin_eq_some

/-- A coin a cache answers is never spent, so reading it as a stored coin changes
nothing. -/
theorem bind_unspent_bind_unspentCoin (it : Option CCoinsCacheEntry) :
    (it.bind CCoinsCacheEntry.unspent).bind unspentCoin = it.bind CCoinsCacheEntry.unspent := by
  cases it with
  | none => rfl
  | some e =>
    unfold CCoinsCacheEntry.unspent
    cases h : e.coin.isSpent <;> simp [unspentCoin, h]

/-- `CCoinsMap`: the entries of one cache. -/
abbrev CCoinsMap := AList fun _ : COutPoint => CCoinsCacheEntry

/-! ## What the flags promise -/

/-- What an entry's flags promise about `below`, what the view below its cache
holds at its outpoint. -/
structure EntryOk (below : Option Coin) (it : CCoinsCacheEntry) : Prop where
  fresh_none : it.fresh = true → below = none
  clean_eq : it.dirty = false → below = it.unspent
  spent_empty : it.coin.isSpent = true → it.coin = coinEmpty

/-- Every entry of a cache keeps its promises about the view `base` below it. -/
def LayerOk (base : UtxoSet) (cacheCoins : CCoinsMap) : Prop :=
  ∀ outpoint it, cacheCoins.lookup outpoint = some it → EntryOk (base outpoint) it

theorem layerOk_empty (base : UtxoSet) : LayerOk base ∅ := by
  intro outpoint it h
  simp [AList.lookup_empty] at h

theorem LayerOk.insert {base : UtxoSet} {cacheCoins : CCoinsMap} (h : LayerOk base cacheCoins)
    {outpoint : COutPoint} {it : CCoinsCacheEntry} (hit : EntryOk (base outpoint) it) :
    LayerOk base (cacheCoins.insert outpoint it) := by
  intro o e he
  by_cases ho : o = outpoint
  · subst ho
    rw [AList.lookup_insert, Option.some.injEq] at he
    exact he ▸ hit
  · rw [AList.lookup_insert_ne ho] at he
    exact h o e he

theorem LayerOk.erase {base : UtxoSet} {cacheCoins : CCoinsMap} (h : LayerOk base cacheCoins)
    (outpoint : COutPoint) : LayerOk base (cacheCoins.erase outpoint) := by
  intro o e he
  by_cases ho : o = outpoint
  · subst ho
    simp [AList.lookup_erase] at he
  · rw [AList.lookup_erase_ne ho] at he
    exact h o e he

/-! ## The caches and the base views -/

/-- `CCoinsViewCache`'s own state: its entries, and the best block it stands for,
null until a `SetBestBlock` or the flush of a cache above it sets it. -/
structure CCoinsViewCache where
  cacheCoins : CCoinsMap
  hashBlock : Uint256

/-- `new CCoinsViewCache(base)`: no entries, and a null best block.
mirrors src/coins.cpp:35 -/
def newCache : CCoinsViewCache := ⟨∅, Uint256.null⟩

/-- The coins database (`CCoinsViewDB`): the stored coins, none of them spent,
the best block (`DB_BEST_BLOCK`, null when there is none), and the head blocks
an interrupted `BatchWrite` leaves behind (`DB_HEAD_BLOCKS`). -/
structure CCoinsViewDB where
  coins : UtxoSet
  unspent : coins.Unspent
  hashBestBlock : Uint256
  headBlocks : List Uint256

theorem unspent_update {u : UtxoSet} (hu : u.Unspent) (outpoint : COutPoint) (it : CCoinsCacheEntry) :
    UtxoSet.Unspent (Function.update u outpoint it.unspent) := by
  intro o coin h
  by_cases ho : o = outpoint
  · subst ho
    rw [Function.update_self] at h
    exact (CCoinsCacheEntry.unspent_eq_some.1 h).2
  · rw [Function.update_of_ne ho] at h
    exact hu o coin h

/-- One entry of `CCoinsViewDB::BatchWrite`: a dirty entry is erased when spent and
written otherwise.
mirrors src/txdb.cpp:108-116 -/
def CCoinsViewDB.writeEntry (db : CCoinsViewDB) (outpoint : COutPoint) (it : CCoinsCacheEntry) :
    CCoinsViewDB :=
  if it.dirty then
    ⟨Function.update db.coins outpoint it.unspent, unspent_update db.unspent outpoint it, db.hashBestBlock,
      db.headBlocks⟩
  else db

/-- The entry loop of `CCoinsViewDB::BatchWrite`.
mirrors src/txdb.cpp:106-128 -/
def CCoinsViewDB.writeEntries (db : CCoinsViewDB) (mapCoins : CCoinsMap) : CCoinsViewDB :=
  mapCoins.entries.foldl (fun db it => db.writeEntry it.1 it.2) db

/-- `CCoinsViewDB::BatchWrite`: the best block must not be null and, in the middle
of a replay (no best block, two head blocks), must be the block the interrupted
write was heading for; then the entries are written one by one, and the best
block recorded in place of the head blocks.
mirrors src/txdb.cpp:83-137 -/
def CCoinsViewDB.batchWrite (db : CCoinsViewDB) (mapCoins : CCoinsMap) (hashBlock : Uint256) :
    Except CoinsFault CCoinsViewDB :=
  if hashBlock.isNull then .error (.assertion "!hashBlock.IsNull()")
  else if db.hashBestBlock.isNull && db.headBlocks.length == 2 && db.headBlocks.head? != some hashBlock then
    .error (.assertion "old_heads[0] == hashBlock")
  else
    .ok { db.writeEntries mapCoins with hashBestBlock := hashBlock, headBlocks := [] }

/-- `CCoinsViewTest`, the base view under the caches of the cache simulation
test: a map that may keep spent coins, its best block, and the test's random
generator, whose `k`-th draw is `rand k`, `drawn` draws having been made. -/
structure CCoinsViewTest where
  map_ : COutPoint → Option Coin
  hashBestBlock_ : Uint256
  rand : Nat → Nat
  drawn : Nat

namespace CCoinsViewTest

/-- The next draw of the test's random generator. -/
def draw (v : CCoinsViewTest) : Nat × CCoinsViewTest := (v.rand v.drawn, { v with drawn := v.drawn + 1 })

/-- `CCoinsViewTest::GetCoin`: a stored coin, except that a spent one is not
answered when the draw for `InsecureRandBool()` is `0`.
mirrors src/test/coins_tests.cpp:40-51 -/
def getCoin (v : CCoinsViewTest) (outpoint : COutPoint) : Option Coin × CCoinsViewTest :=
  match v.map_ outpoint with
  | none => (none, v)
  | some coin =>
    if coin.isSpent then
      let (r, v) := v.draw
      (if r % 2 = 0 then none else some coin, v)
    else (some coin, v)

/-- One entry of `CCoinsViewTest::BatchWrite`: a dirty entry's coin is stored, and
a spent one erased again when the draw for `InsecureRandRange(3)` is `0`. -/
def writeEntry (v : CCoinsViewTest) (outpoint : COutPoint) (it : CCoinsCacheEntry) : CCoinsViewTest :=
  if it.dirty then
    let v := { v with map_ := Function.update v.map_ outpoint (some it.coin) }
    if it.coin.isSpent then
      let (r, v) := v.draw
      if r % 3 = 0 then { v with map_ := Function.update v.map_ outpoint none } else v
    else v
  else v

/-- `CCoinsViewTest::BatchWrite`: the entries one by one; a best block that is
not null is recorded.
mirrors src/test/coins_tests.cpp:55-72 -/
def batchWrite (v : CCoinsViewTest) (mapCoins : CCoinsMap) (hashBlock : Uint256) : CCoinsViewTest :=
  let v := mapCoins.entries.foldl (fun v it => v.writeEntry it.1 it.2) v
  if hashBlock.isNull then v else { v with hashBestBlock_ := hashBlock }

/-- The unspent coins of the map. -/
def coins (v : CCoinsViewTest) : UtxoSet := fun outpoint => (v.map_ outpoint).bind unspentCoin

/-- A spent coin the map keeps is the empty coin, as the caches write it. -/
def Ok (v : CCoinsViewTest) : Prop :=
  ∀ outpoint coin, v.map_ outpoint = some coin → coin.isSpent = true → coin = coinEmpty

end CCoinsViewTest

/-- The view under the bottom cache. -/
inductive BaseView where
  | db (v : CCoinsViewDB)
  | test (v : CCoinsViewTest)

namespace BaseView

/-- The UTXO set the base view stands for. -/
def coins : BaseView → UtxoSet
  | .db v => v.coins
  | .test v => v.coins

/-- `GetCoin` of the base view; the database answers what it stores.
mirrors src/txdb.cpp:60-62 -/
def getCoin : BaseView → COutPoint → Option Coin × BaseView
  | .db v, outpoint => (v.coins outpoint, .db v)
  | .test v, outpoint => ((v.getCoin outpoint).1, .test (v.getCoin outpoint).2)

/-- `BatchWrite` of the base view. -/
def batchWrite : BaseView → CCoinsMap → Uint256 → Except CoinsFault BaseView
  | .db v, mapCoins, hashBlock => do
    let v ← v.batchWrite mapCoins hashBlock
    pure (.db v)
  | .test v, mapCoins, hashBlock => .ok (.test (v.batchWrite mapCoins hashBlock))

/-- What the base view keeps: the test's map keeps only empty spent coins. -/
def Ok : BaseView → Prop
  | .db _ => True
  | .test v => v.Ok

/-- `BatchWrite` passes its assertions with this best block. -/
def accepts : BaseView → Uint256 → Bool
  | .db v, hashBlock => !hashBlock.isNull &&
      !(v.hashBestBlock.isNull && v.headBlocks.length == 2 && v.headBlocks.head? != some hashBlock)
  | .test _, _ => true

/-- A base view whose `BatchWrite` passes with every best block. -/
def AcceptsAll (b : BaseView) : Prop := ∀ hashBlock, b.accepts hashBlock = true

theorem acceptsAll_test (v : CCoinsViewTest) : (BaseView.test v).AcceptsAll := fun _ => rfl

theorem not_acceptsAll_db (v : CCoinsViewDB) : ¬(BaseView.db v).AcceptsAll := fun h => by
  have hnull := h Uint256.null
  simp [accepts, show Uint256.null.isNull = true by decide] at hnull

end BaseView

namespace CCoinsViewTest

variable {v : CCoinsViewTest}

@[simp] theorem coins_draw (v : CCoinsViewTest) : v.draw.2.coins = v.coins := rfl

theorem coins_of_map_eq {v w : CCoinsViewTest} (h : w.map_ = v.map_) : w.coins = v.coins := by
  unfold coins
  rw [h]

theorem coins_update (v : CCoinsViewTest) (outpoint : COutPoint) (x : Option Coin) :
    ({ v with map_ := Function.update v.map_ outpoint x } : CCoinsViewTest).coins =
      Function.update v.coins outpoint (x.bind unspentCoin) := by
  funext o
  by_cases ho : o = outpoint
  · subst ho
    simp [coins]
  · simp [coins, Function.update_of_ne ho]

theorem Ok.update (hv : v.Ok) (outpoint : COutPoint) {x : Option Coin}
    (hx : ∀ coin, x = some coin → coin.isSpent = true → coin = coinEmpty) :
    ({ v with map_ := Function.update v.map_ outpoint x } : CCoinsViewTest).Ok := by
  intro o coin h
  dsimp only at h
  by_cases ho : o = outpoint
  · subst ho
    rw [Function.update_self] at h
    exact hx coin h
  · rw [Function.update_of_ne ho] at h
    exact hv o coin h

/-- The test's map answers what it stands for, an empty coin at most besides, and
keeps what it stands for. -/
theorem getCoin_spec (hv : v.Ok) (outpoint : COutPoint) :
    (v.getCoin outpoint).1.bind unspentCoin = v.coins outpoint ∧
      (∀ coin, (v.getCoin outpoint).1 = some coin → coin.isSpent = true → coin = coinEmpty) ∧
      (v.getCoin outpoint).2.map_ = v.map_ := by
  unfold getCoin
  cases hm : v.map_ outpoint with
  | none => simp [coins, hm]
  | some coin =>
    have hempty : coin.isSpent = true → coin = coinEmpty := hv outpoint coin hm
    dsimp only
    by_cases hsp : coin.isSpent = true
    -- a spent coin is answered or not as the draw says; either way nothing unspent is there
    · rw [if_pos hsp]
      refine ⟨?_, ?_, rfl⟩
      · split_ifs <;> simp [coins, hm, unspentCoin_of_spent hsp]
      · intro c hc _
        split_ifs at hc
        all_goals cases hc
        exact hempty hsp
    · rw [if_neg hsp]
      refine ⟨by simp [coins, hm], fun c hc hc' => ?_, rfl⟩
      cases hc
      exact absurd hc' hsp

/-- A dirty entry the flags vouch for, written into the map, keeps the empty spent
coins and shows the entry. -/
theorem writeEntry_spec (hv : v.Ok) {outpoint : COutPoint} {it : CCoinsCacheEntry}
    (hit : EntryOk (v.coins outpoint) it) :
    (v.writeEntry outpoint it).Ok ∧
      (v.writeEntry outpoint it).coins = Function.update v.coins outpoint it.unspent := by
  have hstored : ∀ coin, some it.coin = some coin → coin.isSpent = true → coin = coinEmpty := by
    rintro coin ⟨⟩ hsp
    exact hit.spent_empty hsp
  unfold writeEntry
  cases hd : it.dirty
  · -- a clean entry shows what the map shows
    simp only [Bool.false_eq_true, if_false]
    rw [← hit.clean_eq hd, Function.update_eq_self]
    exact ⟨hv, rfl⟩
  · simp only [if_true]
    by_cases hsp : it.coin.isSpent = true
    · have hnone : it.unspent = none := by simp [CCoinsCacheEntry.unspent, hsp]
      simp only [hsp, if_true]
      split_ifs with hr
      -- erased again, or kept as a spent coin: nothing unspent is shown either way
      · refine ⟨(hv.update outpoint hstored).update outpoint (fun _ h => by cases h), ?_⟩
        rw [hnone, coins_update]
        simp [coins_draw, coins_update]
      · refine ⟨hv.update outpoint hstored, ?_⟩
        rw [hnone, coins_draw, coins_update]
        simp [unspentCoin_of_spent hsp]
    · simp only [hsp, Bool.false_eq_true, if_false]
      refine ⟨hv.update outpoint hstored, ?_⟩
      rw [coins_update]
      simp [CCoinsCacheEntry.unspent, unspentCoin, hsp]

end CCoinsViewTest

namespace BaseView

variable {b : BaseView}

/-- The base view answers what it stands for, an empty coin at most besides, and
keeps what it stands for and what it promises. -/
theorem getCoin_spec (hb : b.Ok) (outpoint : COutPoint) :
    (b.getCoin outpoint).1.bind unspentCoin = b.coins outpoint ∧
      (∀ coin, (b.getCoin outpoint).1 = some coin → coin.isSpent = true → coin = coinEmpty) ∧
      (b.getCoin outpoint).2.coins = b.coins ∧ (b.getCoin outpoint).2.Ok ∧
      (b.AcceptsAll → (b.getCoin outpoint).2.AcceptsAll) := by
  cases b with
  | db v =>
    -- the database stores only unspent coins
    have hbind : (v.coins outpoint).bind unspentCoin = v.coins outpoint := by
      cases hc : v.coins outpoint with
      | none => rfl
      | some c => simp [unspentCoin, v.unspent outpoint c hc]
    refine ⟨hbind, fun c hc hsp => ?_, rfl, trivial, id⟩
    rw [v.unspent outpoint c hc] at hsp
    cases hsp
  | test v =>
    obtain ⟨h1, h2, h3⟩ := v.getCoin_spec hb outpoint
    exact ⟨h1, h2, CCoinsViewTest.coins_of_map_eq h3, fun o c hc => hb o c (h3 ▸ hc), fun _ => acceptsAll_test _⟩

theorem writeEntries_coins {db : CCoinsViewDB} {mapCoins : CCoinsMap} (hm : LayerOk db.coins mapCoins) :
    (db.writeEntries mapCoins).coins =
      overlay CCoinsCacheEntry.unspent mapCoins db.coins := by
  refine (foldl_update CCoinsViewDB.coins (fun _ => True) EntryOk CCoinsViewDB.writeEntry
    (fun db outpoint it _ h => ⟨trivial, ?_⟩) mapCoins db trivial hm).2
  unfold CCoinsViewDB.writeEntry
  cases hd : it.dirty
  · rw [if_neg (by simp), ← h.clean_eq hd, Function.update_eq_self]
  · rw [if_pos rfl]

/-- A batch the flags vouch for, written with a best block the base view takes,
shows over it; a base view that takes every best block still does. -/
theorem batchWrite_spec (hb : b.Ok) {mapCoins : CCoinsMap} {hashBlock : Uint256}
    (hacc : b.accepts hashBlock = true) (hm : LayerOk b.coins mapCoins) :
    ∃ b', b.batchWrite mapCoins hashBlock = .ok b' ∧ b'.Ok ∧
      b'.coins = overlay CCoinsCacheEntry.unspent mapCoins b.coins ∧ (b.AcceptsAll → b'.AcceptsAll) := by
  cases b with
  | db v =>
    simp only [accepts, Bool.and_eq_true, Bool.not_eq_true'] at hacc
    refine ⟨.db { v.writeEntries mapCoins with hashBestBlock := hashBlock, headBlocks := [] }, ?_, trivial,
      writeEntries_coins hm,
      fun h => absurd h (not_acceptsAll_db v)⟩
    simp [batchWrite, CCoinsViewDB.batchWrite, hacc.1, hacc.2, bind, Except.bind, pure, Except.pure]
  | test v =>
    obtain ⟨hok, hcoins⟩ := foldl_update CCoinsViewTest.coins CCoinsViewTest.Ok EntryOk
      CCoinsViewTest.writeEntry (fun _ _ _ hv h => CCoinsViewTest.writeEntry_spec hv h) mapCoins v hb hm
    refine ⟨_, rfl, ?_, ?_, fun _ => acceptsAll_test _⟩
    -- recording the best block touches neither the map nor the promises
    · simp only [Ok, CCoinsViewTest.batchWrite]
      split_ifs
      · exact hok
      · exact hok
    · simp only [coins, CCoinsViewTest.batchWrite]
      split_ifs
      · exact hcoins
      · exact hcoins

end BaseView

/-! ## Reads -/

/-- `CCoinsViewCache::FetchCoin` of a cache over `base`: the entry found, the cache
and the base afterwards. `baseGetCoin` is what `base->GetCoin` answers and the base
after that call; only a miss asks it. A coin found below is kept, `FRESH` when spent.
mirrors src/coins.cpp:41-56 -/
def fetchCoin {β : Type} (cacheCoins : CCoinsMap) (base : β) (baseGetCoin : Option Coin × β)
    (outpoint : COutPoint) : Option CCoinsCacheEntry × CCoinsMap × β :=
  match cacheCoins.lookup outpoint with
  | some it => (some it, cacheCoins, base)
  | none =>
    match baseGetCoin with
    | (none, base') => (none, cacheCoins, base')
    | (some tmp, base') =>
      let it : CCoinsCacheEntry := ⟨tmp, false, tmp.isSpent⟩
      (some it, cacheCoins.insert outpoint it, base')

/-- `GetCoin` of the caches `layers` over the base view, the top cache first: the
coin found, and the caches and the base view after the call
(`CCoinsViewCache::GetCoin`, and at the bottom the base view's `GetCoin`).
mirrors src/coins.cpp:58-65 -/
def getCoin (base : BaseView) : List CCoinsViewCache → COutPoint →
    Option Coin × List CCoinsViewCache × BaseView
  | [], outpoint => ((base.getCoin outpoint).1, [], (base.getCoin outpoint).2)
  | cache :: below, outpoint =>
    let (it, cacheCoins, below, base) := fetchCoin cache.cacheCoins (below, base) (getCoin base below outpoint) outpoint
    (it.bind CCoinsCacheEntry.unspent, { cache with cacheCoins := cacheCoins } :: below, base)

/-- The UTXO set the caches `layers` over the base view stand for. -/
def viewOf (base : BaseView) : List CCoinsViewCache → UtxoSet
  | [] => base.coins
  | cache :: below => overlay CCoinsCacheEntry.unspent cache.cacheCoins (viewOf base below)

/-- Every cache of a stack keeps its promises about the caches below it, and the
base view its own. -/
def StackOk (base : BaseView) : List CCoinsViewCache → Prop
  | [] => base.Ok
  | cache :: below => LayerOk (viewOf base below) cache.cacheCoins ∧ StackOk base below

/-- `FetchCoin` answers what the view holds, and what it pulls in keeps the view
and the promises. The base answers what the view below holds, and an empty coin
at most besides. -/
theorem fetchCoin_spec {β : Type} {cacheCoins : CCoinsMap} {base base' : β} {found : Option Coin}
    {outpoint : COutPoint} {V : UtxoSet} (hc : LayerOk V cacheCoins)
    (hfound : found.bind unspentCoin = V outpoint)
    (hempty : ∀ coin, found = some coin → coin.isSpent = true → coin = coinEmpty)
    {it : Option CCoinsCacheEntry} {cacheCoins' : CCoinsMap} {b : β}
    (h : fetchCoin cacheCoins base (found, base') outpoint = (it, cacheCoins', b)) :
    it.bind CCoinsCacheEntry.unspent = overlay CCoinsCacheEntry.unspent cacheCoins V outpoint ∧
      cacheCoins'.lookup outpoint = it ∧
      overlay CCoinsCacheEntry.unspent cacheCoins' V = overlay CCoinsCacheEntry.unspent cacheCoins V ∧
      LayerOk V cacheCoins' ∧ (b = base ∨ b = base') := by
  unfold fetchCoin at h
  cases hl : cacheCoins.lookup outpoint with
  | some e =>
    rw [hl] at h
    simp only [Prod.mk.injEq] at h
    obtain ⟨rfl, rfl, rfl⟩ := h
    exact ⟨by simp [overlay_of_lookup_some hl], hl, rfl, hc, .inl rfl⟩
  | none =>
    rw [hl] at h
    cases found with
    | none =>
      simp only [Prod.mk.injEq] at h
      obtain ⟨rfl, rfl, rfl⟩ := h
      exact ⟨by simp [overlay_of_lookup_none hl, ← hfound], hl, rfl, hc, .inr rfl⟩
    | some tmp =>
      simp only [Prod.mk.injEq] at h
      obtain ⟨rfl, rfl, rfl⟩ := h
      -- the pulled entry shows what the base answered, and is fresh exactly when spent
      have hshow : (⟨tmp, false, tmp.isSpent⟩ : CCoinsCacheEntry).unspent = V outpoint := hfound
      have hover : overlay CCoinsCacheEntry.unspent cacheCoins V outpoint = V outpoint :=
        overlay_of_lookup_none hl
      refine ⟨by rw [Option.bind_some, hshow, hover], AList.lookup_insert _, ?_, ?_, .inr rfl⟩
      · rw [overlay_insert, hshow, ← hover, Function.update_eq_self]
      · refine hc.insert ⟨fun hf => ?_, fun _ => hshow.symm, hempty tmp rfl⟩
        rw [← hshow]
        simp [CCoinsCacheEntry.unspent, show tmp.isSpent = true from hf]

/-- `GetCoin` of a stack answers what the stack's view holds, an empty coin at
most besides, and keeps the view and the promises. -/
theorem getCoin_spec (base : BaseView) (outpoint : COutPoint) :
    ∀ layers : List CCoinsViewCache, StackOk base layers →
      (getCoin base layers outpoint).1.bind unspentCoin = viewOf base layers outpoint ∧
        (∀ coin, (getCoin base layers outpoint).1 = some coin → coin.isSpent = true → coin = coinEmpty) ∧
        viewOf (getCoin base layers outpoint).2.2 (getCoin base layers outpoint).2.1 = viewOf base layers ∧
        StackOk (getCoin base layers outpoint).2.2 (getCoin base layers outpoint).2.1 ∧
        (base.AcceptsAll → (getCoin base layers outpoint).2.2.AcceptsAll)
  | [], hb => by
    obtain ⟨h1, h2, h3, h4, h5⟩ := base.getCoin_spec hb outpoint
    exact ⟨h1, h2, h3, h4, h5⟩
  | cache :: below, ⟨hc, hbelow⟩ => by
    obtain ⟨hget, hempty, hview, hok, hacc⟩ := getCoin_spec base outpoint below hbelow
    rcases hr : getCoin base below outpoint with ⟨found, below', base'⟩
    rw [hr] at hget hempty hview hok hacc
    rcases hf : fetchCoin cache.cacheCoins (below, base) (found, below', base') outpoint with
      ⟨it, cacheCoins', b⟩
    obtain ⟨h1, -, h3, h4, h5⟩ := fetchCoin_spec hc hget hempty hf
    -- the cache is left as it was, or the call went down to the base
    have hb : viewOf b.2 b.1 = viewOf base below ∧ StackOk b.2 b.1 ∧ (base.AcceptsAll → b.2.AcceptsAll) := by
      rcases h5 with rfl | rfl
      · exact ⟨rfl, hbelow, id⟩
      · exact ⟨hview, hok, hacc⟩
    simp only [getCoin, hr, hf, viewOf, hb.1]
    refine ⟨by rw [bind_unspent_bind_unspentCoin, h1], fun coin hcoin => ?_, h3, ⟨hb.1 ▸ h4, hb.2.1⟩, hb.2.2⟩
    -- a cache answers unspent coins only
    intro hsp
    obtain ⟨e, -, he⟩ := Option.bind_eq_some_iff.1 hcoin
    rw [(CCoinsCacheEntry.unspent_eq_some.1 he).2] at hsp
    cases hsp

/-! ## The stack a caller uses -/

/-- A stack of caches over a base view; `top` is the cache the caller uses. -/
structure CoinsStack where
  base : BaseView
  top : CCoinsViewCache
  below : List CCoinsViewCache

namespace CoinsStack

/-- The caches, the top one first. -/
def layers (s : CoinsStack) : List CCoinsViewCache := s.top :: s.below

/-- The UTXO set the stack stands for. -/
def view (s : CoinsStack) : UtxoSet := viewOf s.base s.layers

/-- Every cache of the stack keeps its promises. -/
def Ok (s : CoinsStack) : Prop := StackOk s.base s.layers

/-- `FetchCoin` on the top cache. -/
def fetch (s : CoinsStack) (outpoint : COutPoint) : Option CCoinsCacheEntry × CoinsStack :=
  let (it, cacheCoins, below, base) := fetchCoin s.top.cacheCoins (s.below, s.base) (getCoin s.base s.below outpoint) outpoint
  (it, ⟨base, { s.top with cacheCoins := cacheCoins }, below⟩)

/-- `CCoinsViewCache::AccessCoin`: the coin found, or the empty coin.
mirrors src/coins.cpp:117-124 -/
def accessCoin (s : CoinsStack) (outpoint : COutPoint) : Coin × CoinsStack :=
  let (it, s) := s.fetch outpoint
  ((it.map CCoinsCacheEntry.coin).getD coinEmpty, s)

/-- `CCoinsViewCache::HaveCoin`.
mirrors src/coins.cpp:126-129 -/
def haveCoin (s : CoinsStack) (outpoint : COutPoint) : Bool × CoinsStack :=
  let (it, s) := s.fetch outpoint
  (it.any fun it => !it.coin.isSpent, s)

/-- `CCoinsViewCache::GetCoin` on the top cache.
mirrors src/coins.cpp:58-65 -/
def getCoin (s : CoinsStack) (outpoint : COutPoint) : Option Coin × CoinsStack :=
  let (it, s) := s.fetch outpoint
  (it.bind CCoinsCacheEntry.unspent, s)

theorem view_eq (s : CoinsStack) :
    s.view = overlay CCoinsCacheEntry.unspent s.top.cacheCoins (viewOf s.base s.below) := rfl

/-- `FetchCoin` on the top cache finds the entry that shows what the view holds,
and keeps the view, the promises, and a base view that takes every best block. -/
theorem fetch_spec {s : CoinsStack} (hs : s.Ok) (outpoint : COutPoint) {it : Option CCoinsCacheEntry}
    {s' : CoinsStack} (h : s.fetch outpoint = (it, s')) :
    it.bind CCoinsCacheEntry.unspent = s.view outpoint ∧ s'.top.cacheCoins.lookup outpoint = it ∧
      s'.view = s.view ∧ s'.Ok ∧ (s.base.AcceptsAll → s'.base.AcceptsAll) := by
  obtain ⟨hc, hbelow⟩ := hs
  obtain ⟨hget, hempty, hview, hok, hacc⟩ := getCoin_spec s.base outpoint s.below hbelow
  rcases hr : Ring.Coins.getCoin s.base s.below outpoint with ⟨found, below', base'⟩
  rw [hr] at hget hempty hview hok hacc
  rcases hf : fetchCoin s.top.cacheCoins (s.below, s.base) (found, below', base') outpoint with
    ⟨it', cacheCoins', b⟩
  obtain ⟨h1, h2, h3, h4, h5⟩ := fetchCoin_spec hc hget hempty hf
  simp only [fetch, hr, hf, Prod.mk.injEq] at h
  obtain ⟨rfl, rfl⟩ := h
  have hb : viewOf b.2 b.1 = viewOf s.base s.below ∧ StackOk b.2 b.1 ∧ (s.base.AcceptsAll → b.2.AcceptsAll) := by
    rcases h5 with rfl | rfl
    · exact ⟨rfl, hbelow, id⟩
    · exact ⟨hview, hok, hacc⟩
  refine ⟨h1, h2, ?_, ⟨?_, hb.2.1⟩, hb.2.2⟩
  · simp only [view, layers, viewOf, hb.1]
    exact h3
  · simp only [hb.1]
    exact h4

/-- An entry `FetchCoin` finds shows its coin, or is spent and holds the empty coin. -/
theorem fetch_coin {s : CoinsStack} (hs : s.Ok) (outpoint : COutPoint) {it : CCoinsCacheEntry}
    {s' : CoinsStack} (h : s.fetch outpoint = (some it, s')) :
    s.view outpoint = it.unspent ∧ (it.coin.isSpent = true → it.coin = coinEmpty) := by
  obtain ⟨h1, h2, -, hok, -⟩ := fetch_spec hs outpoint h
  exact ⟨h1.symm, (hok.1 outpoint it h2).spent_empty⟩

theorem accessCoin_spec {s : CoinsStack} (hs : s.Ok) (outpoint : COutPoint) :
    (s.accessCoin outpoint).1 = (s.view outpoint).getD coinEmpty ∧
      (s.accessCoin outpoint).2.view = s.view ∧ (s.accessCoin outpoint).2.Ok := by
  rcases hf : s.fetch outpoint with ⟨it, s'⟩
  obtain ⟨h1, -, h3, h4, -⟩ := fetch_spec hs outpoint hf
  simp only [accessCoin, hf]
  refine ⟨?_, h3, h4⟩
  cases it with
  | none => simp [← h1]
  | some it =>
    obtain ⟨hview, hempty⟩ := fetch_coin hs outpoint hf
    rw [hview]
    unfold CCoinsCacheEntry.unspent
    cases hsp : it.coin.isSpent
    · simp
    · simp [hempty hsp]

theorem haveCoin_spec {s : CoinsStack} (hs : s.Ok) (outpoint : COutPoint) :
    (s.haveCoin outpoint).1 = (s.view outpoint).isSome ∧
      (s.haveCoin outpoint).2.view = s.view ∧ (s.haveCoin outpoint).2.Ok := by
  rcases hf : s.fetch outpoint with ⟨it, s'⟩
  obtain ⟨h1, -, h3, h4, -⟩ := fetch_spec hs outpoint hf
  simp only [haveCoin, hf]
  refine ⟨?_, h3, h4⟩
  rw [← h1]
  cases it with
  | none => rfl
  | some it =>
    unfold CCoinsCacheEntry.unspent
    cases hsp : it.coin.isSpent <;> simp [hsp]

theorem getCoin_top_spec {s : CoinsStack} (hs : s.Ok) (outpoint : COutPoint) :
    (s.getCoin outpoint).1 = s.view outpoint ∧
      (s.getCoin outpoint).2.view = s.view ∧ (s.getCoin outpoint).2.Ok := by
  rcases hf : s.fetch outpoint with ⟨it, s'⟩
  obtain ⟨h1, -, h3, h4, -⟩ := fetch_spec hs outpoint hf
  simp only [getCoin, hf]
  exact ⟨h1, h3, h4⟩

/-- The three reads keep a base view that takes every best block. -/
theorem acceptsAll_reads {s : CoinsStack} (hs : s.Ok) (hacc : s.base.AcceptsAll) (outpoint : COutPoint) :
    (s.accessCoin outpoint).2.base.AcceptsAll ∧ (s.haveCoin outpoint).2.base.AcceptsAll ∧
      (s.getCoin outpoint).2.base.AcceptsAll := by
  rcases hf : s.fetch outpoint with ⟨it, s'⟩
  have h := (fetch_spec hs outpoint hf).2.2.2.2 hacc
  simp only [accessCoin, haveCoin, getCoin, hf]
  exact ⟨h, h, h⟩

end CoinsStack

/-! ## Writes -/

/-- `CCoinsViewCache::AddCoin` on a cache: the entry is written `DIRTY`, and also
`FRESH` when the caller rules out an unspent coin and the entry was not dirty.
mirrors src/coins.cpp:67-87 -/
def addCoin (cacheCoins : CCoinsMap) (outpoint : COutPoint) (coin : Coin) (possible_overwrite : Bool) :
    Except CoinsFault CCoinsMap :=
  if coin.isSpent then .error (.assertion "!coin.IsSpent()")
  else if isUnspendable coin.out.scriptPubKey then .ok cacheCoins
  else
    -- `emplace` finds the entry, or makes an empty one with no flags
    let it := (cacheCoins.lookup outpoint).getD ⟨coinEmpty, false, false⟩
    if !possible_overwrite && !it.coin.isSpent then
      .error (.logicError "Adding new coin that replaces non-pruned entry")
    else
      let fresh := !possible_overwrite && !it.dirty
      .ok (cacheCoins.insert outpoint ⟨coin, true, it.fresh || fresh⟩)

namespace CoinsStack

/-- `AddCoin` on the top cache. -/
def addCoin (s : CoinsStack) (outpoint : COutPoint) (coin : Coin) (possible_overwrite : Bool) :
    Except CoinsFault CoinsStack := do
  let cacheCoins ← Ring.Coins.addCoin s.top.cacheCoins outpoint coin possible_overwrite
  pure ⟨s.base, { s.top with cacheCoins := cacheCoins }, s.below⟩

/-- `CCoinsViewCache::SpendCoin` on the top cache: the coin moved out (`none` when
no entry was found), and the stack afterwards. A `FRESH` entry is forgotten, any
other is cleared and made `DIRTY`.
mirrors src/coins.cpp:98-113 -/
def spendCoin (s : CoinsStack) (outpoint : COutPoint) : Option Coin × CoinsStack :=
  let (it, s) := s.fetch outpoint
  match it with
  | none => (none, s)
  | some it =>
    let cacheCoins := if it.fresh then s.top.cacheCoins.erase outpoint
      else s.top.cacheCoins.insert outpoint { it with coin := coinEmpty, dirty := true }
    (some it.coin, ⟨s.base, { s.top with cacheCoins := cacheCoins }, s.below⟩)

theorem coinEmpty_isSpent : coinEmpty.isSpent = true := rfl

/-- With a coin that is not spent, and no unspent coin in the view unless the
caller allows an overwrite, `AddCoin` raises nothing and stores the coin unless
it is unspendable. -/
theorem addCoin_spec {s : CoinsStack} (hs : s.Ok) {outpoint : COutPoint} {coin : Coin}
    {possible_overwrite : Bool} (hcoin : coin.isSpent = false)
    (hfree : possible_overwrite = false → s.view outpoint = none) :
    ∃ s', s.addCoin outpoint coin possible_overwrite = .ok s' ∧ s'.Ok ∧
      s'.view = s.view.addCoin outpoint coin := by
  obtain ⟨hc, hbelow⟩ := hs
  by_cases hun : isUnspendable coin.out.scriptPubKey = true
  · refine ⟨⟨s.base, s.top, s.below⟩, ?_, ⟨hc, hbelow⟩, by simp [view, UtxoSet.addCoin, hun]⟩
    simp [addCoin, Ring.Coins.addCoin, hcoin, hun]
  -- the entry `emplace` finds or makes, and what its flags promise
  set it := (s.top.cacheCoins.lookup outpoint).getD ⟨coinEmpty, false, false⟩ with hit
  have hV : ∀ (h : possible_overwrite = false), it.coin.isSpent = true ∧
      (it.dirty = false → viewOf s.base s.below outpoint = none) := by
    intro h
    have hnone := hfree h
    rw [view_eq] at hnone
    cases hl : s.top.cacheCoins.lookup outpoint with
    | none =>
      rw [overlay_of_lookup_none hl] at hnone
      simp [hit, hl, hnone, coinEmpty_isSpent]
    | some e =>
      rw [overlay_of_lookup_some hl] at hnone
      have hsp : e.coin.isSpent = true := by
        by_contra hne
        simp [CCoinsCacheEntry.unspent, hne] at hnone
      refine ⟨by simp [hit, hl, hsp], fun hd => ?_⟩
      rw [(hc outpoint e hl).clean_eq (by simpa [hit, hl] using hd), hnone]
  have hnothrow : (!possible_overwrite && !it.coin.isSpent) = false := by
    cases possible_overwrite
    · simp [(hV rfl).1]
    · rfl
  set new : CCoinsCacheEntry := ⟨coin, true, it.fresh || (!possible_overwrite && !it.dirty)⟩ with hnew
  refine ⟨⟨s.base, { s.top with cacheCoins := s.top.cacheCoins.insert outpoint new }, s.below⟩, ?_,
    ⟨hc.insert ⟨?_, ?_, ?_⟩, hbelow⟩, ?_⟩
  · simp [addCoin, Ring.Coins.addCoin, hcoin, hun, ← hit, hnothrow, ← hnew]
  · -- a fresh flag is kept from the old entry, or set where the view below has nothing
    intro hf
    rcases Bool.or_eq_true_iff.1 hf with hf | hf
    · cases hl : s.top.cacheCoins.lookup outpoint with
      | none => simp [hit, hl] at hf
      | some e =>
        have he : it = e := by simp [hit, hl]
        exact (hc outpoint e hl).fresh_none (he ▸ hf)
    · simp only [Bool.and_eq_true, Bool.not_eq_true'] at hf
      exact (hV hf.1).2 hf.2
  · intro hd
    cases hd
  · intro hsp
    rw [hcoin] at hsp
    cases hsp
  · have hshow : new.unspent = some coin := by simp [CCoinsCacheEntry.unspent, hnew, hcoin]
    simp only [view, layers, viewOf, overlay_insert, hshow, UtxoSet.addCoin, hun]
    rfl

/-- `SpendCoin` takes the coin out of the view, hands over the coin the view held,
and keeps the promises. -/
theorem spendCoin_spec {s : CoinsStack} (hs : s.Ok) (outpoint : COutPoint) :
    (s.spendCoin outpoint).2.Ok ∧ (s.spendCoin outpoint).2.view = s.view.spendCoin outpoint ∧
      ∀ coin, s.view outpoint = some coin → (s.spendCoin outpoint).1 = some coin := by
  rcases hf : s.fetch outpoint with ⟨it, s'⟩
  obtain ⟨h1, h2, h3, h4, -⟩ := fetch_spec hs outpoint hf
  cases it with
  | none =>
    simp only [spendCoin, hf]
    refine ⟨h4, ?_, fun coin hcoin => by simp [← h1] at hcoin⟩
    rw [h3, UtxoSet.spendCoin]
    exact (Function.update_eq_self_iff.2 (by simpa using h1)).symm
  | some e =>
    obtain ⟨hc, hbelow⟩ := h4
    have he : EntryOk (viewOf s'.base s'.below outpoint) e := hc outpoint e h2
    have hview : s'.view = s.view := h3
    simp only [spendCoin, hf]
    refine ⟨⟨?_, hbelow⟩, ?_, fun coin hcoin => ?_⟩
    · split_ifs with hfr
      · exact hc.erase outpoint
      · exact hc.insert ⟨fun h => absurd h hfr, (fun h => by cases h), fun _ => rfl⟩
    · rw [← hview, UtxoSet.spendCoin, view_eq]
      split_ifs with hfr
      · -- a fresh entry has nothing below it, so forgetting it leaves the outpoint empty
        simp only [view, layers, viewOf, overlay_erase, he.fresh_none hfr]
      · simp only [view, layers, viewOf, overlay_insert]
        simp [CCoinsCacheEntry.unspent, coinEmpty_isSpent]
    · rw [← h1, Option.bind_some, CCoinsCacheEntry.unspent_eq_some] at hcoin
      rw [hcoin.1]

/-- `AddCoin` touches the top cache's entries only. -/
theorem addCoin_frame {s s' : CoinsStack} {outpoint : COutPoint} {coin : Coin} {possible_overwrite : Bool}
    (h : s.addCoin outpoint coin possible_overwrite = .ok s') :
    s'.base = s.base ∧ s'.top.hashBlock = s.top.hashBlock ∧ s'.below = s.below := by
  obtain ⟨cacheCoins, -, h⟩ := Reader.bind_eq_ok.mp h
  cases h
  exact ⟨rfl, rfl, rfl⟩

/-- `SpendCoin` keeps a base view that takes every best block. -/
theorem acceptsAll_spendCoin {s : CoinsStack} (hs : s.Ok) (hacc : s.base.AcceptsAll) (outpoint : COutPoint) :
    (s.spendCoin outpoint).2.base.AcceptsAll := by
  rcases hf : s.fetch outpoint with ⟨it, s'⟩
  have h := (fetch_spec hs outpoint hf).2.2.2.2 hacc
  cases it with
  | none => simpa [spendCoin, hf] using h
  | some e => simpa [spendCoin, hf] using h

end CoinsStack

/-! ## Flush and uncache -/

/-- One entry of `CCoinsViewCache::BatchWrite`: the child's entry `it` at
`outpoint` written into this cache.
mirrors src/coins.cpp:146-199 -/
def batchWriteEntry (cacheCoins : CCoinsMap) (outpoint : COutPoint) (it : CCoinsCacheEntry) :
    Except CoinsFault CCoinsMap :=
  if !it.dirty then .ok cacheCoins
  else
    match cacheCoins.lookup outpoint with
    | none =>
      -- a fresh entry that is spent need not reach the parent
      if it.fresh && it.coin.isSpent then .ok cacheCoins
      else .ok (cacheCoins.insert outpoint ⟨it.coin, true, it.fresh⟩)
    | some itUs =>
      if it.fresh && !itUs.coin.isSpent then
        .error (.logicError "FRESH flag misapplied to cache entry for base transaction with spendable outputs")
      else if itUs.fresh && it.coin.isSpent then .ok (cacheCoins.erase outpoint)
      else .ok (cacheCoins.insert outpoint { itUs with coin := it.coin, dirty := true })

/-- `CCoinsViewCache::BatchWrite`: the child's entries, one by one, then the
child's best block.
mirrors src/coins.cpp:146-202 -/
def CCoinsViewCache.batchWrite (cache : CCoinsViewCache) (mapCoins : CCoinsMap) (hashBlockIn : Uint256) :
    Except CoinsFault CCoinsViewCache := do
  let cacheCoins ← mapCoins.entries.foldlM (fun acc it => batchWriteEntry acc it.1 it.2) cache.cacheCoins
  pure ⟨cacheCoins, hashBlockIn⟩

/-- `CCoinsViewCache::Flush` of `cache` over the caches below it and the base
view: its entries and its best block written into its base. The caller empties
the cache.
mirrors src/coins.cpp:204-209 -/
def flushInto (base : BaseView) (cache : CCoinsViewCache) :
    List CCoinsViewCache → Except CoinsFault (BaseView × List CCoinsViewCache)
  | [] => do
    let base ← base.batchWrite cache.cacheCoins cache.hashBlock
    pure (base, [])
  | parent :: rest => do
    let parent ← parent.batchWrite cache.cacheCoins cache.hashBlock
    pure (base, parent :: rest)

/-- `Flush` of the `i`-th cache of `layers`, counted from the top. -/
def flushAt (base : BaseView) : List CCoinsViewCache → Nat →
    Except CoinsFault (BaseView × List CCoinsViewCache)
  | [], _ => .ok (base, [])
  | cache :: below, 0 => do
    let (base, below) ← flushInto base cache below
    pure (base, { cache with cacheCoins := ∅ } :: below)
  | cache :: below, i + 1 => do
    let (base, below) ← flushAt base below i
    pure (base, cache :: below)

/-- `CCoinsViewCache::Uncache`: an entry with no flag is dropped.
mirrors src/coins.cpp:211-218 -/
def uncache (cacheCoins : CCoinsMap) (outpoint : COutPoint) : CCoinsMap :=
  match cacheCoins.lookup outpoint with
  | some it => if !it.dirty && !it.fresh then cacheCoins.erase outpoint else cacheCoins
  | none => cacheCoins

/-- `Uncache` on the `i`-th cache of `layers`, counted from the top. -/
def uncacheAt : List CCoinsViewCache → Nat → COutPoint → List CCoinsViewCache
  | [], _, _ => []
  | cache :: below, 0, outpoint => { cache with cacheCoins := uncache cache.cacheCoins outpoint } :: below
  | cache :: below, i + 1, outpoint => cache :: uncacheAt below i outpoint

/-- Every cache flushed in turn, from `cache` down: the base view afterwards. -/
def flushAll (base : BaseView) (cache : CCoinsViewCache) : List CCoinsViewCache → Except CoinsFault BaseView
  | [] => base.batchWrite cache.cacheCoins cache.hashBlock
  | parent :: rest => do
    let parent ← parent.batchWrite cache.cacheCoins cache.hashBlock
    flushAll base parent rest

/-- A child entry written into a cache that keeps its promises about `G` keeps
them too, and the cache then shows what the child showed. -/
theorem batchWriteEntry_spec {G : UtxoSet} {cacheCoins : CCoinsMap} {outpoint : COutPoint}
    {it : CCoinsCacheEntry} (hp : LayerOk G cacheCoins)
    (hit : EntryOk (overlay CCoinsCacheEntry.unspent cacheCoins G outpoint) it) :
    ∃ p, batchWriteEntry cacheCoins outpoint it = .ok p ∧ LayerOk G p ∧
      overlay CCoinsCacheEntry.unspent p G =
        Function.update (overlay CCoinsCacheEntry.unspent cacheCoins G) outpoint it.unspent := by
  unfold batchWriteEntry
  cases hd : it.dirty
  · -- a clean child entry shows what the parent shows
    refine ⟨cacheCoins, rfl, hp, ?_⟩
    rw [← hit.clean_eq hd, Function.update_eq_self]
  cases hl : cacheCoins.lookup outpoint with
  | none =>
    have hbelow : overlay CCoinsCacheEntry.unspent cacheCoins G outpoint = G outpoint :=
      overlay_of_lookup_none hl
    by_cases hskip : (it.fresh && it.coin.isSpent) = true
    · simp only [Bool.and_eq_true] at hskip
      refine ⟨cacheCoins, by simp [hskip], hp, ?_⟩
      have hnone : it.unspent = none := by simp [CCoinsCacheEntry.unspent, hskip.2]
      rw [hnone, ← hit.fresh_none hskip.1, Function.update_eq_self]
    · have hnew : EntryOk (G outpoint) ⟨it.coin, true, it.fresh⟩ :=
        ⟨fun hf => hbelow ▸ hit.fresh_none hf, (fun h => by cases h), hit.spent_empty⟩
      refine ⟨_, by simp [hskip], hp.insert hnew, ?_⟩
      rw [overlay_insert]
      rfl
  | some itUs =>
    have hus : EntryOk (G outpoint) itUs := hp outpoint itUs hl
    have hshow : overlay CCoinsCacheEntry.unspent cacheCoins G outpoint = itUs.unspent :=
      overlay_of_lookup_some hl
    -- a fresh child entry has nothing unspent in the parent, so nothing is thrown
    have hnothrow : (it.fresh && !itUs.coin.isSpent) = false := by
      cases hf : it.fresh
      · rfl
      · have hnone := hit.fresh_none hf
        rw [hshow] at hnone
        simpa [CCoinsCacheEntry.unspent] using hnone
    by_cases herase : (itUs.fresh && it.coin.isSpent) = true
    · simp only [Bool.and_eq_true] at herase
      refine ⟨_, by simp [hnothrow, herase], hp.erase outpoint, ?_⟩
      have hnone : it.unspent = none := by simp [CCoinsCacheEntry.unspent, herase.2]
      rw [overlay_erase, hnone, hus.fresh_none herase.1]
    · have hnew : EntryOk (G outpoint) { itUs with coin := it.coin, dirty := true } :=
        ⟨hus.fresh_none, (fun h => by cases h), hit.spent_empty⟩
      refine ⟨_, by simp [hnothrow, herase], hp.insert hnew, ?_⟩
      rw [overlay_insert]
      rfl

theorem CCoinsViewCache.batchWrite_spec {G : UtxoSet} {cache : CCoinsViewCache} {mapCoins : CCoinsMap}
    (hp : LayerOk G cache.cacheCoins) (hm : LayerOk (overlay CCoinsCacheEntry.unspent cache.cacheCoins G) mapCoins)
    (hashBlockIn : Uint256) :
    ∃ p, cache.batchWrite mapCoins hashBlockIn = .ok p ∧ LayerOk G p.cacheCoins ∧
      overlay CCoinsCacheEntry.unspent p.cacheCoins G =
        overlay CCoinsCacheEntry.unspent mapCoins (overlay CCoinsCacheEntry.unspent cache.cacheCoins G) := by
  obtain ⟨p, hfold, hpok, hview⟩ :=
    foldlM_update (fun p => overlay CCoinsCacheEntry.unspent p G) (LayerOk G) EntryOk batchWriteEntry
      (fun _ _ _ hp hit => batchWriteEntry_spec hp hit) mapCoins cache.cacheCoins hp hm
  exact ⟨⟨p, hashBlockIn⟩, by simp [CCoinsViewCache.batchWrite, hfold, bind, Except.bind, pure, Except.pure],
    hpok, hview⟩

/-- `Flush` of a cache writes what it shows into its base, which then shows it;
a base view that takes every best block takes this one, and still does. -/
theorem flushInto_spec {base : BaseView} {cache : CCoinsViewCache} {below : List CCoinsViewCache}
    (h : StackOk base (cache :: below)) (hacc : base.AcceptsAll) :
    ∃ base' below', flushInto base cache below = .ok (base', below') ∧ StackOk base' below' ∧
      viewOf base' below' = viewOf base (cache :: below) ∧ base'.AcceptsAll := by
  obtain ⟨hc, hbelow⟩ := h
  cases below with
  | nil =>
    obtain ⟨b', hw, hok, hcoins, hacc'⟩ := BaseView.batchWrite_spec hbelow (hacc cache.hashBlock) hc
    exact ⟨b', [], by simp [flushInto, hw, bind, Except.bind, pure, Except.pure], hok, hcoins, hacc' hacc⟩
  | cons parent rest =>
    obtain ⟨p, hp, hpok, hview⟩ := CCoinsViewCache.batchWrite_spec hbelow.1 hc cache.hashBlock
    refine ⟨base, p :: rest, by simp [flushInto, hp, bind, Except.bind, pure, Except.pure],
      ⟨hpok, hbelow.2⟩, hview, hacc⟩

theorem flushAt_spec (base : BaseView) (hacc : base.AcceptsAll) :
    ∀ (layers : List CCoinsViewCache) (i : Nat), StackOk base layers →
      ∃ base' layers', flushAt base layers i = .ok (base', layers') ∧ StackOk base' layers' ∧
        viewOf base' layers' = viewOf base layers ∧ base'.AcceptsAll
  | [], _, h => ⟨base, [], rfl, h, rfl, hacc⟩
  | cache :: below, 0, h => by
    obtain ⟨base', below', hf, hok, hview, hacc'⟩ := flushInto_spec h hacc
    refine ⟨base', { cache with cacheCoins := ∅ } :: below',
      by simp [flushAt, hf, bind, Except.bind, pure, Except.pure], ⟨layerOk_empty _, hok⟩, ?_, hacc'⟩
    simp only [viewOf, overlay_empty]
    exact hview
  | cache :: below, i + 1, ⟨hc, hbelow⟩ => by
    obtain ⟨base', below', hf, hok, hview, hacc'⟩ := flushAt_spec base hacc below i hbelow
    refine ⟨base', cache :: below', by simp [flushAt, hf, bind, Except.bind, pure, Except.pure],
      ⟨?_, hok⟩, ?_, hacc'⟩
    · rw [hview]
      exact hc
    · simp only [viewOf, hview]

theorem uncache_spec {V : UtxoSet} {cacheCoins : CCoinsMap} (hc : LayerOk V cacheCoins)
    (outpoint : COutPoint) :
    LayerOk V (uncache cacheCoins outpoint) ∧
      overlay CCoinsCacheEntry.unspent (uncache cacheCoins outpoint) V =
        overlay CCoinsCacheEntry.unspent cacheCoins V := by
  cases hl : cacheCoins.lookup outpoint with
  | none =>
    have hu : uncache cacheCoins outpoint = cacheCoins := by simp [uncache, hl]
    rw [hu]
    exact ⟨hc, rfl⟩
  | some it =>
    by_cases hflags : (!it.dirty && !it.fresh) = true
    · -- an entry with no flag shows what is below it
      simp only [Bool.and_eq_true, Bool.not_eq_true'] at hflags
      have hu : uncache cacheCoins outpoint = cacheCoins.erase outpoint := by simp [uncache, hl, hflags]
      have hshow : overlay CCoinsCacheEntry.unspent cacheCoins V outpoint = it.unspent :=
        overlay_of_lookup_some hl
      rw [hu]
      refine ⟨hc.erase outpoint, ?_⟩
      rw [overlay_erase, (hc outpoint it hl).clean_eq hflags.1, ← hshow, Function.update_eq_self]
    · have hu : uncache cacheCoins outpoint = cacheCoins := by simp [uncache, hl, hflags]
      rw [hu]
      exact ⟨hc, rfl⟩

theorem uncacheAt_spec (base : BaseView) (outpoint : COutPoint) :
    ∀ (layers : List CCoinsViewCache) (i : Nat), StackOk base layers →
      StackOk base (uncacheAt layers i outpoint) ∧ viewOf base (uncacheAt layers i outpoint) = viewOf base layers
  | [], _, h => ⟨h, rfl⟩
  | cache :: below, 0, ⟨hc, hbelow⟩ => by
    obtain ⟨hok, hview⟩ := uncache_spec hc outpoint
    exact ⟨⟨hok, hbelow⟩, hview⟩
  | cache :: below, i + 1, ⟨hc, hbelow⟩ => by
    obtain ⟨hok, hview⟩ := uncacheAt_spec base outpoint below i hbelow
    refine ⟨⟨hview ▸ hc, hok⟩, ?_⟩
    simp only [uncacheAt, viewOf, hview]

/-- Flushing every cache from the top down, into a base view that takes every
best block, leaves in it what the stack showed. -/
theorem flushAll_spec (base : BaseView) (hacc : base.AcceptsAll) :
    ∀ (below : List CCoinsViewCache) (cache : CCoinsViewCache), StackOk base (cache :: below) →
      ∃ base', flushAll base cache below = .ok base' ∧ base'.coins = viewOf base (cache :: below)
  | [], cache, ⟨hc, hb⟩ => by
    obtain ⟨b', hw, -, hcoins, -⟩ := BaseView.batchWrite_spec hb (hacc cache.hashBlock) hc
    exact ⟨b', hw, hcoins⟩
  | parent :: rest, cache, ⟨hc, hp, hrest⟩ => by
    obtain ⟨p, hwrite, hpok, hview⟩ := CCoinsViewCache.batchWrite_spec hp hc cache.hashBlock
    obtain ⟨base', hall, hcoins⟩ := flushAll_spec base hacc rest p ⟨hpok, hrest⟩
    refine ⟨base', by simp [flushAll, hwrite, hall, bind, Except.bind], ?_⟩
    rw [hcoins]
    exact hview

namespace CoinsStack

/-- `Flush` of the `i`-th cache from the top. -/
def flush (s : CoinsStack) : Nat → Except CoinsFault CoinsStack
  | 0 => do
    let (base, below) ← flushInto s.base s.top s.below
    pure ⟨base, { s.top with cacheCoins := ∅ }, below⟩
  | i + 1 => do
    let (base, below) ← flushAt s.base s.below i
    pure ⟨base, s.top, below⟩

/-- `Uncache` on the `i`-th cache from the top. -/
def uncache (s : CoinsStack) (i : Nat) (outpoint : COutPoint) : CoinsStack :=
  match i with
  | 0 => ⟨s.base, { s.top with cacheCoins := Ring.Coins.uncache s.top.cacheCoins outpoint }, s.below⟩
  | i + 1 => ⟨s.base, s.top, uncacheAt s.below i outpoint⟩

/-- A new cache over the stack. -/
def push (s : CoinsStack) : CoinsStack := ⟨s.base, newCache, s.top :: s.below⟩

/-- The top cache flushed and removed. The last cache is kept, empty, as if popped
and replaced by a new one. -/
def pop (s : CoinsStack) : Except CoinsFault CoinsStack := do
  let (base, below) ← flushInto s.base s.top s.below
  match below with
  | top :: below => pure ⟨base, top, below⟩
  | [] => pure ⟨base, newCache, []⟩

/-- Every cache flushed, from the top down. -/
def flushAll (s : CoinsStack) : Except CoinsFault BaseView := Ring.Coins.flushAll s.base s.top s.below

theorem flush_spec {s : CoinsStack} (hs : s.Ok) (hacc : s.base.AcceptsAll) (i : Nat) :
    ∃ s', s.flush i = .ok s' ∧ s'.Ok ∧ s'.view = s.view ∧ s'.base.AcceptsAll := by
  cases i with
  | zero =>
    obtain ⟨base', below', hf, hok, hview, hacc'⟩ := flushInto_spec hs hacc
    refine ⟨⟨base', { s.top with cacheCoins := ∅ }, below'⟩,
      by simp [flush, hf, bind, Except.bind, pure, Except.pure], ⟨layerOk_empty _, hok⟩, ?_, hacc'⟩
    simp only [view, layers, viewOf, overlay_empty]
    exact hview
  | succ i =>
    obtain ⟨hc, hbelow⟩ := hs
    obtain ⟨base', below', hf, hok, hview, hacc'⟩ := flushAt_spec s.base hacc s.below i hbelow
    refine ⟨⟨base', s.top, below'⟩, by simp [flush, hf, bind, Except.bind, pure, Except.pure],
      ⟨hview ▸ hc, hok⟩, ?_, hacc'⟩
    simp only [view, layers, viewOf, hview]

theorem uncache_spec {s : CoinsStack} (hs : s.Ok) (i : Nat) (outpoint : COutPoint) :
    (s.uncache i outpoint).Ok ∧ (s.uncache i outpoint).view = s.view := by
  obtain ⟨hc, hbelow⟩ := hs
  cases i with
  | zero =>
    obtain ⟨hok, hview⟩ := Ring.Coins.uncache_spec hc outpoint
    exact ⟨⟨hok, hbelow⟩, hview⟩
  | succ i =>
    obtain ⟨hok, hview⟩ := uncacheAt_spec s.base outpoint s.below i hbelow
    refine ⟨⟨hview ▸ hc, hok⟩, ?_⟩
    simp only [uncache, view, layers, viewOf, hview]

theorem push_spec {s : CoinsStack} (hs : s.Ok) : s.push.Ok ∧ s.push.view = s.view :=
  ⟨⟨layerOk_empty _, hs⟩, by simp [push, newCache, view, layers, viewOf]⟩

theorem pop_spec {s : CoinsStack} (hs : s.Ok) (hacc : s.base.AcceptsAll) :
    ∃ s', s.pop = .ok s' ∧ s'.Ok ∧ s'.view = s.view ∧ s'.base.AcceptsAll := by
  obtain ⟨base', below', hf, hok, hview, hacc'⟩ := flushInto_spec hs hacc
  cases below' with
  | nil =>
    refine ⟨⟨base', newCache, []⟩, by simp [pop, hf, bind, Except.bind, pure, Except.pure],
      ⟨layerOk_empty _, hok⟩, ?_, hacc'⟩
    simp only [view, layers, viewOf, newCache, overlay_empty]
    exact hview
  | cons top below =>
    exact ⟨⟨base', top, below⟩, by simp [pop, hf, bind, Except.bind, pure, Except.pure], hok, hview, hacc'⟩

theorem flushAll_spec {s : CoinsStack} (hs : s.Ok) (hacc : s.base.AcceptsAll) :
    ∃ base, s.flushAll = .ok base ∧ base.coins = s.view :=
  Ring.Coins.flushAll_spec s.base hacc s.below s.top hs

/-- The database refuses the flush of the last cache above it when that cache's
best block is null, as a new cache's is until something sets it. -/
theorem flush_db_null {s : CoinsStack} {v : CCoinsViewDB} (hbase : s.base = .db v) (hbelow : s.below = [])
    (hnull : s.top.hashBlock.isNull = true) :
    s.flush 0 = .error (.assertion "!hashBlock.IsNull()") := by
  simp [flush, flushInto, hbase, hbelow, BaseView.batchWrite, CCoinsViewDB.batchWrite, hnull,
    bind, Except.bind]

end CoinsStack

end Ring.Coins
