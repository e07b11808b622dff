import Ring.Lib.StdMap
import Ring.Lib.Guarded
import Ring.Lib.Bytes
import Ring.Lib.Word
import Ring.Arith.Uint256
import Ring.Arith.Compact
import Ring.Script.Script
import Ring.Chain.Block
import Ring.Chain.BlockIndex
import Ring.Chain.Pow
import Ring.Chain.Work
import Ring.Chain.Retarget
import Ring.Node.TxVerify
import Ring.Node.State
import Ring.Hive.Proof
import Ring.Pop.Game0
import Ring.Pop.Proof
import Ring.Pop.Score
import Ring.Pop.Play
import Ring.Pop.Submit
import Ring.Node.Validation
import Ring.Node.Chainwork
import Ring.Node.ProofSafety
import Ring.Hive.Miner
import Ring.Hive.DwarfCount
import Ring.Hive.CoinsView
import Ring.Pop.Claims
import Ring.Hive.Binning
import Ring.Hive.Gating
import Ring.Pop.Games
import Ring.Addr.Bech32
import Ring.Addr.KeyIO
import Ring.Chain.Merkle
import Ring.Lib.Wire
import Ring.Chain.Serialize
import Ring.Lib.Dfs
import Ring.Pop.Rooms
import Ring.Coins.Cache
import Ring.Coins.Run
import Ring.Coins.Undo
import Ring.Chain.VarInt
import Ring.Script.Num
import Ring.Script.GetOp
import Ring.Node.MerkleBlock
import Ring.Node.Mining
import Ring.Script.Standard
import Ring.Lib.Trace
import Ring.Node.Policy
import Ring.Wallet.Unlock
import Ring.Lib.Loop
import Ring.Node.Assembler
import Ring.Node.Template
import Ring.Arith.BaseUint
import Ring.Chain.Skip
import Ring.Lib.Relax
import Ring.Addr.Base58
import Ring.Pop.Bounds
import Ring.Lib.Simulation
import Ring.Lib.Slots
import Ring.Prevector.Model
import Ring.Prevector.Inv
import Ring.Prevector.Ops
import Ring.Prevector.Vector
import Ring.Script.Interpreter
import Ring.Script.Verify
import Ring.Script.SoftFork
import Ring.Lib.Greedy
import Ring.Script.Multisig
import Ring.Script.Run
import Ring.Script.Control
import Ring.Node.LockTime
