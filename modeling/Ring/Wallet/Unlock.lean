import Mathlib
import Ring.Lib.Trace

/-!
# Unlocking encrypted wallets, and unlocking them for hive mining only

An encrypted wallet is locked while its master key is not in memory
(`IsLocked`). `walletpassphrase` puts the key in memory for a while and
queues the timer `lockwallet(name)` that locks the wallet again;
`walletlock` locks it at once. Ring adds `walletpassphrasehiveonly`, which
puts the key in memory for good but sets the process-wide flag
`fWalletUnlockHiveMiningOnly`, so that the hive miner can sign its proofs
while every RPC that spends (`EnsureWalletIsUnlocked`) still refuses.
`walletpassphrase` on a wallet unlocked that way relocks it first and, once
the new passphrase is accepted, clears the flag and queues `sethiveonly(name)`
in place of the relock timer.

The node's state is every loaded wallet's lock state, the flag, and the
queued timers (`deadlineTimers`, by name: `RPCRunLater` replaces a timer of
the same name). Requests are the three calls and a queued timer firing,
in any order (`step`, run by `Lib.runEvents`). A call that throws keeps
what it did before the throw. The passphrase check itself
(`CWallet::Unlock` decrypting a master key) is the parameter `unlock`.
Wallets are never unloaded here, so a timer's wallet is always there.

Results:
* `run_hiveOnly_kept`, `run_locked_kept`, `ensureWalletIsUnlocked_run`: the
  flag is cleared only by a `walletpassphrase` that succeeds, a locked wallet
  is unlocked only by an unlock call on it that succeeds, and so a wallet
  that `EnsureWalletIsUnlocked` refuses is accepted later only after some
  `walletpassphrase` succeeded, on whichever wallet.
* `hiveonly_widened_by_other_wallet`: since the flag is one for all wallets,
  a `walletpassphrase` on another wallet ends the hive-only restriction of a
  wallet unlocked with `walletpassphrasehiveonly`.
* `walletpassphrase_error_state`, `walletpassphrase_failure_relocks`: a
  `walletpassphrase` that throws leaves the node as it was, except on a
  wallet unlocked for hive mining only, which it leaves locked.
-/
namespace Ring.Wallet

open Ring.Lib

/-- The codes the unlock calls throw with (`RPCErrorCode`); a
`std::runtime_error` reaches the caller as `RPC_MISC_ERROR`.
mirrors src/rpc/protocol.h:48-82 -/
inductive RPCErrorCode where
  | RPC_MISC_ERROR
  | RPC_INVALID_PARAMETER
  | RPC_WALLET_UNLOCK_NEEDED
  | RPC_WALLET_PASSPHRASE_INCORRECT
  | RPC_WALLET_WRONG_ENC_STATE
  deriving DecidableEq, Repr

/-- `JSONRPCError(code, message)`. -/
structure JSONRPCError where
  code : RPCErrorCode
  message : String
  deriving DecidableEq, Repr

/-- A wallet's lock state: `IsCrypted()`, whether `vMasterKey` holds the
decrypted master key, and `nRelockTime`. -/
structure CWallet where
  fUseCrypto : Bool
  fMasterKey : Bool
  nRelockTime : Int
  deriving DecidableEq, Repr

namespace CWallet

/-- `CCryptoKeyStore::IsLocked`.
mirrors src/wallet/crypter.cpp:155-162 -/
def isLocked (c : CWallet) : Bool := c.fUseCrypto && !c.fMasterKey

/-- `CCryptoKeyStore::Lock` on an encrypted wallet (every caller here has
checked `IsCrypted`): `vMasterKey.clear()`.
mirrors src/wallet/crypter.cpp:164-176 -/
def lock (c : CWallet) : CWallet := { c with fMasterKey := false }

/-- What `CWallet::Unlock` does when the passphrase is accepted: the master
key is in memory. -/
def unlocked (c : CWallet) : CWallet := { c with fMasterKey := true }

@[simp] theorem isLocked_lock (c : CWallet) : c.lock.isLocked = c.fUseCrypto := by
  simp [isLocked, lock]

@[simp] theorem isLocked_unlocked (c : CWallet) : c.unlocked.isLocked = false := by
  simp [isLocked, unlocked]

@[simp] theorem fUseCrypto_lock (c : CWallet) : c.lock.fUseCrypto = c.fUseCrypto := rfl

@[simp] theorem fUseCrypto_unlocked (c : CWallet) : c.unlocked.fUseCrypto = c.fUseCrypto := rfl

end CWallet

/-- The timers `walletpassphrase` queues, by name (`lockwallet(name)`,
`sethiveonly(name)`). -/
inductive RPCTimer (W : Type) where
  | lockwallet (w : W)
  | sethiveonly (w : W)
  deriving DecidableEq, Repr

/-- The loaded wallets, `fWalletUnlockHiveMiningOnly`, and the queued timers
(`deadlineTimers`). -/
structure WalletNode (W : Type) where
  wallets : W → CWallet
  fWalletUnlockHiveMiningOnly : Bool
  deadlineTimers : List (RPCTimer W)

variable {W : Type}

/-- `EnsureWalletIsUnlocked`: what every RPC that uses private keys checks
first.
mirrors src/wallet/rpcwallet.cpp:100-108 -/
def ensureWalletIsUnlocked (s : WalletNode W) (w : W) : Except JSONRPCError Unit :=
  if (s.wallets w).isLocked then
    .error ⟨.RPC_WALLET_UNLOCK_NEEDED, "Error: Please enter the wallet passphrase with walletpassphrase first."⟩
  else if s.fWalletUnlockHiveMiningOnly then
    .error ⟨.RPC_WALLET_UNLOCK_NEEDED,
      "Error: Wallet is unlocked for hive mining only, please enter the wallet passphrase with walletpassphrase first."⟩
  else .ok ()

theorem ensureWalletIsUnlocked_ok_iff (s : WalletNode W) (w : W) :
    ensureWalletIsUnlocked s w = .ok () ↔
      (s.wallets w).isLocked = false ∧ s.fWalletUnlockHiveMiningOnly = false := by
  unfold ensureWalletIsUnlocked
  split_ifs <;> simp_all

variable [DecidableEq W]

namespace WalletNode

/-- The node with wallet `w`'s lock state replaced. -/
def setWallet (s : WalletNode W) (w : W) (c : CWallet) : WalletNode W :=
  { s with wallets := Function.update s.wallets w c }

/-- `RPCRunLater(name, ...)`: any timer of that name is cancelled and the
new one queued.
mirrors src/rpc/server.cpp:613-620 -/
def rpcRunLater (s : WalletNode W) (t : RPCTimer W) : WalletNode W :=
  { s with deadlineTimers := t :: s.deadlineTimers.erase t }

@[simp] theorem setWallet_wallets_self (s : WalletNode W) (w : W) (c : CWallet) :
    (s.setWallet w c).wallets w = c := by
  simp [setWallet]

@[simp] theorem setWallet_wallets_ne (s : WalletNode W) {w v : W} (c : CWallet) (h : v ≠ w) :
    (s.setWallet w c).wallets v = s.wallets v := by
  simp [setWallet, h]

@[simp] theorem setWallet_flag (s : WalletNode W) (w : W) (c : CWallet) :
    (s.setWallet w c).fWalletUnlockHiveMiningOnly = s.fWalletUnlockHiveMiningOnly := rfl

@[simp] theorem rpcRunLater_wallets (s : WalletNode W) (t : RPCTimer W) :
    (s.rpcRunLater t).wallets = s.wallets := rfl

@[simp] theorem rpcRunLater_flag (s : WalletNode W) (t : RPCTimer W) :
    (s.rpcRunLater t).fWalletUnlockHiveMiningOnly = s.fWalletUnlockHiveMiningOnly := rfl

end WalletNode

/-- `MAX_SLEEP_TIME`: the longest timeout `walletpassphrase` keeps. -/
def MAX_SLEEP_TIME : Int := 100000000

section Calls

variable (unlock : W → String → Bool)

/-- `walletpassphrase(passphrase, timeout)` on wallet `w` at time `now`: the
node after the call, and whether it threw. A wallet unlocked for hive mining
only is locked before the passphrase is checked.
mirrors src/wallet/rpcwallet.cpp:2470-2535 -/
def walletpassphrase (now : Int) (w : W) (strWalletPass : String) (nSleepTime : Int)
    (s : WalletNode W) : WalletNode W × Except JSONRPCError Unit :=
  let pwallet := s.wallets w
  if !pwallet.fUseCrypto then
    (s, .error ⟨.RPC_WALLET_WRONG_ENC_STATE,
      "Error: running with an unencrypted wallet, but walletpassphrase was called."⟩)
  else if nSleepTime < 0 then (s, .error ⟨.RPC_INVALID_PARAMETER, "Timeout cannot be negative."⟩)
  else
    let nSleepTime := min nSleepTime MAX_SLEEP_TIME
    let wasUnLockedHiveOnly := !pwallet.isLocked && s.fWalletUnlockHiveMiningOnly
    let s := if wasUnLockedHiveOnly then s.setWallet w pwallet.lock else s
    if strWalletPass = "" then (s, .error ⟨.RPC_INVALID_PARAMETER, "passphrase can not be empty"⟩)
    else if !unlock w strWalletPass then
      (s, .error ⟨.RPC_WALLET_PASSPHRASE_INCORRECT, "Error: The wallet passphrase entered was incorrect."⟩)
    else
      let s := { s.setWallet w pwallet.unlocked with fWalletUnlockHiveMiningOnly := false }
      if !wasUnLockedHiveOnly then
        ((s.setWallet w { pwallet.unlocked with nRelockTime := now + nSleepTime }).rpcRunLater
          (.lockwallet w), .ok ())
      else (s.rpcRunLater (.sethiveonly w), .ok ())

/-- `walletpassphrasehiveonly(passphrase)` on wallet `w`.
mirrors src/wallet/rpcwallet.cpp:2538-2594 -/
def walletpassphrasehiveonly (w : W) (strWalletPass : String) (s : WalletNode W) :
    WalletNode W × Except JSONRPCError Unit :=
  let pwallet := s.wallets w
  if !pwallet.fUseCrypto then
    (s, .error ⟨.RPC_WALLET_WRONG_ENC_STATE,
      "Error: running with an unencrypted wallet, but walletpassphrasehiveonly was called."⟩)
  else if strWalletPass.length > 0 then
    if !unlock w strWalletPass then
      (s, .error ⟨.RPC_WALLET_PASSPHRASE_INCORRECT, "Error: The wallet passphrase entered was incorrect."⟩)
    else ({ s.setWallet w pwallet.unlocked with fWalletUnlockHiveMiningOnly := true }, .ok ())
  else
    (s, .error ⟨.RPC_MISC_ERROR,
      "walletpassphrasehiveonly <passphrase>\nStores the wallet decryption key in memory indefinitely for hive mining use only."⟩)

/-- `walletlock()` on wallet `w`.
mirrors src/wallet/rpcwallet.cpp:2650-2689 -/
def walletlock (w : W) (s : WalletNode W) : WalletNode W × Except JSONRPCError Unit :=
  if !(s.wallets w).fUseCrypto then
    (s, .error ⟨.RPC_WALLET_WRONG_ENC_STATE, "Error: running with an unencrypted wallet, but walletlock was called."⟩)
  else (s.setWallet w { (s.wallets w).lock with nRelockTime := 0 }, .ok ())

/-- A queued timer fires: it leaves the queue and runs its callback
(`lockwallet`: `Lock()`, `nRelockTime = 0`; `sethiveonly`: the flag is set
again). A timer that is not queued does nothing.
mirrors src/wallet/rpcwallet.cpp:2519-2532 -/
def fireTimer (t : RPCTimer W) (s : WalletNode W) : WalletNode W :=
  if t ∈ s.deadlineTimers then
    let s := { s with deadlineTimers := s.deadlineTimers.erase t }
    match t with
    | .lockwallet w => s.setWallet w { (s.wallets w).lock with nRelockTime := 0 }
    | .sethiveonly _ => { s with fWalletUnlockHiveMiningOnly := true }
  else s

/-- A request to the node. -/
inductive Event (W : Type) where
  | walletpassphrase (w : W) (strWalletPass : String) (nSleepTime now : Int)
  | walletpassphrasehiveonly (w : W) (strWalletPass : String)
  | walletlock (w : W)
  | fire (t : RPCTimer W)
  deriving DecidableEq, Repr

/-- One request: the node after it, and the call's outcome. -/
def step (s : WalletNode W) : Event W → WalletNode W × Except JSONRPCError Unit
  | .walletpassphrase w strWalletPass nSleepTime now => walletpassphrase unlock now w strWalletPass nSleepTime s
  | .walletpassphrasehiveonly w strWalletPass => walletpassphrasehiveonly unlock w strWalletPass s
  | .walletlock w => walletlock w s
  | .fire t => (fireTimer t s, .ok ())

/-- A `walletpassphrase` call, on any wallet. -/
def Event.isWalletpassphrase : Event W → Bool
  | .walletpassphrase .. => true
  | _ => false

/-- An unlock call (`walletpassphrase` or `walletpassphrasehiveonly`) on wallet `w`. -/
def Event.unlocks (w : W) : Event W → Bool
  | .walletpassphrase v .. => v = w
  | .walletpassphrasehiveonly v _ => v = w
  | _ => false

/-! ## What each request can do -/

section Spec

variable {unlock} {now nSleepTime : Int} {w : W} {strWalletPass : String} {s : WalletNode W}

theorem walletpassphrase_ok_iff :
    (walletpassphrase unlock now w strWalletPass nSleepTime s).2 = .ok () ↔
      (s.wallets w).fUseCrypto = true ∧ 0 ≤ nSleepTime ∧ strWalletPass ≠ "" ∧ unlock w strWalletPass = true := by
  simp only [walletpassphrase]
  split_ifs <;> simp_all

/-- A `walletpassphrase` that throws leaves the node as it was, except that a
wallet unlocked for hive mining only is left locked. -/
theorem walletpassphrase_error_state (h : (walletpassphrase unlock now w strWalletPass nSleepTime s).2 ≠ .ok ()) :
    (walletpassphrase unlock now w strWalletPass nSleepTime s).1 =
      if (s.wallets w).fUseCrypto = true ∧ 0 ≤ nSleepTime ∧ (s.wallets w).isLocked = false ∧
          s.fWalletUnlockHiveMiningOnly = true then s.setWallet w (s.wallets w).lock
      else s := by
  simp only [walletpassphrase] at h ⊢
  split_ifs at h ⊢ <;> simp_all
  -- left: a negative timeout, which throws before the relock, against `0 ≤ nSleepTime`
  omega

/-- After a `walletpassphrase` that succeeds the wallet is unlocked and the
hive-only flag is cleared. -/
theorem walletpassphrase_ok_state (h : (walletpassphrase unlock now w strWalletPass nSleepTime s).2 = .ok ()) :
    ((walletpassphrase unlock now w strWalletPass nSleepTime s).1.wallets w).isLocked = false ∧
      (walletpassphrase unlock now w strWalletPass nSleepTime s).1.fWalletUnlockHiveMiningOnly = false := by
  simp only [walletpassphrase] at h ⊢
  split_ifs at h ⊢ <;> simp_all [CWallet.isLocked, CWallet.unlocked]

theorem walletpassphrase_wallets_ne {v : W} (hv : v ≠ w) :
    (walletpassphrase unlock now w strWalletPass nSleepTime s).1.wallets v = s.wallets v := by
  simp only [walletpassphrase]
  split_ifs <;> simp [hv]

theorem walletpassphrasehiveonly_cases (unlock : W → String → Bool) (w : W) (strWalletPass : String)
    (s : WalletNode W) :
    (∃ err, walletpassphrasehiveonly unlock w strWalletPass s = (s, .error err)) ∨
      walletpassphrasehiveonly unlock w strWalletPass s =
        ({ s.setWallet w (s.wallets w).unlocked with fWalletUnlockHiveMiningOnly := true }, .ok ()) := by
  simp only [walletpassphrasehiveonly]
  split_ifs <;> simp

theorem walletlock_cases (w : W) (s : WalletNode W) :
    (∃ err, walletlock w s = (s, .error err)) ∨
      walletlock w s = (s.setWallet w { (s.wallets w).lock with nRelockTime := 0 }, .ok ()) := by
  unfold walletlock
  split_ifs <;> simp

/-- A timer never unlocks a wallet. -/
theorem isLocked_fireTimer (t : RPCTimer W) {v : W} (hv : (s.wallets v).isLocked = true) :
    ((fireTimer t s).wallets v).isLocked = true := by
  simp only [fireTimer]
  split_ifs
  · cases t with
    | lockwallet w =>
      by_cases hvw : v = w
      · subst hvw
        simp_all [CWallet.isLocked, CWallet.lock]
      · simp [hvw, hv]
    | sethiveonly w => exact hv
  · exact hv

/-- A timer never clears the hive-only flag. -/
theorem flag_fireTimer (t : RPCTimer W) (h : s.fWalletUnlockHiveMiningOnly = true) :
    (fireTimer t s).fWalletUnlockHiveMiningOnly = true := by
  simp only [fireTimer]
  split_ifs
  · cases t <;> simp [h]
  · exact h

end Spec

/-! ## Runs -/

section Runs

variable {unlock}

/-- One request keeps the hive-only flag set unless it is a `walletpassphrase`
that succeeds. -/
theorem step_hiveOnly_kept (s : WalletNode W) (e : Event W) (h : s.fWalletUnlockHiveMiningOnly = true)
    (he : ¬ (e.isWalletpassphrase = true ∧ (step unlock s e).2 = .ok ())) :
    (step unlock s e).1.fWalletUnlockHiveMiningOnly = true := by
  cases e with
  | walletpassphrase w strWalletPass nSleepTime now =>
    have herr : (walletpassphrase unlock now w strWalletPass nSleepTime s).2 ≠ .ok () :=
      fun hok => he ⟨rfl, hok⟩
    simp only [step]
    rw [walletpassphrase_error_state herr]
    split_ifs <;> simp [h]
  | walletpassphrasehiveonly w strWalletPass =>
    rcases walletpassphrasehiveonly_cases unlock w strWalletPass s with ⟨err, hc⟩ | hc <;> simp [step, hc, h]
  | walletlock w => rcases walletlock_cases w s with ⟨err, hc⟩ | hc <;> simp [step, hc, h]
  | fire t => exact flag_fireTimer t h

/-- One request keeps wallet `v` locked unless it is an unlock call on `v`
that succeeds. -/
theorem step_locked_kept (s : WalletNode W) (e : Event W) {v : W} (h : (s.wallets v).isLocked = true)
    (he : ¬ (e.unlocks v = true ∧ (step unlock s e).2 = .ok ())) :
    ((step unlock s e).1.wallets v).isLocked = true := by
  have hcrypt : (s.wallets v).fUseCrypto = true := by
    simp only [CWallet.isLocked, Bool.and_eq_true] at h
    exact h.1
  cases e with
  | walletpassphrase w strWalletPass nSleepTime now =>
    by_cases hvw : v = w
    · subst hvw
      have herr : (walletpassphrase unlock now v strWalletPass nSleepTime s).2 ≠ .ok () :=
        fun hok => he ⟨by simp [Event.unlocks], hok⟩
      simp only [step]
      rw [walletpassphrase_error_state herr]
      split_ifs <;> simp [h, hcrypt]
    · simp [step, walletpassphrase_wallets_ne hvw, h]
  | walletpassphrasehiveonly w strWalletPass =>
    rcases walletpassphrasehiveonly_cases unlock w strWalletPass s with ⟨err, hc⟩ | hc
    · simp [step, hc, h]
    · have hvw : v ≠ w := by
        rintro rfl
        exact he ⟨by simp [Event.unlocks], by simp [step, hc]⟩
      simp [step, hc, WalletNode.setWallet, hvw, h]
  | walletlock w =>
    rcases walletlock_cases w s with ⟨err, hc⟩ | hc
    · simp [step, hc, h]
    · by_cases hvw : v = w
      · subst hvw
        simp [step, hc, CWallet.isLocked, CWallet.lock, hcrypt]
      · simp [step, hc, hvw, h]
  | fire t => exact isLocked_fireTimer t h

/-- The hive-only flag, once set, stays set until a `walletpassphrase` (on
any wallet) succeeds. -/
theorem run_hiveOnly_kept (s : WalletNode W) (es : List (Event W)) (h : s.fWalletUnlockHiveMiningOnly = true)
    (hend : (runEvents (step unlock) s es).fWalletUnlockHiveMiningOnly = false) :
    ∃ pre e post, es = pre ++ e :: post ∧ e.isWalletpassphrase = true ∧
      (step unlock (runEvents (step unlock) s pre) e).2 = .ok () := by
  obtain ⟨pre, e, post, hes, -, he⟩ :=
    exists_break_of_run (step unlock) (fun s => s.fWalletUnlockHiveMiningOnly = true)
      (fun s e => e.isWalletpassphrase = true ∧ (step unlock s e).2 = .ok ()) step_hiveOnly_kept es s h
      (by simp [hend])
  exact ⟨pre, e, post, hes, he⟩

/-- A locked wallet stays locked until an unlock call on it succeeds. -/
theorem run_locked_kept (s : WalletNode W) (es : List (Event W)) {v : W} (h : (s.wallets v).isLocked = true)
    (hend : ((runEvents (step unlock) s es).wallets v).isLocked = false) :
    ∃ pre e post, es = pre ++ e :: post ∧ e.unlocks v = true ∧
      (step unlock (runEvents (step unlock) s pre) e).2 = .ok () := by
  obtain ⟨pre, e, post, hes, -, he⟩ :=
    exists_break_of_run (step unlock) (fun s => (s.wallets v).isLocked = true)
      (fun s e => e.unlocks v = true ∧ (step unlock s e).2 = .ok ())
      (fun s e hs he => step_locked_kept s e hs he) es s h (by simp [hend])
  exact ⟨pre, e, post, hes, he⟩

/-- A wallet that `EnsureWalletIsUnlocked` refuses is accepted at the end of
a run only if some `walletpassphrase`, on whichever wallet, succeeded in it:
a refusal for a locked wallet ends with an unlock call on it, and one made
with `walletpassphrasehiveonly` leaves the flag set until a `walletpassphrase`
clears it. -/
theorem ensureWalletIsUnlocked_run (s : WalletNode W) (es : List (Event W)) {v : W}
    (hbefore : ensureWalletIsUnlocked s v ≠ .ok ())
    (hafter : ensureWalletIsUnlocked (runEvents (step unlock) s es) v = .ok ()) :
    ∃ pre e post, es = pre ++ e :: post ∧ e.isWalletpassphrase = true ∧
      (step unlock (runEvents (step unlock) s pre) e).2 = .ok () := by
  rw [Ne, ensureWalletIsUnlocked_ok_iff] at hbefore
  rw [ensureWalletIsUnlocked_ok_iff] at hafter
  obtain ⟨hunlocked, hflag⟩ := hafter
  by_cases hhive : s.fWalletUnlockHiveMiningOnly = true
  · exact run_hiveOnly_kept s es hhive hflag
  have hlocked : (s.wallets v).isLocked = true := by
    simpa [hhive] using hbefore
  obtain ⟨pre, e, post, rfl, hv, hok⟩ := run_locked_kept s es hlocked hunlocked
  cases e with
  | walletpassphrase w strWalletPass nSleepTime now => exact ⟨pre, _, post, rfl, rfl, hok⟩
  | walletpassphrasehiveonly w strWalletPass =>
    -- the hive-only unlock set the flag, and the run ends with it cleared
    generalize hmid : runEvents (step unlock) s pre = mid at hok
    have hset : (step unlock mid (.walletpassphrasehiveonly w strWalletPass)).1.fWalletUnlockHiveMiningOnly = true := by
      rcases walletpassphrasehiveonly_cases unlock w strWalletPass mid with ⟨err, hc⟩ | hc <;> simp_all [step]
    rw [runEvents_append, runEvents_cons, hmid] at hflag
    obtain ⟨pre', e', post', rfl, he', hok'⟩ := run_hiveOnly_kept _ post hset hflag
    refine ⟨pre ++ .walletpassphrasehiveonly w strWalletPass :: pre', e', post', by simp, he', ?_⟩
    rwa [runEvents_append, runEvents_cons, hmid]
  | walletlock w => simp [Event.unlocks] at hv
  | fire t => simp [Event.unlocks] at hv

/-- One encrypted, locked wallet. -/
def lockedWallet : WalletNode Unit :=
  ⟨fun _ => ⟨true, false, 0⟩, false, []⟩

theorem ensureWalletIsUnlocked_run_unlock :
    ensureWalletIsUnlocked lockedWallet () ≠ .ok () ∧
      ensureWalletIsUnlocked (runEvents (step fun _ p => p = "alpha") lockedWallet
        [.walletpassphrase () "alpha" 60 0]) () = .ok () ∧
      ∃ pre e post, [Event.walletpassphrase () "alpha" 60 0] = pre ++ e :: post ∧ e.isWalletpassphrase = true ∧
        (step (fun _ p => p = "alpha") (runEvents (step fun _ p => p = "alpha") lockedWallet pre) e).2 = .ok () :=
  ⟨by decide, by decide, @ensureWalletIsUnlocked_run _ _ _ lockedWallet _ () (by decide) (by decide)⟩

end Runs

/-! ## The hive-only flag is one for all wallets -/

section HiveOnly

variable {unlock}

/-- Wallet `A` is unlocked with `walletpassphrasehiveonly`, so
`EnsureWalletIsUnlocked(A)` refuses; a `walletpassphrase` on another wallet
`B` then clears the process-wide flag, and `EnsureWalletIsUnlocked(A)`
passes, though no call on `A` unlocked it fully. -/
theorem hiveonly_widened_by_other_wallet (s : WalletNode W) {A B : W} (hAB : A ≠ B)
    (hA : (s.wallets A).fUseCrypto = true) (hB : (s.wallets B).fUseCrypto = true)
    {passA passB : String} (hpassA : passA ≠ "") (hunlockA : unlock A passA = true)
    (hpassB : passB ≠ "") (hunlockB : unlock B passB = true) {nSleepTime : Int} (hsleep : 0 ≤ nSleepTime)
    (now : Int) :
    (walletpassphrasehiveonly unlock A passA s).2 = .ok () ∧
      ensureWalletIsUnlocked (walletpassphrasehiveonly unlock A passA s).1 A ≠ .ok () ∧
      (walletpassphrase unlock now B passB nSleepTime (walletpassphrasehiveonly unlock A passA s).1).2 = .ok () ∧
      ensureWalletIsUnlocked
        (walletpassphrase unlock now B passB nSleepTime (walletpassphrasehiveonly unlock A passA s).1).1 A = .ok () := by
  have hA₁ : walletpassphrasehiveonly unlock A passA s =
      ({ s.setWallet A (s.wallets A).unlocked with fWalletUnlockHiveMiningOnly := true }, .ok ()) := by
    simp [walletpassphrasehiveonly, hA, hunlockA, Nat.pos_iff_ne_zero, hpassA]
  have hokB : (walletpassphrase unlock now B passB nSleepTime (walletpassphrasehiveonly unlock A passA s).1).2 =
      .ok () := by
    rw [walletpassphrase_ok_iff, hA₁]
    exact ⟨by simp [WalletNode.setWallet, Ne.symm hAB, hB], hsleep, hpassB, hunlockB⟩
  obtain ⟨-, hflag⟩ := walletpassphrase_ok_state hokB
  refine ⟨by rw [hA₁], ?_, hokB, ?_⟩
  · rw [hA₁, Ne, ensureWalletIsUnlocked_ok_iff]
    simp
  · rw [ensureWalletIsUnlocked_ok_iff, walletpassphrase_wallets_ne hAB]
    refine ⟨?_, hflag⟩
    rw [hA₁]
    simp

/-- Two wallets, both encrypted and locked. -/
def twoWallets : WalletNode Bool :=
  ⟨fun _ => ⟨true, false, 0⟩, false, []⟩

/-- Each of the two wallets opens with its own passphrase. -/
def twoPassphrases (w : Bool) (strWalletPass : String) : Bool :=
  if w then strWalletPass = "bravo" else strWalletPass = "alpha"

theorem hiveonly_widened_by_other_wallet_two :
    (walletpassphrasehiveonly twoPassphrases false "alpha" twoWallets).2 = .ok () ∧
      ensureWalletIsUnlocked (walletpassphrasehiveonly twoPassphrases false "alpha" twoWallets).1 false ≠ .ok () ∧
      (walletpassphrase twoPassphrases 0 true "bravo" 60
        (walletpassphrasehiveonly twoPassphrases false "alpha" twoWallets).1).2 = .ok () ∧
      ensureWalletIsUnlocked (walletpassphrase twoPassphrases 0 true "bravo" 60
        (walletpassphrasehiveonly twoPassphrases false "alpha" twoWallets).1).1 false = .ok () :=
  hiveonly_widened_by_other_wallet twoWallets (by decide) rfl rfl (by decide) (by decide) (by decide) (by decide)
    (by decide) 0

end HiveOnly

/-! ## A failed `walletpassphrase` relocks a hive-only wallet -/

section Failure

variable {unlock}

/-- On a wallet unlocked for hive mining only, a `walletpassphrase` with an
empty or a wrong passphrase throws, and leaves the wallet locked: hive mining
stops. -/
theorem walletpassphrase_failure_relocks (now : Int) (s : WalletNode W) {w : W} {strWalletPass : String}
    {nSleepTime : Int} (hcrypt : (s.wallets w).fUseCrypto = true) (hunlocked : (s.wallets w).isLocked = false)
    (hhive : s.fWalletUnlockHiveMiningOnly = true) (hsleep : 0 ≤ nSleepTime)
    (hbad : strWalletPass = "" ∨ unlock w strWalletPass = false) :
    (walletpassphrase unlock now w strWalletPass nSleepTime s).2 ≠ .ok () ∧
      ((walletpassphrase unlock now w strWalletPass nSleepTime s).1.wallets w).isLocked = true := by
  have herr : (walletpassphrase unlock now w strWalletPass nSleepTime s).2 ≠ .ok () := by
    rw [Ne, walletpassphrase_ok_iff]
    rintro ⟨-, -, hpass, hok⟩
    rcases hbad with h | h
    · exact hpass h
    · simp [h] at hok
  refine ⟨herr, ?_⟩
  rw [walletpassphrase_error_state herr, if_pos ⟨hcrypt, hsleep, hunlocked, hhive⟩]
  simp [hcrypt]

/-- One wallet, encrypted and unlocked for hive mining only. -/
def hiveOnlyWallet : WalletNode Unit :=
  ⟨fun _ => ⟨true, true, 0⟩, true, []⟩

theorem walletpassphrase_failure_relocks_empty :
    (walletpassphrase (fun _ p => p = "alpha") 0 () "" 60 hiveOnlyWallet).2 ≠ .ok () ∧
      ((walletpassphrase (fun _ p => p = "alpha") 0 () "" 60 hiveOnlyWallet).1.wallets ()).isLocked = true :=
  walletpassphrase_failure_relocks 0 hiveOnlyWallet rfl rfl rfl (by decide) (Or.inl rfl)

end Failure

end Calls

end Ring.Wallet
