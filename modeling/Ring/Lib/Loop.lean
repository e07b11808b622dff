import Mathlib

/-!
# While loops with `continue` and `break`

A C++ `while (cond) { body }` whose body may fail (an assertion, an access out
of range), `continue`, or leave the loop (`break`, `return`) is `loopWhile`:
the body returns `LoopStep.next` to go round again and `LoopStep.done` to
leave. The loop is defined by well-founded recursion on a measure that every
`next` from a state where the condition holds makes smaller, which the
caller proves once (`hdec`).

`loopWhile_inv` is the rule for such a loop: an invariant that holds at the
start and that every run of the body from a state satisfying it and the
condition keeps, without failing, holds when the loop ends, and the loop
ends without failing. `foldl_range_inv` is the rule for a counted `for`
loop that cannot fail.

A loop over a container that keeps a running maximum (`x = max(x, …)`) never
lowers it, and each element raises it to at least that element's bound;
`le_foldl_of_mem` carries one element's bound to the end of the loop.
-/
namespace Ring.Lib

/-- How one run of a loop body ends. -/
inductive LoopStep (σ : Type) where
  /-- the end of the body, or `continue` -/
  | next (s : σ)
  /-- `break` or `return` -/
  | done (s : σ)

/-- The state a body run ends in. -/
def LoopStep.state {σ : Type} : LoopStep σ → σ
  | .next s => s
  | .done s => s

variable {σ ε μ : Type} [WellFoundedRelation μ]

-- `hc` and `hb` are read by the termination proof only
set_option linter.unusedVariables false in
/-- `while (cond(s)) { body }`, from state `s`; `f` is the measure every
`next` makes smaller. -/
def loopWhile (f : σ → μ) (cond : σ → Bool) (body : σ → Except ε (LoopStep σ))
    (hdec : ∀ s s', cond s = true → body s = .ok (.next s') → WellFoundedRelation.rel (f s') (f s))
    (s : σ) : Except ε σ :=
  if hc : cond s = true then
    match hb : body s with
    | .ok (.next s') => loopWhile f cond body hdec s'
    | .ok (.done s') => .ok s'
    | .error e => .error e
  else .ok s
termination_by f s
decreasing_by exact hdec s s' hc hb

variable (f : σ → μ) (cond : σ → Bool) (body : σ → Except ε (LoopStep σ))
  (hdec : ∀ s s', cond s = true → body s = .ok (.next s') → WellFoundedRelation.rel (f s') (f s))

/-- An invariant the body keeps, without failing, holds when the loop ends,
and the loop ends without failing. -/
theorem loopWhile_inv (I : σ → Prop)
    (hstep : ∀ s, I s → cond s = true → ∃ r, body s = .ok r ∧ I r.state) :
    ∀ s, I s → ∃ s', loopWhile f cond body hdec s = .ok s' ∧ I s' := by
  intro s hs
  induction s using (invImage f inferInstance).wf.induction with
  | h s ih =>
    rw [loopWhile]
    by_cases hc : cond s = true
    · obtain ⟨r, hb, hr⟩ := hstep s hs hc
      rw [dif_pos hc]
      split
      · next s' hb' =>
        rw [hb] at hb'
        cases hb'
        exact ih s' (hdec s s' hc hb) hr
      · next s' hb' =>
        rw [hb] at hb'
        cases hb'
        exact ⟨s', rfl, hr⟩
      · next e hb' =>
        rw [hb] at hb'
        cases hb'
    · rw [dif_neg hc]
      exact ⟨s, rfl, hs⟩

/-- The rule for a counted loop `for (i = 0; i < n; i++) s = body(s, i)`,
written `(List.range n).foldl body s`: an invariant indexed by the rounds
done holds after all `n` of them. -/
theorem foldl_range_inv {β : Type} (I : Nat → β → Prop) {body : β → Nat → β} {init : β} {n : Nat}
    (h0 : I 0 init) (hstep : ∀ j b, j < n → I j b → I (j + 1) (body b j)) :
    I n ((List.range n).foldl body init) := by
  induction n with
  | zero => exact h0
  | succ n ih =>
    rw [List.range_succ, List.foldl_append, List.foldl_cons, List.foldl_nil]
    exact hstep n _ (Nat.lt_succ_self n) (ih fun j b hj => hstep j b (by omega))

section RunningBound

variable {α β γ : Type} [Preorder γ] (step : β → α → β) (f : β → γ)

theorem le_foldl (hmono : ∀ b x, f b ≤ f (step b x)) :
    ∀ (l : List α) (b : β), f b ≤ f (l.foldl step b)
  | [], _ => le_rfl
  | x :: l, b => (hmono b x).trans (le_foldl hmono l (step b x))

/-- A loop that never lowers `f` and takes it to at least `g x` at each
element `x` satisfying `p` ends at least `g x` for each such element. -/
theorem le_foldl_of_mem (g : α → γ) (p : α → Prop) (hmono : ∀ b x, f b ≤ f (step b x))
    (hstep : ∀ b x, p x → g x ≤ f (step b x)) :
    ∀ (l : List α) (b : β) {x : α}, x ∈ l → p x → g x ≤ f (l.foldl step b)
  | y :: l, b, x, hx, hp => by
    rcases List.mem_cons.mp hx with rfl | hx
    · exact (hstep b x hp).trans (le_foldl step f hmono l (step b x))
    · exact le_foldl_of_mem g p hmono hstep l (step b y) hx hp

end RunningBound

end Ring.Lib
