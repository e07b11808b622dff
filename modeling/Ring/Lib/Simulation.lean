import Mathlib

/-!
# An implementation that refines a specification

An implementation is a fallible step function `step : σ → ι → Except ε σ`. A
specification is a relation `spec : α → ι → α → Prop` on abstract states, which
may leave part of a result open. `abs` reads an implementation state as an
abstract one. `SpecRun spec a is a'` is a run of the specification through the
inputs `is`, and `Admissible step pre s is` says that each input of `is` meets
its precondition in the state the implementation has reached before it.

`run_refines` is forward simulation: when every step from a state with the
invariant, on an admitted input, returns, keeps the invariant and is matched by
a step of the specification, every admissible run returns, keeps the invariant,
and is read as a run of the specification, one step for each input.

Read the other way, a run of a relation is a trace of the implementation,
and the rules in `SpecRun` carry a one-step fact to the whole trace: a state
property every step keeps (`SpecRun.invariant`), a property every step's
input has (`SpecRun.forall_mem`), a partial machine on a summary of the state
that every step follows (`SpecRun.foldlM_eq`), and a count that every input
of one kind raises (`SpecRun.add_countP_le`).
-/
namespace Ring.Lib

variable {σ α ι ε : Type}

/-- A run of the specification, one step for each input. -/
inductive SpecRun (spec : α → ι → α → Prop) : α → List ι → α → Prop
  | nil (a : α) : SpecRun spec a [] a
  | cons {a a' a'' : α} {i : ι} {is : List ι} :
      spec a i a' → SpecRun spec a' is a'' → SpecRun spec a (i :: is) a''

/-- Each input meets `pre` in the state the implementation reaches before it. -/
def Admissible (step : σ → ι → Except ε σ) (pre : σ → ι → Prop) : σ → List ι → Prop
  | _, [] => True
  | s, i :: is => pre s i ∧ ∀ s', step s i = .ok s' → Admissible step pre s' is

/-- Forward simulation, from one step to every admissible run. -/
theorem run_refines (step : σ → ι → Except ε σ) (spec : α → ι → α → Prop) (abs : σ → α)
    (Inv : σ → Prop) (pre : σ → ι → Prop)
    (hstep : ∀ s i, Inv s → pre s i → ∃ s', step s i = .ok s' ∧ Inv s' ∧ spec (abs s) i (abs s')) :
    ∀ (is : List ι) (s : σ), Inv s → Admissible step pre s is →
      ∃ s', is.foldlM step s = .ok s' ∧ Inv s' ∧ SpecRun spec (abs s) is (abs s')
  | [], s, hs, _ => ⟨s, rfl, hs, .nil _⟩
  | i :: is, s, hs, ⟨hpre, hadm⟩ => by
    obtain ⟨s₁, h₁, hs₁, hspec₁⟩ := hstep s i hs hpre
    obtain ⟨s', h', hs', hrun⟩ := run_refines step spec abs Inv pre hstep is s₁ hs₁ (hadm s₁ h₁)
    refine ⟨s', ?_, hs', .cons hspec₁ hrun⟩
    simp only [List.foldlM_cons, bind, Except.bind, h₁]
    exact h'

namespace SpecRun

variable {spec : α → ι → α → Prop} {a a' : α} {is : List ι}

theorem invariant (I : α → Prop) (hstep : ∀ a i a', spec a i a' → I a → I a')
    (h : SpecRun spec a is a') (ha : I a) : I a' := by
  induction h with
  | nil => exact ha
  | cons hs _ ih => exact ih (hstep _ _ _ hs ha)

theorem forall_mem (P : ι → Prop) (hstep : ∀ a i a', spec a i a' → P i)
    (h : SpecRun spec a is a') : ∀ i ∈ is, P i := by
  induction h with
  | nil => simp
  | cons hs _ ih =>
    intro i hi
    rcases List.mem_cons.mp hi with rfl | hi
    · exact hstep _ _ _ hs
    · exact ih i hi

/-- A run read through `abs` is a run of the partial machine `g`, when each
step is. -/
theorem foldlM_eq {β : Type} (g : β → ι → Option β) (abs : α → β)
    (hstep : ∀ a i a', spec a i a' → g (abs a) i = some (abs a'))
    (h : SpecRun spec a is a') : is.foldlM g (abs a) = some (abs a') := by
  induction h with
  | nil => rfl
  | cons hs _ ih => rw [List.foldlM_cons, hstep _ _ _ hs, Option.bind_eq_bind, Option.bind_some, ih]

/-- A count that never falls, and rises at every input satisfying `p`, rises
over a run by at least the number of such inputs. -/
theorem add_countP_le (count : α → Nat) (p : ι → Bool)
    (hstep : ∀ a i a', spec a i a' → count a + (if p i then 1 else 0) ≤ count a')
    (h : SpecRun spec a is a') : count a + is.countP p ≤ count a' := by
  induction h with
  | nil => simp
  | @cons a₀ a₁ _ i _ hs _ ih =>
    have h₁ := hstep _ _ _ hs
    rw [List.countP_cons]
    omega

end SpecRun

end Ring.Lib
