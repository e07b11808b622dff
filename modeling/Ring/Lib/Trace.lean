import Mathlib

/-!
# Runs of a service that answers each request

A service that takes requests one at a time is a step function
`step : σ → ε → σ × ρ`: the state after the request and the answer it gives
(an error answer does not roll the state back). `runEvents` runs it over a
sequence of requests.

A safety fact of such a service often says that a property of the state can
only be lost at requests of one kind (a call that succeeds, a call on one
object). `exists_break_of_run` turns the one-step form of that fact into the
run form: a run that starts with the property and ends without it has such a
request in it, made in a state that still had the property.
-/
namespace Ring.Lib

variable {σ ε ρ : Type} (step : σ → ε → σ × ρ)

/-- The state after each request of `es` in turn; the answers are dropped. -/
def runEvents (s : σ) (es : List ε) : σ :=
  es.foldl (fun s e => (step s e).1) s

@[simp] theorem runEvents_cons (s : σ) (e : ε) (es : List ε) :
    runEvents step s (e :: es) = runEvents step (step s e).1 es := rfl

theorem runEvents_append (s : σ) (es es' : List ε) :
    runEvents step s (es ++ es') = runEvents step (runEvents step s es) es' :=
  List.foldl_append

/-- A property that only requests satisfying `G` can lose: a run from a state
with the property that ends without it has a request satisfying `G`, made in
a state that still had the property (the first request that lost it). -/
theorem exists_break_of_run (P : σ → Prop) (G : σ → ε → Prop)
    (hstep : ∀ s e, P s → ¬ G s e → P (step s e).1) :
    ∀ (es : List ε) (s : σ), P s → ¬ P (runEvents step s es) →
      ∃ pre e post, es = pre ++ e :: post ∧ P (runEvents step s pre) ∧ G (runEvents step s pre) e
  | [], _, hs, hend => absurd hs hend
  | e :: es, s, hs, hend => by
    by_cases hg : G s e
    · exact ⟨[], e, es, rfl, hs, hg⟩
    · obtain ⟨pre, e', post, rfl, hpre, hg'⟩ :=
        exists_break_of_run P G hstep es (step s e).1 (hstep s e hs hg) hend
      exact ⟨e :: pre, e', post, rfl, hpre, hg'⟩

end Ring.Lib
