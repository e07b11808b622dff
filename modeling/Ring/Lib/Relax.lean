import Mathlib

/-!
# One fallible computation relaxing another

`Relaxes x y` says that `y` returns, with the same value, whenever `x` does:
`y` may fail less often than `x`, never differently when both return. It is
the order of a check that has had some of its guards removed, and it is
built up along the program: it is reflexive, a bind relaxes when both its
stages do, a guard relaxes when its condition only gets weaker, and a loop
relaxes when its body does. An
optional check relaxes when it runs under a weaker condition, since a check
returns nothing.
-/
namespace Ring.Lib

variable {ε ε' ε'' α β : Type}

/-- `y` returns what `x` returns, whenever `x` returns. -/
def Relaxes (x : Except ε α) (y : Except ε' α) : Prop :=
  ∀ a, x = .ok a → y = .ok a

namespace Relaxes

theorem refl (x : Except ε α) : Relaxes x x := fun _ h => h

theorem bind {x : Except ε α} {y : Except ε' α} {f : α → Except ε β} {g : α → Except ε' β}
    (hxy : Relaxes x y) (hfg : ∀ a, Relaxes (f a) (g a)) : Relaxes (x >>= f) (y >>= g) := by
  intro b h
  cases hx : x with
  | error e => rw [hx] at h; exact nomatch h
  | ok a =>
    rw [hx] at h
    rw [hxy a hx]
    exact hfg a b h

/-- A guard whose condition only gets weaker. -/
theorem guard {c c' : Prop} [Decidable c] [Decidable c'] {e : ε} {e' : ε'} {k : Except ε α} {k' : Except ε' α}
    (hc : c' → c) (hk : Relaxes k k') :
    Relaxes (if c then .error e else k) (if c' then .error e' else k') := by
  intro a h
  have hnc : ¬ c := fun hc' => by rw [if_pos hc'] at h; exact nomatch h
  rw [if_neg hnc] at h
  rw [if_neg (fun h' => hnc (hc h'))]
  exact hk a h

theorem ite {c : Prop} [Decidable c] {k₁ k₂ : Except ε α} {k₁' k₂' : Except ε' α}
    (h₁ : c → Relaxes k₁ k₁') (h₂ : ¬ c → Relaxes k₂ k₂') :
    Relaxes (if c then k₁ else k₂) (if c then k₁' else k₂') := by
  by_cases hc : c
  · rw [if_pos hc, if_pos hc]
    exact h₁ hc
  · rw [if_neg hc, if_neg hc]
    exact h₂ hc

/-- A computation relaxes to the one value it can return. -/
theorem to_ok {x : Except ε α} {b : α} (h : ∀ a, x = .ok a → a = b) : Relaxes x (.ok b : Except ε' α) :=
  fun a hx => by rw [h a hx]

/-- An optional check, run under a condition that only gets weaker. -/
theorem optional {c c' : Prop} [Decidable c] [Decidable c'] {k : Except ε Unit} {k' : Except ε' Unit}
    (hc : c' → c) (hk : Relaxes k k') :
    Relaxes (if c then k else .ok ()) (if c' then k' else .ok ()) := by
  by_cases hc' : c'
  · rw [if_pos (hc hc'), if_pos hc']
    exact hk
  · rw [if_neg hc']
    exact to_ok fun _ _ => rfl

theorem mapError {x : Except ε α} {y : Except ε' α} (f : ε → ε'') (g : ε' → ε'') (h : Relaxes x y) :
    Relaxes (x.mapError f) (y.mapError g) := by
  intro a hx
  cases hxe : x with
  | error e => rw [hxe] at hx; exact nomatch hx
  | ok a' =>
    rw [hxe] at hx
    cases hx
    rw [h a hxe]
    rfl

theorem foldlM {f : β → α → Except ε β} {g : β → α → Except ε' β} (hfg : ∀ b a, Relaxes (f b a) (g b a)) :
    ∀ (l : List α) (b : β), Relaxes (l.foldlM f b) (l.foldlM g b)
  | [], b => fun _ h => by
    cases h
    rfl
  | a :: l, b => by
    simp only [List.foldlM_cons]
    exact bind (hfg b a) fun b' => foldlM hfg l b'

end Relaxes

/-- A guard passed: its condition is false and the rest returned. -/
theorem ite_error_eq_ok {c : Prop} [Decidable c] {e : ε} {k : Except ε α} {a : α} :
    (if c then .error e else k) = .ok a ↔ ¬c ∧ k = .ok a := by
  by_cases hc : c
  · simp [hc]
  · simp [hc]

theorem mapError_eq_ok {x : Except ε α} {f : ε → ε'} {a : α} : x.mapError f = .ok a ↔ x = .ok a := by
  cases x <;> simp [Except.mapError]

end Ring.Lib
