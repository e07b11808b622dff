import Mathlib

/-!
# Readers of a token stream and their two laws

A reader takes a value off the front of a stream and returns it with the rest
of the stream, or fails with an error. A wire format is a reader `r` and a
writer `w`, related on the values an admissibility predicate `ok` allows by
two laws:

* `ReadsBack r w ok`: `r` reads back what `w` writes, whatever follows it;
* `Canonical r w ok`: whatever `r` accepts is admissible, and the input
  starts with exactly what `w` writes of it.

Together they say that the format is a bijection between the admissible
values and the byte strings the reader accepts. The combinators a serializer
is built from keep both laws: a block of `n` tokens (`readTake`), `n` values
one after another (`readCount`) and a list after its length
(`readPrefixed`). Record formats are sequences of these, and their laws
follow by `ok_bind` and `bind_eq_ok`.
-/
namespace Ring.Lib

/-- A reader of a stream of `τ`: the value read and the rest of the stream,
or an error. -/
abbrev Reader (τ ε α : Type) := List τ → Except ε (α × List τ)

namespace Reader

variable {τ ε α β : Type}

@[simp] theorem ok_bind (a : α) (f : α → Except ε β) : (Except.ok a >>= f) = f a := rfl

@[simp] theorem error_bind (e : ε) (f : α → Except ε β) : (Except.error e >>= f) = .error e := rfl

@[simp] theorem pure_eq_ok (a : α) : (pure a : Except ε α) = .ok a := rfl

@[simp] theorem throw_eq_error (e : ε) : (throw e : Except ε α) = .error e := rfl

/-- A bind that returned a value ran its first stage to a value. -/
theorem bind_eq_ok {x : Except ε α} {f : α → Except ε β} {b : β} :
    (x >>= f) = .ok b ↔ ∃ a, x = .ok a ∧ f a = .ok b := by
  cases x <;> simp

/-- A check that returns nothing, followed by another stage: both ran to a value. -/
theorem bind_unit_eq_ok {x : Except ε Unit} {f : Unit → Except ε β} {b : β} :
    (x >>= f) = .ok b ↔ x = .ok () ∧ f () = .ok b := by
  rw [bind_eq_ok]
  exact ⟨fun ⟨(), hx, hf⟩ => ⟨hx, hf⟩, fun ⟨hx, hf⟩ => ⟨(), hx, hf⟩⟩

/-- `r` reads back what `w` writes of every value `ok` admits. -/
def ReadsBack (r : Reader τ ε α) (w : α → List τ) (ok : α → Prop) : Prop :=
  ∀ x rest, ok x → r (w x ++ rest) = .ok (x, rest)

/-- What `r` accepts is admissible, and the input starts with what `w` writes
of it. -/
def Canonical (r : Reader τ ε α) (w : α → List τ) (ok : α → Prop) : Prop :=
  ∀ s x rest, r s = .ok (x, rest) → ok x ∧ w x ++ rest = s

/-! ## A block of tokens -/

/-- The next `n` tokens, or `eod` when the stream is shorter. -/
def readTake (eod : ε) (n : Nat) : Reader τ ε {l : List τ // l.length = n} := fun s =>
  if h : n ≤ s.length then .ok (⟨s.take n, by simp [h]⟩, s.drop n) else .error eod

theorem readTake_readsBack (eod : ε) (n : Nat) :
    ReadsBack (readTake (τ := τ) eod n) Subtype.val (fun _ => True) := by
  rintro ⟨l, rfl⟩ rest -
  simp [readTake]

theorem readTake_canonical (eod : ε) (n : Nat) :
    Canonical (readTake (τ := τ) eod n) Subtype.val (fun _ => True) := by
  intro s x rest h
  unfold readTake at h
  split at h
  · simp only [Except.ok.injEq, Prod.mk.injEq] at h
    obtain ⟨rfl, rfl⟩ := h
    exact ⟨trivial, List.take_append_drop n s⟩
  · cases h

/-! ## Values one after another -/

/-- `n` values read by `r`, in order. -/
def readCount (r : Reader τ ε α) : Nat → Reader τ ε (List α)
  | 0 => fun s => .ok ([], s)
  | n + 1 => fun s => do
    let (x, s) ← r s
    let (xs, s) ← readCount r n s
    return (x :: xs, s)

variable {r : Reader τ ε α} {w : α → List τ} {ok : α → Prop}

theorem readCount_readsBack (h : ReadsBack r w ok) (xs : List α) (rest : List τ)
    (hok : ∀ x ∈ xs, ok x) : readCount r xs.length (xs.flatMap w ++ rest) = .ok (xs, rest) := by
  induction xs with
  | nil => rfl
  | cons x xs ih =>
    have hx : r (w x ++ (xs.flatMap w ++ rest)) = .ok (x, xs.flatMap w ++ rest) :=
      h x _ (hok x List.mem_cons_self)
    simp [readCount, hx, ih (fun y hy => hok y (List.mem_cons_of_mem x hy))]

theorem readCount_canonical (h : Canonical r w ok) :
    ∀ (n : Nat) (s : List τ) (xs : List α) (rest : List τ), readCount r n s = .ok (xs, rest) →
      xs.length = n ∧ (∀ x ∈ xs, ok x) ∧ xs.flatMap w ++ rest = s
  | 0, s, xs, rest, hr => by
    simp only [readCount, Except.ok.injEq, Prod.mk.injEq] at hr
    obtain ⟨rfl, rfl⟩ := hr
    simp
  | n + 1, s, xs, rest, hr => by
    obtain ⟨⟨x, s₁⟩, hx, hr⟩ := bind_eq_ok.mp hr
    obtain ⟨⟨xs', s₂⟩, hxs, hr⟩ := bind_eq_ok.mp hr
    simp only [pure_eq_ok, Except.ok.injEq, Prod.mk.injEq] at hr
    obtain ⟨rfl, rfl⟩ := hr
    obtain ⟨hokx, hs₁⟩ := h s x s₁ hx
    obtain ⟨hlen, hoks, hs₂⟩ := readCount_canonical h n s₁ xs' s₂ hxs
    refine ⟨by simp [hlen], ?_, ?_⟩
    · simpa [hokx] using hoks
    · rw [← hs₁, ← hs₂]
      simp

/-! ## A list after its length -/

/-- A length read by `readLen`, then that many values read by `r`. -/
def readPrefixed (readLen : Reader τ ε Nat) (r : Reader τ ε α) : Reader τ ε (List α) := fun s => do
  let (n, s) ← readLen s
  readCount r n s

/-- The length written by `writeLen`, then the values written by `w`. -/
def writePrefixed (writeLen : Nat → List τ) (w : α → List τ) (xs : List α) : List τ :=
  writeLen xs.length ++ xs.flatMap w

/-- What a length-prefixed list admits: its length and each of its values. -/
def PrefixedOk (okLen : Nat → Prop) (ok : α → Prop) (xs : List α) : Prop :=
  okLen xs.length ∧ ∀ x ∈ xs, ok x

variable {readLen : Reader τ ε Nat} {writeLen : Nat → List τ} {okLen : Nat → Prop}

theorem readPrefixed_readsBack (hl : ReadsBack readLen writeLen okLen) (h : ReadsBack r w ok) :
    ReadsBack (readPrefixed readLen r) (writePrefixed writeLen w) (PrefixedOk okLen ok) := by
  rintro xs rest ⟨hlen, hok⟩
  have hn : readLen (writeLen xs.length ++ (xs.flatMap w ++ rest)) =
      .ok (xs.length, xs.flatMap w ++ rest) := hl _ _ hlen
  simp [readPrefixed, writePrefixed, hn, readCount_readsBack h xs rest hok]

theorem readPrefixed_canonical (hl : Canonical readLen writeLen okLen) (h : Canonical r w ok) :
    Canonical (readPrefixed readLen r) (writePrefixed writeLen w) (PrefixedOk okLen ok) := by
  intro s xs rest hr
  obtain ⟨⟨n, s₁⟩, hn, hr⟩ := bind_eq_ok.mp hr
  obtain ⟨hokn, hs₁⟩ := hl s n s₁ hn
  obtain ⟨rfl, hoks, hs₂⟩ := readCount_canonical h n s₁ xs rest hr
  refine ⟨⟨hokn, hoks⟩, ?_⟩
  rw [← hs₁, ← hs₂, writePrefixed, List.append_assoc]

end Reader

end Ring.Lib
