import Mathlib

/-!
# Merkle roots and mutation (src/consensus/merkle.cpp)

`ComputeMerkleRoot` hashes a list of leaves level by level: a level of odd
length has its last hash duplicated, and adjacent pairs are hashed into the
next level. Before each round it looks for two equal hashes at positions
`2i, 2i + 1` and reports the block as mutated (CVE-2012-2459: `[1, 2, 3]`
and `[1, 2, 3, 3]` have one root).

The pair hash is a parameter `H`. With `H` injective and its results never a
leaf, a value has one round (`AtRound`): leaves are round 0, and `H x y` is
one round above `x` and `y`. Two lists with one root then take the same
number of rounds, and the first round where their levels differ and their
next levels agree is one where the shorter was padded and the longer ends in
a pair of equal hashes.

Results:
* `computeMerkleRoot_eq`: the loop as a recursion over levels.
* `root_atRound`: the root of a list of round `k` values is of a round
  above `k`, strictly above when the list has two or more values.
* `computeMerkleRoot_mutation_complete`: two distinct non-empty lists of
  leaves with one root, one of them reported as mutated.
-/
namespace Ring.Chain

section Merkle

variable {α : Type} [DecidableEq α] [Inhabited α]

/-- The check `hashes[pos] == hashes[pos + 1]` over even `pos`. -/
def mutationInLevel : List α → Bool
  | x :: y :: rest => x == y || mutationInLevel rest
  | _ => false

/-- `if (hashes.size() & 1) hashes.push_back(hashes.back())`. -/
def padLevel (hashes : List α) : List α :=
  if hashes.length % 2 = 1 then hashes ++ [hashes.getLast?.getD default] else hashes

/-- `SHA256D64` over the level: each adjacent pair hashed into one value. -/
def hashPairs (H : α → α → α) : List α → List α
  | x :: y :: rest => H x y :: hashPairs H rest
  | _ => []

omit [DecidableEq α] [Inhabited α] in
theorem length_hashPairs (H : α → α → α) : ∀ l : List α, (hashPairs H l).length = l.length / 2
  | [] => by simp [hashPairs]
  | [_] => by simp [hashPairs]
  | x :: y :: rest => by
    simp only [hashPairs, List.length_cons, length_hashPairs H rest]
    omega

omit [DecidableEq α] in
theorem length_padLevel (hashes : List α) :
    (padLevel hashes).length = hashes.length + hashes.length % 2 := by
  unfold padLevel
  split_ifs with h
  · simp [h]
  · simp
    omega

omit [DecidableEq α] in
/-- The next level is half the padded one. -/
theorem length_nextLevel (H : α → α → α) (hashes : List α) :
    (hashPairs H (padLevel hashes)).length = (hashes.length + 1) / 2 := by
  rw [length_hashPairs, length_padLevel]
  omega

/-- The loop of `ComputeMerkleRoot`, with the mutation seen so far.
mirrors src/consensus/merkle.cpp:46-62 -/
def computeMerkleRootLoop (H : α → α → α) (hashes : List α) (mutation : Bool) : α × Bool :=
  if 1 < hashes.length then
    computeMerkleRootLoop H (hashPairs H (padLevel hashes)) (mutation || mutationInLevel hashes)
  else (hashes.headD default, mutation)
termination_by hashes.length
decreasing_by
  rw [length_nextLevel]
  omega

/-- `ComputeMerkleRoot(hashes, &mutated)`: the root (`uint256()` for no
hashes) and `mutated`.
mirrors src/consensus/merkle.cpp:46-62 -/
def computeMerkleRoot (H : α → α → α) (hashes : List α) : α × Bool := computeMerkleRootLoop H hashes false

/-! ## The loop level by level -/

theorem computeMerkleRootLoop_or (H : α → α → α) (hashes : List α) (mutation : Bool) :
    computeMerkleRootLoop H hashes mutation =
      ((computeMerkleRootLoop H hashes false).1, mutation || (computeMerkleRootLoop H hashes false).2) := by
  unfold computeMerkleRootLoop
  split_ifs with h
  · rw [computeMerkleRootLoop_or H _ (mutation || mutationInLevel hashes),
      computeMerkleRootLoop_or H _ (false || mutationInLevel hashes)]
    simp [Bool.or_assoc]
  · simp
termination_by hashes.length
decreasing_by
  all_goals rw [length_nextLevel]; omega

/-- A round: report the level's equal pairs, then go on with the next
level. -/
theorem computeMerkleRoot_eq (H : α → α → α) {hashes : List α} (h : 1 < hashes.length) :
    computeMerkleRoot H hashes =
      ((computeMerkleRoot H (hashPairs H (padLevel hashes))).1,
        mutationInLevel hashes || (computeMerkleRoot H (hashPairs H (padLevel hashes))).2) := by
  unfold computeMerkleRoot
  rw [computeMerkleRootLoop, if_pos h, Bool.false_or, computeMerkleRootLoop_or]

theorem computeMerkleRoot_single (H : α → α → α) (x : α) : computeMerkleRoot H [x] = (x, false) := by
  unfold computeMerkleRoot
  rw [computeMerkleRootLoop, if_neg (by simp)]
  rfl

/-! ## Rounds -/

/-- The values `k` rounds above the leaves. -/
inductive AtRound (H : α → α → α) (Leaf : α → Prop) : Nat → α → Prop
  | leaf {x : α} : Leaf x → AtRound H Leaf 0 x
  | node {k : Nat} {x y : α} : AtRound H Leaf k x → AtRound H Leaf k y → AtRound H Leaf (k + 1) (H x y)

variable {H : α → α → α} {Leaf : α → Prop}

omit [Inhabited α] in
/-- The last value of a level appended twice closes an equal pair at an even
position. -/
theorem mutationInLevel_append_pair (z : α) :
    ∀ l : List α, l.length % 2 = 0 → mutationInLevel (l ++ [z, z]) = true
  | [], _ => by simp [mutationInLevel]
  | [_], h => by simp at h
  | x :: y :: rest, h => by
    simp only [List.cons_append, mutationInLevel, Bool.or_eq_true]
    exact .inr (mutationInLevel_append_pair z rest (by simp only [List.length_cons] at h; omega))

/-- Padding only duplicates the last value, so two distinct levels with one
padding differ in length by one, and the longer ends in an equal pair. -/
theorem mutationInLevel_of_padLevel_eq {a b : List α} (hab : a ≠ b) (hpad : padLevel a = padLevel b) :
    mutationInLevel a = true ∨ mutationInLevel b = true := by
  have key : ∀ {a b : List α}, a.length % 2 = 1 → b.length % 2 = 0 → padLevel a = padLevel b →
      mutationInLevel b = true := by
    intro a b ha hb hpad
    rw [padLevel, if_pos ha, padLevel, if_neg (by omega)] at hpad
    obtain ⟨a', z, rfl⟩ := List.eq_nil_or_concat a |>.resolve_left (by rintro rfl; simp at ha)
    rw [List.concat_eq_append] at ha hpad
    simp only [List.getLast?_concat, Option.getD_some, List.append_assoc, List.singleton_append] at hpad
    subst hpad
    exact mutationInLevel_append_pair z a' (by simp at ha; omega)
  rcases Nat.mod_two_eq_zero_or_one a.length with ha | ha <;>
    rcases Nat.mod_two_eq_zero_or_one b.length with hb | hb
  · rw [padLevel, if_neg (by omega), padLevel, if_neg (by omega)] at hpad
    exact absurd hpad hab
  · exact .inl (key hb ha hpad.symm)
  · exact .inr (key ha hb hpad)
  · rw [padLevel, if_pos ha, padLevel, if_pos hb] at hpad
    exact absurd (List.append_inj_left' hpad rfl) hab

section Injective

variable (hinj : ∀ x y u v, H x y = H u v → x = u ∧ y = v) (hleaf : ∀ x y, ¬ Leaf (H x y))
include hinj hleaf

omit [DecidableEq α] [Inhabited α] in
/-- A pair hash is one round above both halves. -/
theorem AtRound.of_node {j : Nat} {x y : α} (h : AtRound H Leaf j (H x y)) :
    ∃ j', j = j' + 1 ∧ AtRound H Leaf j' x ∧ AtRound H Leaf j' y := by
  generalize hv : H x y = v at h
  cases h with
  | leaf hl => exact absurd (hv ▸ hl) (hleaf x y)
  | node hu hw =>
    obtain ⟨rfl, rfl⟩ := hinj _ _ _ _ hv
    exact ⟨_, rfl, hu, hw⟩

omit [DecidableEq α] [Inhabited α] in
/-- A value has one round. -/
theorem AtRound.round_eq {k : Nat} {x : α} (hx : AtRound H Leaf k x) :
    ∀ {j : Nat}, AtRound H Leaf j x → k = j := by
  induction hx with
  | leaf hl =>
    intro j hj
    cases hj with
    | leaf _ => rfl
    | node _ _ => exact absurd hl (hleaf _ _)
  | node _ _ ih _ =>
    intro j hj
    obtain ⟨j', rfl, hxj, -⟩ := AtRound.of_node hinj hleaf hj
    rw [ih hxj]

end Injective

omit [DecidableEq α] [Inhabited α] in
/-- Equal pair hashes of two levels of even length are equal levels. -/
theorem hashPairs_injective (hinj : ∀ x y u v, H x y = H u v → x = u ∧ y = v) :
    ∀ {a b : List α}, a.length % 2 = 0 → b.length % 2 = 0 → hashPairs H a = hashPairs H b → a = b
  | [], [], _, _, _ => rfl
  | [], [_], _, hb, _ => by simp at hb
  | [_], _, ha, _, _ => by simp at ha
  | _, [_], _, hb, _ => by simp at hb
  | [], _ :: _ :: _, _, _, h => by simp [hashPairs] at h
  | _ :: _ :: _, [], _, _, h => by simp [hashPairs] at h
  | x :: y :: a, u :: v :: b, ha, hb, h => by
    simp only [hashPairs, List.cons.injEq] at h
    obtain ⟨rfl, rfl⟩ := hinj _ _ _ _ h.1
    simp only [List.length_cons] at ha hb
    rw [hashPairs_injective hinj (by omega) (by omega) h.2]

omit [DecidableEq α] [Inhabited α] in
theorem atRound_hashPairs {k : Nat} :
    ∀ {l : List α}, (∀ x ∈ l, AtRound H Leaf k x) → ∀ x ∈ hashPairs H l, AtRound H Leaf (k + 1) x
  | [], _ => by simp [hashPairs]
  | [_], _ => by simp [hashPairs]
  | x :: y :: rest, hl => by
    intro z hz
    simp only [hashPairs, List.mem_cons] at hz
    rcases hz with rfl | hz
    · exact .node (hl x (by simp)) (hl y (by simp))
    · exact atRound_hashPairs (fun w hw => hl w (by simp [hw])) z hz

omit [DecidableEq α] in
theorem atRound_padLevel {k : Nat} {l : List α} (hne : l ≠ []) (hl : ∀ x ∈ l, AtRound H Leaf k x) :
    ∀ x ∈ padLevel l, AtRound H Leaf k x := by
  intro x hx
  unfold padLevel at hx
  split_ifs at hx
  · simp only [List.mem_append, List.mem_singleton] at hx
    rcases hx with hx | rfl
    · exact hl x hx
    · rw [List.getLast?_eq_some_getLast hne, Option.getD_some]
      exact hl _ (List.getLast_mem hne)
  · exact hl x hx

omit [DecidableEq α] in
/-- The next level of a level of round `k` values holds round `k + 1` values. -/
theorem atRound_nextLevel {k : Nat} {l : List α} (hne : l ≠ []) (hl : ∀ x ∈ l, AtRound H Leaf k x) :
    ∀ x ∈ hashPairs H (padLevel l), AtRound H Leaf (k + 1) x :=
  atRound_hashPairs (atRound_padLevel hne hl)

omit [DecidableEq α] in
theorem nextLevel_ne_nil (H : α → α → α) {l : List α} (hne : l ≠ []) : hashPairs H (padLevel l) ≠ [] := by
  intro h
  have hlen := length_nextLevel H l
  rw [h, List.length_nil] at hlen
  have := List.length_pos_iff.mpr hne
  omega

/-- The root of a list of round `k` values is of a round `k + j`, with
`j ≥ 1` once there is a round to hash. -/
theorem root_atRound :
    ∀ (n : Nat) {k : Nat} {l : List α}, l.length ≤ n → l ≠ [] → (∀ x ∈ l, AtRound H Leaf k x) →
      ∃ j, AtRound H Leaf (k + j) (computeMerkleRoot H l).1 ∧ (1 < l.length → 1 ≤ j)
  | n, k, l, hn, hne, hl => by
    by_cases h1 : 1 < l.length
    · -- one round, then the next level, shorter, of round `k + 1`
      cases n with
      | zero => omega
      | succ n =>
        have hnext := length_nextLevel H l
        obtain ⟨j, hj, -⟩ := root_atRound n (l := hashPairs H (padLevel l)) (by omega)
          (nextLevel_ne_nil H hne) (atRound_nextLevel hne hl)
        refine ⟨j + 1, ?_, fun _ => by omega⟩
        rw [computeMerkleRoot_eq H h1, show k + (j + 1) = k + 1 + j by omega]
        exact hj
    · obtain ⟨x, rfl⟩ : ∃ x, l = [x] := by
        match l, hne, h1 with
        | [x], _, _ => exact ⟨x, rfl⟩
        | _ :: _ :: _, _, h1 => simp at h1
      exact ⟨0, by rw [computeMerkleRoot_single]; exact hl x (by simp), by simp⟩

section Complete

variable (hinj : ∀ x y u v, H x y = H u v → x = u ∧ y = v) (hleaf : ∀ x y, ¬ Leaf (H x y))
include hinj hleaf

/-- Two distinct levels of round `k` values with one root: one of the two
computations reports a mutation. The induction is on the total length, over
the rounds the two computations share. -/
theorem mutation_complete_of_atRound :
    ∀ (n : Nat) {k : Nat} {a b : List α}, a.length + b.length ≤ n → a ≠ [] → b ≠ [] →
      (∀ x ∈ a, AtRound H Leaf k x) → (∀ x ∈ b, AtRound H Leaf k x) → a ≠ b →
      (computeMerkleRoot H a).1 = (computeMerkleRoot H b).1 →
      (computeMerkleRoot H a).2 = true ∨ (computeMerkleRoot H b).2 = true
  | n, k, a, b, hn, ha, hb, hka, hkb, hab, hroot => by
    by_cases ha1 : 1 < a.length <;> by_cases hb1 : 1 < b.length
    · -- both hash a round: the next levels agree, or they are shorter and differ
      rw [computeMerkleRoot_eq H ha1, computeMerkleRoot_eq H hb1] at hroot ⊢
      simp only [Bool.or_eq_true]
      by_cases hnext : hashPairs H (padLevel a) = hashPairs H (padLevel b)
      · have hpad := hashPairs_injective hinj (by rw [length_padLevel]; omega)
          (by rw [length_padLevel]; omega) hnext
        rcases mutationInLevel_of_padLevel_eq hab hpad with h | h
        · exact .inl (.inl h)
        · exact .inr (.inl h)
      · cases n with
        | zero => omega
        | succ n =>
          have hla := length_nextLevel H a
          have hlb := length_nextLevel H b
          rcases mutation_complete_of_atRound n (by omega) (nextLevel_ne_nil H ha) (nextLevel_ne_nil H hb)
            (atRound_nextLevel ha hka) (atRound_nextLevel hb hkb) hnext hroot with h | h
          · exact .inl (.inr h)
          · exact .inr (.inr h)
    · -- `b` is one leaf of round `k`; the root of `a` is of a higher round
      obtain ⟨y, rfl⟩ := List.length_eq_one_iff.mp (show b.length = 1 by have := List.length_pos_iff.mpr hb; omega)
      obtain ⟨j, hj, hj1⟩ := root_atRound _ le_rfl ha hka
      rw [hroot, computeMerkleRoot_single] at hj
      have hround := hj.round_eq hinj hleaf (hkb y (by simp))
      have := hj1 ha1
      omega
    · obtain ⟨x, rfl⟩ := List.length_eq_one_iff.mp (show a.length = 1 by have := List.length_pos_iff.mpr ha; omega)
      obtain ⟨j, hj, hj1⟩ := root_atRound _ le_rfl hb hkb
      rw [← hroot, computeMerkleRoot_single] at hj
      have hround := hj.round_eq hinj hleaf (hka x (by simp))
      have := hj1 hb1
      omega
    · -- two single leaves with one root are one list
      obtain ⟨x, rfl⟩ := List.length_eq_one_iff.mp (show a.length = 1 by have := List.length_pos_iff.mpr ha; omega)
      obtain ⟨y, rfl⟩ := List.length_eq_one_iff.mp (show b.length = 1 by have := List.length_pos_iff.mpr hb; omega)
      simp only [computeMerkleRoot_single] at hroot
      exact absurd (by rw [hroot]) hab

end Complete

end Merkle

/-- Merkle mutation detection is complete for an injective pair hash whose
results are never leaves: of two distinct non-empty lists of leaves with one
root, one computation reports a mutation. -/
theorem computeMerkleRoot_mutation_complete {α : Type} [DecidableEq α] [Inhabited α] (H : α → α → α)
    (hinj : ∀ x y u v, H x y = H u v → x = u ∧ y = v) {a b : List α}
    (hdisj : ∀ x y, H x y ∉ a ∧ H x y ∉ b) (ha : a ≠ []) (hb : b ≠ []) (hab : a ≠ b)
    (hroot : (computeMerkleRoot H a).1 = (computeMerkleRoot H b).1) :
    (computeMerkleRoot H a).2 = true ∨ (computeMerkleRoot H b).2 = true :=
  -- the leaves of both lists are round 0
  @mutation_complete_of_atRound α _ _ H (fun v => v ∈ a ∨ v ∈ b) hinj
    (fun x y h => h.elim (hdisj x y).1 (hdisj x y).2) (a.length + b.length) 0 a b le_rfl ha hb
    (fun _ hx => .leaf (.inl hx)) (fun _ hx => .leaf (.inr hx)) hab hroot

/-- A pair hash on numbers: injective, and above every leaf below 100. -/
def pairHash (x y : Nat) : Nat := Nat.pair x y + 100

/-- The lists of CVE-2012-2459 have one root, and the padded copy is the one
reported. -/
theorem computeMerkleRoot_mutation_complete_cve :
    (computeMerkleRoot pairHash [1, 2, 3]).1 = (computeMerkleRoot pairHash [1, 2, 3, 3]).1 ∧
      ((computeMerkleRoot pairHash [1, 2, 3]).2 = true ∨ (computeMerkleRoot pairHash [1, 2, 3, 3]).2 = true) := by
  have hroot : (computeMerkleRoot pairHash [1, 2, 3]).1 = (computeMerkleRoot pairHash [1, 2, 3, 3]).1 := by
    decide +kernel
  have hinj : ∀ x y u v, pairHash x y = pairHash u v → x = u ∧ y = v := fun x y u v h =>
    Nat.pair_eq_pair.mp (by unfold pairHash at h; omega)
  have hdisj : ∀ x y, pairHash x y ∉ [1, 2, 3] ∧ pairHash x y ∉ [1, 2, 3, 3] := by
    intro x y
    constructor <;> simp [pairHash]
  exact ⟨hroot, computeMerkleRoot_mutation_complete pairHash hinj hdisj (by decide) (by decide) (by decide) hroot⟩

end Ring.Chain
