import Mathlib

/-!
# A finite map written over a total one

A write-back cache holds a finite map of entries over the view below it: a
reader sees an entry's value where the cache has one, and the view below
everywhere else (`overlay`). Writing the entries of one map into a store is a
fold over distinct keys in which each step changes the store's view at one key
only; `foldlM_update` says what the whole fold does, and what it keeps.

Results:
* `overlay_insert`, `overlay_erase`: how the view follows the map's updates;
* `foldlM_update`, `foldl_update`: writing a map entry by entry into a store
  whose steps each update the view at their key shows the map over the old view.
-/
namespace Ring.Lib

variable {κ ν ρ : Type} [DecidableEq κ]

/-- The view of the finite map `m` over `base`, an entry `v` showing as `shown v`. -/
def overlay (shown : ν → ρ) (m : AList fun _ : κ => ν) (base : κ → ρ) : κ → ρ := fun k =>
  (m.lookup k).elim (base k) shown

variable {shown : ν → ρ} {m : AList fun _ : κ => ν} {base : κ → ρ} {k : κ} {v : ν}

theorem overlay_of_lookup_some (h : m.lookup k = some v) : overlay shown m base k = shown v := by
  simp [overlay, h]

theorem overlay_of_lookup_none (h : m.lookup k = none) : overlay shown m base k = base k := by
  simp [overlay, h]

@[simp] theorem overlay_empty : overlay shown (∅ : AList fun _ : κ => ν) base = base := rfl

@[simp] theorem overlay_insert :
    overlay shown (m.insert k v) base = Function.update (overlay shown m base) k (shown v) := by
  funext j
  by_cases hj : j = k
  · subst hj
    simp [overlay, AList.lookup_insert]
  · simp [overlay, AList.lookup_insert_ne hj, hj]

@[simp] theorem overlay_erase :
    overlay shown (m.erase k) base = Function.update (overlay shown m base) k (base k) := by
  funext j
  by_cases hj : j = k
  · subst hj
    simp [overlay, AList.lookup_erase]
  · simp [overlay, AList.lookup_erase_ne hj, hj]

/-- A store `a` whose view at each key is `view a`, written with the entries of a
list of distinct keys: each step `f a k v` succeeds where `Q` holds of the view at
`k`, keeps `ok`, and sets the view at `k` to `shown v`. -/
theorem foldlM_update_list {ε α : Type} (view : α → κ → ρ) (ok : α → Prop) (Q : ρ → ν → Prop)
    (f : α → κ → ν → Except ε α)
    (hstep : ∀ a k v, ok a → Q (view a k) v →
      ∃ a', f a k v = .ok a' ∧ ok a' ∧ view a' = Function.update (view a) k (shown v)) :
    ∀ (l : List (Σ _ : κ, ν)) (a : α), l.NodupKeys → ok a → (∀ x ∈ l, Q (view a x.1) x.2) →
      ∃ a', l.foldlM (fun a x => f a x.1 x.2) a = .ok a' ∧ ok a' ∧
        view a' = fun j => (l.dlookup j).elim (view a j) shown
  | [], a, _, ha, _ => ⟨a, rfl, ha, rfl⟩
  | ⟨k, v⟩ :: l, a, hl, ha, hQ => by
    obtain ⟨hk, hl⟩ := List.nodupKeys_cons.1 hl
    obtain ⟨a₁, h₁, ha₁, hv₁⟩ := hstep a k v ha (hQ _ List.mem_cons_self)
    -- the later keys differ from `k`, so the first step left their view alone
    have hrest : ∀ x ∈ l, Q (view a₁ x.1) x.2 := by
      intro x hx
      have hmem := List.mem_keys_of_mem hx
      have hne : x.1 ≠ k := by
        rintro rfl
        exact hk hmem
      rw [hv₁, Function.update_of_ne hne]
      exact hQ x (List.mem_cons_of_mem _ hx)
    obtain ⟨a', h', ha', hv'⟩ := foldlM_update_list view ok Q f hstep l a₁ hl ha₁ hrest
    refine ⟨a', by rw [List.foldlM_cons, h₁]; exact h', ha', ?_⟩
    funext j
    rw [hv', hv₁]
    by_cases hj : j = k
    · subst hj
      simp [List.dlookup_cons_eq, List.dlookup_eq_none.2 hk]
    · simp [List.dlookup_cons_ne l ⟨k, v⟩ hj, Function.update_of_ne hj]

/-- `foldlM_update_list` for the entries of a finite map: the store's view becomes
the map over the old view. -/
theorem foldlM_update {ε α : Type} (view : α → κ → ρ) (ok : α → Prop) (Q : ρ → ν → Prop)
    (f : α → κ → ν → Except ε α)
    (hstep : ∀ a k v, ok a → Q (view a k) v →
      ∃ a', f a k v = .ok a' ∧ ok a' ∧ view a' = Function.update (view a) k (shown v))
    (m : AList fun _ : κ => ν) (a : α) (ha : ok a) (hQ : ∀ k v, m.lookup k = some v → Q (view a k) v) :
    ∃ a', m.entries.foldlM (fun a x => f a x.1 x.2) a = .ok a' ∧ ok a' ∧
      view a' = overlay shown m (view a) :=
  foldlM_update_list view ok Q f hstep m.entries a m.nodupKeys ha
    fun x hx => hQ x.1 x.2 (AList.mem_lookup_iff.2 hx)

/-- `foldlM_update` for a pure fold. -/
theorem foldl_update {α : Type} (view : α → κ → ρ) (ok : α → Prop) (Q : ρ → ν → Prop)
    (f : α → κ → ν → α)
    (hstep : ∀ a k v, ok a → Q (view a k) v →
      ok (f a k v) ∧ view (f a k v) = Function.update (view a) k (shown v))
    (m : AList fun _ : κ => ν) (a : α) (ha : ok a) (hQ : ∀ k v, m.lookup k = some v → Q (view a k) v) :
    ok (m.entries.foldl (fun a x => f a x.1 x.2) a) ∧
      view (m.entries.foldl (fun a x => f a x.1 x.2) a) = overlay shown m (view a) := by
  obtain ⟨a', h, ha', hv⟩ := foldlM_update (ε := Empty) view ok Q (fun a k v => .ok (f a k v))
    (fun a k v ha hq => ⟨f a k v, rfl, hstep a k v ha hq⟩) m a ha hQ
  have hfold : m.entries.foldlM (fun a x => (.ok (f a x.1 x.2) : Except Empty α)) a =
      .ok (m.entries.foldl (fun a x => f a x.1 x.2) a) := List.foldlM_pure
  rw [hfold, Except.ok.injEq] at h
  exact h ▸ ⟨ha', hv⟩

end Ring.Lib
