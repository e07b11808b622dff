import Ring.Prevector.Ops
import Ring.Lib.Simulation

/-!
# `prevector` against `std::vector`

A program holds prevectors, named by their positions in the order they were
constructed, and runs operations on them (`Op`): the constructors, the copy
and move constructors and assignments, `swap`, and every mutator.
`step` runs one operation on the model of the code. `VectorStep` is what the
same operation does to `std::vector`s, read as lists of their elements: a
vector moved from by a move constructor is empty, and one moved from by a
move assignment holds an unspecified value.

`VectorPre` holds the preconditions of `std::vector` (positions inside the
vector, `pop_back` on a non-empty one) and the bound `size() + N < 2^31` on
every size an operation produces. Under them every run of the model returns,
keeps the representation invariant of every prevector, and is read as a run
of `std::vector` (`run_refines_vector`). Past the bound the `uint32_t`
`_size` wraps: `resize(2^32 - 1)` on an empty `prevector<28, unsigned char>`
leaves a direct prevector of 28 elements (`resize_wraps`).
-/
namespace Ring.Prevector

open Ring.Lib Ring.Chain

/-- An operation of a program on its prevectors. -/
inductive Op (T : Type) where
  | construct
  | constructSize (n : UInt32)
  | constructFill (n : UInt32) (val : T)
  | constructRange (xs : List T)
  | copyConstruct (src : Nat)
  | moveConstruct (src : Nat)
  | copyAssign (i src : Nat)
  | moveAssign (i src : Nat)
  | swap (i j : Nat)
  | assign (i : Nat) (n : UInt32) (val : T)
  | assignRange (i : Nat) (xs : List T)
  | pushBack (i : Nat) (val : T)
  | popBack (i : Nat)
  | insert (i p : Nat) (val : T)
  | insertCount (i p : Nat) (count : UInt32) (val : T)
  | insertRange (i p : Nat) (xs : List T)
  | erase (i p : Nat)
  | eraseRange (i first last : Nat)
  | resize (i : Nat) (n : UInt32)
  | reserve (i : Nat) (n : UInt32)
  | shrinkToFit (i : Nat)
  | clear (i : Nat)

section Program

variable {N : UInt32} {T : Type} [Inhabited T]

/-- The prevector at position `i`. -/
def fetch (objs : List (Prevector N T)) (i : Nat) : Except Fault (Prevector N T) :=
  orOutOfRange objs[i]?

/-- A mutator applied to the prevector at position `i`. -/
def update (objs : List (Prevector N T)) (i : Nat) (f : Prevector N T → Except Fault (Prevector N T)) :
    Except Fault (List (Prevector N T)) := do
  let v ← fetch objs i
  let v' ← f v
  return objs.set i v'

/-- A constructor: the new prevector takes the next position. -/
def constructWith (objs : List (Prevector N T)) (c : Except Fault (Prevector N T)) :
    Except Fault (List (Prevector N T)) := do
  let v ← c
  return objs ++ [v]

/-- One operation of the program. -/
def step (objs : List (Prevector N T)) : Op T → Except Fault (List (Prevector N T))
  | .construct => constructWith objs (.ok Prevector.empty)
  | .constructSize n => constructWith objs (Prevector.ofSize n)
  | .constructFill n val => constructWith objs (Prevector.ofFill n val)
  | .constructRange xs => constructWith objs (Prevector.ofRange xs)
  | .copyConstruct src => do
    let o ← fetch objs src
    constructWith objs (Prevector.copyOf o)
  | .moveConstruct src => do
    let o ← fetch objs src
    let (v, o') := Prevector.moveOf o
    return objs.set src o' ++ [v]
  | .copyAssign i src => do
    let o ← fetch objs src
    update objs i (·.copyAssign o (i == src))
  | .moveAssign i src => do
    let v ← fetch objs i
    let o ← fetch objs src
    let (v', o') := v.moveAssign o
    return (objs.set i v').set src o'
  | .swap i j => do
    let v ← fetch objs i
    let w ← fetch objs j
    let (v', w') := v.swap w
    return (objs.set i v').set j w'
  | .assign i n val => update objs i (·.assign n val)
  | .assignRange i xs => update objs i (·.assignRange xs)
  | .pushBack i val => update objs i (·.pushBack val)
  | .popBack i => update objs i (·.popBack)
  | .insert i p val => update objs i (·.insert p val)
  | .insertCount i p count val => update objs i (·.insertCount p count val)
  | .insertRange i p xs => update objs i (·.insertRange p xs)
  | .erase i p => update objs i (·.eraseOne p)
  | .eraseRange i first last => update objs i (·.erase first last)
  | .resize i n => update objs i (·.resize n)
  | .reserve i n => update objs i (·.reserve n)
  | .shrinkToFit i => update objs i (·.shrinkToFit)
  | .clear i => update objs i (·.clear)

end Program

section Vector

variable {T : Type} [Inhabited T]

/-- What each operation does to `std::vector`s, as lists of their elements.
`T{}` is `default`. -/
inductive VectorStep : List (List T) → Op T → List (List T) → Prop
  | construct (vs : List (List T)) : VectorStep vs .construct (vs ++ [[]])
  | constructSize (vs : List (List T)) (n : UInt32) :
      VectorStep vs (.constructSize n) (vs ++ [List.replicate n.toNat default])
  | constructFill (vs : List (List T)) (n : UInt32) (val : T) :
      VectorStep vs (.constructFill n val) (vs ++ [List.replicate n.toNat val])
  | constructRange (vs : List (List T)) (xs : List T) : VectorStep vs (.constructRange xs) (vs ++ [xs])
  | copyConstruct {vs : List (List T)} {src : Nat} {l : List T} (hl : vs[src]? = some l) :
      VectorStep vs (.copyConstruct src) (vs ++ [l])
  | moveConstruct {vs : List (List T)} {src : Nat} {l : List T} (hl : vs[src]? = some l) :
      VectorStep vs (.moveConstruct src) (vs.set src [] ++ [l])
  | copyAssign {vs : List (List T)} {i src : Nat} {l : List T} (hi : i < vs.length) (hl : vs[src]? = some l) :
      VectorStep vs (.copyAssign i src) (vs.set i l)
  | moveAssign {vs : List (List T)} {i src : Nat} {l : List T} (hi : i < vs.length) (hl : vs[src]? = some l)
      (rest : List T) : VectorStep vs (.moveAssign i src) ((vs.set i l).set src rest)
  | swap {vs : List (List T)} {i j : Nat} {a b : List T} (ha : vs[i]? = some a) (hb : vs[j]? = some b) :
      VectorStep vs (.swap i j) ((vs.set i b).set j a)
  | assign {vs : List (List T)} {i : Nat} (hi : i < vs.length) (n : UInt32) (val : T) :
      VectorStep vs (.assign i n val) (vs.set i (List.replicate n.toNat val))
  | assignRange {vs : List (List T)} {i : Nat} (hi : i < vs.length) (xs : List T) :
      VectorStep vs (.assignRange i xs) (vs.set i xs)
  | pushBack {vs : List (List T)} {i : Nat} {l : List T} (hl : vs[i]? = some l) (val : T) :
      VectorStep vs (.pushBack i val) (vs.set i (l ++ [val]))
  | popBack {vs : List (List T)} {i : Nat} {l : List T} (hl : vs[i]? = some l) :
      VectorStep vs (.popBack i) (vs.set i l.dropLast)
  | insert {vs : List (List T)} {i : Nat} {l : List T} (hl : vs[i]? = some l) (p : Nat) (val : T) :
      VectorStep vs (.insert i p val) (vs.set i (l.take p ++ [val] ++ l.drop p))
  | insertCount {vs : List (List T)} {i : Nat} {l : List T} (hl : vs[i]? = some l) (p : Nat) (count : UInt32)
      (val : T) : VectorStep vs (.insertCount i p count val) (vs.set i (l.take p ++ List.replicate count.toNat val ++ l.drop p))
  | insertRange {vs : List (List T)} {i : Nat} {l : List T} (hl : vs[i]? = some l) (p : Nat) (xs : List T) :
      VectorStep vs (.insertRange i p xs) (vs.set i (l.take p ++ xs ++ l.drop p))
  | erase {vs : List (List T)} {i : Nat} {l : List T} (hl : vs[i]? = some l) (p : Nat) :
      VectorStep vs (.erase i p) (vs.set i (l.eraseIdx p))
  | eraseRange {vs : List (List T)} {i : Nat} {l : List T} (hl : vs[i]? = some l) (first last : Nat) :
      VectorStep vs (.eraseRange i first last) (vs.set i (l.take first ++ l.drop last))
  | resize {vs : List (List T)} {i : Nat} {l : List T} (hl : vs[i]? = some l) (n : UInt32) :
      VectorStep vs (.resize i n) (vs.set i (l.take n.toNat ++ List.replicate (n.toNat - l.length) default))
  | reserve {vs : List (List T)} {i : Nat} (hi : i < vs.length) (n : UInt32) : VectorStep vs (.reserve i n) vs
  | shrinkToFit {vs : List (List T)} {i : Nat} (hi : i < vs.length) : VectorStep vs (.shrinkToFit i) vs
  | clear {vs : List (List T)} {i : Nat} (hi : i < vs.length) : VectorStep vs (.clear i) (vs.set i [])

/-- The preconditions `std::vector` puts on each operation, and the bound
`s + N < 2^31` on each size `s` the operation produces. -/
def VectorPre (N : UInt32) (vs : List (List T)) : Op T → Prop
  | .construct => N.toNat < 2 ^ 31
  | .constructSize n => n.toNat + N.toNat < 2 ^ 31
  | .constructFill n _ => n.toNat + N.toNat < 2 ^ 31
  | .constructRange xs => xs.length + N.toNat < 2 ^ 31
  | .copyConstruct src => src < vs.length
  | .moveConstruct src => src < vs.length
  | .copyAssign i src => i < vs.length ∧ src < vs.length
  | .moveAssign i src => i < vs.length ∧ src < vs.length
  | .swap i j => i < vs.length ∧ j < vs.length
  | .assign i n _ => i < vs.length ∧ n.toNat + N.toNat < 2 ^ 31
  | .assignRange i xs => i < vs.length ∧ xs.length + N.toNat < 2 ^ 31
  | .pushBack i _ => ∃ l, vs[i]? = some l ∧ l.length + 1 + N.toNat < 2 ^ 31
  | .popBack i => ∃ l, vs[i]? = some l ∧ l ≠ []
  | .insert i p _ => ∃ l, vs[i]? = some l ∧ p ≤ l.length ∧ l.length + 1 + N.toNat < 2 ^ 31
  | .insertCount i p count _ =>
    ∃ l, vs[i]? = some l ∧ p ≤ l.length ∧ l.length + count.toNat + N.toNat < 2 ^ 31
  | .insertRange i p xs => ∃ l, vs[i]? = some l ∧ p ≤ l.length ∧ l.length + xs.length + N.toNat < 2 ^ 31
  | .erase i p => ∃ l, vs[i]? = some l ∧ p < l.length
  | .eraseRange i first last => ∃ l, vs[i]? = some l ∧ first ≤ last ∧ last ≤ l.length
  | .resize i n => i < vs.length ∧ n.toNat + N.toNat < 2 ^ 31
  | .reserve i _ => i < vs.length
  | .shrinkToFit i => i < vs.length
  | .clear i => i < vs.length

end Vector

/-! ### One step -/

section Refinement

variable {N : UInt32} {T : Type} [Inhabited T]

/-- Every prevector of the program keeps the representation invariant. -/
def AllInv (objs : List (Prevector N T)) : Prop := ∀ o ∈ objs, o.Inv

theorem AllInv.get {objs : List (Prevector N T)} (h : AllInv objs) {i : Nat} {v : Prevector N T}
    (hv : objs[i]? = some v) : v.Inv :=
  h v (List.mem_of_getElem? hv)

theorem AllInv.set {objs : List (Prevector N T)} (h : AllInv objs) {i : Nat} {v : Prevector N T} (hv : v.Inv) :
    AllInv (objs.set i v) := fun o ho => by
  rcases List.mem_or_eq_of_mem_set ho with ho | rfl
  · exact h o ho
  · exact hv

theorem AllInv.append {objs : List (Prevector N T)} (h : AllInv objs) {v : Prevector N T} (hv : v.Inv) :
    AllInv (objs ++ [v]) := fun o ho => by
  rcases List.mem_append.1 ho with ho | ho
  · exact h o ho
  · rw [List.mem_singleton.1 ho]
    exact hv

theorem fetch_of_getElem? {objs : List (Prevector N T)} {i : Nat} {v : Prevector N T} (h : objs[i]? = some v) :
    fetch objs i = .ok v := by
  rw [fetch, h]
  rfl

/-- A vector the program reads at a position is the `toList` of the prevector there. -/
theorem getElem?_toList {objs : List (Prevector N T)} {i : Nat} {l : List T}
    (h : (objs.map Prevector.toList)[i]? = some l) : ∃ v, objs[i]? = some v ∧ v.toList = l := by
  rw [List.getElem?_map] at h
  exact Option.map_eq_some_iff.1 h

theorem getElem?_of_lt {objs : List (Prevector N T)} {i : Nat} (h : i < (objs.map Prevector.toList).length) :
    ∃ v, objs[i]? = some v ∧ (objs.map Prevector.toList)[i]? = some v.toList := by
  rw [List.length_map] at h
  exact ⟨objs[i], List.getElem?_eq_getElem h, by rw [List.getElem?_map, List.getElem?_eq_getElem h]; rfl⟩

theorem set_of_getElem? {α : Type} {l : List α} {i : Nat} {a : α} (h : l[i]? = some a) : l.set i a = l := by
  obtain ⟨hi, rfl⟩ := List.getElem?_eq_some_iff.1 h
  exact List.set_getElem_self hi

theorem update_refines {objs : List (Prevector N T)} (hobjs : AllInv objs) {i : Nat} {v : Prevector N T}
    (hv : objs[i]? = some v) {f : Prevector N T → Except Fault (Prevector N T)} {l : List T}
    (hf : ∃ v', f v = .ok v' ∧ v'.Inv ∧ v'.toList = l) :
    ∃ objs', update objs i f = .ok objs' ∧ AllInv objs' ∧
      objs'.map Prevector.toList = (objs.map Prevector.toList).set i l := by
  obtain ⟨v', hf', hv', hl⟩ := hf
  refine ⟨objs.set i v', by simp only [update, fetch_of_getElem? hv, Reader.ok_bind, hf', Reader.pure_eq_ok],
    hobjs.set hv', ?_⟩
  rw [List.map_set, hl]

theorem constructWith_refines {objs : List (Prevector N T)} (hobjs : AllInv objs)
    {c : Except Fault (Prevector N T)} {l : List T} (hc : ∃ v, c = .ok v ∧ v.Inv ∧ v.toList = l) :
    ∃ objs', constructWith objs c = .ok objs' ∧ AllInv objs' ∧
      objs'.map Prevector.toList = objs.map Prevector.toList ++ [l] := by
  obtain ⟨v, hc, hv, hl⟩ := hc
  refine ⟨objs ++ [v], by rw [constructWith, hc]; rfl, hobjs.append hv, ?_⟩
  rw [List.map_append, List.map_singleton, hl]

/-- One operation, from prevectors with the invariant and within the
preconditions, returns, keeps the invariant, and does what it does to
`std::vector`s. -/
theorem step_refines (objs : List (Prevector N T)) (op : Op T) (hobjs : AllInv objs)
    (hpre : VectorPre N (objs.map Prevector.toList) op) :
    ∃ objs', step objs op = .ok objs' ∧ AllInv objs' ∧
      VectorStep (objs.map Prevector.toList) op (objs'.map Prevector.toList) := by
  cases op with
  | construct =>
    obtain ⟨objs', h, hinv, hmap⟩ :=
      constructWith_refines hobjs ⟨_, rfl, Prevector.empty_inv (T := T) hpre, Prevector.toList_empty⟩
    exact ⟨objs', h, hinv, by rw [hmap]; exact .construct _⟩
  | constructSize n =>
    obtain ⟨objs', h, hinv, hmap⟩ := constructWith_refines hobjs (Prevector.ofSize_spec (Nat.lt_of_le_of_lt (Nat.le_add_left _ _) hpre) n hpre)
    exact ⟨objs', h, hinv, by rw [hmap]; exact .constructSize _ n⟩
  | constructFill n val =>
    obtain ⟨objs', h, hinv, hmap⟩ := constructWith_refines hobjs (Prevector.ofFill_spec (Nat.lt_of_le_of_lt (Nat.le_add_left _ _) hpre) n val hpre)
    exact ⟨objs', h, hinv, by rw [hmap]; exact .constructFill _ n val⟩
  | constructRange xs =>
    obtain ⟨objs', h, hinv, hmap⟩ := constructWith_refines hobjs (Prevector.ofRange_spec (Nat.lt_of_le_of_lt (Nat.le_add_left _ _) hpre) xs hpre)
    exact ⟨objs', h, hinv, by rw [hmap]; exact .constructRange _ xs⟩
  | copyConstruct src =>
    obtain ⟨o, ho, hl⟩ := getElem?_of_lt hpre
    obtain ⟨objs', h, hinv, hmap⟩ := constructWith_refines hobjs (Prevector.copyOf_spec (hobjs.get ho))
    refine ⟨objs', by simp only [step, fetch_of_getElem? ho, Reader.ok_bind]; exact h, hinv, ?_⟩
    rw [hmap]
    exact .copyConstruct hl
  | moveConstruct src =>
    obtain ⟨o, ho, hl⟩ := getElem?_of_lt hpre
    have hN := (hobjs.get ho).N_lt
    refine ⟨objs.set src Prevector.empty ++ [o], ?_, (hobjs.set (Prevector.empty_inv hN)).append (hobjs.get ho), ?_⟩
    · simp only [step, fetch_of_getElem? ho, Reader.ok_bind, Prevector.moveOf, Prevector.swap, Reader.pure_eq_ok]
    · rw [List.map_append, List.map_set, List.map_singleton, Prevector.toList_empty]
      exact .moveConstruct hl
  | copyAssign i src =>
    obtain ⟨v, hv, -⟩ := getElem?_of_lt hpre.1
    obtain ⟨o, ho, hl⟩ := getElem?_of_lt hpre.2
    have hself : (i == src) = true → o = v := fun h => by
      rw [beq_iff_eq.1 h, ho] at hv
      exact Option.some.inj hv
    obtain ⟨objs', h, hinv, hmap⟩ :=
      update_refines hobjs hv (f := (·.copyAssign o (i == src))) (Prevector.copyAssign_spec (hobjs.get hv) (hobjs.get ho) (i == src) hself)
    refine ⟨objs', by simp only [step, fetch_of_getElem? ho, Reader.ok_bind]; exact h, hinv, ?_⟩
    rw [hmap]
    exact .copyAssign hpre.1 hl
  | moveAssign i src =>
    obtain ⟨v, hv, -⟩ := getElem?_of_lt hpre.1
    obtain ⟨o, ho, hl⟩ := getElem?_of_lt hpre.2
    refine ⟨(objs.set i o).set src v, ?_, (hobjs.set (hobjs.get ho)).set (hobjs.get hv), ?_⟩
    · simp only [step, fetch_of_getElem? hv, fetch_of_getElem? ho, Reader.ok_bind, Prevector.moveAssign,
        Prevector.swap, Reader.pure_eq_ok]
    · rw [List.map_set, List.map_set]
      exact .moveAssign hpre.1 hl _
  | swap i j =>
    obtain ⟨v, hv, ha⟩ := getElem?_of_lt hpre.1
    obtain ⟨w, hw, hb⟩ := getElem?_of_lt hpre.2
    refine ⟨(objs.set i w).set j v, ?_, (hobjs.set (hobjs.get hw)).set (hobjs.get hv), ?_⟩
    · simp only [step, fetch_of_getElem? hv, fetch_of_getElem? hw, Reader.ok_bind, Prevector.swap,
        Reader.pure_eq_ok]
    · rw [List.map_set, List.map_set]
      exact .swap ha hb
  | assign i n val =>
    obtain ⟨v, hv, -⟩ := getElem?_of_lt hpre.1
    obtain ⟨objs', h, hinv, hmap⟩ := update_refines hobjs hv (f := (·.assign n val)) (Prevector.assign_spec (hobjs.get hv) n val hpre.2)
    exact ⟨objs', h, hinv, by rw [hmap]; exact .assign hpre.1 n val⟩
  | assignRange i xs =>
    obtain ⟨v, hv, -⟩ := getElem?_of_lt hpre.1
    obtain ⟨objs', h, hinv, hmap⟩ := update_refines hobjs hv (f := (·.assignRange xs)) (Prevector.assignRange_spec (hobjs.get hv) xs hpre.2)
    exact ⟨objs', h, hinv, by rw [hmap]; exact .assignRange hpre.1 xs⟩
  | pushBack i val =>
    obtain ⟨l, hl, hfit⟩ := hpre
    obtain ⟨v, hv, rfl⟩ := getElem?_toList hl
    obtain ⟨objs', h, hinv, hmap⟩ := update_refines hobjs hv (f := (·.pushBack val)) (Prevector.pushBack_spec (hobjs.get hv) hfit val)
    exact ⟨objs', h, hinv, by rw [hmap]; exact .pushBack hl val⟩
  | popBack i =>
    obtain ⟨l, hl, hne⟩ := hpre
    obtain ⟨v, hv, rfl⟩ := getElem?_toList hl
    obtain ⟨objs', h, hinv, hmap⟩ := update_refines hobjs hv (f := (·.popBack)) (Prevector.popBack_spec (hobjs.get hv) hne)
    exact ⟨objs', h, hinv, by rw [hmap]; exact .popBack hl⟩
  | insert i p val =>
    obtain ⟨l, hl, hp, hfit⟩ := hpre
    obtain ⟨v, hv, rfl⟩ := getElem?_toList hl
    obtain ⟨objs', h, hinv, hmap⟩ := update_refines hobjs hv (f := (·.insert p val)) (Prevector.insert_spec (hobjs.get hv) hp val hfit)
    exact ⟨objs', h, hinv, by rw [hmap]; exact .insert hl p val⟩
  | insertCount i p count val =>
    obtain ⟨l, hl, hp, hfit⟩ := hpre
    obtain ⟨v, hv, rfl⟩ := getElem?_toList hl
    obtain ⟨objs', h, hinv, hmap⟩ :=
      update_refines hobjs hv (f := (·.insertCount p count val)) (Prevector.insertCount_spec (hobjs.get hv) hp count val hfit)
    exact ⟨objs', h, hinv, by rw [hmap]; exact .insertCount hl p count val⟩
  | insertRange i p xs =>
    obtain ⟨l, hl, hp, hfit⟩ := hpre
    obtain ⟨v, hv, rfl⟩ := getElem?_toList hl
    obtain ⟨objs', h, hinv, hmap⟩ := update_refines hobjs hv (f := (·.insertRange p xs)) (Prevector.insertRange_spec (hobjs.get hv) hp xs hfit)
    exact ⟨objs', h, hinv, by rw [hmap]; exact .insertRange hl p xs⟩
  | erase i p =>
    obtain ⟨l, hl, hp⟩ := hpre
    obtain ⟨v, hv, rfl⟩ := getElem?_toList hl
    obtain ⟨objs', h, hinv, hmap⟩ := update_refines hobjs hv (f := (·.eraseOne p)) (Prevector.eraseOne_spec (hobjs.get hv) hp)
    exact ⟨objs', h, hinv, by rw [hmap]; exact .erase hl p⟩
  | eraseRange i first last =>
    obtain ⟨l, hl, hf, hla⟩ := hpre
    obtain ⟨v, hv, rfl⟩ := getElem?_toList hl
    obtain ⟨objs', h, hinv, hmap⟩ := update_refines hobjs hv (f := (·.erase first last)) (Prevector.erase_spec (hobjs.get hv) hf hla)
    exact ⟨objs', h, hinv, by rw [hmap]; exact .eraseRange hl first last⟩
  | resize i n =>
    obtain ⟨v, hv, hl⟩ := getElem?_of_lt hpre.1
    obtain ⟨objs', h, hinv, hmap⟩ := update_refines hobjs hv (f := (·.resize n)) (Prevector.resize_spec (hobjs.get hv) n hpre.2)
    exact ⟨objs', h, hinv, by rw [hmap]; exact .resize hl n⟩
  | reserve i n =>
    obtain ⟨v, hv, hl⟩ := getElem?_of_lt hpre
    obtain ⟨v', hr, hv', -, hl', -⟩ := Prevector.reserve_spec (hobjs.get hv) n
    obtain ⟨objs', h, hinv, hmap⟩ := update_refines hobjs hv (f := (·.reserve n)) ⟨v', hr, hv', hl'⟩
    refine ⟨objs', h, hinv, ?_⟩
    rw [hmap, set_of_getElem? hl]
    exact .reserve hpre n
  | shrinkToFit i =>
    obtain ⟨v, hv, hl⟩ := getElem?_of_lt hpre
    obtain ⟨objs', h, hinv, hmap⟩ := update_refines hobjs hv (f := (·.shrinkToFit)) (Prevector.shrinkToFit_spec (hobjs.get hv))
    refine ⟨objs', h, hinv, ?_⟩
    rw [hmap, set_of_getElem? hl]
    exact .shrinkToFit hpre
  | clear i =>
    obtain ⟨v, hv, -⟩ := getElem?_of_lt hpre
    obtain ⟨objs', h, hinv, hmap⟩ := update_refines hobjs hv (f := (·.clear)) (Prevector.clear_spec (hobjs.get hv))
    exact ⟨objs', h, hinv, by rw [hmap]; exact .clear hpre⟩

/-- Every admissible run from prevectors with the invariant returns, keeps the
invariant, and is read as a run of `std::vector`. -/
theorem run_refines_vector (ops : List (Op T)) (objs : List (Prevector N T)) (hobjs : AllInv objs)
    (hadm : Admissible step (fun objs op => VectorPre N (objs.map Prevector.toList) op) objs ops) :
    ∃ objs', ops.foldlM step objs = .ok objs' ∧ AllInv objs' ∧
      SpecRun VectorStep (objs.map Prevector.toList) ops (objs'.map Prevector.toList) :=
  run_refines step VectorStep (·.map Prevector.toList) AllInv _ step_refines ops objs hobjs hadm

end Refinement

/-! ### Past the bound -/

/-- `resize(2^32 - 1)` on an empty `prevector<28, unsigned char>`: the
`change_capacity` makes it indirect (`_size = 29`), and `_size += increase`
wraps to `28`, so the result is a direct prevector of 28 elements. -/
theorem resize_wraps : ∃ v : Prevector 28 UInt8, Prevector.empty.resize 4294967295 = .ok v ∧
    v.isDirect = true ∧ v.toList.length = 28 := by
  have he := Prevector.empty_inv (N := 28) (T := UInt8) (by decide)
  have hs0 : (Prevector.empty : Prevector 28 UInt8).size = 0 := by decide
  obtain ⟨v1, hc1, hv1, hs1, -, hcap1⟩ :=
    Prevector.changeCapacity_toIndirect he (by decide) (c := 4294967295) (by decide) (by rw [hs0]; decide)
  have hd1 : v1.isDirect = false := by
    cases h : v1.isDirect
    · rfl
    · simp [Prevector.capacity, h] at hcap1
  have hsz1 : v1._size = 29 := by
    have h := (hv1.indirect hd1).2.2
    rw [hs1, hs0] at h
    exact UInt32.toNat_inj.1 h
  have hr : (Prevector.empty : Prevector 28 UInt8).reserve 4294967295 = .ok v1 := by
    rw [Prevector.reserve, if_pos (by decide)]
    exact hc1
  have h1 : (Prevector.empty : Prevector 28 UInt8).size.toNat +
      (List.replicate ((4294967295 : UInt32).toNat - (Prevector.empty : Prevector 28 UInt8).size.toNat)
        (default : UInt8)).length ≤ v1.capacity := by
    rw [List.length_replicate, hcap1, hs0]
    decide
  obtain ⟨v2, hw, hsz2, hdir2⟩ : ∃ v2, v1.writeItems (Prevector.empty : Prevector 28 UInt8).size.toNat
      (List.replicate ((4294967295 : UInt32).toNat - (Prevector.empty : Prevector 28 UInt8).size.toNat) default) =
        .ok v2 ∧ v2._size = 29 ∧ v2._union.direct.length = 28 :=
    ⟨_, Prevector.writeItems_eq hv1 h1, by rw [Prevector._size_setItems, hsz1],
      by simp [Prevector.setItems, hd1, hv1.direct_length]⟩
  have hwrap : v2._size + UInt32.ofNat ((4294967295 : UInt32).toNat - (Prevector.empty : Prevector 28 UInt8).size.toNat) =
      28 := by
    rw [hsz2, hs0]
    decide
  have hd : Prevector.isDirect ({ _size := v2._size + UInt32.ofNat ((4294967295 : UInt32).toNat -
      (Prevector.empty : Prevector 28 UInt8).size.toNat), _union := v2._union } : Prevector 28 UInt8) = true := by
    rw [Prevector.isDirect_eq_true_iff]
    show (v2._size + _).toNat ≤ _
    rw [hwrap]
  refine ⟨_, ?_, hd, ?_⟩
  · simp only [Prevector.resize, show (Prevector.empty : Prevector 28 UInt8).size ≠ 4294967295 by rw [hs0]; decide,
      show ¬(Prevector.empty : Prevector 28 UInt8).size > 4294967295 by rw [hs0]; decide, ↓reduceIte, gt_iff_lt]
    rw [Prevector.reserve_bind hr]
    simp only [hw, Reader.ok_bind, Reader.pure_eq_ok]
  · rw [Prevector.toList, Prevector.items_of_isDirect hd, Prevector.size_of_isDirect hd, List.length_take]
    show min (v2._size + _).toNat v2._union.direct.length = 28
    rw [hwrap, hdir2]
    rfl

/-- The program that constructs one prevector and resizes it. -/
theorem foldlM_construct_resize {N : UInt32} {T : Type} [Inhabited T] (n : UInt32) {v : Prevector N T}
    (hr : Prevector.empty.resize n = .ok v) : [Op.construct, Op.resize 0 n].foldlM step [] = .ok [v] := by
  simp only [List.foldlM_cons, List.foldlM_nil, step, constructWith, update, Reader.pure_eq_ok, Reader.ok_bind,
    List.nil_append, fetch_of_getElem? (rfl : [(Prevector.empty : Prevector N T)][0]? = some _), hr,
    List.set_cons_zero]

/-- A `std::vector` constructed empty and resized to `2^32 - 1` holds `2^32 - 1`
elements. -/
theorem specRun_resize_max {ys : List (List UInt8)}
    (h : SpecRun VectorStep [] [Op.construct, Op.resize 0 4294967295] ys) :
    ys = [List.replicate (4294967295 : UInt32).toNat default] := by
  cases h with
  | cons h1 h2 =>
    cases h1
    cases h2 with
    | cons h3 h4 =>
      cases h3 with
      | resize hl n =>
        cases h4
        cases hl
        rw [List.nil_append, List.take_nil, List.length_nil, Nat.sub_zero, List.nil_append, List.set_cons_zero]

/-- `prevector` refines `std::vector` for every `N` and every program whose
sizes stay within `size() + N < 2^31`, with the representation invariant
kept by every prevector; and past that bound a `resize` of an empty
`prevector<28, unsigned char>` leaves 28 elements where `std::vector` holds
`2^32 - 1`. -/
theorem prevector_refines_vector :
    (∀ (N : UInt32) (T : Type) [Inhabited T] (ops : List (Op T)),
      Admissible step (fun objs op => VectorPre N (objs.map Prevector.toList) op) ([] : List (Prevector N T)) ops →
      ∃ objs' : List (Prevector N T), ops.foldlM step [] = .ok objs' ∧ AllInv objs' ∧
        SpecRun VectorStep [] ops (objs'.map Prevector.toList)) ∧
    ∃ objs' : List (Prevector 28 UInt8), [Op.construct, Op.resize 0 4294967295].foldlM step [] = .ok objs' ∧
      ¬SpecRun VectorStep [] [Op.construct, Op.resize 0 4294967295] (objs'.map Prevector.toList) := by
  refine ⟨fun N T _ ops hadm => run_refines_vector ops [] (fun _ h => absurd h List.not_mem_nil) hadm, ?_⟩
  obtain ⟨v, hr, -, hlen⟩ := resize_wraps
  refine ⟨[v], foldlM_construct_resize 4294967295 hr, fun h => ?_⟩
  have hys := specRun_resize_max h
  rw [List.map_cons, List.map_nil] at hys
  have hlen' := congrArg List.length (List.cons.inj hys).1
  rw [hlen, List.length_replicate] at hlen'
  exact absurd hlen' (by decide)

end Ring.Prevector
