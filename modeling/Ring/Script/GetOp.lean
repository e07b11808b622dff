import Ring.Lib.Wire
import Ring.Script.Script

/-!
# Reading a script back (`GetScriptOp`, src/script/script.cpp)

`GetScriptOp` reads one operation at `pc`: the opcode byte and, for a push
(an opcode up to `OP_PUSHDATA4`), the size of its operand (the opcode itself,
or a 1, 2 or 4 byte little-endian field) and the operand. It checks, before
each read, that the bytes are there, and returns false where they are not.

The model reads through `readByte` and `readBytes`, which fault at `end`, so
that a missing check would show as a fault.

Results:
* `getScriptOp_ok`: `GetScriptOp` never reads past the end of a script.
* `getScriptOp_append`: an operation read from some bytes is read the same
  from any longer bytes.
* `getScriptOp_pushData`: a push written by `operator<<` is read back as its
  push opcode (`pushOpcodeFor`) and its bytes.
* `getScriptOps_buildScript`: the operations of a script built by
  `operator<<` are read back one by one as they were written.
-/
namespace Ring.Script

open Ring.Lib

/-- What reading a script can do wrong: dereference an iterator at or past
`end`. -/
inductive ScriptReadFault where
  | readPastEnd
  deriving DecidableEq, Repr

/-- `*pc++`: the byte at `pc`; at `end` it is a fault. -/
def readByte : CScript → Except ScriptReadFault (UInt8 × CScript)
  | [] => .error .readPastEnd
  | b :: s => .ok (b, s)

/-- The `n` bytes from `pc`, and `pc` moved past them; reading past `end` is a
fault. -/
def readBytes (n : Nat) (s : CScript) : Except ScriptReadFault (List UInt8 × CScript) :=
  if n ≤ s.length then .ok (s.take n, s.drop n) else .error .readPastEnd

/-- The size of a push's immediate operand, and the bytes after its size field:
the opcode itself below `OP_PUSHDATA1`, else a 1, 2 or 4 byte little-endian
field; `none` where `GetScriptOp` finds the field cut short. -/
def pushSize (opcode : UInt8) (s : CScript) : Except ScriptReadFault (Option (Nat × CScript)) :=
  if opcode < OP_PUSHDATA1 then pure (some (opcode.toNat, s))
  else if opcode = OP_PUSHDATA1 then
    if s.length < 1 then pure none else do
      let (nSize, s) ← readByte s
      pure (some (nSize.toNat, s))
  else if opcode = OP_PUSHDATA2 then
    if s.length < 2 then pure none else do
      let (field, s) ← readBytes 2 s
      pure (some (readLE field, s))
  else if opcode = OP_PUSHDATA4 then
    if s.length < 4 then pure none else do
      let (field, s) ← readBytes 4 s
      pure (some (readLE field, s))
  else pure (some (0, s))

/-- `GetScriptOp(pc, end, opcodeRet, pvchRet)` on the bytes from `pc` to `end`:
`none` where it returns false, else the opcode, its data and the bytes after
them.
mirrors src/script/script.cpp:285-335 -/
def getScriptOp (s : CScript) : Except ScriptReadFault (Option (UInt8 × List UInt8 × CScript)) := do
  if s.length < 1 then return none
  let (opcode, s) ← readByte s
  if opcode ≤ OP_PUSHDATA4 then
    match ← pushSize opcode s with
    | none => return none
    | some (nSize, s) =>
      if s.length < nSize then return none
      let (vch, s) ← readBytes nSize s
      return some (opcode, vch, s)
  else return some (opcode, [], s)

/-- The loop `while (pc < end) GetOp(pc, opcode, vch)` that readers of a script
run, stopping where `GetOp` returns false; `fuel` bounds the rounds, and the
script's length is enough since every round takes a byte. -/
def getScriptOps : Nat → CScript → Except ScriptReadFault (Option (List (UInt8 × List UInt8)))
  | _, [] => pure (some [])
  | 0, _ :: _ => pure none
  | fuel + 1, s@(_ :: _) => do
    match ← getScriptOp s with
    | none => return none
    | some (opcode, vch, rest) => return (← getScriptOps fuel rest).map ((opcode, vch) :: ·)

/-! ## The size field -/

theorem readBytes_of_le {n : Nat} {s : CScript} (h : n ≤ s.length) :
    readBytes n s = .ok (s.take n, s.drop n) := if_pos h

/-- The three push opcodes with a size field, and the field's width. -/
def sizeFields : List (UInt8 × Nat) := [(OP_PUSHDATA1, 1), (OP_PUSHDATA2, 2), (OP_PUSHDATA4, 4)]

/-- Every byte is a push of its own size, a push with a size field, or no push. -/
theorem opcode_cases (opcode : UInt8) :
    opcode < OP_PUSHDATA1 ∨ (∃ w, (opcode, w) ∈ sizeFields) ∨ OP_PUSHDATA4 < opcode := by
  have hbyte : ∀ n < 256, n < 0x4c ∨ n = 0x4c ∨ n = 0x4d ∨ n = 0x4e ∨ 0x4e < n := by omega
  rcases hbyte opcode.toNat opcode.toNat_lt with h | h | h | h | h
  · exact .inl (UInt8.lt_iff_toNat_lt.mpr h)
  · exact .inr (.inl ⟨1, by simp [sizeFields, ← UInt8.toNat_inj, h]; rfl⟩)
  · exact .inr (.inl ⟨2, by simp [sizeFields, ← UInt8.toNat_inj, h]; rfl⟩)
  · exact .inr (.inl ⟨4, by simp [sizeFields, ← UInt8.toNat_inj, h]; rfl⟩)
  · exact .inr (.inr (UInt8.lt_iff_toNat_lt.mpr h))

theorem pushSize_of_lt {opcode : UInt8} (h : opcode < OP_PUSHDATA1) (s : CScript) :
    pushSize opcode s = .ok (some (opcode.toNat, s)) := by
  rw [pushSize, if_pos h]
  rfl

/-- A size field is read where it is whole. -/
theorem pushSize_field {opcode : UInt8} {w : Nat} (hw : (opcode, w) ∈ sizeFields) (s : CScript) :
    pushSize opcode s = .ok (if s.length < w then none else some (readLE (s.take w), s.drop w)) := by
  simp only [sizeFields, List.mem_cons, Prod.mk.injEq, List.not_mem_nil, or_false] at hw
  rcases hw with ⟨rfl, rfl⟩ | ⟨rfl, rfl⟩ | ⟨rfl, rfl⟩
  · cases s with
    | nil => rfl
    | cons b s => simp [pushSize, readByte, readLE, OP_PUSHDATA1]
  · rw [pushSize, if_neg (by decide), if_neg (by decide), if_pos rfl]
    by_cases hs : s.length < 2
    · rw [if_pos hs, if_pos hs]
      rfl
    · rw [if_neg hs, if_neg hs, readBytes_of_le (by omega)]
      rfl
  · rw [pushSize, if_neg (by decide), if_neg (by decide), if_neg (by decide), if_pos rfl]
    by_cases hs : s.length < 4
    · rw [if_pos hs, if_pos hs]
      rfl
    · rw [if_neg hs, if_neg hs, readBytes_of_le (by omega)]
      rfl

theorem pushSize_of_gt {opcode : UInt8} (h : OP_PUSHDATA4 < opcode) (s : CScript) :
    pushSize opcode s = .ok (some (0, s)) := by
  have hn : 0x4e < opcode.toNat := UInt8.lt_iff_toNat_lt.mp h
  have hne : ∀ c : UInt8, c.toNat ≤ 0x4e → opcode ≠ c := fun c hc he => by subst he; omega
  rw [pushSize, if_neg (fun hlt => absurd (UInt8.lt_iff_toNat_lt.mp hlt) (by simp [OP_PUSHDATA1]; omega)),
    if_neg (hne _ (by decide)), if_neg (hne _ (by decide)), if_neg (hne _ (by decide))]
  rfl

/-- `pushSize` checks each size field's length before it reads it. -/
theorem pushSize_ok (opcode : UInt8) (s : CScript) : ∃ r, pushSize opcode s = .ok r := by
  rcases opcode_cases opcode with h | ⟨w, hw⟩ | h
  · exact ⟨_, pushSize_of_lt h s⟩
  · exact ⟨_, pushSize_field hw s⟩
  · exact ⟨_, pushSize_of_gt h s⟩

/-- A size field read from some bytes is read the same from any longer bytes. -/
theorem pushSize_append {opcode : UInt8} {s u r : CScript} {n : Nat}
    (h : pushSize opcode s = .ok (some (n, r))) : pushSize opcode (s ++ u) = .ok (some (n, r ++ u)) := by
  rcases opcode_cases opcode with hlt | ⟨w, hw⟩ | hgt
  · rw [pushSize_of_lt hlt] at h ⊢
    cases h
    rfl
  · rw [pushSize_field hw] at h ⊢
    split_ifs at h with hs
    · cases h
    · cases h
      rw [if_neg (by simp; omega), List.take_append_of_le_length (by omega),
        List.drop_append_of_le_length (by omega)]
  · rw [pushSize_of_gt hgt] at h ⊢
    cases h
    rfl

/-! ## One operation -/

theorem getScriptOp_nil : getScriptOp [] = .ok none := rfl

theorem getScriptOp_of_gt {opcode : UInt8} (h : OP_PUSHDATA4 < opcode) (s : CScript) :
    getScriptOp (opcode :: s) = .ok (some (opcode, [], s)) := by
  simp [getScriptOp, readByte, UInt8.not_le.mpr h]

/-- A push, once its size field is read: the operand, where it is whole. -/
theorem getScriptOp_of_le {opcode : UInt8} (h : opcode ≤ OP_PUSHDATA4) {s : CScript}
    {x : Option (Nat × CScript)} (hs : pushSize opcode s = .ok x) :
    getScriptOp (opcode :: s) =
      .ok (x.bind fun (nSize, r) => if r.length < nSize then none else some (opcode, r.take nSize, r.drop nSize)) := by
  simp [getScriptOp, readByte, h, hs]
  rcases x with _ | ⟨nSize, r⟩
  · rfl
  · by_cases hr : r.length < nSize
    · simp [hr]
    · simp [hr, readBytes_of_le (Nat.not_lt.mp hr)]

/-- `GetScriptOp` checks that the bytes are there before each read. -/
theorem getScriptOp_ok (s : CScript) : ∃ r, getScriptOp s = .ok r := by
  cases s with
  | nil => exact ⟨_, getScriptOp_nil⟩
  | cons opcode s =>
    by_cases h : opcode ≤ OP_PUSHDATA4
    · obtain ⟨x, hx⟩ := pushSize_ok opcode s
      exact ⟨_, getScriptOp_of_le h hx⟩
    · exact ⟨_, getScriptOp_of_gt (UInt8.not_le.mp h) s⟩

/-- An operation read from some bytes is read the same from any longer bytes. -/
theorem getScriptOp_append {s u rest vch : CScript} {opcode : UInt8}
    (h : getScriptOp s = .ok (some (opcode, vch, rest))) :
    getScriptOp (s ++ u) = .ok (some (opcode, vch, rest ++ u)) := by
  cases s with
  | nil => cases h
  | cons b s =>
    by_cases hb : b ≤ OP_PUSHDATA4
    · obtain ⟨x, hx⟩ := pushSize_ok b s
      rw [getScriptOp_of_le hb hx] at h
      rcases x with _ | ⟨nSize, r⟩
      · cases h
      simp only [Option.bind_some] at h
      split_ifs at h with hr
      · cases h
      cases h
      rw [List.cons_append, getScriptOp_of_le hb (pushSize_append hx)]
      simp only [Option.bind_some, List.length_append]
      rw [if_neg (by omega), List.take_append_of_le_length (by omega),
        List.drop_append_of_le_length (by omega)]
    · rw [getScriptOp_of_gt (UInt8.not_le.mp hb)] at h
      cases h
      exact getScriptOp_of_gt (UInt8.not_le.mp hb) _

/-- The bytes after a size field are among those before it. -/
theorem length_pushSize_le {opcode : UInt8} {s r : CScript} {nSize : Nat}
    (h : pushSize opcode s = .ok (some (nSize, r))) : r.length ≤ s.length := by
  rcases opcode_cases opcode with hlt | ⟨w, hw⟩ | hgt
  · rw [pushSize_of_lt hlt] at h
    cases h
    exact Nat.le_refl _
  · rw [pushSize_field hw] at h
    split_ifs at h
    · cases h
    · cases h
      simp
  · rw [pushSize_of_gt hgt] at h
    cases h
    exact Nat.le_refl _

/-- Every operation read takes at least its opcode's byte, so the loops over
a script's operations end. -/
theorem length_lt_of_getScriptOp {s rest vch : CScript} {opcode : UInt8}
    (h : getScriptOp s = .ok (some (opcode, vch, rest))) : rest.length < s.length := by
  cases s with
  | nil => cases h
  | cons b s =>
    by_cases hb : b ≤ OP_PUSHDATA4
    · obtain ⟨x, hx⟩ := pushSize_ok b s
      rw [getScriptOp_of_le hb hx] at h
      rcases x with _ | ⟨nSize, r⟩
      · cases h
      have hr := length_pushSize_le hx
      simp only [Option.bind_some] at h
      split_ifs at h
      · cases h
      simp only [Except.ok.injEq, Option.some.injEq, Prod.mk.injEq] at h
      obtain ⟨-, -, rfl⟩ := h
      simp only [List.length_drop, List.length_cons]
      omega
    · rw [getScriptOp_of_gt (UInt8.not_le.mp hb)] at h
      simp only [Except.ok.injEq, Option.some.injEq, Prod.mk.injEq] at h
      obtain ⟨-, -, rfl⟩ := h
      simp

/-- A push whose size field gives the length of the bytes after it. -/
theorem getScriptOp_of_pushSize {opcode : UInt8} (h : opcode ≤ OP_PUSHDATA4) {s vch rest : CScript}
    (hs : pushSize opcode s = .ok (some (vch.length, vch ++ rest))) :
    getScriptOp (opcode :: s) = .ok (some (opcode, vch, rest)) := by
  rw [getScriptOp_of_le h hs]
  simp

theorem le_of_mem_sizeFields {opcode : UInt8} {w : Nat} (hw : (opcode, w) ∈ sizeFields) :
    opcode ≤ OP_PUSHDATA4 := by
  simp only [sizeFields, List.mem_cons, Prod.mk.injEq, List.not_mem_nil, or_false] at hw
  rcases hw with ⟨rfl, -⟩ | ⟨rfl, -⟩ | ⟨rfl, -⟩ <;> decide

/-- The push opcode `operator<<` starts a push of `n` bytes with: the length
itself below 76 bytes, else `OP_PUSHDATA1`, `OP_PUSHDATA2` or `OP_PUSHDATA4`
from 76, 256 and 65536 bytes on. -/
def pushOpcodeFor (n : Nat) : UInt8 :=
  if n < 76 then UInt8.ofNat n
  else if n < 256 then OP_PUSHDATA1
  else if n < 65536 then OP_PUSHDATA2
  else OP_PUSHDATA4

/-- A push written by `operator<<` is read back as its push opcode and its
bytes, whatever follows it. -/
theorem getScriptOp_pushData (b rest : List UInt8) (hb : b.length < 2 ^ 32) :
    getScriptOp (pushData [] b ++ rest) = .ok (some (pushOpcodeFor b.length, b, rest)) := by
  -- a size field of width `w` written in front of the bytes
  have hfield : ∀ {opcode : UInt8} {w : Nat}, (opcode, w) ∈ sizeFields → b.length < 256 ^ w →
      getScriptOp (opcode :: (writeLE w b.length ++ b ++ rest)) = .ok (some (opcode, b, rest)) := by
    intro opcode w hw hlt
    apply getScriptOp_of_pushSize (le_of_mem_sizeFields hw)
    rw [pushSize_field hw, if_neg (by simp), List.append_assoc, List.take_left' (by simp),
      List.drop_left' (by simp), readLE_writeLE_of_lt hlt]
  rcases (show b.length < 76 ∨ (76 ≤ b.length ∧ b.length ≤ 0xff) ∨
      (0xff < b.length ∧ b.length ≤ 0xffff) ∨ 0xffff < b.length by omega) with h | ⟨h1, h2⟩ | ⟨h1, h2⟩ | h
  · have hop : UInt8.ofNat b.length < OP_PUSHDATA1 := by
      rw [UInt8.lt_iff_toNat_lt, UInt8.toNat_ofNat', Nat.mod_eq_of_lt (by omega)]; exact h
    have hlen : (UInt8.ofNat b.length).toNat = b.length := by
      rw [UInt8.toNat_ofNat', Nat.mod_eq_of_lt (by omega)]
    rw [pushData, if_pos (show b.length < OP_PUSHDATA1.toNat from h), pushOpcodeFor, if_pos h]
    apply getScriptOp_of_pushSize (UInt8.le_iff_toNat_le.mpr (by simp [OP_PUSHDATA4, hlen]; omega))
    rw [pushSize_of_lt hop, hlen]
    rfl
  · have hone : [UInt8.ofNat b.length] = writeLE 1 b.length := by
      simp [writeLE, Nat.mod_eq_of_lt (show b.length < 256 by omega)]
    rw [pushData, if_neg (show ¬ b.length < OP_PUSHDATA1.toNat by simp [OP_PUSHDATA1]; omega), if_pos h2,
      pushOpcodeFor, if_neg (by omega), if_pos (by omega), List.nil_append, List.cons_append, hone]
    exact hfield (by simp [sizeFields]) (by simp; omega)
  · rw [pushData, if_neg (show ¬ b.length < OP_PUSHDATA1.toNat by simp [OP_PUSHDATA1]; omega),
      if_neg (by omega), if_pos h2, pushOpcodeFor, if_neg (by omega), if_neg (by omega), if_pos (by omega),
      List.nil_append, List.cons_append]
    exact hfield (by simp [sizeFields]) (by simp; omega)
  · rw [pushData, if_neg (show ¬ b.length < OP_PUSHDATA1.toNat by simp [OP_PUSHDATA1]; omega),
      if_neg (by omega), if_neg (by omega), pushOpcodeFor, if_neg (by omega), if_neg (by omega),
      if_neg (by omega), List.nil_append, List.cons_append]
    exact hfield (by simp [sizeFields]) (by simpa using hb)

/-- A push cut short anywhere is refused. -/
theorem getScriptOp_truncated (b : List UInt8) (hb : b.length < 2 ^ 32) {k : Nat}
    (hk : k < (pushData [] b).length) : getScriptOp ((pushData [] b).take k) = .ok none := by
  obtain ⟨r, hr⟩ := getScriptOp_ok ((pushData [] b).take k)
  rcases r with _ | ⟨opcode, vch, rest⟩
  · exact hr
  -- an operation read from the prefix is read the same from the whole push, with bytes left over
  · have hwhole := getScriptOp_append (u := (pushData [] b).drop k) hr
    have hpush := getScriptOp_pushData b [] hb
    rw [List.append_nil] at hpush
    rw [List.take_append_drop, hpush] at hwhole
    simp only [Except.ok.injEq, Option.some.injEq, Prod.mk.injEq] at hwhole
    have hdrop := (List.append_eq_nil_iff.mp hwhole.2.2.symm).2
    simp at hdrop
    omega

/-! ## Scripts built by `operator<<` -/

/-- What `operator<<` appends to a script: an opcode, or a byte vector pushed
as data. -/
inductive ScriptItem where
  | opcode (op : UInt8)
  | data (b : List UInt8)
  deriving DecidableEq, Repr

/-- `script << item`. -/
def ScriptItem.push (s : CScript) : ScriptItem → CScript
  | .opcode op => pushOpcode s op
  | .data b => pushData s b

/-- `CScript() << item₁ << item₂ << …`. -/
def buildScript (items : List ScriptItem) : CScript := items.foldl ScriptItem.push []

/-- What `GetScriptOp` reads back for an item: the opcode with no data, or the
push opcode with the bytes. -/
def ScriptItem.parsed : ScriptItem → UInt8 × List UInt8
  | .opcode op => (op, [])
  | .data b => (pushOpcodeFor b.length, b)

/-- An opcode above `OP_PUSHDATA4`, or data shorter than `2 ^ 32` bytes (the
length `WriteLE32` writes whole). -/
def ScriptItem.Pushable : ScriptItem → Prop
  | .opcode op => OP_PUSHDATA4 < op
  | .data b => b.length < 2 ^ 32

theorem ScriptItem.push_eq (s : CScript) (it : ScriptItem) : it.push s = s ++ it.push [] := by
  cases it <;> simp [ScriptItem.push, pushOpcode, pushData]

theorem foldl_push (items : List ScriptItem) (s : CScript) :
    items.foldl ScriptItem.push s = s ++ buildScript items := by
  induction items generalizing s with
  | nil => simp [buildScript]
  | cons it items ih =>
    simp only [buildScript, List.foldl_cons] at ih ⊢
    rw [ih, ih (it.push []), ScriptItem.push_eq, List.append_assoc]

theorem buildScript_cons (it : ScriptItem) (items : List ScriptItem) :
    buildScript (it :: items) = it.push [] ++ buildScript items := by
  rw [buildScript, List.foldl_cons, foldl_push]

theorem ScriptItem.push_ne_nil (it : ScriptItem) : it.push [] ≠ [] := by
  cases it <;> simp [ScriptItem.push, pushOpcode, pushData]
  split_ifs <;> simp

theorem length_buildScript_ge (items : List ScriptItem) : items.length ≤ (buildScript items).length := by
  induction items with
  | nil => simp
  | cons it items ih =>
    have := List.length_pos_of_ne_nil it.push_ne_nil
    rw [buildScript_cons, List.length_append, List.length_cons]
    omega

/-- One item, read back from the front of a script. -/
theorem getScriptOp_item {it : ScriptItem} (h : it.Pushable) (rest : CScript) :
    getScriptOp (it.push [] ++ rest) = .ok (some (it.parsed.1, it.parsed.2, rest)) := by
  cases it with
  | opcode op => exact getScriptOp_of_gt h rest
  | data b => exact getScriptOp_pushData b rest h

/-- The reading loop takes a script apart item by item, given a round per item. -/
theorem getScriptOps_buildScript_of_le (items : List ScriptItem) (h : ∀ it ∈ items, it.Pushable)
    (fuel : Nat) (hfuel : items.length ≤ fuel) :
    getScriptOps fuel (buildScript items) = .ok (some (items.map ScriptItem.parsed)) := by
  induction items generalizing fuel with
  | nil => cases fuel <;> rfl
  | cons it items ih =>
    obtain ⟨fuel, rfl⟩ : ∃ f, fuel = f + 1 := ⟨fuel - 1, by simp at hfuel; omega⟩
    have hrest := ih (fun it' hit' => h it' (List.mem_cons_of_mem _ hit')) fuel (by simp at hfuel; omega)
    have hop := getScriptOp_item (h it List.mem_cons_self) (buildScript items)
    rw [buildScript_cons]
    obtain ⟨b, t, hbt⟩ := List.exists_cons_of_ne_nil (List.append_ne_nil_of_left_ne_nil it.push_ne_nil
      (buildScript items))
    rw [hbt] at hop ⊢
    simp only [getScriptOps, hop, Reader.ok_bind, hrest, List.map_cons]
    rfl

/-- Script pushes decode as encoded: a script built by `operator<<` from
opcodes above `OP_PUSHDATA4` and data shorter than `2 ^ 32` bytes is read back
by repeated `GetScriptOp` as exactly those items, each push as its push opcode
and its bytes; `GetScriptOp` never reads past the end of any bytes, and it
returns false on every push cut short. -/
theorem scriptPushes_roundTrip :
    (∀ items : List ScriptItem, (∀ it ∈ items, it.Pushable) →
      getScriptOps (buildScript items).length (buildScript items) =
        .ok (some (items.map ScriptItem.parsed))) ∧
    (∀ s : CScript, ∃ r, getScriptOp s = .ok r) ∧
    (∀ b : List UInt8, b.length < 2 ^ 32 → ∀ k < (pushData [] b).length,
      getScriptOp ((pushData [] b).take k) = .ok none) :=
  ⟨fun items h => getScriptOps_buildScript_of_le items h _ (length_buildScript_ge items),
    getScriptOp_ok, fun b hb _ hk => getScriptOp_truncated b hb hk⟩

example : getScriptOps 4 (buildScript [.opcode OP_RETURN, .data [1, 2]]) =
    .ok (some [(OP_RETURN, []), (2, [1, 2])]) := by decide

end Ring.Script
