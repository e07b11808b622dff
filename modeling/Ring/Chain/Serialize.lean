import Ring.Lib.Wire
import Ring.Chain.Block

/-!
# The transaction wire format (`SerializeTransaction` / `UnserializeTransaction`)

The node's serialization of transactions (src/primitives/transaction.h,
src/serialize.h) on the model's byte lists. Sizes are `CompactSize`s in their
shortest form, at most `MAX_SIZE`; fixed-width numbers are little endian; a
vector is its size and then its elements. A transaction is written in the
basic format (`nVersion`, `vin`, `vout`, `nLockTime`) or, when witnesses are
allowed and some input has one, in the extended format: an empty `vin` as a
marker, the flags byte `1`, then `vin`, `vout`, every input's witness stack,
and `nLockTime`. The reader takes an empty `vin` for the marker when witnesses
are allowed.

Results:
* `readCompactSize_readsBack`, `readCompactSize_canonical`: `ReadCompactSize`
  and `WriteCompactSize` are inverse on sizes up to `MAX_SIZE`, and every
  other encoding is refused.
* `unserializeTransaction_witness`: with witnesses, a transaction with inputs
  whose vectors fit `MAX_SIZE` is read back as itself;
  `unserializeTransaction_noWitness`: without witnesses, every such
  transaction is read back without its witnesses.
* `serializeTransaction_extended_iff`: for a transaction with inputs the
  extended format is written exactly when some input has a witness.
* `serializeTransaction_of_unserialize`: every byte string the reader accepts
  is the writer's output for what it read.
* `unserializeTransaction_empty_vin`: with witnesses, a transaction with no
  input and some output is not read back.
-/
namespace Ring.Chain

open Ring.Lib Ring.Lib.Reader Ring.Arith Ring.Script

/-- `MAX_SIZE`.
mirrors src/serialize.h:27 -/
def MAX_SIZE : Nat := 0x02000000

/-- `WriteCompactSize`.
mirrors src/serialize.h:252-275 -/
def writeCompactSize (n : Nat) : List UInt8 :=
  if n < 253 then [UInt8.ofNat n]
  else if n ≤ 0xffff then 253 :: writeLE 2 n
  else if n ≤ 0xffffffff then 254 :: writeLE 4 n
  else 255 :: writeLE 8 n

/-- The failure of `CDataStream::read` past the end of the data. -/
def endOfData : String := "CDataStream::read(): end of data"

/-- A reader of a `CDataStream`. -/
abbrev StreamReader (α : Type) := Reader UInt8 String α

/-- `ser_readdata8/16/32/64`: `n` bytes, least significant first.
mirrors src/serialize.h:96-118 -/
def serReadData (n : Nat) : StreamReader Nat := fun s => do
  let (b, s) ← readTake endOfData n s
  return (readLE b.val, s)

/-- The payload after a `CompactSize` marker: `n` bytes, refused when a
shorter form holds the value.
mirrors src/serialize.h:287-303 -/
def readCompactPayload (n least : Nat) : StreamReader Nat := fun s => do
  let (v, s) ← serReadData n s
  if v < least then throw "non-canonical ReadCompactSize()"
  return (v, s)

/-- The size a `CompactSize` with first byte `chSize` holds.
mirrors src/serialize.h:282-303 -/
def readCompactValue (chSize : Nat) : StreamReader Nat := fun s =>
  if chSize < 253 then .ok (chSize, s)
  else if chSize = 253 then readCompactPayload 2 253 s
  else if chSize = 254 then readCompactPayload 4 0x10000 s
  else readCompactPayload 8 0x100000000 s

/-- `ReadCompactSize`.
mirrors src/serialize.h:277-307 -/
def readCompactSize : StreamReader Nat := fun s => do
  let (chSize, s) ← serReadData 1 s
  let (nSizeRet, s) ← readCompactValue chSize s
  if nSizeRet > MAX_SIZE then throw "ReadCompactSize(): size too large"
  return (nSizeRet, s)

/-- `Serialize` of a `std::vector` or `prevector` of `unsigned char` (a
`CScript`, a witness element): its size, then its bytes.
mirrors src/serialize.h:629-634 -/
def serializeBytes (v : List UInt8) : List UInt8 := writeCompactSize v.length ++ v

/-- `Unserialize` of a vector of `unsigned char`. The source reads the bytes in
blocks of at most 5 MB, which ends as one read of them all does.
mirrors src/serialize.h:652-665 -/
def unserializeBytes : StreamReader (List UInt8) := fun s => do
  let (nSize, s) ← readCompactSize s
  let (v, s) ← readTake endOfData nSize s
  return (v.val, s)

/-- `Serialize` of a vector of other elements: its size, then each element.
mirrors src/serialize.h:705-711 -/
def serializeVector {α : Type} (w : α → List UInt8) (v : List α) : List UInt8 :=
  writePrefixed writeCompactSize w v

/-- `Unserialize` of a vector of other elements.
mirrors src/serialize.h:736-752 -/
def unserializeVector {α : Type} (r : StreamReader α) : StreamReader (List α) :=
  readPrefixed readCompactSize r

/-- `COutPoint::SerializationOp`: the hash's 32 bytes, then `n`.
mirrors src/primitives/transaction.h:34-37 -/
def COutPoint.serialize (o : COutPoint) : List UInt8 := o.hash.data ++ writeLE 4 o.n.toNat

def COutPoint.unserialize : StreamReader COutPoint := fun s => do
  let (hash, s) ← readTake endOfData 32 s
  let (n, s) ← serReadData 4 s
  return (⟨⟨hash.val, hash.property⟩, UInt32.ofNat n⟩, s)

/-- `CTxIn::SerializationOp`: the witness is not part of an input's own
serialization.
mirrors src/primitives/transaction.h:111-115 -/
def CTxIn.serialize (i : CTxIn) : List UInt8 :=
  i.prevout.serialize ++ serializeBytes i.scriptSig ++ writeLE 4 i.nSequence.toNat

def CTxIn.unserialize : StreamReader CTxIn := fun s => do
  let (prevout, s) ← COutPoint.unserialize s
  let (scriptSig, s) ← unserializeBytes s
  let (nSequence, s) ← serReadData 4 s
  return (⟨prevout, scriptSig, UInt32.ofNat nSequence, ⟨[]⟩⟩, s)

/-- The bits of an `int64_t` as a `uint64_t` (two's complement). -/
def int64Bits (x : Int) : Nat := (x % 2 ^ 64).toNat

/-- The `int64_t` of a `uint64_t`'s bits. -/
def toInt64 (n : Nat) : Int := if n < 2 ^ 63 then n else n - 2 ^ 64

/-- `CTxOut::SerializationOp`: the `int64_t` amount, then the script.
mirrors src/primitives/transaction.h:151-154 -/
def CTxOut.serialize (o : CTxOut) : List UInt8 :=
  writeLE 8 (int64Bits o.nValue) ++ serializeBytes o.scriptPubKey

def CTxOut.unserialize : StreamReader CTxOut := fun s => do
  let (nValue, s) ← serReadData 8 s
  let (scriptPubKey, s) ← unserializeBytes s
  return (⟨toInt64 nValue, scriptPubKey⟩, s)

/-- The serialization of a witness stack (`scriptWitness.stack`). -/
def serializeWitnessStack (stack : List (List UInt8)) : List UInt8 :=
  serializeVector serializeBytes stack

def unserializeWitnessStack : StreamReader (List (List UInt8)) :=
  unserializeVector unserializeBytes

/-- The inputs with the witness stacks read for them, one stack per input. -/
def setWitnesses (vin : List CTxIn) (witStacks : List (List (List UInt8))) : List CTxIn :=
  List.zipWith (fun i stack => { i with scriptWitness := ⟨stack⟩ }) vin witStacks

/-- `SerializeTransaction`.
mirrors src/primitives/transaction.h:239-266 -/
def serializeTransaction (fAllowWitness : Bool) (tx : CTransaction) : List UInt8 :=
  let flags : UInt8 := if fAllowWitness && tx.hasWitness then 1 else 0
  writeLE 4 tx.nVersion.toUInt32.toNat ++
    (if flags != 0 then serializeVector CTxIn.serialize [] ++ [flags] else []) ++
    serializeVector CTxIn.serialize tx.vin ++ serializeVector CTxOut.serialize tx.vout ++
    (if flags &&& 1 != 0 then tx.vin.flatMap fun i => serializeWitnessStack i.scriptWitness.stack
      else []) ++
    writeLE 4 tx.nLockTime.toNat

/-- The witness stacks of `UnserializeTransaction`, read when the flags ask
for them and refused when all are empty, with the flags left over.
mirrors src/primitives/transaction.h:221-231 -/
def unserializeWitnesses (fAllowWitness : Bool) (flags : UInt8) (tx : CTransaction) :
    StreamReader (CTransaction × UInt8) := fun s =>
  if flags &&& 1 != 0 && fAllowWitness then do
    let (witStacks, s) ← readCount unserializeWitnessStack tx.vin.length s
    if !({ tx with vin := setWitnesses tx.vin witStacks } : CTransaction).hasWitness then
      throw "Superfluous witness record"
    return (({ tx with vin := setWitnesses tx.vin witStacks }, flags ^^^ 1), s)
  else .ok ((tx, flags), s)

/-- The end of `UnserializeTransaction` once `vout` is read: the witness
stacks, the refusal of any other flag, and `nLockTime`.
mirrors src/primitives/transaction.h:221-236 -/
def unserializeTail (fAllowWitness : Bool) (flags : UInt8) (tx : CTransaction) :
    StreamReader CTransaction := fun s => do
  let ((tx, flags), s) ← unserializeWitnesses fAllowWitness flags tx s
  if flags != 0 then throw "Unknown transaction optional data"
  let (nLockTime, s) ← serReadData 4 s
  return ({ tx with nLockTime := UInt32.ofNat nLockTime }, s)

/-- `UnserializeTransaction`: an empty `vin` is the extended format's marker
when witnesses are allowed.
mirrors src/primitives/transaction.h:200-237 -/
def unserializeTransaction (fAllowWitness : Bool) : StreamReader CTransaction := fun s => do
  let (nVersion, s) ← serReadData 4 s
  let (vin, s) ← unserializeVector CTxIn.unserialize s
  if vin.isEmpty && fAllowWitness then
    let (flags, s) ← serReadData 1 s
    if flags != 0 then
      let (vin, s) ← unserializeVector CTxIn.unserialize s
      let (vout, s) ← unserializeVector CTxOut.unserialize s
      unserializeTail fAllowWitness (UInt8.ofNat flags) ⟨(UInt32.ofNat nVersion).toInt32, vin, vout, 0⟩ s
    else
      unserializeTail fAllowWitness 0 ⟨(UInt32.ofNat nVersion).toInt32, vin, [], 0⟩ s
  else
    let (vout, s) ← unserializeVector CTxOut.unserialize s
    unserializeTail fAllowWitness 0 ⟨(UInt32.ofNat nVersion).toInt32, vin, vout, 0⟩ s

/-! ## What the format carries -/

/-- A byte vector whose size `ReadCompactSize` accepts. -/
def BytesFit (v : List UInt8) : Prop := v.length ≤ MAX_SIZE

/-- A vector whose size `ReadCompactSize` accepts, of elements that fit. -/
def VectorFits {α : Type} (fits : α → Prop) (v : List α) : Prop :=
  PrefixedOk (· ≤ MAX_SIZE) fits v

def CTxIn.Fits (i : CTxIn) : Prop := BytesFit i.scriptSig ∧ VectorFits BytesFit i.scriptWitness.stack

/-- An input as its own serialization carries it: no witness. -/
def CTxIn.Bare (i : CTxIn) : Prop := BytesFit i.scriptSig ∧ i.scriptWitness.stack = []

/-- An output whose amount is an `int64_t` and whose script fits. -/
def CTxOut.Fits (o : CTxOut) : Prop := -2 ^ 63 ≤ o.nValue ∧ o.nValue < 2 ^ 63 ∧ BytesFit o.scriptPubKey

/-- A transaction every vector of which fits `MAX_SIZE`, with `int64_t` amounts. -/
def CTransaction.Fits (tx : CTransaction) : Prop := VectorFits CTxIn.Fits tx.vin ∧ VectorFits CTxOut.Fits tx.vout

instance : DecidablePred BytesFit := fun v => inferInstanceAs (Decidable (v.length ≤ MAX_SIZE))

instance {α : Type} (fits : α → Prop) [DecidablePred fits] : DecidablePred (VectorFits fits) :=
  fun v => inferInstanceAs (Decidable (v.length ≤ MAX_SIZE ∧ ∀ x ∈ v, fits x))

instance : DecidablePred CTxIn.Fits := fun i =>
  inferInstanceAs (Decidable (BytesFit i.scriptSig ∧ VectorFits BytesFit i.scriptWitness.stack))

instance : DecidablePred CTxOut.Fits := fun o =>
  inferInstanceAs (Decidable (-2 ^ 63 ≤ o.nValue ∧ o.nValue < 2 ^ 63 ∧ BytesFit o.scriptPubKey))

instance : DecidablePred CTransaction.Fits := fun tx =>
  inferInstanceAs (Decidable (VectorFits CTxIn.Fits tx.vin ∧ VectorFits CTxOut.Fits tx.vout))

/-- The input without its witness. -/
def CTxIn.stripWitness (i : CTxIn) : CTxIn := { i with scriptWitness := ⟨[]⟩ }

/-- The transaction without its witnesses. -/
def CTransaction.stripWitness (tx : CTransaction) : CTransaction :=
  { tx with vin := tx.vin.map CTxIn.stripWitness }

/-! ## Numbers and sizes -/

theorem serReadData_readsBack (n : Nat) : ReadsBack (serReadData n) (writeLE n) (· < 256 ^ n) := by
  intro v rest hv
  have hb := readTake_readsBack (τ := UInt8) endOfData n ⟨writeLE n v, length_writeLE n v⟩ rest trivial
  simp only at hb
  simp [serReadData, hb, readLE_writeLE_of_lt hv]

theorem serReadData_canonical (n : Nat) : Canonical (serReadData n) (writeLE n) (· < 256 ^ n) := by
  intro s v rest h
  obtain ⟨⟨b, s₁⟩, hb, h⟩ := bind_eq_ok.mp h
  simp only [pure_eq_ok, Except.ok.injEq, Prod.mk.injEq] at h
  obtain ⟨rfl, rfl⟩ := h
  obtain ⟨-, hs⟩ := readTake_canonical endOfData n s b s₁ hb
  have hw := writeLE_readLE b.val
  have hlt := readLE_lt b.val
  rw [b.property] at hw hlt
  exact ⟨hlt, by rw [hw, hs]⟩

theorem readCompactPayload_readsBack (n least : Nat) :
    ReadsBack (readCompactPayload n least) (writeLE n) (fun v => least ≤ v ∧ v < 256 ^ n) := by
  rintro v rest ⟨hle, hv⟩
  have hr := serReadData_readsBack n v rest hv
  simp [readCompactPayload, hr, Nat.not_lt.mpr hle]

theorem readCompactPayload_canonical (n least : Nat) :
    Canonical (readCompactPayload n least) (writeLE n) (fun v => least ≤ v ∧ v < 256 ^ n) := by
  intro s v rest h
  obtain ⟨⟨v₁, s₁⟩, hv, h⟩ := bind_eq_ok.mp h
  obtain ⟨hlt, hs⟩ := serReadData_canonical n s v₁ s₁ hv
  by_cases hleast : v₁ < least
  · simp [hleast] at h
  · simp only [hleast, if_false] at h
    simp only [pure_eq_ok, Except.ok.injEq, Prod.mk.injEq] at h
    obtain ⟨rfl, rfl⟩ := h
    exact ⟨⟨Nat.not_lt.mp hleast, hlt⟩, hs⟩

theorem writeLE_one {v : Nat} (h : v < 256) : writeLE 1 v = [UInt8.ofNat v] := by
  simp [writeLE, Nat.mod_eq_of_lt h]

@[simp] theorem serReadData_one (c : UInt8) (rest : List UInt8) :
    serReadData 1 (c :: rest) = .ok (c.toNat, rest) := by
  have h := serReadData_readsBack 1 c.toNat rest c.toNat_lt
  rwa [writeLE_one c.toNat_lt, UInt8.ofNat_toNat, List.singleton_append] at h

theorem readCompactSize_readsBack : ReadsBack readCompactSize writeCompactSize (· ≤ MAX_SIZE) := by
  intro n rest hn
  have hmax : ¬ n > MAX_SIZE := Nat.not_lt.mpr hn
  unfold writeCompactSize
  split_ifs with h1 h2 h3
  · have hb : (UInt8.ofNat n).toNat = n := by simp; omega
    simp [readCompactSize, readCompactValue, hb, h1, hmax]
  · have hp := readCompactPayload_readsBack 2 253 n rest ⟨by omega, by omega⟩
    simp [readCompactSize, readCompactValue, hp, hmax]
  · have hp := readCompactPayload_readsBack 4 0x10000 n rest ⟨by omega, by omega⟩
    simp [readCompactSize, readCompactValue, hp, hmax]
  · unfold MAX_SIZE at hn
    omega

theorem readCompactSize_canonical : Canonical readCompactSize writeCompactSize (· ≤ MAX_SIZE) := by
  intro s n rest h
  obtain ⟨⟨ch, s₁⟩, hch, h⟩ := bind_eq_ok.mp h
  obtain ⟨⟨v, s₂⟩, hv, h⟩ := bind_eq_ok.mp h
  have hmax : v ≤ MAX_SIZE := by
    by_contra hc
    simp [Nat.lt_of_not_le hc] at h
  simp only [Nat.not_lt.mpr hmax, if_false, pure_eq_ok, Except.ok.injEq, Prod.mk.injEq] at h
  obtain ⟨rfl, rfl⟩ := h
  obtain ⟨hch256, hs₁⟩ := serReadData_canonical 1 s ch s₁ hch
  refine ⟨hmax, ?_⟩
  rw [← hs₁]
  unfold readCompactValue at hv
  split_ifs at hv with c1 c2 c3
  · simp only [Except.ok.injEq, Prod.mk.injEq] at hv
    obtain ⟨rfl, rfl⟩ := hv
    simp [writeCompactSize, c1, writeLE_one (show ch < 256 by omega)]
  · subst c2
    obtain ⟨⟨hlo, hhi⟩, hs₂⟩ := readCompactPayload_canonical 2 253 s₁ v s₂ hv
    have hlt : ¬ v < 253 := by omega
    have hle : v ≤ 0xffff := by omega
    rw [← hs₂]
    simp [writeCompactSize, hlt, hle, writeLE_one]
  · subst c3
    obtain ⟨⟨hlo, hhi⟩, hs₂⟩ := readCompactPayload_canonical 4 0x10000 s₁ v s₂ hv
    have hlt : ¬ v < 253 := by omega
    have hle : ¬ v ≤ 0xffff := by omega
    have hle' : v ≤ 0xffffffff := by omega
    rw [← hs₂]
    simp [writeCompactSize, hlt, hle, hle', writeLE_one]
  · obtain ⟨⟨hlo, -⟩, -⟩ := readCompactPayload_canonical 8 0x100000000 s₁ v s₂ hv
    unfold MAX_SIZE at hmax
    omega

/-! ## Vectors and records -/

theorem unserializeBytes_readsBack : ReadsBack unserializeBytes serializeBytes BytesFit := by
  intro v rest hv
  have hn := readCompactSize_readsBack v.length (v ++ rest) hv
  have hb := readTake_readsBack (τ := UInt8) endOfData v.length ⟨v, rfl⟩ rest trivial
  simp only at hb
  simp [unserializeBytes, serializeBytes, hn, hb]

theorem unserializeBytes_canonical : Canonical unserializeBytes serializeBytes BytesFit := by
  intro s v rest h
  obtain ⟨⟨n, s₁⟩, hn, h⟩ := bind_eq_ok.mp h
  obtain ⟨⟨b, s₂⟩, hb, h⟩ := bind_eq_ok.mp h
  simp only [pure_eq_ok, Except.ok.injEq, Prod.mk.injEq] at h
  obtain ⟨rfl, rfl⟩ := h
  obtain ⟨hfit, hs₁⟩ := readCompactSize_canonical s n s₁ hn
  obtain ⟨-, hs₂⟩ := readTake_canonical endOfData n s₁ b s₂ hb
  refine ⟨by rw [BytesFit, b.property]; exact hfit, ?_⟩
  rw [serializeBytes, b.property, List.append_assoc, hs₂, hs₁]

section Vector

variable {α : Type} {r : StreamReader α} {w : α → List UInt8} {fits : α → Prop}

theorem unserializeVector_readsBack (h : ReadsBack r w fits) :
    ReadsBack (unserializeVector r) (serializeVector w) (VectorFits fits) :=
  readPrefixed_readsBack readCompactSize_readsBack h

theorem unserializeVector_canonical (h : Canonical r w fits) :
    Canonical (unserializeVector r) (serializeVector w) (VectorFits fits) :=
  readPrefixed_canonical readCompactSize_canonical h

end Vector

theorem COutPoint.unserialize_readsBack :
    ReadsBack COutPoint.unserialize COutPoint.serialize (fun _ => True) := by
  rintro o rest -
  have hh := readTake_readsBack (τ := UInt8) endOfData 32 ⟨o.hash.data, o.hash.size_eq⟩
    (writeLE 4 o.n.toNat ++ rest) trivial
  have hn := serReadData_readsBack 4 o.n.toNat rest (by have := o.n.toNat_lt; omega)
  simp only at hh
  simp [COutPoint.unserialize, COutPoint.serialize, hh, hn]

theorem COutPoint.unserialize_canonical :
    Canonical COutPoint.unserialize COutPoint.serialize (fun _ => True) := by
  intro s o rest h
  obtain ⟨⟨hash, s₁⟩, hh, h⟩ := bind_eq_ok.mp h
  obtain ⟨⟨n, s₂⟩, hn, h⟩ := bind_eq_ok.mp h
  simp only [pure_eq_ok, Except.ok.injEq, Prod.mk.injEq] at h
  obtain ⟨rfl, rfl⟩ := h
  obtain ⟨-, hs₁⟩ := readTake_canonical endOfData 32 s hash s₁ hh
  obtain ⟨hlt, hs₂⟩ := serReadData_canonical 4 s₁ n s₂ hn
  have hn' : (UInt32.ofNat n).toNat = n := by simp; omega
  refine ⟨trivial, ?_⟩
  simp only [COutPoint.serialize, hn', List.append_assoc, hs₂, hs₁]

theorem CTxIn.unserialize_readsBack : ReadsBack CTxIn.unserialize CTxIn.serialize CTxIn.Bare := by
  rintro ⟨prevout, scriptSig, nSequence, ⟨stack⟩⟩ rest ⟨hfit, hstack⟩
  simp only at hstack
  subst hstack
  have hp := COutPoint.unserialize_readsBack prevout
    (serializeBytes scriptSig ++ (writeLE 4 nSequence.toNat ++ rest)) trivial
  have hb := unserializeBytes_readsBack scriptSig (writeLE 4 nSequence.toNat ++ rest) hfit
  have hn := serReadData_readsBack 4 nSequence.toNat rest (by have := nSequence.toNat_lt; omega)
  simp [CTxIn.unserialize, CTxIn.serialize, hp, hb, hn]

theorem CTxIn.unserialize_canonical : Canonical CTxIn.unserialize CTxIn.serialize CTxIn.Bare := by
  intro s i rest h
  obtain ⟨⟨prevout, s₁⟩, hp, h⟩ := bind_eq_ok.mp h
  obtain ⟨⟨scriptSig, s₂⟩, hb, h⟩ := bind_eq_ok.mp h
  obtain ⟨⟨n, s₃⟩, hn, h⟩ := bind_eq_ok.mp h
  simp only [pure_eq_ok, Except.ok.injEq, Prod.mk.injEq] at h
  obtain ⟨rfl, rfl⟩ := h
  obtain ⟨-, hs₁⟩ := COutPoint.unserialize_canonical s prevout s₁ hp
  obtain ⟨hfit, hs₂⟩ := unserializeBytes_canonical s₁ scriptSig s₂ hb
  obtain ⟨hlt, hs₃⟩ := serReadData_canonical 4 s₂ n s₃ hn
  have hn' : (UInt32.ofNat n).toNat = n := by simp; omega
  refine ⟨⟨hfit, rfl⟩, ?_⟩
  simp only [CTxIn.serialize, hn', List.append_assoc, hs₃, hs₂, hs₁]

theorem toInt64_int64Bits {v : Int} (h₁ : -2 ^ 63 ≤ v) (h₂ : v < 2 ^ 63) : toInt64 (int64Bits v) = v := by
  unfold toInt64 int64Bits
  split <;> omega

theorem int64Bits_toInt64 {n : Nat} (h : n < 256 ^ 8) : int64Bits (toInt64 n) = n := by
  unfold toInt64 int64Bits
  split <;> omega

theorem toInt64_range {n : Nat} (h : n < 256 ^ 8) : -2 ^ 63 ≤ toInt64 n ∧ toInt64 n < 2 ^ 63 := by
  unfold toInt64
  split <;> omega

theorem CTxOut.unserialize_readsBack : ReadsBack CTxOut.unserialize CTxOut.serialize CTxOut.Fits := by
  rintro ⟨nValue, scriptPubKey⟩ rest ⟨h₁, h₂, hfit⟩
  have hv := serReadData_readsBack 8 (int64Bits nValue) (serializeBytes scriptPubKey ++ rest)
    (by unfold int64Bits; omega)
  have hb := unserializeBytes_readsBack scriptPubKey rest hfit
  simp [CTxOut.unserialize, CTxOut.serialize, hv, hb, toInt64_int64Bits h₁ h₂]

theorem CTxOut.unserialize_canonical : Canonical CTxOut.unserialize CTxOut.serialize CTxOut.Fits := by
  intro s o rest h
  obtain ⟨⟨n, s₁⟩, hn, h⟩ := bind_eq_ok.mp h
  obtain ⟨⟨scriptPubKey, s₂⟩, hb, h⟩ := bind_eq_ok.mp h
  simp only [pure_eq_ok, Except.ok.injEq, Prod.mk.injEq] at h
  obtain ⟨rfl, rfl⟩ := h
  obtain ⟨hlt, hs₁⟩ := serReadData_canonical 8 s n s₁ hn
  obtain ⟨hfit, hs₂⟩ := unserializeBytes_canonical s₁ scriptPubKey s₂ hb
  obtain ⟨h₁, h₂⟩ := toInt64_range hlt
  refine ⟨⟨h₁, h₂, hfit⟩, ?_⟩
  simp only [CTxOut.serialize, int64Bits_toInt64 hlt, List.append_assoc, hs₂, hs₁]

theorem unserializeWitnessStack_readsBack :
    ReadsBack unserializeWitnessStack serializeWitnessStack (VectorFits BytesFit) :=
  unserializeVector_readsBack unserializeBytes_readsBack

theorem unserializeWitnessStack_canonical :
    Canonical unserializeWitnessStack serializeWitnessStack (VectorFits BytesFit) :=
  unserializeVector_canonical unserializeBytes_canonical

/-! ## Transactions -/

@[simp] theorem CTxIn.serialize_stripWitness (i : CTxIn) : i.stripWitness.serialize = i.serialize := rfl

@[simp] theorem serializeVector_nil {α : Type} (w : α → List UInt8) : serializeVector w [] = [0] := rfl

theorem length_setWitnesses (vin : List CTxIn) (witStacks : List (List (List UInt8)))
    (h : witStacks.length = vin.length) : (setWitnesses vin witStacks).length = vin.length := by
  simp [setWitnesses, h]

@[simp] theorem setWitnesses_cons (i : CTxIn) (vin : List CTxIn) (stack : List (List UInt8))
    (witStacks : List (List (List UInt8))) :
    setWitnesses (i :: vin) (stack :: witStacks) = { i with scriptWitness := ⟨stack⟩ } :: setWitnesses vin witStacks :=
  rfl

theorem serialize_setWitnesses (vin : List CTxIn) (witStacks : List (List (List UInt8)))
    (h : witStacks.length = vin.length) :
    (setWitnesses vin witStacks).flatMap CTxIn.serialize = vin.flatMap CTxIn.serialize := by
  induction vin generalizing witStacks with
  | nil => rfl
  | cons i vin ih =>
    obtain ⟨⟩ | ⟨stack, witStacks⟩ := witStacks
    · simp at h
    · simp only [List.length_cons, Nat.add_right_cancel_iff] at h
      simp only [setWitnesses_cons, List.flatMap_cons, ih witStacks h]
      rfl

theorem stacks_setWitnesses (vin : List CTxIn) (witStacks : List (List (List UInt8)))
    (h : witStacks.length = vin.length) : (setWitnesses vin witStacks).map (·.scriptWitness.stack) = witStacks := by
  induction vin generalizing witStacks with
  | nil => simp_all [setWitnesses]
  | cons i vin ih =>
    obtain ⟨⟩ | ⟨stack, witStacks⟩ := witStacks
    · simp at h
    · simp only [List.length_cons, Nat.add_right_cancel_iff] at h
      simp only [setWitnesses_cons, List.map_cons, ih witStacks h]

theorem setWitnesses_stripWitness (vin : List CTxIn) :
    setWitnesses (vin.map CTxIn.stripWitness) (vin.map (·.scriptWitness.stack)) = vin := by
  induction vin with
  | nil => rfl
  | cons i vin ih =>
    simp only [List.map_cons, setWitnesses_cons, ih]
    rfl

theorem stripWitness_of_isNull {vin : List CTxIn} (h : ∀ i ∈ vin, i.scriptWitness.isNull = true) :
    vin.map CTxIn.stripWitness = vin := by
  induction vin with
  | nil => rfl
  | cons i vin ih =>
    have hi : i.stripWitness = i := by
      have := h i List.mem_cons_self
      obtain ⟨p, sig, seq, ⟨stack⟩⟩ := i
      simp only [CScriptWitness.isNull, List.isEmpty_iff] at this
      simp [CTxIn.stripWitness, this]
    rw [List.map_cons, hi, ih fun j hj => h j (List.mem_cons_of_mem i hj)]

theorem hasWitness_eq_false_iff {tx : CTransaction} :
    tx.hasWitness = false ↔ ∀ i ∈ tx.vin, i.scriptWitness.isNull = true := by
  simp [CTransaction.hasWitness]

/-- The inputs of a transaction that fits are read back without their witnesses. -/
theorem unserializeVector_vin {vin : List CTxIn} (h : VectorFits CTxIn.Fits vin) (rest : List UInt8) :
    unserializeVector CTxIn.unserialize (serializeVector CTxIn.serialize vin ++ rest) =
      .ok (vin.map CTxIn.stripWitness, rest) := by
  have hbare : VectorFits CTxIn.Bare (vin.map CTxIn.stripWitness) := by
    refine ⟨by simpa using h.1, ?_⟩
    simp only [List.mem_map]
    rintro _ ⟨i, hi, rfl⟩
    exact ⟨(h.2 i hi).1, rfl⟩
  have hw : serializeVector CTxIn.serialize (vin.map CTxIn.stripWitness) =
      serializeVector CTxIn.serialize vin := by
    simp [serializeVector, writePrefixed, List.flatMap_map]
  rw [← hw]
  exact unserializeVector_readsBack CTxIn.unserialize_readsBack _ rest hbare

theorem serializeTransaction_basic {fAllowWitness : Bool} {tx : CTransaction}
    (h : (fAllowWitness && tx.hasWitness) = false) :
    serializeTransaction fAllowWitness tx = writeLE 4 tx.nVersion.toUInt32.toNat ++
      (serializeVector CTxIn.serialize tx.vin ++ (serializeVector CTxOut.serialize tx.vout ++
        writeLE 4 tx.nLockTime.toNat)) := by
  simp [serializeTransaction, h]

theorem serializeTransaction_extended {tx : CTransaction} (h : tx.hasWitness = true) :
    serializeTransaction true tx = writeLE 4 tx.nVersion.toUInt32.toNat ++ (0 :: 1 ::
      (serializeVector CTxIn.serialize tx.vin ++ (serializeVector CTxOut.serialize tx.vout ++
        ((tx.vin.map (·.scriptWitness.stack)).flatMap serializeWitnessStack ++
          writeLE 4 tx.nLockTime.toNat)))) := by
  simp [serializeTransaction, h, List.flatMap_map]

theorem unserializeTail_zero (fAllowWitness : Bool) (tx : CTransaction) (nLockTime : UInt32)
    (rest : List UInt8) :
    unserializeTail fAllowWitness 0 tx (writeLE 4 nLockTime.toNat ++ rest) =
      .ok ({ tx with nLockTime }, rest) := by
  have hl := serReadData_readsBack 4 nLockTime.toNat rest (by have := nLockTime.toNat_lt; omega)
  simp [unserializeTail, unserializeWitnesses, hl]

theorem unserializeTail_one (tx : CTransaction) (witStacks : List (List (List UInt8)))
    (nLockTime : UInt32) (rest : List UInt8) (hlen : witStacks.length = tx.vin.length)
    (hfit : ∀ stack ∈ witStacks, VectorFits BytesFit stack)
    (hw : ({ tx with vin := setWitnesses tx.vin witStacks } : CTransaction).hasWitness = true) :
    unserializeTail true 1 tx (witStacks.flatMap serializeWitnessStack ++ (writeLE 4 nLockTime.toNat ++ rest)) =
      .ok ({ tx with vin := setWitnesses tx.vin witStacks, nLockTime }, rest) := by
  have hs := readCount_readsBack unserializeWitnessStack_readsBack witStacks
    (writeLE 4 nLockTime.toNat ++ rest) hfit
  have hl := serReadData_readsBack 4 nLockTime.toNat rest (by have := nLockTime.toNat_lt; omega)
  rw [hlen] at hs
  simp [unserializeTail, unserializeWitnesses, hs, hw, hl]

@[simp] theorem Int32.ofNat_toUInt32_toNat (x : Int32) : Int32.ofNat x.toUInt32.toNat = x := by
  apply Int32.toBitVec_inj.mp
  simp

/-- The basic format is read back without witnesses whenever the reader does
not take the inputs for the marker. -/
theorem unserializeTransaction_basic {fAllowWitness : Bool} {tx : CTransaction} (hfit : tx.Fits)
    (hvin : (tx.vin.isEmpty && fAllowWitness) = false) (rest : List UInt8) :
    unserializeTransaction fAllowWitness (writeLE 4 tx.nVersion.toUInt32.toNat ++
      (serializeVector CTxIn.serialize tx.vin ++ (serializeVector CTxOut.serialize tx.vout ++
        (writeLE 4 tx.nLockTime.toNat ++ rest)))) = .ok (tx.stripWitness, rest) := by
  have hv := serReadData_readsBack 4 tx.nVersion.toUInt32.toNat
    (serializeVector CTxIn.serialize tx.vin ++ (serializeVector CTxOut.serialize tx.vout ++
      (writeLE 4 tx.nLockTime.toNat ++ rest))) (by have := tx.nVersion.toUInt32.toNat_lt; omega)
  have hi := unserializeVector_vin hfit.1
    (serializeVector CTxOut.serialize tx.vout ++ (writeLE 4 tx.nLockTime.toNat ++ rest))
  have ho := unserializeVector_readsBack CTxOut.unserialize_readsBack tx.vout
    (writeLE 4 tx.nLockTime.toNat ++ rest) hfit.2
  have hne : ¬ (tx.vin = [] ∧ fAllowWitness = true) := by
    cases fAllowWitness <;> simp_all
  simp [unserializeTransaction, hv, hi, ho, hne, unserializeTail_zero, CTransaction.stripWitness]

theorem unserializeTransaction_noWitness (tx : CTransaction) (rest : List UInt8) (hfit : tx.Fits) :
    unserializeTransaction false (serializeTransaction false tx ++ rest) = .ok (tx.stripWitness, rest) := by
  rw [serializeTransaction_basic (by simp)]
  simpa only [List.append_assoc] using unserializeTransaction_basic hfit (by simp) rest

theorem unserializeTransaction_witness (tx : CTransaction) (rest : List UInt8) (hvin : tx.vin ≠ [])
    (hfit : tx.Fits) :
    unserializeTransaction true (serializeTransaction true tx ++ rest) = .ok (tx, rest) := by
  cases hw : tx.hasWitness
  · have hstrip : tx.stripWitness = tx := by
      rw [CTransaction.stripWitness, stripWitness_of_isNull (hasWitness_eq_false_iff.mp hw)]
    have hb := @unserializeTransaction_basic true tx hfit (by simpa using hvin) rest
    rw [hstrip] at hb
    rw [serializeTransaction_basic (by simp [hw])]
    simpa only [List.append_assoc] using hb
  · obtain ⟨nVersion, vin, vout, nLockTime⟩ := tx
    have hstacks : ∀ stack ∈ vin.map (·.scriptWitness.stack), VectorFits BytesFit stack := by
      simp only [List.mem_map]
      rintro _ ⟨i, hi, rfl⟩
      exact (hfit.1.2 i hi).2
    have htail := unserializeTail_one ⟨nVersion, vin.map CTxIn.stripWitness, vout, 0⟩
      (vin.map (·.scriptWitness.stack)) nLockTime rest (by simp) hstacks
      (by simpa [CTransaction.hasWitness, setWitnesses_stripWitness] using hw)
    simp only [setWitnesses_stripWitness] at htail
    have hv := serReadData_readsBack 4 nVersion.toUInt32.toNat
      (0 :: 1 :: (serializeVector CTxIn.serialize vin ++ (serializeVector CTxOut.serialize vout ++
        ((vin.map (·.scriptWitness.stack)).flatMap serializeWitnessStack ++
          (writeLE 4 nLockTime.toNat ++ rest))))) (by have := nVersion.toUInt32.toNat_lt; omega)
    have hnil := unserializeVector_readsBack CTxIn.unserialize_readsBack []
      (1 :: (serializeVector CTxIn.serialize vin ++ (serializeVector CTxOut.serialize vout ++
        ((vin.map (·.scriptWitness.stack)).flatMap serializeWitnessStack ++
          (writeLE 4 nLockTime.toNat ++ rest))))) (by simp [VectorFits, PrefixedOk, MAX_SIZE])
    have hi := unserializeVector_vin hfit.1 (serializeVector CTxOut.serialize vout ++
        ((vin.map (·.scriptWitness.stack)).flatMap serializeWitnessStack ++
          (writeLE 4 nLockTime.toNat ++ rest)))
    have ho := unserializeVector_readsBack CTxOut.unserialize_readsBack vout
      ((vin.map (·.scriptWitness.stack)).flatMap serializeWitnessStack ++
          (writeLE 4 nLockTime.toNat ++ rest)) hfit.2
    rw [serializeTransaction_extended hw]
    simp only [serializeVector_nil, List.singleton_append] at hnil
    simp [unserializeTransaction, hv, hnil, hi, ho, htail]

theorem writeCompactSize_head {n : Nat} (h : 0 < n) : ∃ b t, writeCompactSize n = b :: t ∧ b ≠ 0 := by
  unfold writeCompactSize
  split_ifs with h1 h2 h3
  · refine ⟨UInt8.ofNat n, [], rfl, fun h0 => ?_⟩
    have := congrArg UInt8.toNat h0
    simp at this
    omega
  · exact ⟨253, _, rfl, by decide⟩
  · exact ⟨254, _, rfl, by decide⟩
  · exact ⟨255, _, rfl, by decide⟩

theorem hasWitness_iff {tx : CTransaction} :
    tx.hasWitness = true ↔ ∃ i ∈ tx.vin, i.scriptWitness.stack ≠ [] := by
  simp [CTransaction.hasWitness, CScriptWitness.isNull]

/-- With inputs, the bytes after `nVersion` are the marker and the flag
exactly when some input has a witness: the basic format starts them with the
size of `vin`, which is not `0`. -/
theorem serializeTransaction_extended_iff (tx : CTransaction) (hvin : tx.vin ≠ []) :
    ((serializeTransaction true tx).drop 4).take 2 = [0, 1] ↔ ∃ i ∈ tx.vin, i.scriptWitness.stack ≠ [] := by
  rw [← hasWitness_iff]
  cases hw : tx.hasWitness
  · rw [serializeTransaction_basic (by simp [hw]), List.drop_left' (length_writeLE 4 _)]
    obtain ⟨b, t, ht, hb⟩ := writeCompactSize_head (List.length_pos_iff.mpr hvin)
    simp [serializeVector, writePrefixed, ht, hb]
  · rw [serializeTransaction_extended hw, List.drop_left' (length_writeLE 4 _)]
    simp

/-- What `unserializeTail` accepts: no flag and `nLockTime`, or the witness
flag alone, a stack per input with some stack non-empty, and `nLockTime`. -/
theorem unserializeTail_canonical {fAllowWitness : Bool} {flags : UInt8} {tx tx' : CTransaction}
    {s rest : List UInt8} (h : unserializeTail fAllowWitness flags tx s = .ok (tx', rest)) :
    (flags = 0 ∧ ∃ nLockTime : UInt32, tx' = { tx with nLockTime } ∧
      s = writeLE 4 nLockTime.toNat ++ rest) ∨
    (flags = 1 ∧ ∃ (witStacks : List (List (List UInt8))) (nLockTime : UInt32),
      witStacks.length = tx.vin.length ∧ tx' = { tx with vin := setWitnesses tx.vin witStacks, nLockTime } ∧
      tx'.hasWitness = true ∧
      s = witStacks.flatMap serializeWitnessStack ++ (writeLE 4 nLockTime.toNat ++ rest)) := by
  obtain ⟨⟨⟨tx₁, flags₁⟩, s₁⟩, hw, h⟩ := bind_eq_ok.mp h
  have hf : flags₁ = 0 := by
    by_contra hne
    simp [hne] at h
  subst hf
  simp only [bne_self_eq_false, Bool.false_eq_true, if_false] at h
  obtain ⟨⟨n, s₂⟩, hn, h⟩ := bind_eq_ok.mp h
  simp only [pure_eq_ok, Except.ok.injEq, Prod.mk.injEq] at h
  obtain ⟨rfl, rfl⟩ := h
  obtain ⟨hlt, hs₂⟩ := serReadData_canonical 4 s₁ n s₂ hn
  have hn' : (UInt32.ofNat n).toNat = n := by simp; omega
  unfold unserializeWitnesses at hw
  split_ifs at hw with hc
  · obtain ⟨⟨witStacks, s₃⟩, hst, hw⟩ := bind_eq_ok.mp hw
    by_cases hwit : ({ tx with vin := setWitnesses tx.vin witStacks } : CTransaction).hasWitness
    · simp only [hwit, Bool.not_true, Bool.false_eq_true, if_false, pure_eq_ok, Except.ok.injEq,
        Prod.mk.injEq] at hw
      obtain ⟨⟨rfl, hflags⟩, rfl⟩ := hw
      obtain ⟨hlen, -, hs₃⟩ := readCount_canonical unserializeWitnessStack_canonical _ s witStacks _ hst
      refine .inr ⟨(UInt8.xor_left_inj 1).mp hflags, witStacks, UInt32.ofNat n, hlen, rfl, hwit, ?_⟩
      rw [← hs₃, hn', hs₂]
    · simp [hwit] at hw
  · simp only [Except.ok.injEq, Prod.mk.injEq] at hw
    obtain ⟨⟨rfl, rfl⟩, rfl⟩ := hw
    exact .inl ⟨rfl, UInt32.ofNat n, rfl, by rw [hn', hs₂]⟩

theorem serializeVector_setWitnesses {vin : List CTxIn} {witStacks : List (List (List UInt8))}
    (h : witStacks.length = vin.length) :
    serializeVector CTxIn.serialize (setWitnesses vin witStacks) = serializeVector CTxIn.serialize vin := by
  simp [serializeVector, writePrefixed, length_setWitnesses vin witStacks h, serialize_setWitnesses vin witStacks h]

theorem hasWitness_of_bare {tx : CTransaction} (h : ∀ i ∈ tx.vin, CTxIn.Bare i) : tx.hasWitness = false :=
  hasWitness_eq_false_iff.mpr fun i hi => by simp [CScriptWitness.isNull, (h i hi).2]

/-- Every byte string `UnserializeTransaction` accepts starts with what
`SerializeTransaction` writes of the transaction read. -/
theorem serializeTransaction_of_unserialize {fAllowWitness : Bool} {s rest : List UInt8}
    {tx : CTransaction} (h : unserializeTransaction fAllowWitness s = .ok (tx, rest)) :
    serializeTransaction fAllowWitness tx ++ rest = s := by
  obtain ⟨⟨ver, s₁⟩, hver, h⟩ := bind_eq_ok.mp h
  obtain ⟨⟨vin, s₂⟩, hvin, h⟩ := bind_eq_ok.mp h
  obtain ⟨hverlt, hs₁⟩ := serReadData_canonical 4 s ver s₁ hver
  obtain ⟨⟨-, hbare⟩, hs₂⟩ := unserializeVector_canonical CTxIn.unserialize_canonical s₁ vin s₂ hvin
  have hv : (UInt32.ofNat ver).toInt32.toUInt32.toNat = ver := by simp; omega
  dsimp only at h
  split at h
  · next hm =>
    obtain ⟨rfl, rfl⟩ : vin = [] ∧ fAllowWitness = true := by simpa using hm
    obtain ⟨⟨flags, s₃⟩, hfl, h⟩ := bind_eq_ok.mp h
    obtain ⟨hflt, hs₃⟩ := serReadData_canonical 1 s₂ flags s₃ hfl
    dsimp only at h
    split at h
    · next hf =>
      obtain ⟨⟨vin', s₄⟩, hvin', h⟩ := bind_eq_ok.mp h
      obtain ⟨⟨vout, s₅⟩, hvout, h⟩ := bind_eq_ok.mp h
      obtain ⟨-, hs₄⟩ := unserializeVector_canonical CTxIn.unserialize_canonical s₃ vin' s₄ hvin'
      obtain ⟨-, hs₅⟩ := unserializeVector_canonical CTxOut.unserialize_canonical s₄ vout s₅ hvout
      dsimp only at h
      rcases unserializeTail_canonical h with ⟨h0, -⟩ | ⟨h1, witStacks, lt, hlen, rfl, hw, hs⟩
      · have := congrArg UInt8.toNat h0
        simp at this hf
        omega
      · have hone : flags = 1 := by
          have := congrArg UInt8.toNat h1
          simp at this
          omega
        subst hone
        rw [serializeTransaction_extended hw]
        simp only [hv, serializeVector_setWitnesses hlen, stacks_setWitnesses vin' witStacks hlen]
        rw [← hs₁, ← hs₂, ← hs₃, ← hs₄, ← hs₅, hs]
        simp [writeLE]
    · next hf =>
      rcases unserializeTail_canonical h with ⟨-, lt, rfl, hs⟩ | ⟨h1, -⟩
      · have hflags : flags = 0 := by simpa using hf
        subst hflags
        rw [serializeTransaction_basic (by simp [CTransaction.hasWitness])]
        simp only [hv]
        rw [← hs₁, ← hs₂, ← hs₃, hs]
        simp [writeLE]
      · exact absurd h1 (by decide)
  · obtain ⟨⟨vout, s₃⟩, hvout, h⟩ := bind_eq_ok.mp h
    obtain ⟨-, hs₃⟩ := unserializeVector_canonical CTxOut.unserialize_canonical s₂ vout s₃ hvout
    dsimp only at h
    rcases unserializeTail_canonical h with ⟨-, lt, rfl, hs⟩ | ⟨h1, -⟩
    · have hw := @hasWitness_of_bare ⟨(UInt32.ofNat ver).toInt32, vin, vout, lt⟩ hbare
      rw [serializeTransaction_basic (by simp only [Bool.and_eq_false_iff]; exact .inr hw)]
      simp only [hv]
      rw [← hs₁, ← hs₂, ← hs₃, hs]
      simp
    · exact absurd h1 (by decide)

/-- Without inputs the round trip fails whenever there are outputs: the reader
takes the empty `vin` for the marker and the size of `vout` for the flags.
`CheckTransaction` refuses such transactions. -/
theorem unserializeTransaction_empty_vin (tx : CTransaction) (rest : List UInt8) (hvin : tx.vin = [])
    (hvout : tx.vout ≠ []) :
    unserializeTransaction true (serializeTransaction true tx ++ rest) ≠ .ok (tx, rest) := by
  intro h
  have hw : tx.hasWitness = false := by simp [CTransaction.hasWitness, hvin]
  obtain ⟨b, t, ht, hb⟩ := writeCompactSize_head (List.length_pos_iff.mpr hvout)
  rw [serializeTransaction_basic (by simp [hw]), hvin] at h
  simp only [serializeVector_nil, List.append_assoc, List.cons_append, List.nil_append] at h
  generalize hx : serializeVector CTxOut.serialize tx.vout ++ (writeLE 4 tx.nLockTime.toNat ++ rest) = x at h
  have hv := serReadData_readsBack 4 tx.nVersion.toUInt32.toNat (0 :: x)
    (by have := tx.nVersion.toUInt32.toNat_lt; omega)
  have hnil := unserializeVector_readsBack CTxIn.unserialize_readsBack [] x
    (by simp [VectorFits, PrefixedOk, MAX_SIZE])
  obtain ⟨x', hflags⟩ : ∃ x', serReadData 1 x = .ok (b.toNat, x') := by
    rw [← hx, serializeVector, writePrefixed, ht]
    simp
  have hb' : (b.toNat != 0) = true := by
    simpa using fun h0 => hb (UInt8.toNat_inj.mp h0)
  simp only [serializeVector_nil, List.singleton_append] at hnil
  simp only [unserializeTransaction, hv, ok_bind, hnil, List.isEmpty_nil, Bool.and_self, if_true,
    hflags, hb', UInt8.ofNat_toNat] at h
  obtain ⟨⟨vin', s₁⟩, -, h⟩ := bind_eq_ok.mp h
  obtain ⟨⟨vout', s₂⟩, -, h⟩ := bind_eq_ok.mp h
  dsimp only at h
  rcases unserializeTail_canonical h with ⟨h0, -⟩ | ⟨-, -, -, -, -, htx, -⟩
  · exact hb h0
  · rw [hw] at htx
    cases htx

/-- A transaction with one default output and no input. -/
def outputOnlyTx : CTransaction := { (default : CTransaction) with vout := [default] }

theorem unserializeTransaction_empty_vin_outputOnly :
    outputOnlyTx.vin = [] ∧ outputOnlyTx.vout ≠ [] ∧
      unserializeTransaction true (serializeTransaction true outputOnlyTx ++ []) ≠ .ok (outputOnlyTx, []) :=
  ⟨rfl, List.cons_ne_nil _ _, unserializeTransaction_empty_vin outputOnlyTx [] rfl (List.cons_ne_nil _ _)⟩

theorem transaction_wire_round_trip :
    (∀ (tx : CTransaction) (rest : List UInt8), tx.vin ≠ [] → tx.Fits →
      unserializeTransaction true (serializeTransaction true tx ++ rest) = .ok (tx, rest) ∧
      unserializeTransaction false (serializeTransaction false tx ++ rest) = .ok (tx.stripWitness, rest)) ∧
    (∀ tx : CTransaction, tx.vin ≠ [] →
      (((serializeTransaction true tx).drop 4).take 2 = [0, 1] ↔
        ∃ i ∈ tx.vin, i.scriptWitness.stack ≠ [])) ∧
    (∀ (fAllowWitness : Bool) (s rest : List UInt8) (tx : CTransaction),
      unserializeTransaction fAllowWitness s = .ok (tx, rest) →
        serializeTransaction fAllowWitness tx ++ rest = s) :=
  ⟨fun tx rest hvin hfit =>
      ⟨unserializeTransaction_witness tx rest hvin hfit, unserializeTransaction_noWitness tx rest hfit⟩,
    serializeTransaction_extended_iff,
    fun _ _ _ _ h => serializeTransaction_of_unserialize h⟩

/-- A one-input transaction spending with a two-element witness. -/
def witnessSpend : CTransaction :=
  ⟨2, [⟨⟨Uint256.null, 0⟩, [], 0xfffffffe, ⟨[[0x30, 0x44], [0x02]]⟩⟩], [⟨5000, [0x00, 0x14]⟩], 0⟩

theorem transaction_wire_round_trip_witnessSpend :
    unserializeTransaction true (serializeTransaction true witnessSpend ++ []) = .ok (witnessSpend, []) ∧
      ((serializeTransaction true witnessSpend).drop 4).take 2 = [0, 1] := by
  obtain ⟨hrt, hext, -⟩ := transaction_wire_round_trip
  have hvin : witnessSpend.vin ≠ [] := by decide
  exact ⟨(hrt witnessSpend [] hvin (by decide)).1,
    (hext witnessSpend hvin).mpr ⟨_, List.mem_cons_self, by decide⟩⟩

end Ring.Chain
