import TruckLock.Framing
import TruckLock.WebSockets
import Mathlib.Data.List.GetD
import Mathlib.Tactic.IntervalCases

/-!
# Frames

The format of the frames, as a reader of the whole stream sees it. What
`createHeader` writes before a payload can be cut off the front of the stream
again, for payloads that the library accepts; longer ones stop the reader.
-/
namespace WebSockets

/-- The fields of a header at the front of a stream. -/
def finBit (w : Bytes) : Bool := (w.getD 0 0 >>> 7) &&& 0x01 = 0x01

def opBits (w : Bytes) : Option WSopcode := WSopcode.ofCode (w.getD 0 0 &&& 0x0F)

def maskBit (w : Bytes) : Bool := (w.getD 1 0 >>> 7) &&& 0x01 = 0x01

def lenBits (w : Bytes) : Nat := (w.getD 1 0 &&& 0x7F).toNat

def lenEnd (w : Bytes) : Nat := if lenBits w = 126 then 4 else if lenBits w = 127 then 10 else 2

def headEnd (w : Bytes) : Nat := lenEnd w + if maskBit w then 4 else 0

def payloadLen (w : Bytes) : Nat :=
  if lenBits w = 126 then (w.getD 2 0).toNat <<< 8 ||| (w.getD 3 0).toNat
  else if lenBits w = 127 then
    if w.getD 2 0 ≠ 0 ∨ w.getD 3 0 ≠ 0 ∨ w.getD 4 0 ≠ 0 ∨ w.getD 5 0 ≠ 0 then 0xFFFFFFFF
    else (w.getD 6 0).toNat <<< 24 ||| (w.getD 7 0).toNat <<< 16 ||| (w.getD 8 0).toNat <<< 8 ||| (w.getD 9 0).toNat
  else lenBits w

section

variable {w u : Bytes} {n length : Nat} {mask fin : Bool} {key : Bytes} {op : WSopcode}

/-- The last byte of a number, and the others. -/
theorem low_byte (n : Nat) : (n >>> 8) <<< 8 ||| n % 2 ^ 8 = n := by
  rw [← Nat.shiftLeft_add_eq_or_of_lt (by omega), Nat.shiftLeft_eq, Nat.shiftRight_eq_div_pow]
  omega

theorem two_bytes (h : n < 2 ^ 16) : (byteOf (n >>> 8)).toNat <<< 8 ||| (byteOf n).toNat = n := by
  have hhigh : n >>> 8 < 2 ^ 8 := by
    rw [Nat.shiftRight_eq_div_pow]
    omega
  rw [byteOf, byteOf, UInt8.toNat_ofNat', UInt8.toNat_ofNat', Nat.mod_eq_of_lt hhigh, low_byte]

theorem four_bytes (h : n < 2 ^ 32) : (byteOf (n >>> 24)).toNat <<< 24 ||| (byteOf (n >>> 16)).toNat <<< 16 |||
    (byteOf (n >>> 8)).toNat <<< 8 ||| (byteOf n).toNat = n := by
  have hstep : ∀ k, (n >>> (k + 8)) <<< (k + 8) ||| (n >>> k % 2 ^ 8) <<< k = (n >>> k) <<< k := by
    intro k
    conv_rhs => rw [← low_byte (n >>> k)]
    rw [Nat.shiftLeft_or_distrib, ← Nat.shiftRight_add, ← Nat.shiftLeft_add, Nat.add_comm k 8]
  have hhigh : n >>> 24 < 2 ^ 8 := by
    rw [Nat.shiftRight_eq_div_pow]
    omega
  simp only [byteOf, UInt8.toNat_ofNat']
  rw [Nat.mod_eq_of_lt hhigh, hstep 16, hstep 8]
  exact low_byte n

theorem byte0_fields : ∀ (op : WSopcode) (fin : Bool),
    decide (((((if fin then 0x80 else 0x00) ||| op.code : UInt8) >>> 7) &&& 0x01) = 0x01) = fin ∧
      WSopcode.ofCode (((if fin then 0x80 else 0x00) ||| op.code) &&& 0x0F) = some op := by
  intro op fin
  cases op <;> cases fin <;> decide

theorem byte1_fields : ∀ n < 128, ∀ mask : Bool,
    decide (((((if mask then 0x80 else 0x00) ||| byteOf n : UInt8) >>> 7) &&& 0x01) = 0x01) = mask ∧
      (((if mask then 0x80 else 0x00) ||| byteOf n : UInt8) &&& 0x7F).toNat = n := by
  decide +kernel

theorem second_byte (hn : n < 128) (h : w.getD 1 0 = (if mask then 0x80 else 0x00) ||| byteOf n) :
    maskBit w = mask ∧ lenBits w = n := by
  unfold maskBit lenBits
  rw [h]
  exact byte1_fields n hn mask

theorem length_lengthBytes (length : Nat) (mask : Bool) :
    (lengthBytes length mask).length + 1 = headerSize length false := by
  simp only [lengthBytes, headerSize]
  split
  · rfl
  · split <;> rfl

theorem length_createHeader (h : mask = true → key.length = 4) :
    (createHeader op length mask key fin).length = headerSize length mask := by
  have hl : headerSize length mask = headerSize length false + if mask then 4 else 0 := rfl
  rw [createHeader, hl, ← length_lengthBytes length mask]
  cases mask with
  | false => simp
  | true => simp [h rfl]

/-- What a reader finds in a header, whatever follows. -/
theorem fields_createHeader (op : WSopcode) (mask : Bool) (key : Bytes) (fin : Bool) (hl : length < 2 ^ 32) (v : Bytes) :
    finBit (createHeader op length mask key fin ++ v) = fin ∧
      opBits (createHeader op length mask key fin ++ v) = some op ∧
      maskBit (createHeader op length mask key fin ++ v) = mask ∧
      headEnd (createHeader op length mask key fin ++ v) = headerSize length mask ∧
      payloadLen (createHeader op length mask key fin ++ v) = length := by
  obtain ⟨hfin, hop⟩ := byte0_fields op fin
  refine ⟨hfin, hop, ?_⟩
  by_cases h₁ : length < 126
  · obtain ⟨hm, hbits⟩ : maskBit (createHeader op length mask key fin ++ v) = mask ∧
        lenBits (createHeader op length mask key fin ++ v) = length :=
      second_byte (by omega) (by simp [createHeader, lengthBytes, h₁])
    refine ⟨hm, ?_, ?_⟩
    · rw [headEnd, hm, lenEnd, hbits, if_neg (by omega), if_neg (by omega), headerSize, if_pos h₁]
    · rw [payloadLen, hbits, if_neg (by omega), if_neg (by omega)]
  by_cases h₂ : length < 0xFFFF
  · obtain ⟨hm, hbits⟩ : maskBit (createHeader op length mask key fin ++ v) = mask ∧
        lenBits (createHeader op length mask key fin ++ v) = 126 :=
      second_byte (by omega) (by simp [createHeader, lengthBytes, h₁, h₂, byteOf])
    refine ⟨hm, ?_, ?_⟩
    · rw [headEnd, hm, lenEnd, hbits, if_pos rfl, headerSize, if_neg h₁, if_pos h₂]
    · rw [payloadLen, hbits, if_pos rfl]
      simpa [createHeader, lengthBytes, h₁, h₂] using two_bytes (n := length) (by omega)
  · obtain ⟨hm, hbits⟩ : maskBit (createHeader op length mask key fin ++ v) = mask ∧
        lenBits (createHeader op length mask key fin ++ v) = 127 :=
      second_byte (by omega) (by simp [createHeader, lengthBytes, h₁, h₂, byteOf])
    refine ⟨hm, ?_, ?_⟩
    · rw [headEnd, hm, lenEnd, hbits, if_neg (by omega), if_pos rfl, headerSize, if_neg h₁, if_neg h₂]
    · rw [payloadLen, hbits, if_neg (by omega), if_pos rfl]
      simpa [createHeader, lengthBytes, h₁, h₂] using four_bytes hl

/-- The fields depend on the header only. -/
theorem fields_congr (h : ∀ i < n, u.getD i 0 = w.getD i 0) (hn : 2 ≤ n) :
    finBit u = finBit w ∧ opBits u = opBits w ∧ maskBit u = maskBit w ∧ lenBits u = lenBits w := by
  unfold finBit opBits maskBit lenBits
  rw [h 0 (by omega), h 1 (by omega)]
  exact ⟨rfl, rfl, rfl, rfl⟩

theorem headEnd_congr (h : ∀ i < n, u.getD i 0 = w.getD i 0) (hn : 2 ≤ n) :
    lenEnd u = lenEnd w ∧ headEnd u = headEnd w := by
  obtain ⟨-, -, hm, hl⟩ := fields_congr h hn
  simp only [headEnd, lenEnd, hm, hl, and_self]

theorem payloadLen_congr (h : ∀ i < n, u.getD i 0 = w.getD i 0) (hn : lenEnd w ≤ n) : payloadLen u = payloadLen w := by
  have hn' : 2 ≤ n := by
    unfold lenEnd at hn
    split at hn <;> [skip; split at hn] <;> omega
  obtain ⟨-, -, -, hl⟩ := fields_congr h hn'
  unfold payloadLen
  rw [hl]
  split
  · rename_i h₁
    rw [lenEnd, if_pos h₁] at hn
    rw [h 2 (by omega), h 3 (by omega)]
  split
  · rename_i h₁ h₂
    rw [lenEnd, if_neg h₁, if_pos h₂] at hn
    rw [h 2 (by omega), h 3 (by omega), h 4 (by omega), h 5 (by omega), h 6 (by omega), h 7 (by omega),
      h 8 (by omega), h 9 (by omega)]
  · rfl

@[simp] theorem length_xorWith (key payload : Bytes) : (xorWith key payload).length = payload.length := by
  simp [xorWith]

@[simp] theorem xorWith_xorWith (key payload : Bytes) : xorWith key (xorWith key payload) = payload := by
  refine List.ext_getElem (by simp) fun i _ _ => ?_
  simp only [xorWith, List.getD_eq_getElem?_getD, List.mapIdx_mapIdx, List.getElem_mapIdx, Function.comp_apply,
    UInt8.xor_assoc, UInt8.xor_self, UInt8.xor_zero]

@[simp] theorem xorWith_zero (payload : Bytes) : xorWith [0, 0, 0, 0] payload = payload := by
  have hkey : ∀ i, ([0, 0, 0, 0] : Bytes)[i % 4]?.getD 0 = 0 := by
    intro i
    have hi : i % 4 < 4 := Nat.mod_lt _ (by decide)
    generalize i % 4 = k at hi
    interval_cases k <;> rfl
  refine List.ext_getElem (by simp) fun i _ _ => ?_
  simp [xorWith, hkey]

end

/-- A frame that the library accepts; `key` is the mask. -/
@[ext]
structure Frame where
  fin : Bool
  opCode : WSopcode
  key : Option Bytes
  payload : Bytes
  keyed : ∀ k ∈ key, k.length = 4
  small : payload.length ≤ maxDataSize

/-- A payload with its mask, on or off. -/
def masked (key : Option Bytes) (payload : Bytes) : Bytes := key.elim payload (xorWith · payload)

theorem length_masked (key : Option Bytes) (payload : Bytes) : (masked key payload).length = payload.length := by
  cases key <;> simp [masked]

theorem masked_masked (key : Option Bytes) (payload : Bytes) : masked key (masked key payload) = payload := by
  cases key <;> simp [masked]

def Frame.header (f : Frame) : Bytes :=
  createHeader f.opCode f.payload.length f.key.isSome (f.key.getD []) f.fin

def Frame.write (f : Frame) : Bytes := f.header ++ masked f.key f.payload

def keyBytes (w : Bytes) : Option Bytes := if maskBit w then some ((w.drop (lenEnd w)).take 4) else none

/-- The stream has a whole frame at its front, with a payload of a size that is accepted. -/
def Complete (w : Bytes) : Prop :=
  2 ≤ w.length ∧ payloadLen w ≤ maxDataSize ∧ headEnd w + payloadLen w ≤ w.length

instance (w : Bytes) : Decidable (Complete w) := inferInstanceAs (Decidable (_ ∧ _ ∧ _))

theorem keyed_keyBytes {w : Bytes} (h : Complete w) : ∀ k ∈ keyBytes w, k.length = 4 := by
  intro k hk
  have hw : headEnd w ≤ w.length := by
    have := h.2.2
    omega
  unfold keyBytes at hk
  split at hk
  · rename_i hm
    obtain rfl : List.take 4 (List.drop (lenEnd w) w) = k := by simpa using hk
    simp only [headEnd, hm, if_true] at hw
    simp only [List.length_take, List.length_drop]
    omega
  · simp at hk

theorem small_payload {w : Bytes} (h : Complete w) :
    (masked (keyBytes w) ((w.drop (headEnd w)).take (payloadLen w))).length ≤ maxDataSize := by
  rw [length_masked, List.length_take]
  exact (Nat.min_le_left _ _).trans h.2.1

/-- The frame at the front of a stream. -/
def Frame.read (w : Bytes) : Option (Frame × Bytes) :=
  if h : Complete w then
    (opBits w).map fun op =>
      (⟨finBit w, op, keyBytes w, masked (keyBytes w) ((w.drop (headEnd w)).take (payloadLen w)), keyed_keyBytes h,
        small_payload h⟩, w.drop (headEnd w + payloadLen w))
  else none

theorem keyBytes_header (f : Frame) (v : Bytes) : keyBytes (f.header ++ v) = f.key := by
  have hlen : f.payload.length < 2 ^ 32 := f.small.trans_lt (by decide)
  obtain ⟨-, -, hm, hh, -⟩ := fields_createHeader f.opCode f.key.isSome (f.key.getD []) f.fin hlen v
  unfold keyBytes
  rw [Frame.header, hm]
  cases hk : f.key with
  | none => rfl
  | some k =>
    have hkl : k.length = 4 := f.keyed k hk
    rw [headEnd, hm, hk] at hh
    have he : lenEnd (createHeader f.opCode f.payload.length true k f.fin ++ v) =
        headerSize f.payload.length false := by
      have : headerSize f.payload.length true = headerSize f.payload.length false + 4 := rfl
      simp only [Option.isSome_some, if_true, Option.getD_some] at hh
      omega
    have hl := length_lengthBytes f.payload.length true
    simp only [Option.isSome_some, if_true, Option.getD_some]
    rw [he, ← hl, createHeader, List.append_assoc, List.drop_append_of_le_length (by simp)]
    simp [hkl]

theorem fields_header (f : Frame) (v : Bytes) : finBit (f.header ++ v) = f.fin ∧
    opBits (f.header ++ v) = some f.opCode ∧ headEnd (f.header ++ v) = f.header.length ∧
      payloadLen (f.header ++ v) = f.payload.length := by
  have hlen : f.payload.length < 2 ^ 32 := f.small.trans_lt (by decide)
  obtain ⟨hfin, hop, -, hh, hp⟩ := fields_createHeader f.opCode f.key.isSome (f.key.getD []) f.fin hlen v
  refine ⟨hfin, hop, ?_, hp⟩
  rw [Frame.header, hh, length_createHeader]
  intro hk
  obtain ⟨k, hk⟩ := Option.isSome_iff_exists.1 hk
  simp [hk, f.keyed k hk]

theorem two_le_header (f : Frame) : 2 ≤ f.header.length := by
  simp only [Frame.header, createHeader, List.length_append, List.length_cons]
  have := length_lengthBytes f.payload.length f.key.isSome
  unfold headerSize at this
  split at this <;> [skip; split at this] <;> simp at this <;> omega

/-- What has been written is read back, whatever follows. -/
theorem Frame.read_write (f : Frame) (v : Bytes) : Frame.read (f.write ++ v) = some (f, v) := by
  have hw : f.write ++ v = f.header ++ (masked f.key f.payload ++ v) := by simp [Frame.write]
  obtain ⟨hfin, hop, hh, hp⟩ := fields_header f (masked f.key f.payload ++ v)
  have hc : Complete (f.header ++ (masked f.key f.payload ++ v)) := by
    refine ⟨?_, hp ▸ f.small, ?_⟩
    · have := two_le_header f
      simp only [List.length_append]
      omega
    · rw [hh, hp]
      simp [length_masked]
  rw [hw, Frame.read, dif_pos hc, hop, Option.map_some, Option.some.injEq, Prod.mk.injEq]
  constructor
  · refine Frame.ext hfin rfl (keyBytes_header f _) ?_
    show masked (keyBytes _) _ = f.payload
    rw [keyBytes_header, hh, hp, List.drop_left, ← length_masked f.key, List.take_left, masked_masked]
  · rw [hh, hp, ← List.drop_drop, List.drop_left, ← length_masked f.key, List.drop_left]

/-- What the reader finds does not change when more comes. -/
theorem Frame.read_append {w r : Bytes} {f : Frame} (v : Bytes) (h : Frame.read w = some (f, r)) :
    Frame.read (w ++ v) = some (f, r ++ v) := by
  by_cases hc : Complete w
  · have hi : ∀ i < w.length, (w ++ v).getD i 0 = w.getD i 0 := fun i hi => List.getD_append _ _ _ _ hi
    obtain ⟨h2, hp, hl⟩ := hc
    obtain ⟨hfin, hop, hm, -⟩ := fields_congr hi h2
    obtain ⟨he, hh⟩ := headEnd_congr hi h2
    have hel : lenEnd w ≤ headEnd w := Nat.le_add_right _ _
    have hpl : payloadLen (w ++ v) = payloadLen w := payloadLen_congr hi (by omega)
    have hk : keyBytes (w ++ v) = keyBytes w := by
      unfold keyBytes
      rw [hm, he]
      split
      · rename_i hmask
        have : lenEnd w + 4 ≤ w.length := by
          simp only [headEnd, hmask, if_true] at hl
          omega
        rw [List.drop_append_of_le_length (by omega), List.take_append_of_le_length (by simp; omega)]
      · rfl
    have hcv : Complete (w ++ v) := by
      refine ⟨?_, hpl ▸ hp, ?_⟩
      · rw [List.length_append]
        omega
      · rw [hh, hpl, List.length_append]
        omega
    rw [Frame.read, dif_pos ⟨h2, hp, hl⟩, Option.map_eq_some_iff] at h
    obtain ⟨op, hw, hfr⟩ := h
    obtain ⟨rfl, rfl⟩ := Prod.mk.inj hfr
    rw [Frame.read, dif_pos hcv, hop, hw, Option.map_some, Option.some.injEq, Prod.mk.injEq]
    constructor
    · refine Frame.ext hfin rfl hk ?_
      show masked (keyBytes (w ++ v)) _ = masked (keyBytes w) _
      rw [hk, hh, hpl, List.drop_append_of_le_length (by omega), List.take_append_of_le_length (by simp; omega)]
    · rw [hh, hpl, List.drop_append_of_le_length hl]
  · rw [Frame.read, dif_neg hc] at h
    exact absurd h (by simp)

/-- The call of the callback for a message. -/
def Event.of (opCode : WSopcode) (fin : Bool) (payload : Bytes) : Event where
  type := match opCode with
    | .text => if fin then .text else .fragmentTextStart
    | .binary => if fin then .bin else .fragmentBinStart
    | .continuation => if fin then .fragmentFin else .fragment
    | .ping => .ping
    | .pong => .pong
    | .close => .error
  payload := if payload = [] then none else some payload

/-- Only four bytes of a mask count. -/
theorem xorWith_take (key payload : Bytes) : xorWith (key.take 4) payload = xorWith key payload := by
  refine List.ext_getElem (by simp) fun i _ _ => ?_
  have hi : i % 4 < 4 := Nat.mod_lt _ (by decide)
  simp [xorWith, List.getElem?_take, hi]

theorem read_nil : Frame.read [] = none := rfl

/-- A header that announces more than the library accepts. -/
theorem read_oversize {op : WSopcode} {length : Nat} {mask fin : Bool} {key : Bytes} (hl : length < 2 ^ 32)
    (hmax : maxDataSize < length) (v : Bytes) : Frame.read (createHeader op length mask key fin ++ v) = none := by
  obtain ⟨-, -, -, -, hp⟩ := fields_createHeader op mask key fin hl v
  refine dif_neg fun hc => ?_
  have := hc.2.1
  omega

def framing : Framing UInt8 Frame := ⟨Frame.write, Frame.read, Frame.read_write, Frame.read_append⟩

end WebSockets
