import Mathlib.Data.List.GetD
import TruckLock.Center

/-!
# EEPROM.cpp

The class behind `EEPROM`: a buffer in RAM for the start of one sector of the
flash chip, and a flag that says whether the sector is behind. The operations on
the chip are the SDK's; they are a parameter here, with what its manual says of
them. To its callers the class is a memory whose image is loaded by `begin` and
stored by `commit`.
-/
namespace EEPROMClass

/-- `SPI_FLASH_SEC_SIZE`. -/
def sectorSize : Nat := 4096

/-- `FLASH_PAGE_SIZE`. -/
def pageSize : Nat := 256

inductive SpiFlashOpResult where
  | ok
  | err
  | timeout
  deriving DecidableEq, Repr

/-- The operations that spi_flash.h declares, on a chip whose states are `σ`. `byte` is what an address holds;
a read returns what its destination holds afterwards. -/
structure SpiFlash (σ : Type) where
  byte : σ → Nat → UInt8
  /-- `getFlashChipVendorId` is `SPI_FLASH_VENDOR_PUYA`. -/
  puya : Bool
  spiFlashEraseSector : Nat → σ → SpiFlashOpResult × σ
  spiFlashWrite : Nat → List UInt8 → σ → SpiFlashOpResult × σ
  spiFlashRead : Nat → Nat → σ → SpiFlashOpResult × List UInt8 × σ

/-- The chip, and the number of its operations that have failed. -/
structure Flash (σ : Type) where
  chip : σ
  failures : Nat := 0

variable {σ : Type}

namespace Flash

/-- An operation has returned. -/
def after (r : SpiFlashOpResult) (c : σ) (b : Flash σ) : Flash σ where
  chip := c
  failures := b.failures + if r = .ok then 0 else 1

def erase (F : SpiFlash σ) (sector : Nat) (b : Flash σ) : SpiFlashOpResult × Flash σ :=
  let r := F.spiFlashEraseSector sector b.chip
  (r.1, b.after r.1 r.2)

def write (F : SpiFlash σ) (address : Nat) (data : List UInt8) (b : Flash σ) : SpiFlashOpResult × Flash σ :=
  let r := F.spiFlashWrite address data b.chip
  (r.1, b.after r.1 r.2)

def read (F : SpiFlash σ) (address size : Nat) (b : Flash σ) : SpiFlashOpResult × List UInt8 × Flash σ :=
  let r := F.spiFlashRead address size b.chip
  (r.1, r.2.1, b.after r.1 r.2.2)

end Flash

/-- The argument of the SDK's function is a `uint16`. -/
def flashEraseSector (F : SpiFlash σ) (sector : Nat) (b : Flash σ) : Bool × Flash σ :=
  let rc := b.erase F (sector % 65536)
  (rc.1 == .ok, rc.2)

/-- The loop of `spi_flash_write_puya`: a page is read, and written with the bits that both have. -/
def puyaLoop (F : SpiFlash σ) (pos : Nat) (data : List UInt8) (b : Flash σ) : SpiFlashOpResult × Flash σ :=
  if data = [] then (.ok, b)
  else
    let now := data.take pageSize
    let r := b.read F pos now.length
    if r.1 ≠ .ok then (r.1, r.2.2)
    else
      let w := r.2.2.write F pos (List.zipWith (· &&& ·) r.2.1 now)
      if w.1 ≠ .ok then (w.1, w.2) else puyaLoop F (pos + now.length) (data.drop pageSize) w.2
termination_by data.length
decreasing_by
  rename_i h _ _
  have := List.length_pos_of_ne_nil h
  simp only [List.length_drop, pageSize]
  omega

def spiFlashWritePuya (F : SpiFlash σ) (offset : Nat) (data : List UInt8) (b : Flash σ) : SpiFlashOpResult × Flash σ :=
  if data.length % 4 ≠ 0 then (.err, b) else puyaLoop F offset data b

def flashWrite (F : SpiFlash σ) (address : Nat) (data : List UInt8) (b : Flash σ) : Bool × Flash σ :=
  if data.length % 4 ≠ 0 ∨ address % 4 ≠ 0 ∧ address / pageSize ≠ (address + data.length - 1) / pageSize then (false, b)
  else
    let rc := if F.puya then spiFlashWritePuya F address data b else b.write F address data
    (rc.1 == .ok, rc.2)

def flashRead (F : SpiFlash σ) (address : Nat) (data : List UInt8) (b : Flash σ) : Bool × List UInt8 × Flash σ :=
  if data.length % 4 ≠ 0 then (false, data, b)
  else
    let rc := b.read F address data.length
    (rc.1 == .ok, rc.2.1, rc.2.2)

/-- The object, and the chip under it. -/
structure State (σ : Type) where
  sector : Nat
  data : Option (List UInt8) := none
  size : Nat := 0
  dirty : Bool := false
  flash : Flash σ

namespace State

/-- `begin`; `fresh` is what a new buffer happens to hold. -/
def begin (F : SpiFlash σ) (size : Nat) (fresh : Nat → UInt8) (s : State σ) : State σ :=
  if size = 0 then s
  else
    let size := (min size sectorSize + 3) / 4 * 4
    let new := (List.range size).map fresh
    let data := match s.data with
      | some d => if size ≠ s.size then new else d
      | none => new
    let r := flashRead F (s.sector * sectorSize % 2 ^ 32) data s.flash
    { s with data := some r.2.1, size := size, dirty := false, flash := r.2.2 }

def read (address : Int) (s : State σ) : UInt8 :=
  if address < 0 ∨ s.size ≤ address.toNat then 0
  else match s.data with
    | none => 0
    | some d => d.getD address.toNat 0

def write (address : Int) (value : UInt8) (s : State σ) : State σ :=
  if address < 0 ∨ s.size ≤ address.toNat then s
  else match s.data with
    | none => s
    | some d =>
      if d.getD address.toNat 0 ≠ value then { s with data := some (d.set address.toNat value), dirty := true } else s

def commit (F : SpiFlash σ) (s : State σ) : Bool × State σ :=
  if s.size = 0 then (false, s)
  else if !s.dirty then (true, s)
  else match s.data with
    | none => (false, s)
    | some d =>
      let e := flashEraseSector F s.sector s.flash
      if e.1 then
        let w := flashWrite F (s.sector * sectorSize % 2 ^ 32) d e.2
        if w.1 then (true, { s with dirty := false, flash := w.2 }) else (false, { s with flash := w.2 })
      else (false, { s with flash := e.2 })

/-- `end`, from which the object can begin again. -/
def close (F : SpiFlash σ) (s : State σ) : Bool × State σ :=
  if s.size = 0 then (false, s)
  else
    let c := s.commit F
    (c.1, { c.2 with data := none, size := 0, dirty := false })

end State

/-- The calls, and a reset of the device. -/
inductive Call where
  | begin (size : Nat) (fresh : Nat → UInt8)
  | read (address : Int)
  | write (address : Int) (value : UInt8)
  | commit
  | close
  | reset

inductive Answer where
  | nothing
  | byte (b : UInt8)
  | bool (b : Bool)
  deriving DecidableEq, Repr

/-- The object before `begin`. -/
def asleep (sector : Nat) (b : Flash σ) : State σ := { sector := sector, flash := b }

def Call.run (F : SpiFlash σ) (s : State σ) : Call → Answer × State σ
  | .begin size fresh => (.nothing, s.begin F size fresh)
  | .read address => (.byte (s.read address), s)
  | .write address value => (.nothing, s.write address value)
  | .commit => (.bool (s.commit F).1, (s.commit F).2)
  | .close => (.bool (s.close F).1, (s.close F).2)
  | .reset => (.nothing, asleep s.sector s.flash)

/-- What the class is for: an image of `size` cells, and what is stored of it. It is `loaded` unless the chip
has failed to read it. -/
structure Memory where
  size : Nat
  image : Nat → UInt8
  stored : Nat → UInt8
  loaded : Bool

namespace Memory

/-- The image has been stored. -/
def Saved (m m' : Memory) : Prop := ∀ i < m.size, m'.stored i = m.image i

end Memory

/-- The buffer has `size` bytes, a number that the chip can write; once loaded, it is stored unless the flag is
set. -/
structure Sound (F : SpiFlash σ) (loaded : Bool) (s : State σ) : Prop where
  sector : s.sector < 65536
  length : ∀ d ∈ s.data, d.length = s.size ∧ 0 < s.size
  closed : s.data = none → s.size = 0
  aligned : s.size % 4 = 0
  bound : s.size ≤ sectorSize
  clean : loaded = true → ∀ d ∈ s.data, s.dirty = false → ∀ i < s.size,
    F.byte s.flash.chip (s.sector * sectorSize + i) = d.getD i 0

section

variable {F : SpiFlash σ} {s : State σ} {l : Bool}

/-- The ways in which an operation ends: it succeeds, and then `P` holds of the chip, or its failure is counted. -/
def Ends (P : σ → Prop) (b : Flash σ) (ok : Prop) (b' : Flash σ) : Prop :=
  ok ∧ b'.failures = b.failures ∧ P b'.chip ∨ ¬ ok ∧ b.failures < b'.failures

/-- What a write is to do with bytes that were erased, and that it leaves the others. -/
def Writes (F : SpiFlash σ) (address : Nat) (data : List UInt8) (b : Flash σ) (ok : Prop) (b' : Flash σ) : Prop :=
  ((∀ i < data.length, F.byte b.chip (address + i) = 255) →
    Ends (fun c => ∀ i < data.length, F.byte c (address + i) = data.getD i 0) b ok b') ∧
  ∀ a, a < address ∨ address + data.length ≤ a → F.byte b'.chip a = F.byte b.chip a

end

end EEPROMClass

namespace Center

open EEPROMClass

/-- What the sketch does with `EEPROM`; each reset is followed by `EEPROM.begin(512)`. -/
inductive Use where
  | read (a : Nat)
  | write (a : Nat) (v : UInt8)
  | commit
  | restart (fresh : Nat → UInt8)

/-- The calls of the class. -/
def Use.calls : Use → List Call
  | .read a => [.read a]
  | .write a v => [.write a v]
  | .commit => [.commit]
  | .restart fresh => [.reset, .begin 512 fresh]

/-- The value that is read, and the state after it. -/
def Use.run (s : State) : Use → Option Int × State
  | .read a => (some (s.read a), s)
  | .write a v => (none, s.write a v)
  | .commit => (none, s.commit)
  | .restart _ => (none, Center.restart s)

/-- The values that are read. -/
def reads (s : State) : List Use → List Int
  | [] => []
  | u :: us => (u.run s).1.toList ++ reads (u.run s).2 us

/-- The values among the answers of the class. -/
def values (rs : List (Answer × Bool)) : List Int :=
  rs.filterMap fun r => match r.1 with
    | .byte b => some b.toNat
    | _ => none

section

variable {σ : Type} {F : SpiFlash σ}

end

end Center
