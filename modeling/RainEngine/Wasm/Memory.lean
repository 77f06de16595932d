import RainEngine.Wasm.Epochs

/-
  This file is about how the host reads the memory of a guest.
  A host import converts signed numbers, and the result of a
  run packs unsigned ones; both size their buffer before the
  bounds are checked. An import reads safely exactly when the
  length is below the sign bit and fits into the memory, and
  the pointer is below the sign bit or out of bounds anyway.

  Key definitions include:
    * `GuestMemory`
    * `readGuestBytes`
    * `readOutput`
    * `ReadsSafely`

  Key theorems include:
    * `readBuffer_safe`
    * `guest_reads_safe_iff`
    * `hostile_reads`
-/

namespace RainEngine.Wasm

------------------------------------------------------------
-- Guest Memory
------------------------------------------------------------

/-
  The exported memory of a guest, with 32-bit addresses.
  Reading a range fills the buffer from the memory, or fails
  if the range leaves it.
-/
structure GuestMemory where
  bytes : List UInt8
  addressable : bytes.length ≤ 2 ^ 32
  read : Nat → Nat → Except String (List UInt8)
  read_inside : ∀ offset length,
    offset + length ≤ bytes.length →
      read offset length =
        .ok ((bytes.drop offset).take length)
  read_outside : ∀ offset length,
    bytes.length < offset + length →
      ∃ message, read offset length = .error message

namespace GuestMemory

def size (memory : GuestMemory) : Nat :=
  memory.bytes.length

/- The memory that holds the bytes. -/
def ofBytes
    (bytes : List UInt8)
    (hAddressable : bytes.length ≤ 2 ^ 32) :
    GuestMemory where
  bytes := bytes
  addressable := hAddressable
  read offset length :=
    if offset + length ≤ bytes.length then
      .ok ((bytes.drop offset).take length)
    else .error "out of bounds memory access"
  read_inside := by
    intro offset length hInside
    exact if_pos hInside
  read_outside := by
    intro offset length hOutside
    exact ⟨_, if_neg (Nat.not_le_of_lt hOutside)⟩

end GuestMemory

------------------------------------------------------------
-- Reads Of The Host
------------------------------------------------------------

/-
  How a read ends: the host panics, or it has allocated a
  buffer and returns.
-/
inductive GuestRead where
  | panicked
  | returned (allocated : Nat)
      (result : Except SkillExecutionError (List UInt8))

def classifyMemory (message : String) : SkillExecutionError where
  kind := .memoryLimitExceeded
  message := message

/- A vector cannot hold this many bytes or more. -/
def capacityLimit : Nat :=
  2 ^ 63

/- The value `value as usize`, with its sign extended. -/
def asUsize (value : BitVec 32) : Nat :=
  (value.signExtend 64).toNat

/- Allocate a buffer and fill it from the memory. -/
def readBuffer
    (memory : GuestMemory)
    (offset length : Nat) :
    GuestRead :=
  if capacityLimit ≤ length then .panicked
  else
    .returned length
      ((memory.read offset length).mapError classifyMemory)

/- What a host import reads. -/
def readGuestBytes
    (memory : Option GuestMemory)
    (ptr len : BitVec 32) :
    GuestRead :=
  match memory with
  | none =>
      .returned 0
        (.error
          ⟨.internal, "wasm module must export memory"⟩)
  | some memory =>
      readBuffer memory (asUsize ptr) (asUsize len)

def outputPtr (packed : BitVec 64) : BitVec 32 :=
  packed.setWidth 32

def outputLen (packed : BitVec 64) : BitVec 32 :=
  (packed.sshiftRight 32).setWidth 32

/- What is read of the result of a run. -/
def readOutput
    (memory : GuestMemory)
    (packed : BitVec 64) :
    GuestRead :=
  readBuffer memory (outputPtr packed).toNat
    (outputLen packed).toNat

/-
  A read of a range, with its numbers taken as unsigned, is
  safe: the host returns, has allocated no more than the
  memory, and has the bytes if they are there, else an error.
-/
def ReadsSafely
    (memory : GuestMemory)
    (ptr len : Nat)
    (read : GuestRead) :
    Prop :=
  ∃ allocated result,
    read = .returned allocated result ∧
      allocated ≤ memory.size ∧
      (ptr + len ≤ memory.size →
        result = .ok ((memory.bytes.drop ptr).take len)) ∧
      (memory.size < ptr + len →
        ∃ error, result = .error error)

------------------------------------------------------------
-- Safe Reads
------------------------------------------------------------

section Reads

variable {memory : GuestMemory}
variable {ptr len offset length : Nat}

/- Below the sign bit a number keeps its value. -/
theorem asUsize_of_low
    {value : BitVec 32}
    (hLow : value.toNat < 2 ^ 31) :
    asUsize value = value.toNat := by
  have hSign : value.msb = false := by
    rw [BitVec.msb_eq_decide]
    simpa using hLow
  unfold asUsize
  rw [BitVec.signExtend_eq_setWidth_of_msb_false hSign,
    BitVec.toNat_setWidth]
  omega

/- From the sign bit on it is extended beyond all bounds. -/
theorem asUsize_of_high
    {value : BitVec 32}
    (hHigh : 2 ^ 31 ≤ value.toNat) :
    capacityLimit ≤ asUsize value := by
  have hSign : value.msb = true := by
    rw [BitVec.msb_eq_decide]
    simpa using hHigh
  unfold asUsize capacityLimit
  rw [BitVec.toNat_signExtend, hSign, if_pos rfl]
  omega

/- A buffer as large as the range is filled from there. -/
theorem readBuffer_safe
    (hFits : len ≤ memory.size)
    (hSize : len < capacityLimit) :
    ReadsSafely memory ptr len (readBuffer memory ptr len) := by
  refine ⟨len, _, if_neg (Nat.not_le_of_lt hSize), hFits,
    ?_, ?_⟩
  · intro hInside
    rw [memory.read_inside ptr len hInside]
    rfl
  · intro hOutside
    rcases memory.read_outside ptr len hOutside with
      ⟨message, hRead⟩
    rw [hRead]
    exact ⟨_, rfl⟩

/- A safe read has a buffer no larger than the memory. -/
theorem ReadsSafely.fits
    (hSafe :
      ReadsSafely memory ptr len
        (readBuffer memory offset length)) :
    length < capacityLimit ∧ length ≤ memory.size := by
  rcases hSafe with ⟨allocated, result, hRead, hFits, _⟩
  unfold readBuffer at hRead
  split at hRead
  · cases hRead
  · rename_i hSize
    cases hRead
    exact ⟨Nat.lt_of_not_le hSize, hFits⟩

theorem outputLen_lt (packed : BitVec 64) :
    (outputLen packed).toNat < capacityLimit := by
  have hBound := (outputLen packed).isLt
  unfold capacityLimit
  omega

/- The buffer is allocated whatever the memory holds. -/
theorem readBuffer_allocates
    (hSize : length < capacityLimit) :
    ∃ result, readBuffer memory offset length =
      .returned length result :=
  ⟨_, if_neg (Nat.not_le_of_lt hSize)⟩

/- Beyond the memory there is nothing to be had. -/
theorem readBuffer_beyond
    (hBeyond : capacityLimit ≤ offset)
    (hSize : length < capacityLimit) :
    ∃ error, readBuffer memory offset length =
      .returned length (.error error) := by
  have hOutside : memory.bytes.length < offset + length := by
    have hAddressable := memory.addressable
    unfold capacityLimit at hBeyond
    omega
  rcases memory.read_outside offset length hOutside with
    ⟨message, hRead⟩
  refine ⟨classifyMemory message, ?_⟩
  unfold readBuffer
  rw [if_neg (Nat.not_le_of_lt hSize), hRead]
  rfl

theorem readGuestBytes_safe
    {ptr len : BitVec 32}
    (hFits : len.toNat ≤ memory.size)
    (hLow : len.toNat < 2 ^ 31)
    (hPtr : ptr.toNat < 2 ^ 31 ∨
      memory.size < ptr.toNat + len.toNat) :
    ReadsSafely memory ptr.toNat len.toNat
      (readGuestBytes (some memory) ptr len) := by
  have hSize : len.toNat < capacityLimit := by
    unfold capacityLimit
    omega
  unfold readGuestBytes
  dsimp only
  rw [asUsize_of_low hLow]
  by_cases hSmall : ptr.toNat < 2 ^ 31
  · rw [asUsize_of_low hSmall]
    exact readBuffer_safe hFits hSize
  · have hOutside := hPtr.resolve_left hSmall
    have hBeyond :=
      asUsize_of_high (Nat.le_of_not_lt hSmall)
    rcases @readBuffer_beyond memory _ _ hBeyond hSize
      with ⟨error, hRead⟩
    refine ⟨len.toNat, .error error, hRead, hFits, ?_, ?_⟩
    · intro hInside
      omega
    · intro _
      exact ⟨error, rfl⟩

/- What a safe import needs of the numbers it is given. -/
theorem ReadsSafely.numbers
    {ptr len : BitVec 32}
    (hSafe :
      ReadsSafely memory ptr.toNat len.toNat
        (readGuestBytes (some memory) ptr len)) :
    len.toNat ≤ memory.size ∧ len.toNat < 2 ^ 31 ∧
      (ptr.toNat < 2 ^ 31 ∨
        memory.size < ptr.toNat + len.toNat) := by
  unfold readGuestBytes at hSafe
  dsimp only at hSafe
  rcases hSafe.fits with ⟨hSize, hFits⟩
  have hLow : len.toNat < 2 ^ 31 := by
    by_contra hHigh
    have hBeyond :=
      asUsize_of_high (Nat.le_of_not_lt hHigh)
    omega
  rw [asUsize_of_low hLow] at hSize hFits
  refine ⟨hFits, hLow, ?_⟩
  by_contra hBoth
  rw [not_or] at hBoth
  rcases hBoth with ⟨hHigh, hInside⟩
  have hBeyond := asUsize_of_high (Nat.le_of_not_lt hHigh)
  rcases @readBuffer_beyond memory _ _ hBeyond hSize
    with ⟨error, hRead⟩
  rcases hSafe with ⟨allocated, result, hReturned, _, hOk, _⟩
  rw [asUsize_of_low hLow, hRead] at hReturned
  cases hReturned
  have hBytes := hOk (Nat.le_of_not_lt hInside)
  cases hBytes

/-
  The result of a run is read safely if its length fits; a
  host import also needs numbers below the sign bit, unless
  its range is out of bounds.
-/
theorem guest_reads_safe_iff
    (memory : GuestMemory) :
    (∀ ptr len : BitVec 32,
      ReadsSafely memory ptr.toNat len.toNat
          (readGuestBytes (some memory) ptr len) ↔
        len.toNat ≤ memory.size ∧ len.toNat < 2 ^ 31 ∧
          (ptr.toNat < 2 ^ 31 ∨
            memory.size < ptr.toNat + len.toNat)) ∧
    (∀ packed : BitVec 64,
      ReadsSafely memory (outputPtr packed).toNat
          (outputLen packed).toNat
          (readOutput memory packed) ↔
        (outputLen packed).toNat ≤ memory.size) := by
  constructor
  · intro ptr len
    constructor
    · intro hSafe
      exact hSafe.numbers
    · intro hNumbers
      exact readGuestBytes_safe hNumbers.1 hNumbers.2.1
        hNumbers.2.2
  · intro packed
    constructor
    · intro hSafe
      exact hSafe.fits.2
    · intro hFits
      exact readBuffer_safe hFits (outputLen_lt packed)

end Reads

------------------------------------------------------------
-- Hostile Guests
------------------------------------------------------------

/- A memory of zeros. -/
def zeros
    (size : Nat)
    (hSize : size ≤ 2 ^ 32) :
    GuestMemory :=
  .ofBytes (List.replicate size 0)
    (by rw [List.length_replicate]; exact hSize)

theorem zeros_size
    {size : Nat}
    {hSize : size ≤ 2 ^ 32} :
    (zeros size hSize).size = size :=
  List.length_replicate

/- One page of memory. -/
def onePage : GuestMemory :=
  zeros 65536 (by decide)

/- Three gigabytes of memory. -/
def threeGigabytes : GuestMemory :=
  zeros (3 * 2 ^ 30) (by decide)

/-
  A negative length panics; a large one has the host allocate
  more than the guest has, also for the result of a run; and a
  high pointer is out of bounds wherever it points.
-/
theorem hostile_reads :
    readGuestBytes (some onePage) 0 0xFFFFFFFF = .panicked ∧
    (∃ result,
      readGuestBytes (some onePage) 0 0x7FFFFFFF =
        .returned 0x7FFFFFFF result) ∧
    (∃ result,
      readOutput onePage 0xFFFFFFFF00000000 =
        .returned 0xFFFFFFFF result) ∧
    (∃ error,
      readGuestBytes (some threeGigabytes) 0x80000000 1 =
        .returned 1 (.error error)) ∧
    ¬(∀ (memory : GuestMemory) (ptr len : BitVec 32),
      ReadsSafely memory ptr.toNat len.toNat
        (readGuestBytes (some memory) ptr len)) ∧
    ¬(∀ (memory : GuestMemory) (packed : BitVec 64),
      ReadsSafely memory (outputPtr packed).toNat
        (outputLen packed).toNat
        (readOutput memory packed)) := by
  refine ⟨?_, ?_, ?_, ?_, ?_, ?_⟩
  · have hNegative : capacityLimit ≤ asUsize 0xFFFFFFFF := by
      decide
    unfold readGuestBytes readBuffer
    exact if_pos hNegative
  · exact readBuffer_allocates (by decide)
  · exact readBuffer_allocates (by decide)
  · exact readBuffer_beyond (by decide) (by decide)
  · intro hAll
    have hFits := (hAll onePage 0 0x7FFFFFFF).numbers.1
    unfold onePage at hFits
    rw [zeros_size] at hFits
    revert hFits
    decide
  · intro hAll
    have hFits := (hAll onePage 0xFFFFFFFF00000000).fits.2
    unfold onePage at hFits
    rw [zeros_size] at hFits
    revert hFits
    decide

end RainEngine.Wasm
