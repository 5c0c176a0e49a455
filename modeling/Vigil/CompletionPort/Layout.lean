import Vigil.Overwrite
import Vigil.CompletionPort.Status

/-!
# Layouts shared with the system

- `Layout.ofFields`: where fields lie when each begins at the next multiple of its width;
- `Region`: a block of bytes, read and written as little-endian numbers at offsets. A range reads as what was written
  into it (`load_store`), and keeps that while others are written (`load_store_of_disjoint`);
- `Overlapped` and `IoStatusBlock`: two regions whose fields are read in more than one way.
-/

namespace Vigil.CompletionPort

/-! ## Layouts -/

/-- A named range of bytes. -/
structure Field where
  name : String
  offset : Nat
  width : Nat
  deriving DecidableEq

/-- The fields of a structure, and the number of its bytes. -/
structure Layout where
  fields : List Field
  size : Nat
  deriving DecidableEq

/-- The next multiple of a width. -/
def alignUp (n width : Nat) : Nat := (n + width - 1) / width * width

namespace Layout

/-- Places fields one behind the other, each at the next multiple of its width. -/
def place : Nat → List (String × Nat) → List Field
  | _, [] => []
  | n, (name, width) :: rest => ⟨name, alignUp n width, width⟩ :: place (alignUp n width + width) rest

/-- The layout of fields that are given by name and width. The size is a multiple of every width. -/
def ofFields (fs : List (String × Nat)) : Layout :=
  let fields := place 0 fs
  let stop := (fields.getLast?.map fun f => f.offset + f.width).getD 0
  ⟨fields, alignUp stop (fs.foldl (fun w f => max w f.2) 1)⟩

/-- A request on a handle. -/
def overlapped : Layout := ofFields [("Internal", 8), ("InternalHigh", 8), ("OffsetOrPointer", 8), ("hEvent", 8)]

/-- A completed request, as a queue delivers it. -/
def overlappedEntry : Layout :=
  ofFields [("lpCompletionKey", 8), ("lpOverlapped", 8), ("Internal", 8), ("dwNumberOfBytesTransferred", 4)]

/-- The outcome of a request. -/
def ioStatusBlock : Layout := ofFields [("StatusOrPointer", 8), ("Information", 8)]

/-- Counted text. -/
def unicodeString : Layout := ofFields [("Length", 2), ("MaximumLength", 2), ("Buffer", 8)]

/-- The name and the attributes of an object. -/
def objectAttributes : Layout :=
  ofFields [("Length", 4), ("RootDirectory", 8), ("ObjectName", 8), ("Attributes", 4), ("SecurityDescriptor", 8),
    ("SecurityQualityOfService", 8)]

/-- All layouts, by name. -/
def all : List (String × Layout) :=
  [("Overlapped", overlapped), ("OverlappedEntry", overlappedEntry), ("IoStatusBlock", ioStatusBlock),
    ("UnicodeString", unicodeString), ("ObjectAttributes", objectAttributes)]

end Layout

/-! ## Regions -/

/-- The bytes of a number, the lowest first. -/
def encode : Nat → Nat → List UInt8
  | 0, _ => []
  | width + 1, n => UInt8.ofNat n :: encode width (n / 256)

/-- The number that bytes stand for. -/
def decode : List UInt8 → Nat
  | [] => 0
  | b :: bs => b.toNat + 256 * decode bs

@[simp] theorem length_encode (width n : Nat) : (encode width n).length = width := by
  induction width generalizing n with
  | zero => rfl
  | succ width ih => simp [encode, ih]

/-- How many numbers fit into a width. -/
def span : Nat → Nat
  | 0 => 1
  | width + 1 => 256 * span width

/-- What is written in a width reads back, up to the width. -/
theorem decode_encode (width n : Nat) : decode (encode width n) = n % span width := by
  induction width generalizing n with
  | zero => simp [encode, decode, span, Nat.mod_one]
  | succ width ih => simp [encode, decode, span, ih, Nat.mod_mul]

/-- Bytes are written as they were read. -/
theorem encode_decode (bs : List UInt8) : encode bs.length (decode bs) = bs := by
  induction bs with
  | nil => rfl
  | cons b bs ih =>
    have hb := b.toNat_lt
    rw [List.length_cons, encode, decode, show (b.toNat + 256 * decode bs) / 256 = decode bs by omega, ih]
    exact congrArg (· :: bs) (UInt8.toNat_inj.1 (by simp))

/-- A block of bytes. -/
structure Region (size : Nat) where
  bytes : List UInt8
  length_bytes : bytes.length = size

namespace Region

variable {size : Nat}

/-- Cleared bytes. -/
def zero : Region size := ⟨List.replicate size 0, List.length_replicate⟩

/-- The number in a range of bytes. -/
def load (r : Region size) (offset width : Nat) : Nat := decode ((r.bytes.drop offset).take width)

/-- Writes a number into a range of bytes. -/
def store (r : Region size) (offset width n : Nat) : Region size where
  bytes := overwrite r.bytes offset (encode width n)
  length_bytes := (length_overwrite _ _ _).trans r.length_bytes

/-- A range reads as what was written into it, up to its width. -/
theorem load_store {r : Region size} {offset width : Nat} (h : offset + width ≤ size) (n : Nat) :
    (r.store offset width n).load offset width = n % span width := by
  have hr : ((overwrite r.bytes offset (encode width n)).drop offset).take (encode width n).length = encode width n :=
    take_drop_overwrite (by rw [length_encode, r.length_bytes]; exact h)
  rw [length_encode] at hr
  rw [load, store, hr, decode_encode]

/-- A range keeps what it holds when another one is written. -/
theorem load_store_of_disjoint {r : Region size} {offset width other w : Nat} (n : Nat)
    (h : other + w ≤ offset ∨ offset + width ≤ other) : (r.store offset width n).load other w = r.load other w :=
  congrArg decode (take_drop_overwrite_of_disjoint (by rw [length_encode]; exact h))

end Region

/-! ## A request -/

/-- A request on a handle: its status and length, a file offset or a pointer in the same eight bytes, and an event. -/
abbrev Overlapped := Region 32

namespace Overlapped

/-- Where the offset or pointer begins. -/
def shared : Nat := 16

/-- The low half of the file offset. -/
def offsetLow (o : Overlapped) : UInt32 := UInt32.ofNat (o.load shared 4)

/-- The high half of the file offset. -/
def offsetHigh (o : Overlapped) : UInt32 := UInt32.ofNat (o.load (shared + 4) 4)

/-- The file offset, from its halves. -/
def offset (o : Overlapped) : UInt64 := (o.offsetHigh.toUInt64 <<< 32) ||| o.offsetLow.toUInt64

/-- Writes the file offset, half by half. -/
def setOffset (o : Overlapped) (x : UInt64) : Overlapped :=
  (o.store shared 4 (x &&& 0xFFFFFFFF).toNat).store (shared + 4) 4 (x >>> 32).toNat

/-- The pointer. -/
def pointer (o : Overlapped) : UInt64 := UInt64.ofNat (o.load shared 8)

/-- Writes the pointer, over cleared bytes. -/
def setPointer (o : Overlapped) (x : UInt64) : Overlapped := (o.store shared 8 0).store shared 8 x.toNat

/-- The field that the kernel keeps the status in. -/
def internal (o : Overlapped) : UInt64 := UInt64.ofNat (o.load 0 8)

/-- Writes the field that the kernel keeps the status in. -/
def setInternal (o : Overlapped) (x : UInt64) : Overlapped := o.store 0 8 x.toNat

/-- The status, once the kernel has picked the request up. -/
def status (o : Overlapped) : NtStatus := o.internal.toUInt32.toInt32

end Overlapped

/-! ## An outcome -/

/-- The outcome of a request: a status or a pointer in the same eight bytes, and a length. -/
abbrev IoStatusBlock := Region 16

namespace IoStatusBlock

/-- The status. -/
def status (b : IoStatusBlock) : NtStatus := (UInt32.ofNat (b.load 0 4)).toInt32

/-- Writes the status, over cleared bytes. -/
def setStatus (b : IoStatusBlock) (s : NtStatus) : IoStatusBlock := (b.store 0 8 0).store 0 4 s.toUInt32.toNat

/-- The pointer. -/
def pointer (b : IoStatusBlock) : UInt64 := UInt64.ofNat (b.load 0 8)

/-- Writes the pointer. -/
def setPointer (b : IoStatusBlock) (x : UInt64) : IoStatusBlock := b.store 0 8 x.toNat

/-- The length. -/
def information (b : IoStatusBlock) : UInt64 := UInt64.ofNat (b.load 8 8)

/-- Writes the length. -/
def setInformation (b : IoStatusBlock) (x : UInt64) : IoStatusBlock := b.store 8 8 x.toNat

end IoStatusBlock

end Vigil.CompletionPort
