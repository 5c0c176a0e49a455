import Mathlib.Algebra.Group.Nat.Defs
import Mathlib.Tactic.SplitIfs
import Vigil.CompletionPort.Layout

/-!
# Views of the same bytes

A request and an outcome are some words of eight bytes each, and their accessors read and write one of these words,
whole or in halves.

- `Region.getElem?_store`: which bytes a write changes, and to what. Everything else about writes follows from it;
- `Region.word`, `Region.setWord`: the words of a region;
- `Overlapped.Fields`, `IoStatusBlock.Fields`: regions as their words. What an accessor makes of a region it makes of
  the one word that it is about (`Overlapped.fields_access`, `IoStatusBlock.fields_access`);
- `Overlapped.Holds`, `IoStatusBlock.Holds`: every view of the shared word shows the same value;
- `views_decode`: what the views show after any accesses.
-/

namespace Vigil.CompletionPort

/-! ## Bytes -/

theorem span_eq (width : Nat) : span width = 256 ^ width := by
  induction width with
  | zero => rfl
  | succ width ih => rw [span, ih, Nat.pow_succ']

/-- Each byte of a number, by its weight. -/
theorem getElem?_encode (width n i : Nat) :
    (encode width n)[i]? = if i < width then some (UInt8.ofNat (n / 256 ^ i)) else none := by
  induction width generalizing n i with
  | zero => rfl
  | succ width ih =>
    cases i with
    | zero => simp [encode]
    | succ i => simp [encode, ih, Nat.div_div_eq_div_mul, Nat.pow_succ']

theorem decode_append (xs ys : List UInt8) : decode (xs ++ ys) = decode xs + 256 ^ xs.length * decode ys := by
  induction xs with
  | nil => simp [decode]
  | cons x xs ih =>
    rw [List.cons_append, decode, decode, ih, List.length_cons, Nat.pow_succ', Nat.mul_assoc, Nat.mul_add,
      Nat.add_assoc]

theorem decode_lt (bs : List UInt8) : decode bs < 256 ^ bs.length := by
  induction bs with
  | nil => simp [decode]
  | cons b bs ih =>
    have hb := b.toNat_lt
    rw [decode, List.length_cons, Nat.pow_succ']
    omega

/-- The byte of a remainder is that of the number, where the remainder reaches. -/
theorem ofNat_mod_div (n : Nat) {width i : Nat} (h : i < width) :
    UInt8.ofNat (n % 256 ^ width / 256 ^ i) = UInt8.ofNat (n / 256 ^ i) := by
  obtain ⟨k, rfl⟩ := Nat.exists_eq_add_of_lt h
  have hmod : n % 256 ^ (i + k + 1) / 256 ^ i = n / 256 ^ i % 256 ^ (k + 1) := by
    rw [Nat.add_assoc, Nat.pow_add, Nat.mod_mul_right_div_self]
  rw [hmod, ← UInt8.toNat_inj, UInt8.toNat_ofNat', UInt8.toNat_ofNat']
  exact Nat.mod_mod_of_dvd _ ⟨256 ^ k, Nat.pow_succ'⟩

namespace Region

variable {size : Nat} {r r' : Region size} {offset width n i j : Nat} {x : UInt64}

theorem eq_of_bytes (h : ∀ i : Nat, r.bytes[i]? = r'.bytes[i]?) : r = r' := by
  obtain ⟨bs, hbs⟩ := r
  obtain ⟨bs', hbs'⟩ := r'
  obtain rfl : bs = bs' := List.ext_getElem? h
  rfl

/-- A byte comes from the number that was written if it lies in the range, and is the old one otherwise. -/
theorem getElem?_store (r : Region size) (offset width n i : Nat) :
    (r.store offset width n).bytes[i]? =
      if offset ≤ i ∧ i < offset + width ∧ i < size then some (UInt8.ofNat (n / 256 ^ (i - offset)))
      else r.bytes[i]? := by
  rw [store, getElem?_overwrite, length_encode, r.length_bytes, getElem?_encode]
  split_ifs <;> first | rfl | omega

/-- A range is written as it was read. -/
theorem store_load (h : offset + width ≤ size) : r.store offset width (r.load offset width) = r := by
  have hlength : ((r.bytes.drop offset).take width).length = width := by
    rw [List.length_take, List.length_drop, r.length_bytes]
    omega
  have hencode := encode_decode ((r.bytes.drop offset).take width)
  rw [hlength] at hencode
  refine eq_of_bytes fun i => ?_
  rw [store, load, getElem?_overwrite, hencode, hlength]
  split_ifs with hi
  · rw [List.getElem?_take, if_pos hi.2.2, List.getElem?_drop]
    congr 1
    omega
  · rfl

/-- Writing a range once more forgets what was written there before. -/
theorem store_store (r : Region size) (offset width m n : Nat) :
    (r.store offset width m).store offset width n = r.store offset width n := by
  refine eq_of_bytes fun i => ?_
  simp only [getElem?_store]
  split_ifs <;> rfl

/-- A range is written as well in two parts. -/
theorem store_append (r : Region size) (offset width more n : Nat) :
    (r.store offset width (n % 256 ^ width)).store (offset + width) more (n / 256 ^ width) =
      r.store offset (width + more) n := by
  refine eq_of_bytes fun i => ?_
  simp only [getElem?_store]
  split_ifs with hhigh hall hlow hall
  · have hi : i - offset = width + (i - (offset + width)) := by omega
    rw [hi, Nat.div_div_eq_div_mul, Nat.pow_add]
  · omega
  · rw [ofNat_mod_div n (by omega)]
  · omega
  · omega
  · rfl

/-- A number that fits into the first part of a cleared range is written in all of it. -/
theorem store_zero_store (r : Region size) (offset width more : Nat) (h : n < 256 ^ width) :
    (r.store offset (width + more) 0).store offset width n = r.store offset (width + more) n := by
  refine eq_of_bytes fun i => ?_
  simp only [getElem?_store]
  split_ifs with hlow hall hall
  · rfl
  · omega
  · have hpow : 256 ^ width ≤ 256 ^ (i - offset) := Nat.pow_le_pow_right (by decide) (by omega)
    rw [Nat.zero_div, Nat.div_eq_of_lt (Nat.lt_of_lt_of_le h hpow)]
  · rfl

/-- A range is read as well in two parts. -/
theorem load_append (r : Region size) (offset width more : Nat) (h : offset + width ≤ size) :
    r.load offset (width + more) = r.load offset width + 256 ^ width * r.load (offset + width) more := by
  have hlength : ((r.bytes.drop offset).take width).length = width := by
    rw [List.length_take, List.length_drop, r.length_bytes]
    omega
  rw [load, List.take_add, decode_append, hlength, List.drop_drop, load, load]

theorem load_lt (r : Region size) (offset width : Nat) : r.load offset width < 256 ^ width := by
  have hlength : ((r.bytes.drop offset).take width).length ≤ width := by
    rw [List.length_take]
    exact Nat.min_le_left _ _
  exact Nat.lt_of_lt_of_le (decode_lt _) (Nat.pow_le_pow_right (by decide) hlength)

/-! ## Words -/

/-- A word of a region. -/
def word (r : Region size) (i : Nat) : UInt64 := UInt64.ofNat (r.load (8 * i) 8)

/-- Writes a word of a region. -/
def setWord (r : Region size) (i : Nat) (x : UInt64) : Region size := r.store (8 * i) 8 x.toNat

theorem toNat_word (r : Region size) (i : Nat) : (r.word i).toNat = r.load (8 * i) 8 :=
  UInt64.toNat_ofNat_of_lt' (r.load_lt _ _)

theorem word_setWord (h : 8 * i + 8 ≤ size) : (r.setWord i x).word i = x := by
  rw [← UInt64.toNat_inj, toNat_word, setWord, load_store h, span_eq]
  exact Nat.mod_eq_of_lt x.toNat_lt

theorem word_setWord_of_ne (h : i ≠ j) : (r.setWord i x).word j = r.word j :=
  congrArg UInt64.ofNat (load_store_of_disjoint _ (by omega))

theorem setWord_word (h : 8 * i + 8 ≤ size) : r.setWord i (r.word i) = r := by
  rw [setWord, toNat_word]
  exact store_load h

/-- The bytes of a word. -/
theorem getElem?_word (h : 8 * i + 8 ≤ size) (hj : j < 8) :
    r.bytes[8 * i + j]? = some (UInt8.ofNat ((r.word i).toNat / 256 ^ j)) := by
  have hbyte := getElem?_store r (8 * i) 8 (r.word i).toNat (8 * i + j)
  rwa [if_pos (by omega), Nat.add_sub_cancel_left, ← setWord, setWord_word h] at hbyte

/-- Only bytes of some range differ. -/
def DiffersWithin (r r' : Region size) (offset width : Nat) : Prop :=
  ∀ i : Nat, i < offset ∨ offset + width ≤ i → r'.bytes[i]? = r.bytes[i]?

theorem differsWithin_setWord (r : Region size) (i : Nat) (x : UInt64) :
    r.DiffersWithin (r.setWord i x) (8 * i) 8 := fun k hk => by
  rw [setWord, getElem?_store, if_neg (by omega)]

/-- The low half of a word, with a sign. -/
theorem toInt_low (x : UInt64) : x.toUInt32.toInt32.toInt = (x.toNat : Int).bmod (2 ^ 32) := by
  show x.toUInt32.toBitVec.toInt = _
  rw [BitVec.toInt_eq_toNat_bmod, UInt32.toNat_toBitVec, UInt64.toNat_toUInt32, Int.natCast_emod]
  exact Int.emod_bmod _ (2 ^ 32)

end Region

/-! ## Requests -/

namespace Overlapped

/-- A request as its words. -/
structure Fields where
  internal : UInt64
  internalHigh : UInt64
  shared : UInt64
  event : UInt64

/-- The words of a request. -/
def fields (o : Overlapped) : Fields := ⟨o.word 0, o.word 1, o.word 2, o.word 3⟩

/-- What is written through the accessors of a request. -/
inductive Access where
  | offset (x : UInt64)
  | pointer (x : UInt64)
  | internal (x : UInt64)

namespace Access

/-- The word that is written. -/
def word : Access → Nat
  | offset _ => 2
  | pointer _ => 2
  | internal _ => 0

/-- What is written. -/
def value : Access → UInt64
  | offset x => x
  | pointer x => x
  | internal x => x

end Access

/-- Carries out an access. -/
def access (o : Overlapped) : Access → Overlapped
  | .offset x => o.setOffset x
  | .pointer x => o.setPointer x
  | .internal x => o.setInternal x

/-- What an access makes of the words: the offset and the pointer are the same one. -/
def Fields.access (f : Fields) : Access → Fields
  | .offset x => { f with shared := x }
  | .pointer x => { f with shared := x }
  | .internal x => { f with internal := x }

/-- Every view of the shared bytes shows a value: the offset, the pointer, the halves, and the bytes, the lowest
first. -/
structure Holds (o : Overlapped) (x : UInt64) : Prop where
  offset : o.offset = x
  pointer : o.pointer = x
  halves : x.toNat = o.offsetHigh.toNat * 2 ^ 32 + o.offsetLow.toNat
  bytes : ∀ i < 8, o.bytes[16 + i]? = some (UInt8.ofNat (x.toNat / 256 ^ i))

variable (o : Overlapped)

theorem setOffset_eq (x : UInt64) : o.setOffset x = o.setWord 2 x := by
  have hlow : (x &&& 0xFFFFFFFF).toNat = x.toNat % 256 ^ 4 := by
    rw [UInt64.toNat_and]
    exact Nat.and_two_pow_sub_one_eq_mod _ 32
  have hhigh : (x >>> 32).toNat = x.toNat / 256 ^ 4 := by
    rw [UInt64.toNat_shiftRight]
    exact Nat.shiftRight_eq_div_pow _ 32
  rw [setOffset, hlow, hhigh]
  exact o.store_append shared 4 4 x.toNat

theorem setPointer_eq (x : UInt64) : o.setPointer x = o.setWord 2 x := o.store_store shared 8 0 x.toNat

/-- However a value is written, it is written as a word. -/
theorem access_eq (a : Access) : o.access a = o.setWord a.word a.value := by
  cases a with
  | offset x => exact o.setOffset_eq x
  | pointer x => exact o.setPointer_eq x
  | internal x => rfl

theorem fields_access (a : Access) : (o.access a).fields = o.fields.access a := by
  rw [access_eq]
  cases a <;>
    simp [fields, Fields.access, Access.word, Access.value, Region.word_setWord, Region.word_setWord_of_ne]

theorem toNat_shared : (o.word 2).toNat = o.offsetHigh.toNat * 2 ^ 32 + o.offsetLow.toNat := by
  have hlow : o.offsetLow.toNat = o.load 16 4 := UInt32.toNat_ofNat_of_lt' (o.load_lt _ _)
  have hhigh : o.offsetHigh.toNat = o.load 20 4 := UInt32.toNat_ofNat_of_lt' (o.load_lt _ _)
  have hload : o.load 16 8 = o.load 16 4 + 256 ^ 4 * o.load 20 4 :=
    o.load_append 16 4 4 (by decide)
  rw [Region.toNat_word, hlow, hhigh, hload]
  omega

theorem offset_eq : o.offset = o.word 2 := by
  have hlow := o.offsetLow.toNat_lt
  have hhigh := o.offsetHigh.toNat_lt
  have hshift : (o.offsetHigh.toUInt64 <<< 32).toNat = o.offsetHigh.toNat <<< 32 := by
    rw [UInt64.toNat_shiftLeft, UInt32.toNat_toUInt64]
    refine Nat.mod_eq_of_lt ?_
    show o.offsetHigh.toNat <<< 32 < _
    rw [Nat.shiftLeft_eq]
    omega
  rw [← UInt64.toNat_inj, toNat_shared, offset, UInt64.toNat_or, hshift, UInt32.toNat_toUInt64,
    ← Nat.shiftLeft_add_eq_or_of_lt hlow, Nat.shiftLeft_eq]

/-- Whatever the shared bytes hold, the views agree on it. -/
theorem holds_shared : o.Holds o.fields.shared where
  offset := o.offset_eq
  pointer := rfl
  halves := o.toNat_shared
  bytes _ hi := Region.getElem?_word (i := 2) (by decide) hi

theorem fields_accesses (as : List Access) : (as.foldl access o).fields = as.foldl Fields.access o.fields :=
  (List.foldl_hom fields fun o a => (o.fields_access a).symm).symm

end Overlapped

/-! ## Outcomes -/

namespace IoStatusBlock

/-- An outcome as its words. -/
structure Fields where
  shared : UInt64
  information : UInt64

/-- The words of an outcome. -/
def fields (b : IoStatusBlock) : Fields := ⟨b.word 0, b.word 1⟩

/-- What is written through the accessors of an outcome. -/
inductive Access where
  | status (s : NtStatus)
  | pointer (x : UInt64)
  | information (x : UInt64)

namespace Access

/-- The word that is written. -/
def word : Access → Nat
  | status _ => 0
  | pointer _ => 0
  | information _ => 1

/-- What is written. The bits of a status are the low ones. -/
def value : Access → UInt64
  | status s => s.toUInt32.toUInt64
  | pointer x => x
  | information x => x

end Access

/-- Carries out an access. -/
def access (b : IoStatusBlock) : Access → IoStatusBlock
  | .status s => b.setStatus s
  | .pointer x => b.setPointer x
  | .information x => b.setInformation x

/-- What an access makes of the words: the status and the pointer are the same one. -/
def Fields.access (f : Fields) : Access → Fields
  | .status s => { f with shared := s.toUInt32.toUInt64 }
  | .pointer x => { f with shared := x }
  | .information x => { f with information := x }

/-- Every view of the shared bytes shows a value: the pointer, the status as its low half, and the bytes, the lowest
first. -/
structure Holds (b : IoStatusBlock) (x : UInt64) : Prop where
  pointer : b.pointer = x
  status : b.status.toInt = (x.toNat : Int).bmod (2 ^ 32)
  bytes : ∀ i < 8, b.bytes[i]? = some (UInt8.ofNat (x.toNat / 256 ^ i))

variable (b : IoStatusBlock)

theorem setStatus_eq (s : NtStatus) : b.setStatus s = b.setWord 0 s.toUInt32.toUInt64 :=
  b.store_zero_store 0 4 4 s.toUInt32.toNat_lt

theorem access_eq (a : Access) : b.access a = b.setWord a.word a.value := by
  cases a with
  | status s => exact b.setStatus_eq s
  | pointer x => rfl
  | information x => rfl

theorem fields_access (a : Access) : (b.access a).fields = b.fields.access a := by
  rw [access_eq]
  cases a <;>
    simp [fields, Fields.access, Access.word, Access.value, Region.word_setWord, Region.word_setWord_of_ne]

theorem status_eq : b.status = (b.word 0).toUInt32.toInt32 := by
  have hload : b.load 0 8 = b.load 0 4 + 256 ^ 4 * b.load 4 4 :=
    b.load_append 0 4 4 (by decide)
  refine congrArg UInt32.toInt32 (UInt32.toNat_inj.1 ?_)
  rw [UInt32.toNat_ofNat', UInt64.toNat_toUInt32, Region.toNat_word, hload]
  omega

/-- Whatever the shared bytes hold, the views agree on it. -/
theorem holds_shared : b.Holds b.fields.shared where
  pointer := rfl
  status := by
    rw [status_eq]
    exact Region.toInt_low _
  bytes i hi := by
    have hbyte := Region.getElem?_word (r := b) (i := 0) (by decide) hi
    rwa [Nat.mul_zero, Nat.zero_add] at hbyte

theorem fields_accesses (as : List Access) : (as.foldl access b).fields = as.foldl Fields.access b.fields :=
  (List.foldl_hom fields fun b a => (b.fields_access a).symm).symm

end IoStatusBlock

/-- **Views.** After any accesses, a request and an outcome hold in each of their words what was written there last,
through whichever view, and else what they held before. All views of shared bytes show that value: the offset of a
request, its pointer, its halves and its bytes; the pointer of an outcome, and its status as the low half with a sign.
So what is written through one view is read through the others, also the bits of a status as a pointer, with nothing
above them. What is read is written back without a change, and no access changes a byte outside of its own word. -/
theorem views_decode :
    (∀ (o : Overlapped) (as : List Overlapped.Access),
      let p := as.foldl Overlapped.access o
      let f := as.foldl Overlapped.Fields.access o.fields
      p.fields = f ∧ p.Holds f.shared ∧ p.internal = f.internal ∧
      p.status.toInt = (p.internal.toNat : Int).bmod (2 ^ 32) ∧
      (∀ x, (p.setOffset x).Holds x ∧ (p.setPointer x).Holds x) ∧
      p.setOffset p.offset = p ∧ p.setPointer p.pointer = p ∧
      ∀ a, p.DiffersWithin (p.access a) (8 * a.word) 8) ∧
    ∀ (b : IoStatusBlock) (as : List IoStatusBlock.Access),
      let q := as.foldl IoStatusBlock.access b
      let f := as.foldl IoStatusBlock.Fields.access b.fields
      q.fields = f ∧ q.Holds f.shared ∧ q.information = f.information ∧
      (∀ s, (q.setStatus s).status = s ∧ (q.setStatus s).Holds s.toUInt32.toUInt64) ∧
      (∀ x, (q.setPointer x).Holds x) ∧ q.setPointer q.pointer = q ∧
      ∀ a, q.DiffersWithin (q.access a) (8 * a.word) 8 := by
  refine ⟨fun o as => ?_, fun b as => ?_⟩
  · intro p f
    have hfields : p.fields = f := o.fields_accesses as
    have hholds (a : Overlapped.Access) : (p.access a).Holds (p.fields.access a).shared :=
      p.fields_access a ▸ (p.access a).holds_shared
    refine ⟨hfields, hfields ▸ p.holds_shared, congrArg Overlapped.Fields.internal hfields, Region.toInt_low _,
      fun x => ⟨hholds (.offset x), hholds (.pointer x)⟩, ?_, ?_, fun a => ?_⟩
    · rw [p.offset_eq, p.setOffset_eq]
      exact Region.setWord_word (by decide)
    · rw [p.setPointer_eq]
      exact Region.setWord_word (by decide)
    · rw [p.access_eq]
      exact p.differsWithin_setWord a.word a.value
  · intro q f
    have hfields : q.fields = f := b.fields_accesses as
    have hholds (a : IoStatusBlock.Access) : (q.access a).Holds (q.fields.access a).shared :=
      q.fields_access a ▸ (q.access a).holds_shared
    refine ⟨hfields, hfields ▸ q.holds_shared, congrArg IoStatusBlock.Fields.information hfields,
      fun s => ⟨?_, hholds (.status s)⟩, fun x => hholds (.pointer x),
      Region.setWord_word (r := q) (i := 0) (by decide), fun a => ?_⟩
    · have hword : (q.setStatus s).word 0 = s.toUInt32.toUInt64 :=
        congrArg IoStatusBlock.Fields.shared (q.fields_access (.status s))
      rw [IoStatusBlock.status_eq, hword, UInt32.toUInt32_toUInt64, Int32.toInt32_toUInt32]
    · rw [q.access_eq]
      exact q.differsWithin_setWord a.word a.value

end Vigil.CompletionPort
