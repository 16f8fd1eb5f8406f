import HoneyDew.CText

/-!
# Byte memory, little-endian integers and fixed character arrays

Objects are read from and written to a block of bytes at offsets. A read that
spans several objects is the concatenation of the reads it spans, which is
what decides the value of a read through a pointer of another type.
-/

namespace HoneyDew.CMemory

open CText

/-- Overwrite the bytes from an offset on. -/
def writeAt (memory : Bytes) (offset : ℕ) (bytes : Bytes) : Bytes :=
  memory.take offset++bytes++memory.drop (offset+bytes.length)

/-- Read `n` bytes from an offset on. -/
def readAt (memory : Bytes) (offset n : ℕ) : Bytes := (memory.drop offset).take n

/-- A write inside the block keeps its length. -/
theorem length_writeAt {memory bytes : Bytes} {offset : ℕ}
    (h : offset+bytes.length ≤ memory.length) : (writeAt memory offset bytes).length=memory.length := by
  simp only [writeAt,List.length_append,List.length_take,List.length_drop]
  omega

/-- Bytes that are stored at the start stand in front of what they leave. -/
theorem writeAt_zero (memory bytes : Bytes) :
    writeAt memory 0 bytes=bytes++memory.drop bytes.length := by
  rw [writeAt,List.take_zero,List.nil_append,Nat.zero_add]

/-- A write over one piece of a block replaces that piece. -/
theorem writeAt_append (offset : ℕ) (front old back new : Bytes) (hfront : front.length=offset)
    (h : old.length=new.length) : writeAt (front++(old++back)) offset new=front++(new++back) := by
  subst hfront
  unfold writeAt
  rw [List.take_left,←h,List.append_assoc,List.drop_append,List.drop_eq_nil_of_le (by omega),
    List.nil_append,Nat.add_sub_cancel_left,List.drop_left]

/-- A block is the concatenation of its reads. -/
theorem readAt_append_drop (memory : Bytes) (offset n : ℕ) :
    readAt memory offset n++memory.drop (offset+n)=memory.drop offset := by
  unfold readAt
  rw [←List.drop_drop,List.take_append_drop]

/-- A read of one piece of a block. -/
theorem readAt_append (offset n : ℕ) (front piece back : Bytes) (hfront : front.length=offset)
    (hpiece : piece.length=n) : readAt (front++(piece++back)) offset n=piece := by
  subst hfront hpiece
  rw [readAt,List.drop_left,List.take_left]

/-- A read inside one piece of a block. -/
theorem readAt_append_inside (offset skip n : ℕ) (front piece back : Bytes)
    (hfront : front.length=offset) (hpiece : skip+n ≤ piece.length) :
    readAt (front++(piece++back)) (offset+skip) n=readAt piece skip n := by
  subst hfront
  unfold readAt
  rw [←List.drop_drop,List.drop_left,List.drop_append_of_le_length (by omega),
    List.take_append_of_le_length]
  rw [List.length_drop]
  omega

/-- A read inside the block has the requested length. -/
theorem length_readAt {memory : Bytes} {offset n : ℕ} (h : offset+n ≤ memory.length) :
    (readAt memory offset n).length=n := by
  simp only [readAt,List.length_take,List.length_drop]
  omega

/-- A read that spans two objects is the two reads one after the other. -/
theorem readAt_add (memory : Bytes) (offset m n : ℕ) :
    readAt memory offset (m+n)=readAt memory offset m++readAt memory (offset+m) n := by
  unfold readAt
  rw [List.take_add,List.drop_drop]

/-- `snprintf(memory + offset, size, ...)` of a formatted text: as much of it as fits in
front of a NUL, and nothing for size zero. -/
def snprintfAt (memory : Bytes) (offset size : ℕ) (formatted : Bytes) : Bytes :=
  if size=0 then memory else writeAt memory offset (formatted.take (size-1)++[0])

/-- An unsigned integer of `k` bytes, least significant byte first. -/
def littleEndian : ℕ → ℕ → Bytes
  | 0,_ => []
  | k+1,n => UInt8.ofNat (n%256)::littleEndian k (n/256)

@[simp] theorem length_littleEndian (k n : ℕ) : (littleEndian k n).length=k := by
  induction k generalizing n with
  | zero => rfl
  | succ k ih => rw [littleEndian,List.length_cons,ih]

/-- The front bytes are the low-order bytes. -/
theorem take_littleEndian {j k : ℕ} (h : j ≤ k) (n : ℕ) :
    (littleEndian k n).take j=littleEndian j n := by
  induction k generalizing j n with
  | zero =>
    obtain rfl : j=0 := by omega
    rfl
  | succ k ih =>
    cases j with
    | zero => rfl
    | succ j => rw [littleEndian,List.take_succ_cons,ih (by omega),littleEndian]

/-- An array `char a[capacity+1]` whose last byte is NUL. Such arrays start
zeroed, and the calls that fill them never store anything else there. -/
structure CharArray (capacity : ℕ) where
  /-- The bytes in front of the last one. -/
  body : Bytes
  /-- The array has its declared size. -/
  length_body : body.length=capacity
  deriving DecidableEq,Repr

namespace CharArray

variable {capacity : ℕ}

/-- A zeroed array. -/
def zeroed (capacity : ℕ) : CharArray capacity := ⟨List.replicate capacity 0,List.length_replicate⟩

/-- All bytes of the array. -/
def bytes (a : CharArray capacity) : Bytes := a.body++[0]

/-- The array read as a C string. -/
def cstring (a : CharArray capacity) : Bytes := cstr a.bytes

/-- `strncpy(a, src, sizeof(a) - 1)`. -/
def strncpyInto (_a : CharArray capacity) (src : Bytes) : CharArray capacity :=
  ⟨(cstr src).take capacity++List.replicate (capacity-(cstr src).length) 0,by
    rw [List.length_append,List.length_take,List.length_replicate]
    omega⟩

/-- `snprintf(a, sizeof(a), ...)` of a formatted text: the text as far as it
fits and a NUL; the bytes behind the NUL keep their old contents. -/
def snprintfInto (a : CharArray capacity) (formatted : Bytes) : CharArray capacity :=
  ⟨((formatted.take capacity++[0])++a.body.drop (formatted.length+1)).take capacity,by
    rw [List.length_take,List.length_append,List.length_append,List.length_take,List.length_drop,
      a.length_body,List.length_singleton]
    omega⟩

/-- A copied string is read back up to the capacity. -/
theorem cstring_strncpyInto (a : CharArray capacity) (src : Bytes) :
    (a.strncpyInto src).cstring=(cstr src).take capacity := by
  have hnul : (0 : Byte)∉(cstr src).take capacity :=
    fun h => zero_not_mem_cstr src (List.mem_of_mem_take h)
  unfold cstring bytes strncpyInto
  rw [List.append_assoc,cstr_append hnul]
  have hpad : ∀ k,cstr (List.replicate k 0++[0])=[] := by
    intro k
    cases k <;> rfl
  rw [hpad,List.append_nil]

/-- A formatted text that fits stands in front of its NUL and of the old bytes. -/
theorem bytes_snprintfInto_short (a : CharArray capacity) {formatted : Bytes}
    (h : formatted.length<capacity) :
    (a.snprintfInto formatted).bytes=formatted++0::(a.bytes.drop (formatted.length+1)) := by
  have hbody := a.length_body
  have hwhole : (formatted++[0]++a.body.drop (formatted.length+1)).length ≤ capacity := by
    simp only [List.length_append,List.length_singleton,List.length_drop]
    omega
  unfold bytes snprintfInto
  dsimp only
  rw [List.take_of_length_le h.le,List.take_of_length_le hwhole,
    List.drop_append_of_le_length (by omega),List.append_assoc,List.append_assoc]
  rfl

/-- A longer text is cut off at the last byte. -/
theorem bytes_snprintfInto_long (a : CharArray capacity) {formatted : Bytes}
    (h : capacity ≤ formatted.length) :
    (a.snprintfInto formatted).bytes=formatted.take capacity++[0] := by
  have hlength : (formatted.take capacity).length=capacity := by
    rw [List.length_take,Nat.min_eq_left h]
  unfold bytes snprintfInto
  dsimp only
  rw [List.append_assoc,List.take_left' hlength]

/-- A formatted text without NUL is read back up to the capacity. -/
theorem cstring_snprintfInto (a : CharArray capacity) {formatted : Bytes}
    (h : (0 : Byte)∉formatted) : (a.snprintfInto formatted).cstring=formatted.take capacity := by
  have hnul : (0 : Byte)∉formatted.take capacity := fun hm => h (List.mem_of_mem_take hm)
  unfold cstring
  rcases Nat.lt_or_ge formatted.length capacity with hshort|hlong
  · rw [bytes_snprintfInto_short a hshort,cstr_terminated h,List.take_of_length_le hshort.le]
  · rw [bytes_snprintfInto_long a hlong,cstr_terminated hnul]

end CharArray

end HoneyDew.CMemory
