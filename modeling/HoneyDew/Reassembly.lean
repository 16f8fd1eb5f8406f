import HoneyDew.ByteQueue
import HoneyDew.CMemory
import HoneyDew.StepSystem
import Mathlib.Data.List.ReduceOption

/-!
# The reassembly buffer of a connection

Received bytes are appended behind the buffered ones, in a block that grows by
doubling its capacity in `size_t` arithmetic; lines and consumed bytes leave at
the front and the rest is moved down. Allocation may fail at any call. The
buffer is the byte queue of its calls.
-/

namespace HoneyDew.Reassembly

open CText CMemory StepSystem ByteQueue

/-- Arithmetic in `size_t`. -/
def sizeT (n : ℕ) : ℕ := n%2^64

/-- The reassembly fields of `connection_t`. -/
structure ReassemblyBuffer where
  /-- The block at `tcp_reassembly_buffer`; nothing at NULL. -/
  tcpReassemblyBuffer : Bytes
  /-- `buffer_length`. -/
  bufferLength : ℕ
  /-- `buffer_capacity`. -/
  bufferCapacity : ℕ

/-- The fields as `connection_create` sets them. -/
def fresh : ReassemblyBuffer := ⟨[],0,0⟩

/-- `realloc` of a block to `n` bytes, where the new bytes happen to be
`garbage`. -/
def realloc (block : Bytes) (n : ℕ) (garbage : ℕ → Byte) : Bytes :=
  block.take n++(List.range (n-block.length)).map garbage

/-- `while (buffer_length + len > new_cap) new_cap *= 2;`, or nothing when it
has not ended after this many tests. -/
def growCapacity (needed : ℕ) : ℕ → ℕ → Option ℕ
  | 0,_ => none
  | fuel+1,newCap =>
    if needed>newCap then growCapacity needed fuel (sizeT (newCap*2)) else some newCap

/-- The capacity that `connection_append_data` asks for. After 64 doublings the
loop variable is zero for good. -/
def newCapacity (c : ReassemblyBuffer) (needed : ℕ) : Option ℕ :=
  growCapacity needed 65 (if c.bufferCapacity≠0 then sizeT (c.bufferCapacity*2) else 4096)

/-- The copy at the end of `connection_append_data`. -/
def store (c : ReassemblyBuffer) (data : Bytes) : ReassemblyBuffer :=
  {c with
    tcpReassemblyBuffer := writeAt c.tcpReassemblyBuffer c.bufferLength data,
    bufferLength := sizeT (c.bufferLength+data.length)}

/-- `connection_append_data`, where `realloc` fails or leaves garbage in the new
bytes; nothing when the doubling loop does not end. -/
def connectionAppendData (c : ReassemblyBuffer) (data : Bytes) (memory : Option (ℕ → Byte)) :
    Option ReassemblyBuffer :=
  let needed := sizeT (c.bufferLength+data.length)
  if needed>c.bufferCapacity then
    match newCapacity c needed with
    | none => none
    | some newCap =>
      match memory with
      | none => some c
      | some garbage =>
        some (store ⟨realloc c.tcpReassemblyBuffer newCap garbage,c.bufferLength,newCap⟩ data)
  else some (store c data)

/-- The `memmove` of the buffered bytes behind the first `n` to the front. -/
def moveDown (c : ReassemblyBuffer) (n : ℕ) : ReassemblyBuffer :=
  {c with
    tcpReassemblyBuffer :=
      writeAt c.tcpReassemblyBuffer 0 (readAt c.tcpReassemblyBuffer n (c.bufferLength-n)),
    bufferLength := c.bufferLength-n}

/-- `connection_consume_buffer`. -/
def connectionConsumeBuffer (c : ReassemblyBuffer) (n : ℕ) : ReassemblyBuffer :=
  if n ≥ c.bufferLength then {c with bufferLength := 0} else moveDown c n

/-- `extract_line`: the block returned, which ends with a NUL, or NULL. The line
feed is looked for in the buffered bytes; `granted` is the outcome of `malloc`. -/
def extractLine (c : ReassemblyBuffer) (granted : Bool) : Option Bytes×ReassemblyBuffer :=
  if c.bufferLength=0 then (none,c)
  else
    match (c.tcpReassemblyBuffer.take c.bufferLength).findIdx? (fun b => b=10) with
    | none => (none,c)
    | some i =>
      let lineLen := if i>0 ∧ c.tcpReassemblyBuffer[i-1]?=some 13 then i-1 else i
      if granted=false then (none,c)
      else
        (some (readAt c.tcpReassemblyBuffer 0 lineLen++[0]),
          moveDown c (min (i+1) c.bufferLength))

/-- The buffered bytes. -/
def contents (c : ReassemblyBuffer) : Bytes := c.tcpReassemblyBuffer.take c.bufferLength

/-- The block has the recorded capacity, which is zero or a power of two from
4096 to 2^63, and holds the buffered bytes. -/
structure WellFormed (c : ReassemblyBuffer) : Prop where
  /-- The block has its recorded size. -/
  size : c.tcpReassemblyBuffer.length=c.bufferCapacity
  /-- The buffered bytes fit. -/
  fits : c.bufferLength ≤ c.bufferCapacity
  /-- The capacity is zero or comes from doubling 4096. -/
  power : c.bufferCapacity=0 ∨ ∃ k ≤ 51,c.bufferCapacity=4096*2^k

theorem wellFormed_fresh : WellFormed fresh := ⟨rfl,Nat.le_refl 0,Or.inl rfl⟩

/-- There are as many buffered bytes as recorded. -/
theorem WellFormed.length_contents {c : ReassemblyBuffer} (h : WellFormed c) :
    (contents c).length=c.bufferLength := by
  have hsize := h.size
  have hfits := h.fits
  rw [contents,List.length_take]
  omega

/-- Sums up to 2^63 do not wrap. -/
theorem sizeT_eq {n : ℕ} (h : n ≤ 2^63) : sizeT n=n := Nat.mod_eq_of_lt (by omega)

/-- A grown block has the size asked for. -/
theorem length_realloc (block : Bytes) (n : ℕ) (garbage : ℕ → Byte) :
    (realloc block n garbage).length=n := by
  simp only [realloc,List.length_append,List.length_take,List.length_map,List.length_range]
  omega

/-- A grown block starts with the old one. -/
theorem take_realloc {block : Bytes} {n m : ℕ} (garbage : ℕ → Byte) (hm : m ≤ block.length)
    (hn : block.length ≤ n) : (realloc block n garbage).take m=block.take m := by
  rw [realloc,List.take_of_length_le hn,List.take_append_of_le_length hm]

/-- The doubling loop passes through the capacities `start * 2^k`. -/
theorem growCapacity_eq_none (needed fuel start : ℕ) :
    growCapacity needed fuel start=none ↔
      ∀ k<fuel,needed>(if k=0 then start else sizeT (start*2^k)) := by
  induction fuel generalizing start with
  | zero => simp [growCapacity]
  | succ fuel ih =>
    rw [growCapacity]
    have hdouble : ∀ k,(if k=0 then sizeT (start*2) else sizeT (sizeT (start*2)*2^k))=
        sizeT (start*2^(k+1)) := by
      intro k
      cases k with
      | zero => simp
      | succ k =>
        rw [if_neg (Nat.succ_ne_zero k),sizeT,sizeT,sizeT,Nat.mod_mul_mod]
        congr 1
        ring
    by_cases hneeded : needed>start
    · rw [if_pos hneeded,ih]
      constructor
      · intro h k hk
        cases k with
        | zero => exact hneeded
        | succ k =>
          have hlater := h k (by omega)
          rwa [hdouble] at hlater
      · intro h k hk
        rw [hdouble]
        exact h (k+1) (by omega)
    · rw [if_neg hneeded]
      simp only [reduceCtorEq,false_iff]
      intro h
      exact hneeded (h 0 (Nat.succ_pos fuel))

/-- A loop that has not ended after 65 tests never ends. -/
theorem growCapacity_forever {needed start : ℕ} (h : growCapacity needed 65 start=none)
    (fuel : ℕ) : growCapacity needed fuel start=none := by
  rw [growCapacity_eq_none] at h ⊢
  intro k hk
  by_cases hsmall : k<65
  · exact h k hsmall
  · have hzero : sizeT (start*2^k)=0 := by
      obtain ⟨j,hj⟩ : ∃ j,k=64+j := ⟨k-64,by omega⟩
      rw [hj,pow_add,←mul_assoc,mul_right_comm]
      exact Nat.mul_mod_left _ _
    have hlast := h 64 (by omega)
    rw [if_neg (by omega)] at hlast ⊢
    rw [hzero]
    omega

/-- From a power of two from 4096 on, the loop ends at another one that is
large enough, if the size needed is at most 2^63. -/
theorem growCapacity_power {needed : ℕ} (hneeded : needed ≤ 2^63) (fuel k : ℕ) (hk : k ≤ 51)
    (hfuel : 51<k+fuel) :
    ∃ m,m ≤ 51 ∧ k ≤ m ∧ growCapacity needed fuel (4096*2^k)=some (4096*2^m) ∧ needed ≤ 4096*2^m := by
  induction fuel generalizing k with
  | zero => omega
  | succ fuel ih =>
    rw [growCapacity]
    by_cases hmore : needed>4096*2^k
    · have hlt : k<51 := by
        by_contra hge
        have hlast : k=51 := by omega
        subst hlast
        omega
      have hbound : 2^(k+1) ≤ 2^51 := Nat.pow_le_pow_right (by omega) hlt
      have hdouble : sizeT (4096*2^k*2)=4096*2^(k+1) := by
        rw [mul_assoc,←pow_succ]
        exact sizeT_eq (by omega)
      obtain ⟨m,hm,hkm,hrest⟩ := ih (k+1) hlt (by omega)
      rw [if_pos hmore,hdouble]
      exact ⟨m,hm,by omega,hrest⟩
    · rw [if_neg hmore]
      exact ⟨k,hk,Nat.le_refl k,rfl,by omega⟩

/-- A well-formed buffer that is too small grows to a sufficient power of two,
without losing capacity. -/
theorem newCapacity_wellFormed {c : ReassemblyBuffer} (h : WellFormed c) {needed : ℕ}
    (hneeded : needed ≤ 2^63) (hmore : needed>c.bufferCapacity) :
    ∃ m,m ≤ 51 ∧ newCapacity c needed=some (4096*2^m) ∧ needed ≤ 4096*2^m ∧
      c.bufferCapacity ≤ 4096*2^m := by
  unfold newCapacity
  cases h.power with
  | inl hzero =>
    obtain ⟨m,hm,_,hgrow,hroom⟩ := growCapacity_power hneeded 65 0 (by omega) (by omega)
    rw [hzero]
    exact ⟨m,hm,hgrow,hroom,Nat.zero_le _⟩
  | inr hpower =>
    obtain ⟨k,hk,hcap⟩ := hpower
    have hlt : k<51 := by
      by_contra hge
      have hlast : k=51 := by omega
      rw [hcap,hlast] at hmore
      omega
    have hbound : 2^(k+1) ≤ 2^51 := Nat.pow_le_pow_right (by omega) hlt
    have hdouble : sizeT (c.bufferCapacity*2)=4096*2^(k+1) := by
      rw [hcap,mul_assoc,←pow_succ]
      exact sizeT_eq (by omega)
    have hne : c.bufferCapacity≠0 := by
      have hpos : 0 < 2^k := by positivity
      omega
    obtain ⟨m,hm,_,hgrow,hroom⟩ := growCapacity_power hneeded 65 (k+1) hlt (by omega)
    rw [if_pos hne,hdouble]
    exact ⟨m,hm,hgrow,hroom,by omega⟩

/-- Storing bytes that fit appends them to the buffered ones. -/
theorem store_spec {c : ReassemblyBuffer} (h : WellFormed c) {data : Bytes}
    (hbound : c.bufferLength+data.length ≤ 2^63)
    (hroom : c.bufferLength+data.length ≤ c.bufferCapacity) :
    WellFormed (store c data) ∧ contents (store c data)=contents c++data := by
  have hsize := h.size
  have hlength : (writeAt c.tcpReassemblyBuffer c.bufferLength data).length=c.bufferCapacity := by
    rw [length_writeAt (by omega),hsize]
  have hnew : (store c data).bufferLength=c.bufferLength+data.length := sizeT_eq hbound
  constructor
  · exact ⟨hlength,by rw [hnew]; exact hroom,h.power⟩
  · have hfront : (contents c++data).length=c.bufferLength+data.length := by
      rw [List.length_append,h.length_contents]
    have hwritten : (store c data).tcpReassemblyBuffer=
        (contents c++data)++c.tcpReassemblyBuffer.drop (c.bufferLength+data.length) := rfl
    rw [contents,hwritten,hnew,←hfront,List.take_left]

/-- A block grown to a power of two holds the same bytes. -/
theorem realloc_spec {c : ReassemblyBuffer} (h : WellFormed c) {k : ℕ} (hk : k ≤ 51)
    (hmore : c.bufferCapacity ≤ 4096*2^k) (garbage : ℕ → Byte) :
    WellFormed ⟨realloc c.tcpReassemblyBuffer (4096*2^k) garbage,c.bufferLength,4096*2^k⟩ ∧
      contents ⟨realloc c.tcpReassemblyBuffer (4096*2^k) garbage,c.bufferLength,4096*2^k⟩=
        contents c := by
  have hsize := h.size
  have hfits := h.fits
  constructor
  · exact ⟨length_realloc _ _ _,hfits.trans hmore,Or.inr ⟨k,hk,rfl⟩⟩
  · have hfront : (realloc c.tcpReassemblyBuffer (4096*2^k) garbage).take c.bufferLength=
        c.tcpReassemblyBuffer.take c.bufferLength := take_realloc garbage (by omega) (by omega)
    exact hfront

/-- What one `connection_append_data` does while the sum does not exceed 2^63:
it fails without effect when it has to grow and gets no memory, and appends the
bytes otherwise. -/
theorem connectionAppendData_spec {c : ReassemblyBuffer} (h : WellFormed c) {data : Bytes}
    (hbound : c.bufferLength+data.length ≤ 2^63) (memory : Option (ℕ → Byte)) :
    (c.bufferLength+data.length>c.bufferCapacity ∧ memory=none ∧
        connectionAppendData c data memory=some c) ∨
      (¬(c.bufferLength+data.length>c.bufferCapacity ∧ memory=none) ∧
        ∃ c',connectionAppendData c data memory=some c' ∧ WellFormed c' ∧
          contents c'=contents c++data) := by
  rw [connectionAppendData,sizeT_eq hbound]
  by_cases hmore : c.bufferLength+data.length>c.bufferCapacity
  · obtain ⟨k,hk,hgrow,hroom,hkept⟩ := newCapacity_wellFormed h hbound hmore
    rw [if_pos hmore,hgrow]
    cases memory with
    | none => exact Or.inl ⟨hmore,rfl,rfl⟩
    | some garbage =>
      have hgrown := realloc_spec h hk hkept garbage
      have hstored := store_spec hgrown.1 hbound hroom
      rw [hgrown.2] at hstored
      exact Or.inr ⟨by simp,_,rfl,hstored⟩
  · rw [if_neg hmore]
    have hstored := store_spec h hbound (by omega)
    exact Or.inr ⟨fun hboth => hmore hboth.1,_,rfl,hstored⟩

/-- Moving the buffered bytes down removes the front ones. -/
theorem moveDown_spec {c : ReassemblyBuffer} (h : WellFormed c) (n : ℕ) :
    WellFormed (moveDown c n) ∧ contents (moveDown c n)=(contents c).drop n := by
  have hsize := h.size
  have hfits := h.fits
  have hread : (readAt c.tcpReassemblyBuffer n (c.bufferLength-n)).length=c.bufferLength-n := by
    rw [readAt,List.length_take,List.length_drop]
    omega
  constructor
  · have hlength : (moveDown c n).tcpReassemblyBuffer.length=c.bufferCapacity := by
      rw [moveDown,length_writeAt (by rw [hread]; omega),hsize]
    exact ⟨hlength,(Nat.sub_le _ _).trans hfits,h.power⟩
  · have hmoved : (moveDown c n).tcpReassemblyBuffer=
        readAt c.tcpReassemblyBuffer n (c.bufferLength-n)++
          c.tcpReassemblyBuffer.drop (0+(readAt c.tcpReassemblyBuffer n (c.bufferLength-n)).length) :=
      rfl
    have hcount : (moveDown c n).bufferLength=
        (readAt c.tcpReassemblyBuffer n (c.bufferLength-n)).length := hread.symm
    rw [contents,hmoved,hcount,List.take_left,readAt,contents,List.drop_take]

/-- `connection_consume_buffer` drops bytes from the front. -/
theorem connectionConsumeBuffer_spec {c : ReassemblyBuffer} (h : WellFormed c) (n : ℕ) :
    WellFormed (connectionConsumeBuffer c n) ∧
      contents (connectionConsumeBuffer c n)=(contents c).drop n := by
  rw [connectionConsumeBuffer]
  by_cases hall : n ≥ c.bufferLength
  · rw [if_pos hall,List.drop_eq_nil_of_le (by rw [h.length_contents]; exact hall)]
    exact ⟨⟨h.size,Nat.zero_le _,h.power⟩,List.take_zero⟩
  · rw [if_neg hall]
    exact moveDown_spec h n

/-- A line without one carriage return at its end. -/
def withoutCr (line : Bytes) : Bytes := if line.getLast?=some 13 then line.dropLast else line

/-- The bytes that `extract_line` copies are the line without a carriage return
at its end. -/
theorem line_read {block line rest : Bytes} (h : block=line++rest) :
    readAt block 0 (if line.length>0 ∧ block[line.length-1]?=some 13 then line.length-1
      else line.length)=withoutCr line := by
  rw [h,readAt,List.drop_zero,withoutCr]
  cases line using List.reverseRecOn with
  | nil => rfl
  | append_singleton front b =>
    have hlast : ((front++[b])++rest)[(front++[b]).length-1]?=some b := by
      simp
    rw [hlast]
    by_cases hb : b=13
    · simp [hb]
    · simp [hb,List.take_append]

/-- The search of `extract_line` finds the end of the first line. -/
theorem search_line (c : ReassemblyBuffer) :
    (contents c).findIdx? (fun b => b=10)=(firstLine 10 (contents c)).map (fun cut => cut.1.length) := by
  have hother : ∀ {bs : Bytes},(10 : Byte)∉bs → bs.findIdx? (fun b => b=10)=none := by
    intro bs hfree
    rw [List.findIdx?_eq_none_iff]
    intro b hb
    rw [decide_eq_false_iff_not]
    intro hten
    exact hfree (hten ▸ hb)
  cases hfirst : firstLine 10 (contents c) with
  | none => rw [hother (firstLine_eq_none.mp hfirst),Option.map_none]
  | some cut =>
    have hcut := firstLine_eq_some hfirst
    rw [hcut.2,List.findIdx?_append,hother hcut.1]
    simp [List.findIdx?_cons]

/-- `extract_line` with the search over the buffered bytes by name. -/
theorem extractLine_eq (c : ReassemblyBuffer) (granted : Bool) :
    extractLine c granted=if c.bufferLength=0 then (none,c) else
      match (firstLine 10 (contents c)).map (fun cut => cut.1.length) with
      | none => (none,c)
      | some i =>
        if granted=false then (none,c)
        else
          (some (readAt c.tcpReassemblyBuffer 0
              (if i>0 ∧ c.tcpReassemblyBuffer[i-1]?=some 13 then i-1 else i)++[0]),
            moveDown c (min (i+1) c.bufferLength)) := by
  rw [←search_line]
  rfl

/-- A line returned makes the buffer shorter. -/
theorem extractLine_shorter {c c' : ReassemblyBuffer} {granted : Bool} {block : Bytes}
    (h : extractLine c granted=(some block,c')) : c'.bufferLength<c.bufferLength := by
  rw [extractLine_eq] at h
  by_cases hzero : c.bufferLength=0
  · simp [hzero] at h
  · rw [if_neg hzero] at h
    split at h
    · simp at h
    · split at h
      · simp at h
      · rename_i i _ _
        have hmoved := (Prod.mk.inj h).2
        have hlength : c'.bufferLength=c.bufferLength-min (i+1) c.bufferLength := by
          rw [←hmoved]
          rfl
        omega

/-- Without a whole line in the buffer, NULL is returned and nothing changes. -/
theorem extractLine_open {c : ReassemblyBuffer} (h : firstLine 10 (contents c)=none)
    (granted : Bool) : extractLine c granted=(none,c) := by
  rw [extractLine_eq,h]
  exact ite_self _

/-- Without memory, NULL is returned and nothing changes. -/
theorem extractLine_refused (c : ReassemblyBuffer) : extractLine c false=(none,c) := by
  rw [extractLine_eq]
  cases (firstLine 10 (contents c)).map (fun cut => cut.1.length) with
  | none => exact ite_self _
  | some i => exact ite_self _

/-- With memory, the first line is returned and leaves the buffer. -/
theorem extractLine_line {c : ReassemblyBuffer} (h : WellFormed c) {line rest : Bytes}
    (hfirst : firstLine 10 (contents c)=some (line,rest)) :
    ∃ c',extractLine c true=(some (withoutCr line++[0]),c') ∧ WellFormed c' ∧ contents c'=rest := by
  have hcut := (firstLine_eq_some hfirst).2
  have hlength := h.length_contents
  rw [hcut,List.length_append,List.length_cons] at hlength
  have hpart : c.tcpReassemblyBuffer=line++(10::rest++c.tcpReassemblyBuffer.drop c.bufferLength) := by
    rw [←List.append_assoc,←hcut,contents,List.take_append_drop]
  have hmin : min (line.length+1) c.bufferLength=line.length+1 := by omega
  have hrest : (contents c).drop (line.length+1)=rest := by
    rw [hcut,←List.drop_drop,List.drop_left,List.drop_one,List.tail_cons]
  have hmoved := moveDown_spec h (line.length+1)
  rw [hrest] at hmoved
  rw [extractLine_eq,if_neg (by omega),hfirst,Option.map_some]
  dsimp only
  rw [line_read hpart,hmin,if_neg Bool.true_eq_false_eq_False]
  exact ⟨_,rfl,hmoved⟩

/-- One call on the buffer, with the outcome of the allocation it may make. -/
inductive Call
  /-- `connection_append_data`; `realloc` fails or leaves garbage in new bytes. -/
  | append (data : Bytes) (memory : Option (ℕ → Byte))
  /-- `connection_consume_buffer`. -/
  | consume (n : ℕ)
  /-- `extract_line`; `malloc` grants the block or fails. -/
  | extract (granted : Bool)

/-- A buffer in use and what its `extract_line` calls have returned. -/
structure InUse where
  /-- The buffer. -/
  conn : ReassemblyBuffer
  /-- The results, the oldest first; nothing for NULL. -/
  returned : List (Option Bytes)

/-- A buffer nothing has been done to. -/
def unused : InUse := ⟨fresh,[]⟩

/-- One call; nothing when it does not return. -/
def step (s : InUse) : Call → Option InUse
  | .append data memory =>
    (connectionAppendData s.conn data memory).map (fun c => {s with conn := c})
  | .consume n => some {s with conn := connectionConsumeBuffer s.conn n}
  | .extract granted =>
    some ⟨(extractLine s.conn granted).2,s.returned++[(extractLine s.conn granted).1]⟩

/-- At most 2^63 bytes are buffered after the call. -/
def WithinBound (s : InUse) : Call → Prop
  | .append data _ => s.conn.bufferLength+data.length ≤ 2^63
  | _ => True

instance (s : InUse) : ∀ call,Decidable (WithinBound s call)
  | .append _ _ => inferInstanceAs (Decidable (_ ≤ _))
  | .consume _ => inferInstanceAs (Decidable True)
  | .extract _ => inferInstanceAs (Decidable True)

/-- The call asks for memory and gets none. -/
def Fails (c : ReassemblyBuffer) : Call → Prop
  | .append data memory => c.bufferLength+data.length>c.bufferCapacity ∧ memory=none
  | .consume _ => False
  | .extract granted => (10 : Byte)∈contents c ∧ granted=false

instance (c : ReassemblyBuffer) : ∀ call,Decidable (Fails c call)
  | .append _ memory => by
    cases memory with
    | none => exact inferInstanceAs (Decidable (_ ∧ (none : Option (ℕ → Byte))=none))
    | some garbage => exact isFalse (fun h => Option.some_ne_none _ h.2)
  | .consume _ => inferInstanceAs (Decidable False)
  | .extract _ => inferInstanceAs (Decidable (_ ∧ _))

/-- What a call asks of the queue of buffered bytes. -/
def Call.op : Call → Op Byte
  | .append data _ => .push data
  | .consume n => .drop n
  | .extract _ => .takeLine

/-- The operation that a call carries out. -/
def effect (c : ReassemblyBuffer) (call : Call) : List (Op Byte) :=
  if Fails c call then [] else [call.op]

/-- The operations that the calls carry out one after the other. -/
def effects : InUse → List Call → List (Op Byte)
  | _,[] => []
  | s,call::calls => match step s call with
    | some t => effect s.conn call++effects t calls
    | none => []

/-- The block that `extract_line` returns for a line of the queue. -/
def lineBlock (line : Bytes) : Bytes := withoutCr line++[0]

/-- The buffer holds what the queue holds, and the blocks returned are the
lines that the queue has given. -/
structure Refines (s : InUse) (q : Queue Byte) : Prop where
  /-- The buffer is well formed. -/
  wellFormed : WellFormed s.conn
  /-- The buffered bytes are the queue. -/
  queued : contents s.conn=q.contents
  /-- The blocks returned are the lines taken. -/
  taken : s.returned.reduceOption=(takenLines q.removals).map lineBlock

/-- What holds of one call: it fails without effect, growth ends with enough
room, and NULL is returned, without effect, for want of a line or of memory. -/
structure CallLaw (s : InUse) (call : Call) (t : InUse) : Prop where
  /-- A call that gets no memory leaves the buffer as it is. -/
  failed : Fails s.conn call → t.conn=s.conn
  /-- The doubling loop ends with at least the size needed. -/
  grown : ∀ data memory,call=.append data memory →
    s.conn.bufferLength+data.length>s.conn.bufferCapacity →
      ∃ newCap,newCapacity s.conn (s.conn.bufferLength+data.length)=some newCap ∧
        s.conn.bufferLength+data.length ≤ newCap
  /-- Each `extract_line` returns NULL or a block. -/
  null : ∀ granted,call=.extract granted → ∃ result,t.returned=s.returned++[result] ∧
    (result=none ↔ (10 : Byte)∉contents s.conn ∨ granted=false) ∧
    (result=none → t.conn=s.conn)

/-- An append within the bound stores its bytes or fails without effect. -/
theorem append_refines {s : InUse} {q : Queue Byte} (h : Refines s q) {data : Bytes}
    (hbound : s.conn.bufferLength+data.length ≤ 2^63) (memory : Option (ℕ → Byte)) :
    ∃ t,step s (.append data memory)=some t ∧ CallLaw s (.append data memory) t ∧
      Refines t (q.run 10 (effect s.conn (.append data memory))) := by
  have hgrown : ∀ data' memory',Call.append data memory=.append data' memory' →
      s.conn.bufferLength+data'.length>s.conn.bufferCapacity →
        ∃ newCap,newCapacity s.conn (s.conn.bufferLength+data'.length)=some newCap ∧
          s.conn.bufferLength+data'.length ≤ newCap := by
    intro data' memory' heq hmore
    rw [Call.append.injEq] at heq
    rw [←heq.1] at hmore ⊢
    obtain ⟨k,_,hgrow,hroom,_⟩ := newCapacity_wellFormed h.wellFormed hbound hmore
    exact ⟨_,hgrow,hroom⟩
  cases connectionAppendData_spec h.wellFormed hbound memory with
  | inl hfail =>
    have hfails : Fails s.conn (.append data memory) := ⟨hfail.1,hfail.2.1⟩
    have hstep : step s (.append data memory)=some s := by rw [step,hfail.2.2,Option.map_some]
    rw [effect,if_pos hfails]
    exact ⟨s,hstep,⟨fun _ => rfl,hgrown,fun _ heq => absurd heq (by simp)⟩,h⟩
  | inr hdone =>
    obtain ⟨c',happend,hwell,hcontents⟩ := hdone.2
    have hsucceeds : ¬Fails s.conn (.append data memory) := hdone.1
    have hstep : step s (.append data memory)=some {s with conn := c'} := by
      rw [step,happend,Option.map_some]
    have hqueued : contents c'=q.contents++data := by rw [hcontents,h.queued]
    rw [effect,if_neg hsucceeds]
    exact ⟨_,hstep,⟨fun hf => absurd hf hsucceeds,hgrown,fun _ heq => absurd heq (by simp)⟩,
      ⟨hwell,hqueued,h.taken⟩⟩

/-- Consuming bytes drops them from the queue. -/
theorem consume_refines {s : InUse} {q : Queue Byte} (h : Refines s q) (n : ℕ) :
    ∃ t,step s (.consume n)=some t ∧ CallLaw s (.consume n) t ∧
      Refines t (q.run 10 (effect s.conn (.consume n))) := by
  have hspec := connectionConsumeBuffer_spec h.wellFormed n
  have hsucceeds : ¬Fails s.conn (.consume n) := fun hf => hf
  have hqueued : contents (connectionConsumeBuffer s.conn n)=q.contents.drop n := by
    rw [hspec.2,h.queued]
  have htaken : s.returned.reduceOption=
      (takenLines (q.removals++[.dropped (q.contents.take n)])).map lineBlock := by
    rw [takenLines_append,h.taken]
    simp [takenLines]
  rw [effect,if_neg hsucceeds]
  exact ⟨_,rfl,⟨fun hf => absurd hf hsucceeds,fun _ _ heq => absurd heq (by simp),fun _ heq => absurd heq (by simp)⟩,
    ⟨hspec.1,hqueued,htaken⟩⟩

/-- A NULL from `extract_line` refines the queue as it is. -/
theorem Refines.null {s : InUse} {q : Queue Byte} (h : Refines s q) :
    Refines ⟨s.conn,s.returned++[none]⟩ q :=
  ⟨h.wellFormed,h.queued,by rw [List.reduceOption_append,h.taken]; simp⟩

/-- Extracting a line takes it from the queue, or returns NULL without effect. -/
theorem extract_refines {s : InUse} {q : Queue Byte} (h : Refines s q) (granted : Bool) :
    ∃ t,step s (.extract granted)=some t ∧ CallLaw s (.extract granted) t ∧
      Refines t (q.run 10 (effect s.conn (.extract granted))) := by
  have hnull : extractLine s.conn granted=(none,s.conn) →
      ((10 : Byte)∉contents s.conn ∨ granted=false) →
        ∃ t,step s (.extract granted)=some t ∧ CallLaw s (.extract granted) t ∧ Refines t q := by
    intro hextract hwhy
    have hstep : step s (.extract granted)=some ⟨s.conn,s.returned++[none]⟩ := by
      rw [step,hextract]
    exact ⟨_,hstep,⟨fun _ => rfl,fun _ _ heq => absurd heq (by simp),fun granted' heq =>
      ⟨none,rfl,by rw [Call.extract.injEq] at heq; rw [←heq]; simp [hwhy],fun _ => rfl⟩⟩,h.null⟩
  cases hfirst : firstLine 10 (contents s.conn) with
  | none =>
    have hfree := firstLine_eq_none.mp hfirst
    have hsucceeds : ¬Fails s.conn (.extract granted) := fun hf => hfree hf.1
    have hsame : q.run 10 [Op.takeLine]=q := by
      rw [h.queued] at hfirst
      simp [Queue.run,Queue.step,hfirst]
    rw [effect,if_neg hsucceeds,Call.op,hsame]
    exact hnull (extractLine_open hfirst granted) (Or.inl hfree)
  | some cut =>
    have hcut := firstLine_eq_some hfirst
    have hmem : (10 : Byte)∈contents s.conn := by
      rw [hcut.2]
      simp
    cases granted with
    | false =>
      have hfails : Fails s.conn (.extract false) := ⟨hmem,rfl⟩
      rw [effect,if_pos hfails]
      exact hnull (extractLine_refused s.conn) (Or.inr rfl)
    | true =>
      obtain ⟨c',hextract,hwell,hcontents⟩ := extractLine_line h.wellFormed hfirst
      have hsucceeds : ¬Fails s.conn (.extract true) := fun hf => absurd hf.2 (by simp)
      have hstep : step s (.extract true)=some ⟨c',s.returned++[some (lineBlock cut.1)]⟩ := by
        rw [step,hextract]
        rfl
      have hrun : q.run 10 [Op.takeLine]=⟨cut.2,q.removals++[.line cut.1]⟩ := by
        rw [h.queued] at hfirst
        simp [Queue.run,Queue.step,hfirst]
      have htaken : (s.returned++[some (lineBlock cut.1)]).reduceOption=
          (takenLines (q.removals++[.line cut.1])).map lineBlock := by
        rw [List.reduceOption_append,h.taken,takenLines_append,List.map_append]
        rfl
      rw [effect,if_neg hsucceeds,Call.op,hrun]
      exact ⟨_,hstep,⟨fun hf => absurd hf hsucceeds,fun _ _ heq => absurd heq (by simp),fun granted' heq =>
        ⟨_,rfl,by rw [Call.extract.injEq] at heq; rw [←heq]; simp [hmem],fun hn => absurd hn (by simp)⟩⟩,
        ⟨hwell,hcontents,htaken⟩⟩

/-- One call within the bound returns, obeys the law of calls, and carries out
its operation on the queue. -/
theorem step_refines {s : InUse} {q : Queue Byte} (h : Refines s q) {call : Call}
    (hbound : WithinBound s call) :
    ∃ t,step s call=some t ∧ CallLaw s call t ∧ Refines t (q.run 10 (effect s.conn call)) := by
  cases call with
  | append data memory => exact append_refines h hbound memory
  | consume n => exact consume_refines h n
  | extract granted => exact extract_refines h granted

/-- A run of calls within the bound returns and carries out its operations on
the queue. -/
theorem run_refines {s : InUse} {q : Queue Byte} (h : Refines s q) {calls : List Call}
    (hbound : Guarded step WithinBound s calls) :
    ∃ t,execute step s calls=some t ∧ Refines t (q.run 10 (effects s calls)) := by
  induction calls generalizing s q with
  | nil => exact ⟨s,rfl,h⟩
  | cons call calls ih =>
    obtain ⟨t,hstep,_,ht⟩ := step_refines h hbound.1
    have hrest := (guarded_cons hbound hstep).2
    obtain ⟨u,hrun,hu⟩ := ih ht hrest
    rw [←Queue.run_append] at hu
    have heffects : effects s (call::calls)=effect s.conn call++effects t calls := by
      rw [effects,hstep]
    rw [execute,hstep,heffects]
    exact ⟨u,hrun,hu⟩

/-- The unused buffer refines the empty queue. -/
theorem refines_unused : Refines unused Queue.empty := ⟨wellFormed_fresh,rfl,rfl⟩

/-- A buffer is the byte queue of the calls that led to it, where `removals` is
what has left it. -/
structure QueueOf (calls : List Call) (removals : List (Removal Byte)) (s : InUse) : Prop where
  /-- The buffered bytes fit the block. -/
  fits : s.conn.bufferLength ≤ s.conn.bufferCapacity
  /-- The block has the recorded capacity. -/
  size : s.conn.tcpReassemblyBuffer.length=s.conn.bufferCapacity
  /-- Buffer and removals are those of the abstract queue. -/
  queue : Queue.empty.run 10 (effects unused calls)=⟨contents s.conn,removals⟩
  /-- The bytes appended with success are the removed and the buffered ones. -/
  balance : removals.flatMap (Removal.symbols 10)++contents s.conn=pushed (effects unused calls)
  /-- A line removed ends at its only line feed. -/
  whole : ∀ line∈takenLines removals,(10 : Byte)∉line
  /-- The blocks returned are the lines removed, less a carriage return. -/
  returned : s.returned.reduceOption=(takenLines removals).map lineBlock
  /-- Unless bytes are consumed, they are the front lines of the bytes appended. -/
  stream : (∀ xs,Removal.dropped xs∉removals) →
    TextLines.lines 10 (pushed (effects unused calls))=
      takenLines removals++TextLines.lines 10 (contents s.conn)
  /-- The next call within the bound returns and obeys the law of calls. -/
  next : ∀ call,WithinBound s call → ∃ t,step s call=some t ∧ CallLaw s call t

/-- Every sequence of calls within the bound, whatever the allocations do,
returns and leaves the byte queue of the calls. -/
theorem reassembly_buffer_queue {calls : List Call}
    (hbound : Guarded step WithinBound unused calls) :
    ∃ s removals,execute step unused calls=some s ∧ QueueOf calls removals s := by
  obtain ⟨s,hrun,hs⟩ := run_refines refines_unused hbound
  have hpassed := Queue.run_passed 10 Queue.empty (effects unused calls)
  have hwhole : (Queue.empty.run 10 (effects unused calls)).WholeLines 10 :=
    Queue.run_wholeLines (fun _ hm => absurd hm List.not_mem_nil) _
  have hlines := fun hkept => Queue.lines_passed hwhole hkept
  have hqueue : Queue.empty.run 10 (effects unused calls)=
      ⟨contents s.conn,(Queue.empty.run 10 (effects unused calls)).removals⟩ := by
    rw [hs.queued]
  have hnext : ∀ call,WithinBound s call → ∃ t,step s call=some t ∧ CallLaw s call t := by
    intro call hcall
    obtain ⟨t,hstep,hlaw,_⟩ := step_refines hs hcall
    exact ⟨t,hstep,hlaw⟩
  rw [hpassed] at hlines
  rw [Queue.passed,←hs.queued] at hpassed
  rw [←hs.queued] at hlines
  exact ⟨s,_,hrun,hs.wellFormed.fits,hs.wellFormed.size,hqueue,hpassed,hwhole,hs.taken,hlines,hnext⟩

/-- Two lines arrive in pieces around a failed `malloc` and a failed `realloc`. -/
theorem reassembly_buffer_queue_two_lines :
    ∃ s removals,
      execute step unused
        [.append [97,13] none,.append [97,13] (some fun _ => 7),.extract true,.append [10,98] none,
          .extract false,.extract true,.consume 0,.append [10] none,.extract true]=some s ∧
      QueueOf
        [.append [97,13] none,.append [97,13] (some fun _ => 7),.extract true,.append [10,98] none,
          .extract false,.extract true,.consume 0,.append [10] none,.extract true] removals s :=
  reassembly_buffer_queue (by decide)

end HoneyDew.Reassembly
