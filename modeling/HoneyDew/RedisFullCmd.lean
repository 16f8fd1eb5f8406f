import HoneyDew.AuditTrail
import HoneyDew.RedisCommands
import HoneyDew.StoreCursor

/-!
# The array of the recorded Redis command

The loop stores a blank before it computes how many bytes are left in front of the last
one, and copies an argument as far as it fits. No store leaves the array, and at the end
it holds the front of the arguments joined by blanks.
-/

namespace HoneyDew.RedisFullCmd

open CText AuditTrail RedisCommands StoreCursor

/-! ## The code -/

/-- `REDIS_RECV_BUFFER_SIZE`. -/
def redisRecvBufferSize : ℕ := 4096

/-- `sizeof(full_cmd) - 1 - offset`. -/
def remaining (f : Cursor) : ℕ := (redisRecvBufferSize-1+wordModulus-f.offset)%wordModulus

/-- The body of the loop for the argument at an index, on `full_cmd` and `offset`. -/
def appendArg (f : Cursor) (i : ℕ) (a : Bytes) : Cursor :=
  let f := if 0 < i then f.store [32] else f
  let argLen := (cstr a).length
  let copy := if argLen<remaining f then argLen else remaining f
  f.store (a.take copy)

/-- The loop over the arguments from an index on. -/
def appendArgs (f : Cursor) (i : ℕ) : List Bytes → Cursor
  | [] => f
  | a::argv =>
    if f.offset<redisRecvBufferSize-1 then appendArgs (appendArg f i a) (i+1) argv else f

/-- The loop and the store of the NUL behind it, from whatever the array held. -/
def buildFullCmd (memory : Bytes) (argv : List Bytes) : Cursor :=
  (appendArgs (.start memory) 0 argv).store [0]

/-! ## The text of the loop -/

/-- A text cut twice at the same length. -/
theorem take_take_append (n : ℕ) (t more : Bytes) : (t.take n++more).take n=(t++more).take n := by
  rcases Nat.lt_or_ge n t.length with hlong|hshort
  · have hlength : (t.take n).length=n := by
      rw [List.length_take]
      omega
    rw [List.take_left' hlength,List.take_append_of_le_length hlong.le]
  · rw [List.take_of_length_le hshort]

/-- A blank and an argument behind a text that leaves room for the blank. -/
theorem take_spaced {t : Bytes} (ht : t.length<4095) (a : Bytes) :
    (t++[32])++(cstr a).take (4095-(t++[32]).length)=(t++32::cstr a).take 4095 := by
  have hlength : (t++[32]).length≤4095 := by
    rw [List.length_append,List.length_singleton]
    omega
  have hsplit : t++32::cstr a=(t++[32])++cstr a := by rw [List.append_assoc,List.singleton_append]
  rw [hsplit,List.take_append,List.take_of_length_le hlength]

/-- From the second argument on the loop appends a blank and an argument each time. -/
theorem fullCmdFrom_eq {i : ℕ} (hi : 0 < i) {t : Bytes} (ht : t.length≤4095) (argv : List Bytes) :
    fullCmdFrom i t argv=(t++argv.flatMap (fun a => 32::cstr a)).take 4095 := by
  induction argv generalizing i t with
  | nil => rw [fullCmdFrom,List.flatMap_nil,List.append_nil,List.take_of_length_le ht]
  | cons a argv ih =>
    rw [fullCmdFrom,List.flatMap_cons]
    by_cases hroom : t.length<4095
    · have hnext : ((t++32::cstr a).take 4095).length≤4095 := by
        rw [List.length_take]
        omega
      rw [if_pos hroom,if_pos hi]
      dsimp only
      rw [take_spaced hroom,ih (by omega) hnext,take_take_append,List.append_assoc]
    · rw [if_neg hroom,List.take_append_of_le_length (by omega),List.take_of_length_le ht]

/-- The pieces behind the first one of a joined list. -/
theorem intercalate_blank (a : Bytes) (argv : List Bytes) :
    List.intercalate [32] ((a::argv).map cstr)=cstr a++argv.flatMap (fun a => 32::cstr a) := by
  rw [List.map_cons,intercalate_cons,List.flatMap_map]

/-- The text of the loop is the front of the joined arguments. -/
theorem fullCmd_eq (argv : List Bytes) :
    fullCmd argv=(List.intercalate [32] (argv.map cstr)).take 4095 := by
  cases argv with
  | nil => rfl
  | cons a argv =>
    have hfirst : ((cstr a).take 4095).length≤4095 := by
      rw [List.length_take]
      omega
    rw [intercalate_blank,fullCmd,fullCmdFrom,if_pos (by decide),if_neg (Nat.lt_irrefl 0)]
    dsimp only
    rw [List.nil_append,List.length_nil,Nat.sub_zero,fullCmdFrom_eq Nat.one_pos hfirst,
      take_take_append]

/-! ## The array -/

variable {memory : Bytes}

/-- In front of the last byte the space that is left does not wrap. -/
theorem remaining_eq {t : Bytes} {f : Cursor} (h : Holds memory 4096 t f) (ht : t.length≤4095) :
    remaining f=4095-t.length := by
  have hoffset := h.offset_eq
  unfold remaining redisRecvBufferSize wordModulus
  omega

/-- The bytes that are copied are the front of the argument as a C string. -/
theorem take_copy (a : Bytes) (room : ℕ) :
    a.take (if (cstr a).length<room then (cstr a).length else room)=(cstr a).take room := by
  have hfront := cstr_front a
  split
  · rename_i hshort
    rw [List.take_of_length_le hshort.le]
    exact (List.prefix_iff_eq_take.mp hfront).symm
  · rename_i hlong
    obtain ⟨rest,hrest⟩ := hfront
    nth_rewrite 1 [←hrest]
    rw [List.take_append_of_le_length (Nat.le_of_not_lt hlong)]

/-- The body of the loop stores the blank and what fits of the argument. -/
theorem holds_appendArg {t : Bytes} {f : Cursor} (h : Holds memory 4096 t f) (ht : t.length<4095)
    (i : ℕ) (a : Bytes) :
    Holds memory 4096 ((if 0 < i then t++[32] else t)++
      (cstr a).take (4095-(if 0 < i then t++[32] else t).length)) (appendArg f i a) := by
  have hblank : t.length+[(32 : Byte)].length≤4096 := by
    rw [List.length_singleton]
    omega
  have hspaced : Holds memory 4096 (if 0 < i then t++[32] else t)
      (if 0 < i then f.store [32] else f) := by
    split
    · exact h.store [32] hblank
    · exact h
  have hlength : (if 0 < i then t++[32] else t).length≤4095 := by
    split
    · rw [List.length_append,List.length_singleton]
      omega
    · exact ht.le
  unfold appendArg
  dsimp only
  rw [remaining_eq hspaced hlength,take_copy]
  refine hspaced.store _ ?_
  rw [List.length_take]
  omega

/-- The loop leaves its text in the array. -/
theorem holds_appendArgs {t : Bytes} {f : Cursor} (h : Holds memory 4096 t f)
    (ht : t.length≤4095) (i : ℕ) (argv : List Bytes) :
    Holds memory 4096 (fullCmdFrom i t argv) (appendArgs f i argv) ∧
      (fullCmdFrom i t argv).length≤4095 := by
  induction argv generalizing t f i with
  | nil => exact ⟨h,ht⟩
  | cons a argv ih =>
    have hoffset := h.offset_eq
    rw [fullCmdFrom,appendArgs]
    by_cases hroom : t.length<4095
    · have hinside : f.offset<redisRecvBufferSize-1 := by
        unfold redisRecvBufferSize
        omega
      rw [if_pos hroom,if_pos hinside]
      refine ih (holds_appendArg h hroom i a) ?_ (i+1)
      have hspaced : (if 0 < i then t++[32] else t).length≤4095 := by
        split
        · rw [List.length_append,List.length_singleton]
          omega
        · exact ht
      rw [List.length_append,List.length_take]
      omega
    · have houtside : ¬f.offset<redisRecvBufferSize-1 := by
        unfold redisRecvBufferSize
        omega
      rw [if_neg hroom,if_neg houtside]
      exact ⟨h,ht⟩

/-- The joined arguments have no NUL. -/
theorem zero_not_mem_joined (argv : List Bytes) :
    (0 : Byte)∉List.intercalate [32] (argv.map cstr) := by
  cases argv with
  | nil => exact List.not_mem_nil
  | cons a argv =>
    rw [intercalate_blank,List.mem_append,not_or]
    refine ⟨zero_not_mem_cstr a,?_⟩
    intro hm
    obtain ⟨b,-,hb⟩ := List.mem_flatMap.mp hm
    rcases List.mem_cons.mp hb with h|h
    · exact absurd h (by decide)
    · exact zero_not_mem_cstr b h

/-- Whatever the array held, no store leaves it, and at the end it holds the first 4095
bytes of the arguments joined by blanks, a NUL, and behind it what it held before. -/
theorem fullCmd_assembled (hsize : memory.length=4096) (argv : List Bytes) :
    (∀ w∈(buildFullCmd memory argv).writes,w.1+w.2≤4096) ∧
      (buildFullCmd memory argv).memory=(List.intercalate [32] (argv.map cstr)).take 4095++
        0::memory.drop (((List.intercalate [32] (argv.map cstr)).take 4095).length+1) ∧
      (buildFullCmd memory argv).memory.length=4096 ∧
      cstr (buildFullCmd memory argv).memory=fullCmd argv := by
  have hloop := holds_appendArgs (holds_start memory 4096) (Nat.zero_le _) 0 argv
  rw [←fullCmd,fullCmd_eq] at hloop
  have hlength := hloop.2
  have hend := hloop.1.terminated (by omega)
  have hfree : (0 : Byte)∉(List.intercalate [32] (argv.map cstr)).take 4095 :=
    fun hm => zero_not_mem_joined argv (List.mem_of_mem_take hm)
  unfold buildFullCmd
  refine ⟨hend.2,hend.1,?_,?_⟩
  · rw [hend.1,List.length_append,List.length_cons,List.length_drop]
    omega
  · rw [hend.1,cstr_terminated hfree,fullCmd_eq]

/-- Two arguments, one of them empty, in an array of 170s. -/
theorem fullCmd_assembled_get :
    cstr (buildFullCmd (List.replicate 4096 170) [text "GET",[]]).memory=fullCmd [text "GET",[]] :=
  (fullCmd_assembled List.length_replicate [text "GET",[]]).2.2.2

end HoneyDew.RedisFullCmd
