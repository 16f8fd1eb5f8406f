import HoneyDew.CMemory
import HoneyDew.RedisReplies

/-!
# The error line for an unknown Redis command

The line is put together in an array of 512 bytes by formatting calls that start
where the string so far ends. No call writes outside of the array. What the client
has named is quoted as it is, and a text that leaves no room for CR LF is sent
without it.
-/

namespace HoneyDew.RedisUnknownReply

open CText CMemory RedisCommands RedisReplies RespReply

/-- The array `err_resp` and the writes into it. -/
structure ErrResp where
  /-- The bytes of the array. -/
  memory : Bytes
  /-- The offset and the number of bytes of each write. -/
  writes : List (ℕ×ℕ)
  deriving DecidableEq,Repr

namespace ErrResp

/-- Bytes are written from an offset on. -/
def write (e : ErrResp) (offset : ℕ) (bytes : Bytes) : ErrResp :=
  ⟨writeAt e.memory offset bytes,e.writes++[(offset,bytes.length)]⟩

/-- `snprintf(err_resp + offset, size, ...)` of a formatted text. -/
def snprintf (e : ErrResp) (offset size : ℕ) (formatted : Bytes) : ErrResp :=
  if size=0 then e else e.write offset (formatted.take (size-1)++[0])

/-- `strlen(err_resp)`. -/
def strlen (e : ErrResp) : ℕ := (cstr e.memory).length

end ErrResp

/-- The loop over the quoted arguments. -/
def appendArgs (e : ErrResp) : List Bytes → ErrResp
  | [] => e
  | a::argv =>
    appendArgs (e.snprintf e.strlen (512-e.strlen) (text "'"++cstr a++text "' ")) argv

/-- The end of `redis_dispatch_command` for an unknown command, from whatever the
array held; `redis_send_str` sends the string in it. -/
def errResp (memory : Bytes) (argv : List Bytes) : ErrResp :=
  let named := ErrResp.snprintf ⟨memory,[]⟩ 0 512
    (text "-ERR unknown command '"++arg argv 0++text "', with args beginning with: ")
  let quoted := appendArgs named ((argv.drop 1).take 3)
  let respLen := quoted.strlen
  if respLen+2<512 then
    ((quoted.write respLen [13]).write (respLen+1) [10]).write (respLen+2) [0]
  else quoted

/-- The array holds a string, and all writes have been inside of it. -/
structure Holds (e : ErrResp) (t : Bytes) : Prop where
  /-- The size of the array. -/
  size : e.memory.length=512
  /-- The string and its NUL stand at the front. -/
  front : t++[0]<+:e.memory
  /-- There is no NUL in the string. -/
  free : (0 : Byte)∉t
  /-- No write has passed the end. -/
  inside : ∀ w∈e.writes,w.1+w.2 ≤ 512

/-- The string in the array. -/
theorem Holds.cstr_eq {e : ErrResp} {t : Bytes} (h : Holds e t) : cstr e.memory=t := by
  obtain ⟨rest,hrest⟩ := h.front
  rw [←hrest,List.append_assoc,List.singleton_append]
  exact cstr_terminated h.free rest

/-- The string leaves room for its NUL. -/
theorem Holds.length_le {e : ErrResp} {t : Bytes} (h : Holds e t) : t.length ≤ 511 := by
  have hle := h.front.length_le
  rw [List.length_append,List.length_singleton,h.size] at hle
  omega

/-- A write behind a front of the array. -/
theorem write_spec {e : ErrResp} {t : Bytes} (bytes : Bytes) (hsize : e.memory.length=512)
    (hfront : t<+:e.memory) (hinside : ∀ w∈e.writes,w.1+w.2 ≤ 512)
    (hroom : t.length+bytes.length ≤ 512) :
    (e.write t.length bytes).memory.length=512 ∧ t++bytes<+:(e.write t.length bytes).memory ∧
      ∀ w∈(e.write t.length bytes).writes,w.1+w.2 ≤ 512 := by
  have htake : e.memory.take t.length=t := (List.prefix_iff_eq_take.mp hfront).symm
  refine ⟨?_,?_,?_⟩
  · rw [ErrResp.write,length_writeAt (by omega),hsize]
  · rw [ErrResp.write,writeAt,htake]
    exact List.prefix_append _ _
  · intro w hw
    cases List.mem_append.mp hw with
    | inl hold => exact hinside w hold
    | inr hnew =>
      rw [List.mem_singleton] at hnew
      rw [hnew]
      exact hroom

/-- A formatting call behind a front of the array appends what fits. -/
theorem snprintf_spec {e : ErrResp} {t formatted : Bytes} (hsize : e.memory.length=512)
    (hfront : t<+:e.memory) (hinside : ∀ w∈e.writes,w.1+w.2 ≤ 512) (hroom : t.length ≤ 511)
    (hfree : (0 : Byte)∉t) (hformatted : (0 : Byte)∉formatted) :
    Holds (e.snprintf t.length (512-t.length) formatted) (t++formatted.take (511-t.length)) := by
  have hbytes : t.length+(formatted.take (512-t.length-1)++[0]).length ≤ 512 := by
    rw [List.length_append,List.length_singleton,List.length_take]
    omega
  have hwrite := write_spec _ hsize hfront hinside hbytes
  have hless : 512-t.length-1=511-t.length := by omega
  rw [hless,←List.append_assoc] at hwrite
  have hnew : (0 : Byte)∉t++formatted.take (511-t.length) := by
    intro hm
    cases List.mem_append.mp hm with
    | inl hold => exact hfree hold
    | inr hadded => exact hformatted (List.mem_of_mem_take hadded)
  rw [ErrResp.snprintf,if_neg (by omega),hless]
  exact ⟨hwrite.1,hwrite.2.1,hnew,hwrite.2.2⟩

/-- An `snprintf` behind the string that the array holds appends what fits. -/
theorem Holds.snprintf {e : ErrResp} {t formatted : Bytes} (h : Holds e t)
    (hformatted : (0 : Byte)∉formatted) :
    Holds (e.snprintf e.strlen (512-e.strlen) formatted) (t++formatted.take (511-t.length)) := by
  have hlength : e.strlen=t.length := by rw [ErrResp.strlen,h.cstr_eq]
  have hfront : t<+:e.memory := (List.prefix_append t [0]).trans h.front
  rw [hlength]
  exact snprintf_spec h.size hfront h.inside h.length_le h.free hformatted

/-- A quoted argument has no NUL. -/
theorem zero_not_mem_quoted (a : Bytes) : (0 : Byte)∉text "'"++cstr a++text "' " := by
  have ha := zero_not_mem_cstr a
  have hopen : (0 : Byte)∉text "'" := by decide
  have hclose : (0 : Byte)∉text "' " := by decide
  simp [ha,hopen,hclose]

/-- The loop appends the quoted arguments as far as they fit. -/
theorem Holds.appendArgs {e : ErrResp} {t : Bytes} (h : Holds e t) (argv : List Bytes) :
    Holds (appendArgs e argv) (appendQuoted t argv) := by
  induction argv generalizing e t with
  | nil => exact h
  | cons a argv ih => exact ih (h.snprintf (zero_not_mem_quoted a))

/-- The stores of CR, LF and NUL end the string with a line end. -/
theorem Holds.terminate {e : ErrResp} {t : Bytes} (h : Holds e t) (hroom : t.length+2<512) :
    Holds (((e.write t.length [13]).write (t.length+1) [10]).write (t.length+2) [0]) (t++crlf) := by
  have hfront : t<+:e.memory := (List.prefix_append t [0]).trans h.front
  have hcr := write_spec [13] h.size hfront h.inside
    (by rw [List.length_singleton]; omega)
  have hlf := write_spec [10] hcr.1 hcr.2.1 hcr.2.2
    (by rw [List.length_append,List.length_singleton,List.length_singleton]; omega)
  have hnul := write_spec [0] hlf.1 hlf.2.1 hlf.2.2
    (by rw [List.length_append,List.length_append]; simp only [List.length_singleton]; omega)
  simp only [List.length_append,List.length_singleton] at hlf hnul
  have hfree : (0 : Byte)∉t++crlf := by simp [h.free]
  have hfront' : t++crlf++[0]<+:
      (((e.write t.length [13]).write (t.length+1) [10]).write (t.length+2) [0]).memory := by
    have hlast := hnul.2.1
    rw [List.append_assoc t [13] [10]] at hlast
    exact hlast
  exact ⟨hnul.1,hfront',hfree,hnul.2.2⟩

/-- Whatever the array held, it holds the error reply at the end, and no write has
passed its end. -/
theorem holds_errResp {memory : Bytes} (hsize : memory.length=512) (argv : List Bytes) :
    Holds (errResp memory argv) (redisUnknown argv) := by
  have hname : (0 : Byte)∉text "-ERR unknown command '"++arg argv 0++
      text "', with args beginning with: " := by
    have harg : (0 : Byte)∉arg argv 0 := zero_not_mem_cstr _
    have hopen : (0 : Byte)∉text "-ERR unknown command '" := by decide
    have hclose : (0 : Byte)∉text "', with args beginning with: " := by decide
    simp [harg,hopen,hclose]
  have hnamed := snprintf_spec (e := ⟨memory,[]⟩) (t := []) hsize List.nil_prefix
    (fun w hw => absurd hw List.not_mem_nil) (by simp) List.not_mem_nil hname
  have hquoted := hnamed.appendArgs ((argv.drop 1).take 3)
  have hstrlen := congrArg List.length hquoted.cstr_eq
  rw [List.nil_append,List.length_nil,Nat.sub_zero] at hquoted hstrlen
  unfold errResp redisUnknown
  dsimp only
  rw [ErrResp.strlen,hstrlen]
  split
  · rename_i hroom
    exact hquoted.terminate hroom
  · exact hquoted

/-- A reply is the error line for a command: the text as far as CR LF and NUL leave
room for it, with no line end inside, and CR LF. -/
def ErrorLine (argv : List Bytes) (reply : Bytes) : Prop :=
  ∃ shown,reply=shown++crlf ∧ shown<+:unknownText argv ∧
    ((unknownText argv).length ≤ 509 → shown=unknownText argv) ∧
    text "-ERR unknown command '"<+:shown ∧ LineText shown

/-- The text starts with its fixed part. -/
theorem unknownText_front (argv : List Bytes) :
    text "-ERR unknown command '"<+:unknownText argv := by
  rw [unknownText,List.append_assoc,List.append_assoc]
  exact List.prefix_append _ _

/-- A long enough front of the text starts with the fixed part. -/
theorem front_of_length {argv : List Bytes} {shown : Bytes} (h : shown<+:unknownText argv)
    (hlength : 22 ≤ shown.length) : text "-ERR unknown command '"<+:shown :=
  List.prefix_of_prefix_length_le (unknownText_front argv) h hlength

/-- The reply is an error line exactly when its text has no line end and leaves
room for one, or is cut where it happens to have its only line end. -/
theorem errorLine_iff (argv : List Bytes) :
    ErrorLine argv (redisUnknown argv) ↔ UnknownLineWhole (unknownText argv) := by
  rw [redisUnknown_eq,UnknownLineWhole]
  by_cases hshort : (unknownText argv).length ≤ 509
  · rw [if_pos hshort,if_pos hshort]
    constructor
    · intro h
      obtain ⟨shown,_,_,hwhole,_,hline⟩ := h
      rwa [hwhole hshort] at hline
    · intro hline
      exact ⟨_,rfl,List.prefix_refl _,fun _ => rfl,unknownText_front argv,hline⟩
  · rw [if_neg hshort,if_neg hshort]
    have hlength : ((unknownText argv).take 511).length=min 511 (unknownText argv).length :=
      List.length_take
    generalize hcut : (unknownText argv).take 511=cut at hlength ⊢
    have hfront : cut<+:unknownText argv := by
      rw [←hcut]
      exact List.take_prefix _ _
    constructor
    · intro h
      obtain ⟨shown,hreply,_,_,_,hline⟩ := h
      have hcount : cut.length-2=shown.length := by
        rw [hreply,List.length_append]
        exact Nat.add_sub_cancel _ _
      rw [hcount,hreply,List.take_left,List.drop_left]
      exact ⟨hline,rfl⟩
    · intro h
      have hshown : cut.take (cut.length-2)<+:unknownText argv := (List.take_prefix _ _).trans hfront
      have hlong : 22 ≤ (cut.take (cut.length-2)).length := by
        rw [List.length_take]
        omega
      have hsplit := List.take_append_drop (cut.length-2) cut
      rw [h.2] at hsplit
      exact ⟨_,hsplit.symm,hshown,fun hle => absurd hle hshort,front_of_length hshown hlong,h.1⟩

/-- For every command that the dispatcher does not know, whatever its array held:
no write passes the end of the array, its string is the only reply, and the reply
is an error line exactly when the text leaves room for CR LF and has no line end,
or is cut right behind its only one. -/
theorem unknown_reply_iff {memory : Bytes} (hsize : memory.length=512) {argv : List Bytes}
    (hunknown : redisVerb argv=none) :
    (∀ w∈(errResp memory argv).writes,w.1+w.2 ≤ 512) ∧
      redisReplies argv=[cstr (errResp memory argv).memory] ∧
      (ErrorLine argv (cstr (errResp memory argv).memory) ↔ UnknownLineWhole (unknownText argv)) := by
  have hholds := holds_errResp hsize argv
  rw [hholds.cstr_eq]
  refine ⟨hholds.inside,?_,errorLine_iff argv⟩
  rw [redisReplies,hunknown]

/-- A short name with two arguments is answered by an error line. -/
theorem unknown_reply_iff_short :
    (∀ w∈(errResp (List.replicate 512 7) [text "FOO",text "a",text "b"]).writes,w.1+w.2 ≤ 512) ∧
      redisReplies [text "FOO",text "a",text "b"]=
        [cstr (errResp (List.replicate 512 7) [text "FOO",text "a",text "b"]).memory] ∧
      (ErrorLine [text "FOO",text "a",text "b"]
          (cstr (errResp (List.replicate 512 7) [text "FOO",text "a",text "b"]).memory) ↔
        UnknownLineWhole (unknownText [text "FOO",text "a",text "b"])) :=
  unknown_reply_iff List.length_replicate (by decide)

/-- A name with a line end and a name of 600 bytes are not answered by an error line. -/
theorem unknown_reply_broken :
    redisVerb [[65,13,10,66]]=none ∧
      ¬ErrorLine [[65,13,10,66]] (cstr (errResp (List.replicate 512 7) [[65,13,10,66]]).memory) ∧
      redisVerb [List.replicate 600 65]=none ∧
      ¬ErrorLine [List.replicate 600 65]
        (cstr (errResp (List.replicate 512 7) [List.replicate 600 65]).memory) := by
  have hsize : (List.replicate 512 (7 : Byte)).length=512 := List.length_replicate
  have hname := holds_errResp hsize [[65,13,10,66]]
  have hlong := holds_errResp hsize [List.replicate 600 65]
  rw [hname.cstr_eq,hlong.cstr_eq,errorLine_iff,errorLine_iff]
  decide +kernel

end HoneyDew.RedisUnknownReply
