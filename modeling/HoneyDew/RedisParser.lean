import HoneyDew.CMemory
import HoneyDew.RedisCommands
import HoneyDew.StepSystem
import Mathlib.Data.List.GetD

/-!
# The receive loop and the two parsers of the Redis service

The receive buffer is an array of 4096 bytes of which the first `used` are
unread. A receive call stores behind the unread bytes and terminates them with
a NUL; the inner loop lets the array parser and then the line parser try the
buffer, dispatches, and moves the remaining bytes to the front without writing
a new NUL. The parsers search with `strstr` and `atoi` from a position on.
-/

namespace HoneyDew.RedisParser

open CText CMemory Service RedisCommands StepSystem

/-- The number at a position and the position behind the CR LF that follows:
the `strstr`, the test against `end` and the `atoi` of the array parser. -/
def headerAt (memory : Bytes) (bufLen p : ℕ) : Option (ℤ×ℕ) :=
  (strstr (memory.drop p) crlf).bind (fun i =>
    if p+i<bufLen then some (atoi (memory.drop p),p+i+2) else none)

/-- The loop of `redis_parse_resp_array` over the announced arguments. -/
def redisParseArgs (memory : Bytes) (bufLen : ℕ) : ℕ → ℕ → Option (ℕ×List Bytes)
  | 0,p => some (p,[])
  | k+1,p =>
    if bufLen≤p ∨ memory.getD p 0≠36 then none else
      (headerAt memory bufLen (p+1)).bind (fun header =>
        let argLen := header.1.toNat
        if header.1<0 ∨ bufLen<header.2+argLen+2 then none
        else if readAt memory (header.2+argLen) 2≠crlf then none
        else (redisParseArgs memory bufLen k (header.2+argLen+2)).map (fun rest =>
          (rest.1,readAt memory header.2 (min argLen 1023)::rest.2)))

/-- `redis_parse_resp_array`: the bytes consumed and the arguments; nothing
where the function returns 0. -/
def redisParseRespArray (memory : Bytes) (bufLen : ℕ) : Option (ℕ×List Bytes) :=
  if bufLen<4 ∨ memory.getD 0 0≠42 then none else
    (headerAt memory bufLen 1).bind (fun header =>
      if header.1≤0 ∨ 32<header.1 then none
      else redisParseArgs memory bufLen header.1.toNat header.2)

/-- The separators of the line parser. -/
def isBlank (b : Byte) : Bool := b=32 || b=9

/-- Where the line parser takes the line to end. -/
def lineEnd (memory : Bytes) (bufLen : ℕ) : Option ℕ :=
  ((strstr memory crlf).or (strstr memory [10])).or
    (if 0<bufLen ∧ memory.getD (bufLen-1) 0≠0 then some bufLen else none)

/-- The tokens of a line as `argv` stores them. -/
def lineArgs (line : Bytes) : List Bytes :=
  ((tokens isBlank (cstr line)).take 32).map (fun token => token.take 1023)

/-- `redis_parse_inline`: the bytes consumed and the arguments; nothing where
the function returns 0. -/
def redisParseInline (memory : Bytes) (bufLen : ℕ) : Option (ℕ×List Bytes) :=
  (lineEnd memory bufLen).map (fun lineLen =>
    if lineLen=0 then (if memory.getD 0 0=13 then 2 else 1,[])
    else
      (lineLen+(if lineLen<bufLen then
          if memory.getD lineLen 0=13 ∧ lineLen+1<bufLen ∧ memory.getD (lineLen+1) 0=10 then 2 else 1
        else 0),
        lineArgs (readAt memory 0 (min lineLen 4095))))

/-- One parsing attempt of the inner loop: arrays first, then lines. -/
def redisParse (memory : Bytes) (bufLen : ℕ) : Option (ℕ×List Bytes) :=
  (if memory.getD 0 0=42 then redisParseRespArray memory bufLen else none).or
    (redisParseInline memory bufLen)

/-- The receive buffer. -/
structure RedisBuffer where
  /-- `recv_buf`. -/
  memory : Bytes
  /-- `sizeof(recv_buf)`. -/
  length_memory : memory.length=4096
  /-- `buf_used`. -/
  used : ℕ
  /-- The NUL behind the bytes received always has a place. -/
  used_le : used≤4095
  deriving DecidableEq,Repr

namespace RedisBuffer

/-- The bytes received and not yet consumed. -/
def unread (b : RedisBuffer) : Bytes := b.memory.take b.used

/-- The bytes kept at the top of the outer loop: a full buffer is reset. -/
def kept (b : RedisBuffer) : ℕ := if 4095≤b.used then 0 else b.used

/-- The space offered to `recv`. -/
def free (b : RedisBuffer) : ℕ := 4095-b.kept

/-- The buffer after `recv` has stored bytes and the NUL is written. -/
def receive (b : RedisBuffer) (chunk : Bytes) (h : chunk.length≤b.free) : RedisBuffer where
  memory := writeAt b.memory b.kept (chunk++[0])
  length_memory := by
    have hlength := b.length_memory
    have hfit : b.kept+(chunk++[0]).length≤b.memory.length := by
      have hkept : b.kept≤4095 := by
        unfold kept
        split <;> omega
      rw [List.length_append,List.length_singleton]
      unfold free at h
      omega
    rw [length_writeAt hfit,hlength]
  used := b.kept+chunk.length
  used_le := by
    have hkept : b.kept≤4095 := by
      unfold kept
      split <;> omega
    unfold free at h
    omega

/-- The removal of consumed bytes: `memmove` of the rest to the front. -/
def consume (b : RedisBuffer) (consumed : ℕ) : RedisBuffer where
  memory :=
    if consumed<b.used then writeAt b.memory 0 (readAt b.memory consumed (b.used-consumed))
    else b.memory
  length_memory := by
    have hlength := b.length_memory
    have hused := b.used_le
    split
    · rw [length_writeAt,hlength]
      rw [length_readAt (by omega)]
      omega
    · exact hlength
  used := if consumed<b.used then b.used-consumed else 0
  used_le := by
    have hused := b.used_le
    split <;> omega

end RedisBuffer

/-- Where `run_redis_service` stands. -/
inductive RedisPhase
  /-- At the `recv` call of the outer loop. -/
  | receiving
  /-- At the head of the inner loop. -/
  | parsing
  /-- Behind the loops. -/
  | closed
  deriving DecidableEq,Repr

/-- The state of the two loops. -/
structure RedisLoop where
  /-- The receive buffer. -/
  buffer : RedisBuffer
  /-- The position. -/
  phase : RedisPhase
  /-- The commands handed to `redis_dispatch_command` so far. -/
  dispatched : List (List Bytes)
  deriving DecidableEq,Repr

/-- Without bytes received the NUL has a place. -/
theorem RedisBuffer.zero_used_le : 0≤4095 := Nat.zero_le 4095

/-- The state before the first `recv`, with whatever the stack held. -/
def RedisLoop.start (memory : Bytes) (h : memory.length=4096) : RedisLoop :=
  ⟨⟨memory,h,0,RedisBuffer.zero_used_le⟩,.receiving,[]⟩

/-- One `recv` call. -/
def redisReceive (s : RedisLoop) (r : RecvResult) : RedisLoop :=
  match r with
  | .failed => {s with phase := .closed}
  | .data bytes =>
    if bytes.take s.buffer.free=[] then {s with phase := .closed}
    else {s with
      buffer := s.buffer.receive (bytes.take s.buffer.free) (List.length_take_le _ _)
      phase := .parsing}

/-- One pass of the inner loop. -/
def redisPass (s : RedisLoop) : RedisLoop :=
  if s.buffer.used=0 then {s with phase := .receiving}
  else match redisParse s.buffer.memory s.buffer.used with
    | none => {s with phase := .receiving}
    | some (consumed,argv) =>
      ⟨s.buffer.consume consumed,
        if argv≠[] ∧ redisCloses argv then .closed else .parsing,
        if argv=[] then s.dispatched else s.dispatched++[argv]⟩

/-- The inner loop, at most `fuel` passes. -/
def redisDrain : ℕ → RedisLoop → RedisLoop
  | 0,s => s
  | fuel+1,s => if s.phase=.parsing then redisDrain fuel (redisPass s) else s

/-- The outer loop over the results of its `recv` calls. -/
def redisRun (s : RedisLoop) : List RecvResult → RedisLoop
  | [] => s
  | r::rs =>
    if s.phase=.receiving then
      let received := redisReceive s r
      redisRun (redisDrain (received.buffer.used+1) received) rs
    else s

/-- `run_redis_service`: the acts of a session on a connection. -/
def runRedisService (session : Session) (memory : Bytes) (h : memory.length=4096)
    (results : List RecvResult) : List Action :=
  session.recordConnection .redis::
    ((redisRun (.start memory h) results).dispatched.flatMap (redisDispatchCommand session)++
      [session.recordDisconnect .redis,.close])

/-- A pass of the inner loop as a step, and a `recv` call as a step. -/
inductive RedisLabel
  /-- The outer loop calls `recv`. -/
  | recv (r : RecvResult)
  /-- The inner loop makes one pass. -/
  | pass
  deriving DecidableEq,Repr

/-- The two loops as a step system. -/
def redisStep (s : RedisLoop) : RedisLabel → Option RedisLoop
  | .recv r => if s.phase=.receiving then some (redisReceive s r) else none
  | .pass => if s.phase=.parsing then some (redisPass s) else none

/-- The inner loop is a run of passes. -/
theorem redisDrain_execute (fuel : ℕ) (s : RedisLoop) :
    ∃ k,execute redisStep s (List.replicate k .pass)=some (redisDrain fuel s) := by
  induction fuel generalizing s with
  | zero => exact ⟨0,rfl⟩
  | succ fuel ih =>
    rw [redisDrain]
    split
    · rename_i hphase
      have hrest := ih (redisPass s)
      rcases hrest with ⟨k,hk⟩
      refine ⟨k+1,?_⟩
      have hstep : redisStep s .pass=some (redisPass s) := if_pos hphase
      rw [List.replicate_succ,execute,hstep]
      exact hk
    · exact ⟨0,rfl⟩

/-- A header ends behind the position it was looked for at. -/
theorem headerAt_behind {memory : Bytes} {bufLen p : ℕ} {header : ℤ×ℕ}
    (h : headerAt memory bufLen p=some header) : p+2≤header.2 := by
  have hsearch := Option.bind_eq_some_iff.mp h
  rcases hsearch with ⟨i,hi,hinside⟩
  split at hinside
  · have hpair := Option.some.inj hinside
    rw [←hpair]
    dsimp only
    omega
  · cases hinside

/-- What a round of the argument loop has found: a number, an argument of that length
with a CR LF behind it, all inside the unread bytes, and the other arguments. -/
theorem redisParseArgs_round {memory : Bytes} {bufLen k p : ℕ} {result : ℕ×List Bytes}
    (h : redisParseArgs memory bufLen (k+1) p=some result) :
    p<bufLen ∧ memory.getD p 0=36 ∧
      ∃ header tail,headerAt memory bufLen (p+1)=some header ∧ 0≤header.1 ∧
        header.2+header.1.toNat+2≤bufLen ∧ readAt memory (header.2+header.1.toNat) 2=crlf ∧
        redisParseArgs memory bufLen k (header.2+header.1.toNat+2)=some tail ∧
        result=(tail.1,readAt memory header.2 (min header.1.toNat 1023)::tail.2) := by
  rw [redisParseArgs] at h
  split at h
  · cases h
  · rename_i hdollar
    rw [not_or,not_not] at hdollar
    have hheader := Option.bind_eq_some_iff.mp h
    rcases hheader with ⟨header,hfound,hbody⟩
    dsimp only at hbody
    split at hbody
    · cases hbody
    · rename_i hroom
      rw [not_or] at hroom
      split at hbody
      · cases hbody
      · rename_i hbehind
        have hmap := Option.map_eq_some_iff.mp hbody
        rcases hmap with ⟨tail,htail,hpair⟩
        exact ⟨by omega,hdollar.2,header,tail,hfound,by omega,by omega,not_not.mp hbehind,htail,
          hpair.symm⟩

/-- A successful attempt is one of the array parser, with the number of arguments in
its range, or one of the line parser. -/
theorem redisParse_found {memory : Bytes} {bufLen : ℕ} {result : ℕ×List Bytes}
    (h : redisParse memory bufLen=some result) :
    (4≤bufLen ∧ memory.getD 0 0=42 ∧ ∃ header,headerAt memory bufLen 1=some header ∧
      0 < header.1 ∧ header.1≤32 ∧
      redisParseArgs memory bufLen header.1.toNat header.2=some result) ∨
      redisParseInline memory bufLen=some result := by
  unfold redisParse at h
  rcases Option.or_eq_some_iff.mp h with harray|hline
  · left
    split at harray
    · rename_i hstar
      unfold redisParseRespArray at harray
      split at harray
      · cases harray
      · rename_i hfew
        have hheader := Option.bind_eq_some_iff.mp harray
        rcases hheader with ⟨header,hfound,hbody⟩
        split at hbody
        · cases hbody
        · rename_i hrange
          exact ⟨by omega,hstar,header,hfound,by omega,by omega,hbody⟩
    · cases harray
  · exact Or.inr hline.2

/-- The argument loop only moves forward. -/
theorem redisParseArgs_le {memory : Bytes} {bufLen k p : ℕ} {result : ℕ×List Bytes}
    (h : redisParseArgs memory bufLen k p=some result) : p≤result.1 := by
  induction k generalizing p result with
  | zero =>
    have hpair := Option.some.inj h
    exact (congrArg Prod.fst hpair).le
  | succ k ih =>
    obtain ⟨-,-,header,tail,hfound,-,-,-,htail,hresult⟩ := redisParseArgs_round h
    have hbehind := headerAt_behind hfound
    have hle := ih htail
    rw [hresult]
    dsimp only
    omega

/-- Every successful parse consumes something. -/
theorem consumed_pos {memory : Bytes} {bufLen consumed : ℕ} {argv : List Bytes}
    (h : redisParse memory bufLen=some (consumed,argv)) : 0<consumed := by
  rcases redisParse_found h with ⟨-,-,header,hfound,-,-,hargs⟩|hline
  · have hbehind := headerAt_behind hfound
    have hle := redisParseArgs_le hargs
    dsimp only at hle
    omega
  · unfold redisParseInline at hline
    have hend := Option.map_eq_some_iff.mp hline
    rcases hend with ⟨lineLen,hfound,hpair⟩
    have hsame := congrArg Prod.fst hpair
    by_cases hzero : lineLen=0
    · rw [if_pos hzero] at hsame
      dsimp only at hsame
      split at hsame <;> omega
    · rw [if_neg hzero] at hsame
      dsimp only at hsame
      omega

/-- A pass that goes on parsing leaves fewer unread bytes. -/
theorem redisPass_used {s : RedisLoop} (h : (redisPass s).phase=.parsing) :
    (redisPass s).buffer.used<s.buffer.used := by
  unfold redisPass at h ⊢
  split at h
  · cases h
  · rename_i hused
    cases hparse : redisParse s.buffer.memory s.buffer.used with
    | none =>
      rw [hparse] at h
      cases h
    | some result =>
      have hpos := consumed_pos hparse
      rw [if_neg hused]
      dsimp only [RedisBuffer.consume]
      split <;> omega

/-- One more pass than unread bytes ends the inner loop. -/
theorem redisDrain_leaves {fuel : ℕ} {s : RedisLoop} (h : s.buffer.used<fuel) :
    (redisDrain fuel s).phase≠.parsing := by
  induction fuel generalizing s with
  | zero => exact absurd h (Nat.not_lt_zero _)
  | succ fuel ih =>
    rw [redisDrain]
    by_cases hphase : s.phase=.parsing
    · rw [if_pos hphase]
      by_cases hnext : (redisPass s).phase=.parsing
      · have hless := redisPass_used hnext
        exact ih (by omega)
      · cases fuel with
        | zero => exact hnext
        | succ fuel =>
          rw [redisDrain,if_neg hnext]
          exact hnext
    · rw [if_neg hphase]
      exact hphase

end HoneyDew.RedisParser
