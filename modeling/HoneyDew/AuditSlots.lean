import HoneyDew.AuditLog

/-!
# The memory of the record slots

A slot of the ring keeps its four character arrays one behind the other, and a record
that is stored leaves in place what the copies do not overwrite. The ring is followed
here as memory, beside the trail that counts and orders the records. The last byte of
an array is never written, it stays the NUL of the allocation.
-/

namespace HoneyDew.AuditSlots

open CText CMemory RingQueue StepSystem AuditTrail AuditLog

/-! ## The code -/

/-- Offset of `source_ip` among the character arrays of `audit_record_t`. -/
def sourceIpOffset : ℕ := 0

/-- Offset of `session_id`, behind `AUDIT_MAX_IP_LEN` bytes. -/
def sessionIdOffset : ℕ := 46

/-- Offset of `username`, behind `AUDIT_MAX_SESSION_ID_LEN` more bytes. -/
def usernameOffset : ℕ := 110

/-- Offset of `details`, behind `AUDIT_MAX_USER_LEN` more bytes. -/
def detailsOffset : ℕ := 238

/-- A slot of the ring: the plain fields and the memory of the four arrays. -/
structure RecordSlot where
  /-- The time of recording. -/
  timestamp : ℤ
  /-- The sequence number. -/
  sequenceNumber : ℕ
  /-- The event type. -/
  eventType : AuditEventType
  /-- The severity. -/
  severity : AuditSeverity
  /-- The protocol number. -/
  protocol : ℤ
  /-- The port of the peer. -/
  sourcePort : ℤ
  /-- The bytes of `source_ip`, `session_id`, `username` and `details`. -/
  arrays : Bytes
  deriving DecidableEq,Repr

/-- A slot as `calloc` leaves it. -/
def RecordSlot.zeroed : RecordSlot :=
  ⟨0,0,.connection,.low,0,0,List.replicate (46+64+128+2048) 0⟩

/-- `strncpy(memory + offset, src, n)`. -/
def strncpyAt (memory : Bytes) (offset : ℕ) (src : Bytes) (n : ℕ) : Bytes :=
  memory.take offset++strncpy (memory.drop offset) src n

/-- The three copies and the formatted print of `audit_record_event` into a slot. -/
def fillArrays (arrays : Bytes) (e : AuditEvent) : Bytes :=
  let arrays := strncpyAt arrays sourceIpOffset (e.sourceIp.getD (text "unknown")) (46-1)
  let arrays := strncpyAt arrays sessionIdOffset (e.sessionId.getD (text "-")) (64-1)
  let arrays := strncpyAt arrays usernameOffset (e.username.getD []) (128-1)
  snprintfAt arrays detailsOffset 2048 (cstr e.details)

/-- The assignments of `audit_record_event` to the slot it fills. -/
def fillSlot (slot : RecordSlot) (now : ℤ) (sequence : ℕ) (e : AuditEvent) : RecordSlot :=
  ⟨now,sequence,e.eventType,e.severity,e.protocol,e.sourcePort,fillArrays slot.arrays e⟩

/-- The trail beside the memory of its ring. -/
structure SlotRun where
  /-- Positions, counters, the flush thread and the history. -/
  run : AuditRun
  /-- The slots of `ring_buffer`. -/
  slots : ℕ → RecordSlot
  /-- The slots as they were when `write_record` was called on them, in order. -/
  written : List RecordSlot

/-- The state after `audit_init`: `calloc` has cleared the slots. -/
def SlotRun.initial (logFile : Bytes) : SlotRun := ⟨.initial logFile,fun _ => .zeroed,[]⟩

/-- The slots after a step: a call that finds room fills the slot at the write position. -/
def slotsAfter (s : SlotRun) : AuditLabel → ℕ → RecordSlot
  | .record now e =>
    if s.run.trail.capacity ≤ s.run.trail.count then s.slots
    else Function.update s.slots s.run.trail.head
      (fillSlot (s.slots s.run.trail.head) now s.run.trail.nextSequence e)
  | _ => s.slots

/-- The slots that a step hands to `write_record`, from the oldest record on. -/
def writtenBy (s : SlotRun) : AuditLabel → List RecordSlot
  | .record _ _ => []
  | .test => []
  | .batch _ =>
    contents wordModulus s.run.trail.capacity s.slots s.run.trail.head s.run.trail.count
  | .shutdown => []
  | .finalDrain _ =>
    contents wordModulus s.run.trail.capacity s.slots s.run.trail.head s.run.trail.count

variable (localtime : ℤ → Bytes)

/-- One step of the trail with what it does to the memory of the ring. -/
def slotStep (s : SlotRun) (a : AuditLabel) : Option SlotRun :=
  (auditStep localtime s.run a).map
    (fun next => ⟨next,slotsAfter s a,s.written++writtenBy s a⟩)

/-- What a slot says, with C strings read from the offsets of the arrays. -/
def RecordSlot.view (slot : RecordSlot) : AuditEntry :=
  ⟨slot.timestamp,slot.sequenceNumber,slot.eventType,slot.severity,slot.protocol,slot.sourcePort,
    cstr (slot.arrays.drop sourceIpOffset),cstr (slot.arrays.drop sessionIdOffset),
    cstr (slot.arrays.drop usernameOffset),cstr (slot.arrays.drop detailsOffset)⟩

/-! ## One array in a slot -/

/-- An array has its capacity and one more byte. -/
theorem length_bytes {capacity : ℕ} (a : CharArray capacity) : a.bytes.length=capacity+1 := by
  rw [CharArray.bytes,List.length_append,a.length_body,List.length_singleton]

/-- A bounded copy into an array of a slot leaves its last byte and all other arrays. -/
theorem strncpyAt_array {capacity offset : ℕ} (front back src : Bytes) (a : CharArray capacity)
    (hfront : front.length=offset) :
    strncpyAt (front++(a.bytes++back)) offset src capacity=
      front++((a.strncpyInto src).bytes++back) := by
  have hdrop : (a.bytes++back).drop capacity=[0]++back := by
    rw [CharArray.bytes,List.append_assoc,List.drop_left' a.length_body]
  rw [strncpyAt,List.take_left' hfront,List.drop_left' hfront,strncpy,hdrop]
  simp only [CharArray.bytes,CharArray.strncpyInto,List.append_assoc]

/-- A formatted print into an array of a slot leaves all other arrays. -/
theorem snprintfAt_array {capacity offset : ℕ} (front back formatted : Bytes)
    (a : CharArray capacity) (hfront : front.length=offset) :
    snprintfAt (front++(a.bytes++back)) offset (capacity+1) formatted=
      front++((a.snprintfInto formatted).bytes++back) := by
  have hlength := length_bytes a
  have hnew : (formatted.take capacity++[0]).length ≤ a.bytes.length := by
    rw [List.length_append,List.length_take,List.length_singleton]
    omega
  have hsplit := List.take_append_drop (formatted.take capacity++[0]).length a.bytes
  have hold : (a.bytes.take (formatted.take capacity++[0]).length).length=
      (formatted.take capacity++[0]).length := by
    rw [List.length_take,Nat.min_eq_left hnew]
  have hstored : (formatted.take capacity++[0])++
      a.bytes.drop (formatted.take capacity++[0]).length=(a.snprintfInto formatted).bytes := by
    rcases Nat.lt_or_ge formatted.length capacity with hshort|hlong
    · rw [CharArray.bytes_snprintfInto_short a hshort,List.take_of_length_le hshort.le,
        List.length_append,List.length_singleton,List.append_assoc]
      rfl
    · have htake : (formatted.take capacity).length=capacity := by
        rw [List.length_take,Nat.min_eq_left hlong]
      rw [CharArray.bytes_snprintfInto_long a hlong,List.drop_eq_nil_of_le,List.append_nil]
      rw [hlength,List.length_append,htake,List.length_singleton]
  rw [snprintfAt,if_neg (Nat.succ_ne_zero _),Nat.add_sub_cancel]
  nth_rewrite 1 [←hsplit]
  rw [List.append_assoc,writeAt_append offset front _ _ _ hfront hold,←List.append_assoc _ _ back,
    hstored]

/-- A C string read from the offset of an array ends inside the array. -/
theorem cstr_drop_array {capacity offset : ℕ} (front back : Bytes) (a : CharArray capacity)
    (hfront : front.length=offset) :
    cstr ((front++(a.bytes++back)).drop offset)=a.cstring := by
  have hnul : (0 : Byte)∈a.bytes := List.mem_append_right _ List.mem_cons_self
  rw [List.drop_left' hfront,cstr_append_of_mem hnul]
  rfl

/-! ## A slot holds a record -/

/-- The slot that holds a record: its arrays one behind the other. -/
def slotOf (record : AuditRecord) : RecordSlot :=
  ⟨record.timestamp,record.sequenceNumber,record.eventType,record.severity,record.protocol,
    record.sourcePort,
    record.sourceIp.bytes++(record.sessionId.bytes++(record.username.bytes++record.details.bytes))⟩

/-- The memory that `calloc` returns holds zeroed records. -/
theorem slotOf_zeroed : slotOf .zeroed=.zeroed := by
  have hbytes : ∀ capacity,(CharArray.zeroed capacity).bytes=List.replicate (capacity+1) 0 := by
    intro capacity
    exact List.replicate_succ'.symm
  unfold slotOf AuditRecord.zeroed RecordSlot.zeroed
  simp only [hbytes,List.replicate_append_replicate]

/-- The array in front of `session_id`. -/
theorem length_sourceIp (a : CharArray 45) : a.bytes.length=sessionIdOffset := length_bytes a

/-- The arrays in front of `username`. -/
theorem length_session (a : CharArray 45) (b : CharArray 63) :
    (a.bytes++b.bytes).length=usernameOffset := by
  rw [List.length_append,length_bytes,length_bytes]
  rfl

/-- The arrays in front of `details`. -/
theorem length_username (a : CharArray 45) (b : CharArray 63) (c : CharArray 127) :
    (a.bytes++(b.bytes++c.bytes)).length=detailsOffset := by
  rw [List.length_append,List.length_append,length_bytes,length_bytes,length_bytes]
  rfl

/-- Filling a slot that holds a record fills the record in it. -/
theorem fillSlot_slotOf (record : AuditRecord) (now : ℤ) (sequence : ℕ) (e : AuditEvent) :
    fillSlot (slotOf record) now sequence e=slotOf (fillRecord record now sequence e) := by
  have hip := strncpyAt_array [] (record.sessionId.bytes++(record.username.bytes++record.details.bytes))
    (e.sourceIp.getD (text "unknown")) record.sourceIp (rfl : _=sourceIpOffset)
  have hsession := strncpyAt_array
    (record.sourceIp.strncpyInto (e.sourceIp.getD (text "unknown"))).bytes
    (record.username.bytes++record.details.bytes) (e.sessionId.getD (text "-")) record.sessionId
    (length_sourceIp _)
  have husername := strncpyAt_array
    ((record.sourceIp.strncpyInto (e.sourceIp.getD (text "unknown"))).bytes++
      (record.sessionId.strncpyInto (e.sessionId.getD (text "-"))).bytes)
    record.details.bytes (e.username.getD []) record.username (length_session _ _)
  have hdetails := snprintfAt_array
    ((record.sourceIp.strncpyInto (e.sourceIp.getD (text "unknown"))).bytes++
      ((record.sessionId.strncpyInto (e.sessionId.getD (text "-"))).bytes++
        (record.username.strncpyInto (e.username.getD [])).bytes))
    [] (cstr e.details) record.details (length_username _ _ _)
  simp only [List.nil_append,List.append_assoc,List.append_nil] at hip hsession husername hdetails
  unfold fillSlot fillArrays slotOf fillRecord
  dsimp only
  rw [hip,hsession,husername,hdetails]

/-- A slot that holds a record reads as the record. -/
theorem view_slotOf (record : AuditRecord) : (slotOf record).view=record.view := by
  have hip := cstr_drop_array [] (record.sessionId.bytes++(record.username.bytes++record.details.bytes))
    record.sourceIp (rfl : _=sourceIpOffset)
  have hsession := cstr_drop_array record.sourceIp.bytes (record.username.bytes++record.details.bytes)
    record.sessionId (length_sourceIp _)
  have husername := cstr_drop_array (record.sourceIp.bytes++record.sessionId.bytes)
    record.details.bytes record.username (length_session _ _)
  have hdetails := cstr_drop_array
    (record.sourceIp.bytes++(record.sessionId.bytes++record.username.bytes)) [] record.details
    (length_username _ _ _)
  simp only [List.nil_append,List.append_assoc,List.append_nil] at hip hsession husername hdetails
  unfold RecordSlot.view slotOf AuditRecord.view
  dsimp only
  rw [hip,hsession,husername,hdetails]

/-! ## Runs -/

/-- The draining loop hands out the ring, whatever happens to the log file. -/
theorem drainRing_records (reopened : ℕ → Option Bytes) (trail : AuditTrailT) (count : ℕ)
    (file : Option Bytes) :
    (drainRing localtime reopened trail count file).2=
      contents wordModulus trail.capacity trail.ringBuffer trail.head count := by
  induction count generalizing file with
  | zero => rfl
  | succ count ih => rw [drainRing,contents,ih]

/-- Every slot holds the record of the trail, and so does every slot written. -/
structure SlotsHold (s : SlotRun) : Prop where
  /-- The ring. -/
  slots : s.slots=fun i => slotOf (s.run.trail.ringBuffer i)
  /-- What went to `write_record`. -/
  written : s.written=s.run.handed.map slotOf

/-- After `audit_init` the slots hold zeroed records. -/
theorem slotsHold_initial (logFile : Bytes) : SlotsHold (.initial logFile) :=
  ⟨funext fun _ => slotOf_zeroed.symm,rfl⟩

/-- A pass over the ring writes the slots of the records it hands out. -/
theorem slotsHold_flush {s : SlotRun} (hs : SlotsHold s) (reopened : ℕ → Option Bytes)
    (flush : FlushPhase) :
    SlotsHold ⟨{s.run with
        trail := (flushBatch localtime reopened s.run.trail).1
        flush := flush
        handed := s.run.handed++(flushBatch localtime reopened s.run.trail).2},s.slots,
      s.written++contents wordModulus s.run.trail.capacity s.slots s.run.trail.head
        s.run.trail.count⟩ := by
  refine ⟨hs.slots,?_⟩
  dsimp only
  rw [hs.written,hs.slots,contents_map,flushBatch,drainRing_records,List.map_append]

/-- A step of the trail and of the memory keeps the two together. -/
theorem slotsHold_step {s t : SlotRun} {a : AuditLabel} (hs : SlotsHold s)
    (h : slotStep localtime s a=some t) : SlotsHold t := by
  obtain ⟨next,hnext,rfl⟩ := Option.map_eq_some_iff.mp h
  cases a with
  | record now e =>
    rw [auditStep,auditRecordEvent] at hnext
    by_cases hfull : s.run.trail.capacity ≤ s.run.trail.count
    · rw [if_pos hfull] at hnext
      cases hnext
      refine ⟨?_,?_⟩
      · rw [slotsAfter,if_pos hfull]
        exact hs.slots
      · rw [writtenBy,List.append_nil]
        exact hs.written
    · rw [if_neg hfull] at hnext
      cases hnext
      refine ⟨?_,?_⟩
      · rw [slotsAfter,if_neg hfull,hs.slots,fillSlot_slotOf]
        funext i
        unfold storeRecord
        dsimp only
        by_cases hi : i=s.run.trail.head
        · rw [hi,Function.update_self,Function.update_self]
        · rw [Function.update_of_ne hi,Function.update_of_ne hi]
      · rw [writtenBy,List.append_nil]
        exact hs.written
  | test =>
    rw [auditStep] at hnext
    split at hnext
    · cases hnext
      exact ⟨hs.slots,by rw [writtenBy,List.append_nil]; exact hs.written⟩
    · cases hnext
  | batch reopened =>
    rw [auditStep] at hnext
    split at hnext
    · cases hnext
      exact slotsHold_flush localtime hs reopened .testing
    · cases hnext
  | shutdown =>
    cases hnext
    exact ⟨hs.slots,by rw [writtenBy,List.append_nil]; exact hs.written⟩
  | finalDrain reopened =>
    rw [auditStep] at hnext
    split at hnext
    · cases hnext
      exact slotsHold_flush localtime hs reopened .finished
    · cases hnext

/-- The trail makes the same steps whether or not the memory is followed. -/
theorem execute_run {s u : SlotRun} {labels : List AuditLabel}
    (hrun : execute (slotStep localtime) s labels=some u) :
    execute (auditStep localtime) s.run labels=some u.run := by
  induction labels generalizing s with
  | nil =>
    cases hrun
    rfl
  | cons a labels ih =>
    obtain ⟨t,ht,hrest⟩ := execute_cons hrun
    obtain ⟨next,hnext,rfl⟩ := Option.map_eq_some_iff.mp ht
    rw [execute,hnext]
    exact ih hrest

/-- In every reachable state the slots written so far, read as C strings from the
offsets of their arrays, say what the accepted calls said in their order: the addresses,
session identifiers and user names up to 45, 63 and 127 bytes, with the substitutes for
null pointers, and the details up to 2047 bytes, whatever the slots held before. -/
theorem written_slots_say_their_events (logFile : Bytes) (labels : List AuditLabel) {s : SlotRun}
    (hrun : execute (slotStep localtime) (.initial logFile) labels=some s) :
    s.written.length ≤ s.run.accepted.length ∧
      s.written.map RecordSlot.view=(s.run.accepted.mapIdx acceptedEntry).take s.written.length := by
  have hs := execute_invariant (fun s a t hs ht => slotsHold_step localtime hs ht)
    (slotsHold_initial logFile) hrun
  have hconsistent := consistent_run localtime (execute_run localtime hrun)
  have hlength : s.written.length=s.run.handed.length := by rw [hs.written,List.length_map]
  have hcount := congrArg List.length hconsistent.stored
  rw [List.length_map,List.length_append,List.length_mapIdx] at hcount
  refine ⟨by omega,?_⟩
  have hview : s.written.map RecordSlot.view=s.run.handed.map AuditRecord.view := by
    rw [hs.written,List.map_map]
    exact List.map_congr_left (fun record _ => view_slotOf record)
  rw [hview,written_entries hconsistent,hlength]

/-- A run that writes two slots, the first with a user name and the second without. -/
theorem two_slots_say_their_events :
    ∃ s,execute (slotStep (fun _ => text "1970-01-01 00:00:00")) (.initial [])
        [.record 0 ⟨.authFailure,.medium,5,some (text "10.0.0.7"),2222,none,some (text "root"),[]⟩,
          .record 1 ⟨.command,.high,5,none,0,none,none,text "ls"⟩,.test,.batch (fun _ => none)]=some s ∧
      s.written.length=2 ∧
      s.written.map RecordSlot.view=(s.run.accepted.mapIdx acceptedEntry).take s.written.length :=
  ⟨_,rfl,rfl,(written_slots_say_their_events (fun _ => text "1970-01-01 00:00:00") []
    [.record 0 ⟨.authFailure,.medium,5,some (text "10.0.0.7"),2222,none,some (text "root"),[]⟩,
      .record 1 ⟨.command,.high,5,none,0,none,none,text "ls"⟩,.test,.batch (fun _ => none)] rfl).2⟩

end HoneyDew.AuditSlots
