import HoneyDew.CMemory
import HoneyDew.RingQueue
import HoneyDew.StepSystem
import Mathlib.Data.List.Range

/-!
# The audit trail

Recording threads put records into a ring buffer under the mutex, one flush
thread takes them out and writes them to the log file, and shutdown clears the
running flag and lets the flush thread drain the ring once more. Sizes and
sequence numbers are 64-bit unsigned words.
-/

namespace HoneyDew.AuditTrail

open CText CMemory RingQueue StepSystem

/-- The modulus of `size_t` and `uint64_t` arithmetic. -/
abbrev wordModulus : ℕ := 2^64

/-- `audit_event_type`. -/
inductive AuditEventType
  | connection
  | disconnection
  | authAttempt
  | authSuccess
  | authFailure
  | command
  | fileAccess
  | fileModify
  | dataExfil
  | scanProbe
  | exploitAttempt
  | protocolError
  deriving DecidableEq,Repr

/-- `audit_severity`. -/
inductive AuditSeverity
  | low
  | medium
  | high
  | critical
  deriving DecidableEq,Repr

/-- `audit_event_type_str`. -/
def auditEventTypeStr : AuditEventType → Bytes
  | .connection => text "连接建立"
  | .disconnection => text "连接断开"
  | .authAttempt => text "认证尝试"
  | .authSuccess => text "认证成功"
  | .authFailure => text "认证失败"
  | .command => text "命令执行"
  | .fileAccess => text "文件访问"
  | .fileModify => text "文件修改"
  | .dataExfil => text "数据外泄"
  | .scanProbe => text "扫描探测"
  | .exploitAttempt => text "漏洞利用"
  | .protocolError => text "协议错误"

/-- `audit_severity_str`. -/
def auditSeverityStr : AuditSeverity → Bytes
  | .low => text "低"
  | .medium => text "中"
  | .high => text "高"
  | .critical => text "严重"

/-- `protocol_name`. -/
def protocolName : ℤ → Bytes
  | 1 => text "HTTP"
  | 2 => text "HTTPS"
  | 3 => text "FTP"
  | 4 => text "FTPS"
  | 5 => text "SSH"
  | 6 => text "TELNET"
  | 7 => text "SMTP"
  | 8 => text "POP3"
  | 9 => text "IMAP"
  | 10 => text "DNS"
  | 11 => text "MYSQL"
  | 12 => text "POSTGRESQL"
  | 13 => text "REDIS"
  | 14 => text "QUESTDB"
  | _ => text "UNKNOWN"

/-- The arguments of `audit_record_event`: strings as the memory they point
to, `none` for a null pointer, and the formatted detail text. -/
structure AuditEvent where
  /-- The argument `type`. -/
  eventType : AuditEventType
  /-- The argument `severity`. -/
  severity : AuditSeverity
  /-- The argument `protocol`. -/
  protocol : ℤ
  /-- The argument `source_ip`. -/
  sourceIp : Option Bytes
  /-- The argument `source_port`. -/
  sourcePort : ℤ
  /-- The argument `session_id`. -/
  sessionId : Option Bytes
  /-- The argument `username`. -/
  username : Option Bytes
  /-- What `details_fmt` and its arguments format to. -/
  details : Bytes
  deriving DecidableEq,Repr

/-- `audit_record_connection`. -/
def auditRecordConnection (proto : ℤ) (ip : Bytes) (port : ℤ) (sessionId : Bytes) : AuditEvent :=
  ⟨.connection,.low,proto,some ip,port,some sessionId,none,text "新连接建立"⟩

/-- `audit_record_auth`. -/
def auditRecordAuth (proto : ℤ) (ip : Bytes) (port : ℤ) (sessionId username : Bytes)
    (password : Option Bytes) (success : Bool) : AuditEvent :=
  ⟨if success then .authSuccess else .authFailure,if success then .high else .medium,proto,some ip,
    port,some sessionId,some username,
    text "密码="++[34]++cstr (password.getD (text "(空)"))++[34]⟩

/-- `audit_record_command`. -/
def auditRecordCommand (proto : ℤ) (ip : Bytes) (port : ℤ) (sessionId command : Bytes) :
    AuditEvent :=
  ⟨.command,.high,proto,some ip,port,some sessionId,none,text "命令="++[34]++cstr command++[34]⟩

/-- `audit_record_disconnect`. -/
def auditRecordDisconnect (proto : ℤ) (ip : Bytes) (port : ℤ) (sessionId : Bytes) : AuditEvent :=
  ⟨.disconnection,.low,proto,some ip,port,some sessionId,none,text "连接断开"⟩

/-- `audit_record_t`. -/
structure AuditRecord where
  /-- The time of recording. -/
  timestamp : ℤ
  /-- The position among the accepted events. -/
  sequenceNumber : ℕ
  /-- The event type. -/
  eventType : AuditEventType
  /-- The severity. -/
  severity : AuditSeverity
  /-- The protocol number. -/
  protocol : ℤ
  /-- The port of the peer. -/
  sourcePort : ℤ
  /-- `char source_ip[AUDIT_MAX_IP_LEN]`. -/
  sourceIp : CharArray 45
  /-- `char session_id[AUDIT_MAX_SESSION_ID_LEN]`. -/
  sessionId : CharArray 63
  /-- `char username[AUDIT_MAX_USER_LEN]`. -/
  username : CharArray 127
  /-- `char details[AUDIT_MAX_DETAIL_LEN]`. -/
  details : CharArray 2047
  deriving DecidableEq,Repr

/-- A zeroed record, as `calloc` leaves every slot. -/
def AuditRecord.zeroed : AuditRecord :=
  ⟨0,0,.connection,.low,0,0,.zeroed 45,.zeroed 63,.zeroed 127,.zeroed 2047⟩

/-- The fields of `audit_trail_t` that the operations read. -/
structure AuditTrailT where
  /-- The ring buffer. -/
  ringBuffer : ℕ → AuditRecord
  /-- Number of slots. -/
  capacity : ℕ
  /-- The slot of the next record. -/
  head : ℕ
  /-- Number of records not yet written. -/
  count : ℕ
  /-- The next sequence number. -/
  nextSequence : ℕ
  /-- The text of the open log file; nothing when no file is open. -/
  currentLogFile : Option Bytes
  /-- Cleared by shutdown. -/
  running : Bool
  /-- Number of records accepted. -/
  totalRecords : ℕ
  /-- Number of events dropped. -/
  droppedRecords : ℕ

/-- `audit_init` when every call in it succeeds: the ring is empty and the log
file is open, with what it held before. -/
def auditInit (logFile : Bytes) : AuditTrailT :=
  ⟨fun _ => .zeroed,4096,0,0,1,some logFile,true,0,0⟩

/-- The assignments of `audit_record_event` to the slot it fills. -/
def fillRecord (record : AuditRecord) (now : ℤ) (sequence : ℕ) (e : AuditEvent) : AuditRecord where
  timestamp := now
  sequenceNumber := sequence
  eventType := e.eventType
  severity := e.severity
  protocol := e.protocol
  sourcePort := e.sourcePort
  sourceIp := record.sourceIp.strncpyInto (e.sourceIp.getD (text "unknown"))
  sessionId := record.sessionId.strncpyInto (e.sessionId.getD (text "-"))
  username := record.username.strncpyInto (e.username.getD [])
  details := record.details.snprintfInto (cstr e.details)

/-- The part of `audit_record_event` behind the capacity test. -/
def storeRecord (trail : AuditTrailT) (now : ℤ) (e : AuditEvent) : AuditTrailT :=
  {trail with
    ringBuffer := Function.update trail.ringBuffer trail.head
      (fillRecord (trail.ringBuffer trail.head) now trail.nextSequence e)
    nextSequence := (trail.nextSequence+1)%wordModulus
    head := (trail.head+1)%trail.capacity
    count := trail.count+1
    totalRecords := (trail.totalRecords+1)%wordModulus}

/-- `audit_record_event` at a time of day. The flag tells whether the event
was stored or the call returned early. -/
def auditRecordEvent (trail : AuditTrailT) (now : ℤ) (e : AuditEvent) : AuditTrailT×Bool :=
  if trail.capacity ≤ trail.count then
    ({trail with droppedRecords := (trail.droppedRecords+1)%wordModulus},false)
  else (storeRecord trail now e,true)

/-- The line that `write_record` formats for a record, without its line feed;
`localtime` is the text that `localtime_r` and `strftime` make of a time. -/
def recordLine (localtime : ℤ → Bytes) (record : AuditRecord) : Bytes :=
  text "["++localtime record.timestamp++text "] SEQ="++decimal record.sequenceNumber++
    text " 严重性="++auditSeverityStr record.severity++text " 协议="++
    protocolName record.protocol++text " 事件="++auditEventTypeStr record.eventType++
    text " 来源="++record.sourceIp.cstring++text ":"++decimalInt record.sourcePort++
    text " 会话="++record.sessionId.cstring++text " 用户="++
    (if record.username.cstring=[] then text "-" else record.username.cstring)++
    text " 详情="++record.details.cstring

/-- What `write_record` prints for a record. -/
def renderRecord (localtime : ℤ → Bytes) (record : AuditRecord) : Bytes :=
  recordLine localtime record++[10]

/-- `write_record` on the open log file. Without one, `reopened` is the file
that `rotate_log_file` opens, if it succeeds. -/
def writeRecord (localtime : ℤ → Bytes) (reopened : Option Bytes) (logFile : Option Bytes)
    (record : AuditRecord) : Option Bytes :=
  (logFile.or reopened).map (fun file => file++renderRecord localtime record)

/-- The draining loop of the flush thread: while the ring holds records, write
the oldest one and lower the count. Also returns the records handed to
`write_record`; `reopened` answers the reopening attempts by remaining count. -/
def drainRing (localtime : ℤ → Bytes) (reopened : ℕ → Option Bytes) (trail : AuditTrailT) :
    ℕ → Option Bytes → Option Bytes×List AuditRecord
  | 0,file => (file,[])
  | count+1,file =>
    let record := trail.ringBuffer (slotIndex wordModulus trail.capacity trail.head (count+1))
    let rest := drainRing localtime reopened trail count
      (writeRecord localtime (reopened count) file record)
    (rest.1,record::rest.2)

/-- One locked pass of the flush thread over the whole ring. -/
def flushBatch (localtime : ℤ → Bytes) (reopened : ℕ → Option Bytes) (trail : AuditTrailT) :
    AuditTrailT×List AuditRecord :=
  let drained := drainRing localtime reopened trail trail.count trail.currentLogFile
  ({trail with count := 0,currentLogFile := drained.1},drained.2)

/-- Where the flush thread stands. -/
inductive FlushPhase
  /-- About to test the running flag of the outer loop. -/
  | testing
  /-- In the loop body: waits for a record or for shutdown, then drains. -/
  | waiting
  /-- Left the loop; the final drain is next. -/
  | leaving
  /-- The thread function has returned. -/
  | finished
  deriving DecidableEq,Repr

/-- The trail, the flush thread and the history of the run. -/
structure AuditRun where
  /-- The shared trail. -/
  trail : AuditTrailT
  /-- The flush thread. -/
  flush : FlushPhase
  /-- Records handed to `write_record`, in order. -/
  handed : List AuditRecord
  /-- Events stored, each with its time, in the order of the calls. -/
  accepted : List (ℤ×AuditEvent)
  /-- Events whose call returned early, in order. -/
  rejected : List (ℤ×AuditEvent)

/-- The state after `audit_init`. -/
def AuditRun.initial (logFile : Bytes) : AuditRun := ⟨auditInit logFile,.testing,[],[],[]⟩

/-- One atomic step of the recording threads, the flush thread or shutdown. -/
inductive AuditLabel
  /-- Some thread calls `audit_record_event`. -/
  | record (now : ℤ) (e : AuditEvent)
  /-- The flush thread tests the running flag. -/
  | test
  /-- The flush thread drains the ring in its loop. -/
  | batch (reopened : ℕ → Option Bytes)
  /-- `audit_shutdown` clears the running flag. -/
  | shutdown
  /-- The flush thread drains the ring after its loop. -/
  | finalDrain (reopened : ℕ → Option Bytes)

/-- The label is a call of `audit_record_event`. -/
def AuditLabel.isRecord : AuditLabel → Bool
  | .record _ _ => true
  | _ => false

variable (localtime : ℤ → Bytes)

/-- One step. The batch is enabled once the wait for a record or for shutdown
is over. -/
def auditStep (s : AuditRun) : AuditLabel → Option AuditRun
  | .record now e =>
    let result := auditRecordEvent s.trail now e
    if result.2 then some {s with trail := result.1,accepted := s.accepted++[(now,e)]}
    else some {s with trail := result.1,rejected := s.rejected++[(now,e)]}
  | .test =>
    if s.flush=.testing then
      some {s with flush := if s.trail.running then .waiting else .leaving}
    else none
  | .batch reopened =>
    if s.flush=.waiting ∧ (0<s.trail.count ∨ s.trail.running=false) then
      let result := flushBatch localtime reopened s.trail
      some {s with trail := result.1,flush := .testing,handed := s.handed++result.2}
    else none
  | .shutdown => some {s with trail := {s.trail with running := false}}
  | .finalDrain reopened =>
    if s.flush=.leaving then
      let result := flushBatch localtime reopened s.trail
      some {s with trail := result.1,flush := .finished,handed := s.handed++result.2}
    else none

/-- What a record says: its fields with the arrays read as strings. -/
structure AuditEntry where
  /-- The time of recording. -/
  timestamp : ℤ
  /-- The sequence number. -/
  sequenceNumber : ℕ
  /-- The event type. -/
  eventType : AuditEventType
  /-- The severity. -/
  severity : AuditSeverity
  /-- The protocol number. -/
  protocol : ℤ
  /-- The port of the peer. -/
  sourcePort : ℤ
  /-- The address text. -/
  sourceIp : Bytes
  /-- The session identifier. -/
  sessionId : Bytes
  /-- The user name. -/
  username : Bytes
  /-- The detail text. -/
  details : Bytes
  deriving DecidableEq,Repr

/-- The entry that a record holds. -/
def AuditRecord.view (record : AuditRecord) : AuditEntry :=
  ⟨record.timestamp,record.sequenceNumber,record.eventType,record.severity,record.protocol,
    record.sourcePort,record.sourceIp.cstring,record.sessionId.cstring,record.username.cstring,
    record.details.cstring⟩

/-- The entry an event should leave: its arguments cut to the field sizes,
with the substitutes for null pointers. -/
def AuditEvent.entry (e : AuditEvent) (now : ℤ) (sequence : ℕ) : AuditEntry :=
  ⟨now,sequence,e.eventType,e.severity,e.protocol,e.sourcePort,
    (cstr (e.sourceIp.getD (text "unknown"))).take 45,(cstr (e.sessionId.getD (text "-"))).take 63,
    (cstr (e.username.getD [])).take 127,(cstr e.details).take 2047⟩

/-- The entry of the accepted event at a position of the history. -/
def acceptedEntry (i : ℕ) (a : ℤ×AuditEvent) : AuditEntry := a.2.entry a.1 ((i+1)%wordModulus)

/-- The records in the ring from the oldest to the newest. -/
def pending (trail : AuditTrailT) : List AuditRecord :=
  contents wordModulus trail.capacity trail.ringBuffer trail.head trail.count

/-- A filled slot holds the entry of its event, whatever it held before. -/
theorem view_fillRecord (record : AuditRecord) (now : ℤ) (sequence : ℕ) (e : AuditEvent) :
    (fillRecord record now sequence e).view=e.entry now sequence := by
  have hdetails := CharArray.cstring_snprintfInto record.details (zero_not_mem_cstr e.details)
  unfold AuditRecord.view AuditEvent.entry fillRecord
  dsimp only
  rw [CharArray.cstring_strncpyInto,CharArray.cstring_strncpyInto,CharArray.cstring_strncpyInto,
    hdetails]

/-- The draining loop hands out the ring from the oldest record on and appends
their lines to the open log file. -/
theorem drainRing_eq (reopened : ℕ → Option Bytes) (trail : AuditTrailT) (count : ℕ)
    (file : Bytes) :
    drainRing localtime reopened trail count (some file)=
      (some (file++(contents wordModulus trail.capacity trail.ringBuffer trail.head count).flatMap
          (renderRecord localtime)),
        contents wordModulus trail.capacity trail.ringBuffer trail.head count) := by
  induction count generalizing file with
  | zero => simp only [drainRing,contents,List.flatMap_nil,List.append_nil]
  | succ count ih =>
    rw [drainRing]
    simp only [writeRecord,Option.some_or,Option.map_some,ih,contents,List.flatMap_cons,
      List.append_assoc]

/-- What holds in every reachable state, with the calls made so far. -/
structure Consistent (logFile : Bytes) (past : List AuditLabel) (s : AuditRun) : Prop where
  /-- The capacity is never assigned after initialization. -/
  capacity : s.trail.capacity=4096
  /-- The write position is a slot. -/
  head_lt : s.trail.head<4096
  /-- The ring never overflows. -/
  count_le : s.trail.count ≤ 4096
  /-- Written and waiting records are the accepted events in order. -/
  stored : (s.handed++pending s.trail).map AuditRecord.view=s.accepted.mapIdx acceptedEntry
  /-- The next sequence number follows the accepted events. -/
  sequence : s.trail.nextSequence=(s.accepted.length+1)%wordModulus
  /-- The record counter counts the accepted events. -/
  total : s.trail.totalRecords=s.accepted.length%wordModulus
  /-- The drop counter counts the rejected events. -/
  dropped : s.trail.droppedRecords=s.rejected.length%wordModulus
  /-- Every call was accepted or rejected. -/
  calls : past.countP AuditLabel.isRecord=s.accepted.length+s.rejected.length
  /-- The log file holds the lines of the written records. -/
  logged : s.trail.currentLogFile=some (logFile++s.handed.flatMap (renderRecord localtime))

/-- The invariant holds after `audit_init`. -/
theorem consistent_initial (logFile : Bytes) : Consistent localtime logFile [] (.initial logFile) where
  capacity := rfl
  head_lt := Nat.zero_lt_succ 4095
  count_le := Nat.zero_le 4096
  stored := rfl
  sequence := rfl
  total := rfl
  dropped := rfl
  calls := rfl
  logged := by rw [AuditRun.initial,auditInit,List.flatMap_nil,List.append_nil]

/-- An event is stored exactly when the ring has a free slot. -/
theorem auditRecordEvent_accepts (trail : AuditTrailT) (now : ℤ) (e : AuditEvent) :
    (auditRecordEvent trail now e).2=true ↔ trail.count<trail.capacity := by
  unfold auditRecordEvent
  split
  · dsimp only
    constructor <;> intro h
    · exact absurd h Bool.false_ne_true
    · omega
  · dsimp only
    constructor <;> intro h
    · omega
    · rfl

/-- Storing a record in a ring with a free slot appends it to the queue. -/
theorem pending_storeRecord {trail : AuditTrailT} (hcapacity : trail.capacity=4096)
    (hhead : trail.head<4096) (hroom : trail.count<4096) (now : ℤ) (e : AuditEvent) :
    pending (storeRecord trail now e)=
      pending trail++[fillRecord (trail.ringBuffer trail.head) now trail.nextSequence e] := by
  unfold pending storeRecord
  dsimp only
  rw [hcapacity]
  exact contents_push (by decide) (by decide) hhead trail.ringBuffer _ hroom

/-- A rejected event changes the drop counter only. -/
theorem consistent_reject {logFile : Bytes} {past : List AuditLabel} {s : AuditRun}
    (hs : Consistent localtime logFile past s) (now : ℤ) (e : AuditEvent) :
    Consistent localtime logFile (past++[.record now e])
      {s with
        trail := {s.trail with droppedRecords := (s.trail.droppedRecords+1)%wordModulus}
        rejected := s.rejected++[(now,e)]} where
  capacity := hs.capacity
  head_lt := hs.head_lt
  count_le := hs.count_le
  stored := hs.stored
  sequence := hs.sequence
  total := hs.total
  dropped := by
    dsimp only
    rw [hs.dropped,List.length_append,List.length_singleton,Nat.mod_add_mod]
  calls := by
    rw [List.countP_append,hs.calls,List.length_append,List.length_singleton,←Nat.add_assoc]
    rfl
  logged := hs.logged

/-- An accepted event is the next entry of the history. -/
theorem consistent_accept {logFile : Bytes} {past : List AuditLabel} {s : AuditRun}
    (hs : Consistent localtime logFile past s) (hroom : s.trail.count<4096) (now : ℤ)
    (e : AuditEvent) :
    Consistent localtime logFile (past++[.record now e])
      {s with trail := storeRecord s.trail now e,accepted := s.accepted++[(now,e)]} where
  capacity := hs.capacity
  head_lt := by
    have hcapacity := hs.capacity
    have hlt : (s.trail.head+1)%s.trail.capacity<s.trail.capacity := Nat.mod_lt _ (by omega)
    change (s.trail.head+1)%s.trail.capacity<4096
    omega
  count_le := hroom
  stored := by
    have hpending := pending_storeRecord hs.capacity hs.head_lt hroom now e
    have hview := view_fillRecord (s.trail.ringBuffer s.trail.head) now s.trail.nextSequence e
    dsimp only
    rw [hpending,←List.append_assoc,List.map_append,hs.stored,List.map_singleton,hview,
      List.mapIdx_concat,hs.sequence]
    rfl
  sequence := by
    change (s.trail.nextSequence+1)%wordModulus=_
    rw [hs.sequence,List.length_append,List.length_singleton,Nat.mod_add_mod]
  total := by
    change (s.trail.totalRecords+1)%wordModulus=_
    rw [hs.total,List.length_append,List.length_singleton,Nat.mod_add_mod]
  dropped := hs.dropped
  calls := by
    rw [List.countP_append,hs.calls,List.length_append,List.length_singleton,Nat.add_right_comm]
    rfl
  logged := hs.logged

/-- A drain moves every waiting record to the written ones. -/
theorem consistent_drain {logFile : Bytes} {past : List AuditLabel} {s : AuditRun}
    (hs : Consistent localtime logFile past s) (reopened : ℕ → Option Bytes) (a : AuditLabel)
    (ha : a.isRecord=false) (flush : FlushPhase) :
    Consistent localtime logFile (past++[a])
      {s with
        trail := (flushBatch localtime reopened s.trail).1
        flush := flush
        handed := s.handed++(flushBatch localtime reopened s.trail).2} where
  capacity := hs.capacity
  head_lt := hs.head_lt
  count_le := Nat.zero_le 4096
  stored := by
    have hdrain := drainRing_eq localtime reopened s.trail s.trail.count
      (logFile++s.handed.flatMap (renderRecord localtime))
    have hstored := hs.stored
    unfold flushBatch
    dsimp only
    rw [hs.logged,hdrain]
    dsimp only [pending,contents]
    rw [List.append_nil]
    exact hstored
  sequence := hs.sequence
  total := hs.total
  dropped := hs.dropped
  calls := by
    rw [List.countP_append,hs.calls,List.countP_singleton,ha]
    rfl
  logged := by
    have hdrain := drainRing_eq localtime reopened s.trail s.trail.count
      (logFile++s.handed.flatMap (renderRecord localtime))
    unfold flushBatch
    dsimp only
    rw [hs.logged,hdrain]
    dsimp only
    rw [List.flatMap_append,List.append_assoc]

/-- Steps that touch neither the ring nor the counters keep the invariant. -/
theorem consistent_frame {logFile : Bytes} {past : List AuditLabel} {s : AuditRun}
    (hs : Consistent localtime logFile past s) (a : AuditLabel) (ha : a.isRecord=false)
    (running : Bool) (flush : FlushPhase) :
    Consistent localtime logFile (past++[a])
      {s with trail := {s.trail with running := running},flush := flush} where
  capacity := hs.capacity
  head_lt := hs.head_lt
  count_le := hs.count_le
  stored := hs.stored
  sequence := hs.sequence
  total := hs.total
  dropped := hs.dropped
  calls := by
    rw [List.countP_append,hs.calls,List.countP_singleton,ha]
    rfl
  logged := hs.logged

/-- Every step keeps the invariant. -/
theorem consistent_step {logFile : Bytes} {past : List AuditLabel} {s t : AuditRun}
    {a : AuditLabel} (hs : Consistent localtime logFile past s)
    (h : auditStep localtime s a=some t) : Consistent localtime logFile (past++[a]) t := by
  have hcapacity := hs.capacity
  cases a with
  | record now e =>
    rw [auditStep,auditRecordEvent] at h
    by_cases hfull : s.trail.capacity ≤ s.trail.count
    · rw [if_pos hfull] at h
      cases h
      exact consistent_reject localtime hs now e
    · rw [if_neg hfull] at h
      cases h
      exact consistent_accept localtime hs (by omega) now e
  | test =>
    rw [auditStep] at h
    split at h
    · cases h
      exact consistent_frame localtime hs .test rfl s.trail.running _
    · cases h
  | batch reopened =>
    rw [auditStep] at h
    split at h
    · cases h
      exact consistent_drain localtime hs reopened (.batch reopened) rfl .testing
    · cases h
  | shutdown =>
    cases h
    exact consistent_frame localtime hs .shutdown rfl false s.flush
  | finalDrain reopened =>
    rw [auditStep] at h
    split at h
    · cases h
      exact consistent_drain localtime hs reopened (.finalDrain reopened) rfl .finished
    · cases h

/-- The invariant holds in every reachable state. -/
theorem consistent_run {logFile : Bytes} {labels : List AuditLabel} {s : AuditRun}
    (hrun : execute (auditStep localtime) (.initial logFile) labels=some s) :
    Consistent localtime logFile labels s := by
  have h := execute_trace_invariant (fun past s a t hs ht => consistent_step localtime hs ht)
    (consistent_initial localtime logFile) hrun
  rwa [List.nil_append] at h

/-- A history entry carries its position as its sequence number. -/
theorem sequence_acceptedEntry {accepted : List (ℤ×AuditEvent)} (h : accepted.length<wordModulus) :
    (accepted.mapIdx acceptedEntry).map AuditEntry.sequenceNumber=List.range' 1 accepted.length := by
  refine List.ext_getElem ?_ ?_
  · rw [List.length_map,List.length_mapIdx,List.length_range']
  · intro i hi hr
    rw [List.length_range'] at hr
    rw [List.getElem_map,List.getElem_mapIdx,List.getElem_range',Nat.one_mul]
    change (i+1)%wordModulus=1+i
    rw [Nat.mod_eq_of_lt (by omega),Nat.add_comm]

/-- In every state of every run with fewer than `2^64` calls the records
written so far followed by those in the ring are the accepted events in order
with the sequence numbers from 1 on, the next event is dropped exactly when the
ring is full, and the counters add up. -/
theorem ring_keeps_accepted_events (logFile : Bytes) (labels : List AuditLabel) {s : AuditRun}
    (hrun : execute (auditStep localtime) (.initial logFile) labels=some s)
    (hcalls : labels.countP AuditLabel.isRecord<2^64) :
    (s.handed++pending s.trail).map AuditRecord.view=
        s.accepted.mapIdx (fun i a => a.2.entry a.1 (i+1)) ∧
      (s.handed++pending s.trail).map AuditRecord.sequenceNumber=
        List.range' 1 s.accepted.length ∧
      (∀ now e,(auditRecordEvent s.trail now e).1.droppedRecords≠s.trail.droppedRecords ↔
        s.trail.count=s.trail.capacity) ∧
      s.trail.count ≤ s.trail.capacity ∧ s.trail.head<s.trail.capacity ∧
      labels.countP AuditLabel.isRecord=s.trail.totalRecords+s.trail.droppedRecords ∧
      s.trail.totalRecords=s.handed.length+s.trail.count := by
  have hs := consistent_run localtime hrun
  have hcapacity := hs.capacity
  have hhead := hs.head_lt
  have hcount := hs.count_le
  have hsum := hs.calls
  have hword : wordModulus=2^64 := rfl
  have htotal : s.trail.totalRecords=s.accepted.length := by
    rw [hs.total,Nat.mod_eq_of_lt (by omega)]
  have hdropped : s.trail.droppedRecords=s.rejected.length := by
    rw [hs.dropped,Nat.mod_eq_of_lt (by omega)]
  have hlengths := congrArg List.length hs.stored
  rw [List.length_map,List.length_append,List.length_mapIdx,pending,length_contents] at hlengths
  have hsequence := sequence_acceptedEntry (by omega : s.accepted.length<wordModulus)
  refine ⟨?_,?_,?_,by omega,by omega,by omega,by omega⟩
  · rw [hs.stored]
    refine List.mapIdx_eq_mapIdx_iff.mpr ?_
    intro i hi
    rw [acceptedEntry,Nat.mod_eq_of_lt (by omega)]
  · rw [←hsequence,←hs.stored,List.map_map]
    rfl
  · intro now e
    unfold auditRecordEvent
    split
    · dsimp only
      constructor
      · intro _
        omega
      · intro _
        rw [hword]
        omega
    · dsimp only [storeRecord]
      constructor
      · intro h
        exact absurd rfl h
      · intro h
        omega

/-- A run that records twice around a drain. -/
theorem ring_keeps_two_events :
    ∃ s,execute (auditStep (fun _ => text "1970-01-01 00:00:00")) (.initial [])
        [.record 0 ⟨.connection,.low,13,none,6379,none,none,text "PING"⟩,.test,.batch (fun _ => none),
          .record 0 ⟨.disconnection,.low,13,none,6379,none,none,text "QUIT"⟩]=some s ∧
      s.trail.totalRecords=s.handed.length+s.trail.count ∧ s.handed.length=1 :=
  ⟨_,rfl,(ring_keeps_accepted_events (fun _ => text "1970-01-01 00:00:00") []
    [.record 0 ⟨.connection,.low,13,none,6379,none,none,text "PING"⟩,.test,.batch (fun _ => none),
      .record 0 ⟨.disconnection,.low,13,none,6379,none,none,text "QUIT"⟩]
    rfl (by decide)).2.2.2.2.2.2,rfl⟩

end HoneyDew.AuditTrail
