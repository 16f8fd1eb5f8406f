import HoneyDew.AuditTrail
import HoneyDew.Connection
import Mathlib.Data.List.DropRight

/-!
# What a protocol handler does to the world

A handler receives the results of its receive calls one by one and answers
with sends, audit events and a final close. Each result is failure, the end of
the stream or bytes that fit the buffer offered. The operator's log lines are
left out except where a handler's purpose is to report there.
-/

namespace HoneyDew.Service

open CText AuditTrail Connection

/-- The result of one `recv` call. -/
inductive RecvResult
  /-- A negative return value. -/
  | failed
  /-- The bytes stored; none at the end of the stream. -/
  | data (bytes : Bytes)
  deriving DecidableEq,Repr

/-- The bytes of a `recv` call that offers `capacity` bytes, if it returns a
positive number. -/
def recv (capacity : ℕ) : RecvResult → Option Bytes
  | .failed => none
  | .data bytes => if bytes.take capacity=[] then none else some (bytes.take capacity)

/-- Bytes that fit the buffer are given as they are. -/
theorem recv_data {capacity : ℕ} {bytes : Bytes} (hne : bytes≠[])
    (hsize : bytes.length≤capacity) : recv capacity (.data bytes)=some bytes := by
  rw [recv,List.take_of_length_le hsize,if_neg hne]

/-- What a `recv` call gives is the front of the bytes that arrive. -/
theorem recv_eq_some {capacity : ℕ} {r : RecvResult} {line : Bytes}
    (h : recv capacity r=some line) : ∃ bytes,r=.data bytes ∧ bytes≠[] ∧ line=bytes.take capacity := by
  cases r with
  | failed => cases h
  | data bytes =>
    rw [recv] at h
    split at h
    · cases h
    · rename_i hne
      refine ⟨bytes,rfl,?_,(Option.some.inj h).symm⟩
      intro hnil
      exact hne (by rw [hnil,List.take_nil])

/-- The bytes of a `recv` call fit the buffer. -/
theorem length_le_of_recv {capacity : ℕ} {r : RecvResult} {line : Bytes}
    (h : recv capacity r=some line) : line.length≤capacity := by
  have hgiven := recv_eq_some h
  rcases hgiven with ⟨bytes,_,_,hline⟩
  rw [hline]
  exact List.length_take_le _ _

/-- A `recv` call returns a positive number exactly for bytes. -/
theorem recv_ne_none_iff {capacity : ℕ} (hpos : 0<capacity) (r : RecvResult) :
    recv capacity r≠none ↔ ∃ bytes,r=.data bytes ∧ bytes≠[] := by
  cases r with
  | failed =>
    constructor
    · intro h
      exact absurd rfl h
    · rintro ⟨bytes,h,_⟩
      cases h
  | data bytes =>
    have htake : bytes.take capacity=[] ↔ bytes=[] := by
      rw [List.take_eq_nil_iff]
      exact or_iff_right (by omega)
    rw [recv]
    by_cases hnil : bytes=[]
    · rw [if_pos (htake.mpr hnil)]
      constructor
      · intro h
        exact absurd rfl h
      · rintro ⟨bytes',h,hne⟩
        cases h
        exact absurd hnil hne
    · rw [if_neg (mt htake.mp hnil)]
      exact ⟨fun _ => ⟨bytes,rfl,hnil⟩,fun _ => Option.some_ne_none _⟩

/-- One line of a canned reply. -/
def replyLine (s : String) : Bytes := text s++crlf

/-- A C string without the line breaks at its end, as every `*_strip_crlf`
leaves it. -/
def stripCrlf (str : Bytes) : Bytes := (cstr str).rdropWhile (fun b => b=13 || b=10)

/-- Line breaks at the end are dropped with those in front of them. -/
theorem rdropWhile_append_breaks {line back : Bytes} (h : ∀ b∈back, b=13 ∨ b=10) :
    (line++back).rdropWhile (fun b => b=13 || b=10)=line.rdropWhile (fun b => b=13 || b=10) := by
  have hall : ∀ b∈back.reverse, (b=13 || b=10)=true := by
    intro b hb
    simpa using h b (List.mem_reverse.mp hb)
  rw [List.rdropWhile,List.rdropWhile,List.reverse_append,List.dropWhile_append_of_pos hall]

/-- Only the line breaks behind a line are stripped. -/
theorem stripCrlf_line {line back : Bytes} (hline : ∀ b∈line,b≠0 ∧ b≠13 ∧ b≠10)
    (hback : ∀ b∈back,b=13 ∨ b=10) : stripCrlf (line++back)=line := by
  have hnul : (0 : Byte)∉line++back := by
    intro hzero
    cases List.mem_append.mp hzero with
    | inl hmem => exact (hline 0 hmem).1 rfl
    | inr hmem => exact absurd (hback 0 hmem) (by decide)
  rw [stripCrlf,cstr_self hnul,rdropWhile_append_breaks hback,List.rdropWhile_eq_self_iff]
  intro hne hbreak
  have hlast := hline _ (List.getLast_mem hne)
  simp only [Bool.or_eq_true,decide_eq_true_eq] at hbreak
  cases hbreak with
  | inl hcr => exact hlast.2.1 hcr
  | inr hlf => exact hlast.2.2 hlf

/-- A line without line breaks is left as it is. -/
theorem stripCrlf_self {line : Bytes} (h : ∀ b∈line,b≠0 ∧ b≠13 ∧ b≠10) : stripCrlf line=line := by
  have hnone : ∀ b∈([] : Bytes),b=13 ∨ b=10 := fun b hb => absurd hb List.not_mem_nil
  have hline := stripCrlf_line h hnone
  rwa [List.append_nil] at hline

/-- `strncasecmp(line, name, strlen(name)) == 0` for a text `name`. -/
def startsNoCase (line : Bytes) (name : String) : Bool :=
  (line.take (text name).length).map toUpper=(text name).map toUpper

/-- A line that starts with a name starts with its first letter. -/
theorem first_of_startsNoCase {line : Bytes} {name : String} {c : Byte} {cs : Bytes}
    (hname : text name=c::cs) (h : startsNoCase line name=true) :
    ∃ b rest,line=b::rest ∧ toUpper b=toUpper c := by
  unfold startsNoCase at h
  rw [hname,decide_eq_true_eq] at h
  cases line with
  | nil => simp at h
  | cons b rest =>
    simp only [List.length_cons,List.take_succ_cons,List.map_cons,List.cons.injEq] at h
    exact ⟨b,rest,rfl,h.1⟩

/-- Names that start with different letters exclude each other. -/
theorem startsNoCase_excludes {line : Bytes} {name other : String} {c d : Byte} {cs ds : Bytes}
    (h : startsNoCase line name=true) (hname : text name=c::cs) (hother : text other=d::ds)
    (hne : toUpper c≠toUpper d) : startsNoCase line other=false := by
  by_contra hboth
  obtain ⟨b,rest,hline,hb⟩ := first_of_startsNoCase hname h
  obtain ⟨b',rest',hline',hb'⟩ := first_of_startsNoCase hother (Bool.eq_true_of_not_eq_false hboth)
  rw [hline] at hline'
  have hsame : b=b' := (List.cons.inj hline').1
  rw [hsame] at hb
  exact hne (hb.symm.trans hb')

/-- Whether a command line contains a text. -/
def mentions (cmd : Bytes) (needle : String) : Bool := (strstr cmd (text needle)).isSome

/-- A C string mentions the texts it contains. -/
theorem mentions_iff {cmd : Bytes} (hcmd : (0 : Byte)∉cmd) (needle : String) :
    mentions cmd needle=true ↔ text needle<:+:cmd := by
  rw [mentions,strstr,cstr_self hcmd]
  exact findSub_isSome_iff (text needle) cmd

/-- A chain of `strstr` tests: the answer of the first entry with a text that
the command line contains. -/
def cannedAnswer (table : List (List String×Bytes)) (cmd : Bytes) : Option Bytes :=
  (table.find? (fun entry => entry.1.any (mentions cmd))).map Prod.snd

/-- A chain gives no answer exactly to a command line without its texts. -/
theorem cannedAnswer_eq_none_iff {cmd : Bytes} (hcmd : (0 : Byte)∉cmd)
    (table : List (List String×Bytes)) :
    cannedAnswer table cmd=none ↔ ∀ needle∈table.flatMap Prod.fst,¬text needle<:+:cmd := by
  unfold cannedAnswer
  rw [Option.map_eq_none_iff,List.find?_eq_none]
  simp only [List.any_eq_true,List.mem_flatMap,mentions_iff hcmd,not_exists,not_and,
    forall_exists_index,and_imp]
  exact ⟨fun h needle entry hentry hneedle => h entry hentry needle hneedle,
    fun h entry hentry needle hneedle => h needle entry hentry hneedle⟩

/-- One visible act of a handler. -/
inductive Action
  /-- A call of one of the `audit_record_*` functions. -/
  | audit (e : AuditEvent)
  /-- Bytes handed to `send`. -/
  | send (bytes : Bytes)
  /-- A log line for the operator. -/
  | log (message : Bytes)
  /-- `close` of the client descriptor. -/
  | close
  deriving DecidableEq,Repr

/-- `utilities_log`: the message is formatted into a buffer of
`UTILITIES_LOG_BUFFER_SIZE` bytes. -/
def utilitiesLog (formatted : Bytes) : Action := .log (formatted.take 4095)

/-- What is logged fits that buffer in front of a NUL. -/
theorem length_utilitiesLog {formatted message : Bytes} (h : .log message=utilitiesLog formatted) :
    message.length≤4095 := by
  rw [Action.log.inj h]
  exact List.length_take_le _ _

/-- What a handler takes from its connection, and its session identifier. -/
structure Session where
  /-- The text of `remote_ip`. -/
  remoteIp : Bytes
  /-- The value of `remote_port`. -/
  remotePort : ℤ
  /-- What `audit_generate_session_id` has produced. -/
  sessionId : Bytes
  deriving DecidableEq,Repr

/-- The number of a protocol in `protocol_type`. -/
def protocolNumber : ProtocolType → ℤ
  | .unknown => 0
  | .http => 1
  | .https => 2
  | .ftp => 3
  | .ftps => 4
  | .ssh => 5
  | .telnet => 6
  | .smtp => 7
  | .pop3 => 8
  | .imap => 9
  | .dns => 10
  | .mysql => 11
  | .postgresql => 12
  | .redis => 13
  | .questdb => 14

namespace Session

/-- The peer as the log lines of the handlers name it at their end. -/
def origin (s : Session) : Bytes :=
  text " 来自 "++cstr s.remoteIp++text ":"++decimalInt s.remotePort

/-- Record the connection event of a session. -/
def recordConnection (s : Session) (proto : ProtocolType) : Action :=
  .audit (auditRecordConnection (protocolNumber proto) s.remoteIp s.remotePort s.sessionId)

/-- Record an authentication attempt of a session. -/
def recordAuth (s : Session) (proto : ProtocolType) (username : Bytes) (password : Option Bytes)
    (success : Bool) : Action :=
  .audit (auditRecordAuth (protocolNumber proto) s.remoteIp s.remotePort s.sessionId username
    password success)

/-- Record a command of a session. -/
def recordCommand (s : Session) (proto : ProtocolType) (command : Bytes) : Action :=
  .audit (auditRecordCommand (protocolNumber proto) s.remoteIp s.remotePort s.sessionId command)

/-- Record an event with a detail text, as the handlers do for single finds. -/
def recordEvent (s : Session) (eventType : AuditEventType) (severity : AuditSeverity)
    (proto : ProtocolType) (username details : Bytes) : Action :=
  .audit ⟨eventType,severity,protocolNumber proto,some s.remoteIp,s.remotePort,some s.sessionId,
    some username,details⟩

/-- Record the end of a session. -/
def recordDisconnect (s : Session) (proto : ProtocolType) : Action :=
  .audit (auditRecordDisconnect (protocolNumber proto) s.remoteIp s.remotePort s.sessionId)

end Session

/-- The audit events among the acts of a handler, in order. -/
def audits (actions : List Action) : List AuditEvent :=
  actions.filterMap (fun | .audit e => some e | _ => none)

/-- The bytes a handler sends, all sends one after the other. -/
def sent (actions : List Action) : Bytes :=
  actions.flatMap (fun | .send bytes => bytes | _ => [])

/-- The byte strings handed to `send`. -/
def sends (actions : List Action) : List Bytes :=
  actions.filterMap (fun | .send bytes => some bytes | _ => none)

@[simp] theorem audits_nil : audits []=[] := rfl

@[simp] theorem audits_audit (e : AuditEvent) (actions : List Action) :
    audits (.audit e::actions)=e::audits actions := rfl

@[simp] theorem audits_send (bytes : Bytes) (actions : List Action) :
    audits (.send bytes::actions)=audits actions := rfl

@[simp] theorem audits_utilitiesLog (formatted : Bytes) (actions : List Action) :
    audits (utilitiesLog formatted::actions)=audits actions := rfl

@[simp] theorem audits_close (actions : List Action) : audits (.close::actions)=audits actions := rfl

@[simp] theorem audits_append (xs ys : List Action) : audits (xs++ys)=audits xs++audits ys :=
  List.filterMap_append

@[simp] theorem sent_nil : sent []=[] := rfl

@[simp] theorem sent_audit (e : AuditEvent) (actions : List Action) :
    sent (.audit e::actions)=sent actions := rfl

@[simp] theorem sent_send (bytes : Bytes) (actions : List Action) :
    sent (.send bytes::actions)=bytes++sent actions := rfl

@[simp] theorem sent_utilitiesLog (formatted : Bytes) (actions : List Action) :
    sent (utilitiesLog formatted::actions)=sent actions := rfl

@[simp] theorem sent_close (actions : List Action) : sent (.close::actions)=sent actions := rfl

@[simp] theorem sent_append (xs ys : List Action) : sent (xs++ys)=sent xs++sent ys :=
  List.flatMap_append

/-- The sends of acts one after the other. -/
@[simp] theorem sends_append (xs ys : List Action) : sends (xs++ys)=sends xs++sends ys :=
  List.filterMap_append

/-- The bytes sent are the sends one after the other. -/
theorem sent_eq_flatten (actions : List Action) : sent actions=(sends actions).flatten := by
  induction actions with
  | nil => rfl
  | cons a actions ih =>
    cases a with
    | send bytes => exact congrArg (bytes++·) ih
    | audit e => exact ih
    | log message => exact ih
    | close => exact ih

end HoneyDew.Service
