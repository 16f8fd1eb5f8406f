import HoneyDew.AuditTrail
import HoneyDew.TextLines

/-!
# The lines of the audit log

Every written record is one rendered text with a line feed at its end. The
file has these texts as its lines exactly when none of the four strings of a
written record brings a line feed of its own.
-/

namespace HoneyDew.AuditLog

open CText CMemory StepSystem AuditTrail TextLines

/-- No line feed stands in the part of the strings that a record keeps. -/
def NewlineFree (e : AuditEvent) : Prop :=
  (10 : Byte)∉(cstr (e.sourceIp.getD (text "unknown"))).take 45 ∧
  (10 : Byte)∉(cstr (e.sessionId.getD (text "-"))).take 63 ∧
  (10 : Byte)∉(cstr (e.username.getD [])).take 127 ∧
  (10 : Byte)∉(cstr e.details).take 2047

instance (e : AuditEvent) : Decidable (NewlineFree e) := by
  unfold NewlineFree
  infer_instance

/-- No line feed stands in the strings of an entry. -/
def EntryNewlineFree (v : AuditEntry) : Prop :=
  (10 : Byte)∉v.sourceIp ∧ (10 : Byte)∉v.sessionId ∧ (10 : Byte)∉v.username ∧ (10 : Byte)∉v.details

/-- Decimal numbers contain no line feed. -/
theorem newline_not_mem_decimal (n : ℕ) : (10 : Byte)∉decimal n :=
  fun h => absurd (isDigit_of_mem_decimal h) (by decide)

/-- Signed decimal numbers contain no line feed. -/
theorem newline_not_mem_decimalInt (z : ℤ) : (10 : Byte)∉decimalInt z := by
  have hn := newline_not_mem_decimal z.natAbs
  unfold decimalInt
  split
  · rw [List.mem_cons,not_or]
    exact ⟨by decide,hn⟩
  · exact hn

/-- The severity texts contain no line feed. -/
theorem newline_not_mem_severity (s : AuditSeverity) : (10 : Byte)∉auditSeverityStr s := by
  cases s <;> decide

/-- The event type texts contain no line feed. -/
theorem newline_not_mem_eventType (t : AuditEventType) : (10 : Byte)∉auditEventTypeStr t := by
  cases t <;> decide

/-- The protocol names contain no line feed. -/
theorem newline_not_mem_protocolName (proto : ℤ) : (10 : Byte)∉protocolName proto := by
  unfold protocolName
  split <;> decide

/-- A rendered record contains a line feed exactly when one of its strings does. -/
theorem newline_mem_recordLine {localtime : ℤ → Bytes} (htime : ∀ t,(10 : Byte)∉localtime t)
    (record : AuditRecord) :
    (10 : Byte)∉recordLine localtime record ↔ EntryNewlineFree record.view := by
  have hnow := htime record.timestamp
  have hsequence := newline_not_mem_decimal record.sequenceNumber
  have hport := newline_not_mem_decimalInt record.sourcePort
  have hseverity := newline_not_mem_severity record.severity
  have htype := newline_not_mem_eventType record.eventType
  have hname := newline_not_mem_protocolName record.protocol
  have huser : (10 : Byte)∈(if record.username.cstring=[] then text "-" else record.username.cstring) ↔
      (10 : Byte)∈record.username.cstring := by
    split
    · rename_i he
      rw [he]
      decide
    · rfl
  have h1 : (10 : Byte)∉text "[" := by decide
  have h2 : (10 : Byte)∉text "] SEQ=" := by decide
  have h3 : (10 : Byte)∉text " 严重性=" := by decide
  have h4 : (10 : Byte)∉text " 协议=" := by decide
  have h5 : (10 : Byte)∉text " 事件=" := by decide
  have h6 : (10 : Byte)∉text " 来源=" := by decide
  have h7 : (10 : Byte)∉text ":" := by decide
  have h8 : (10 : Byte)∉text " 会话=" := by decide
  have h9 : (10 : Byte)∉text " 用户=" := by decide
  have h10 : (10 : Byte)∉text " 详情=" := by decide
  unfold recordLine EntryNewlineFree AuditRecord.view
  simp only [List.mem_append,huser,hnow,hsequence,hport,hseverity,htype,hname,h1,h2,h3,h4,h5,h6,h7,
    h8,h9,h10,false_or,or_false,not_or,and_assoc]

/-- The written records are the first accepted events. -/
theorem written_entries {localtime : ℤ → Bytes} {logFile : Bytes} {past : List AuditLabel}
    {s : AuditRun} (hs : Consistent localtime logFile past s) :
    s.handed.map AuditRecord.view=
      (s.accepted.mapIdx acceptedEntry).take s.handed.length := by
  have hmap : (s.handed.map AuditRecord.view).length=s.handed.length := List.length_map _
  rw [←hs.stored,List.map_append,←hmap,List.take_left]

/-- The written records are free of line feeds exactly when the written
events are. -/
theorem written_newlineFree {localtime : ℤ → Bytes} {logFile : Bytes} {past : List AuditLabel}
    {s : AuditRun} (hs : Consistent localtime logFile past s) :
    (∀ record∈s.handed,EntryNewlineFree record.view) ↔
      ∀ a∈s.accepted.take s.handed.length,NewlineFree a.2 := by
  have hentries := written_entries hs
  have hentry : ∀ i a,EntryNewlineFree (acceptedEntry i a) ↔ NewlineFree a.2 := fun _ _ => Iff.rfl
  constructor
  · intro h a ha
    obtain ⟨i,hi,hget⟩ := List.mem_take_iff_getElem.mp ha
    have hlen : i<s.handed.length := by omega
    have hview := congrArg (fun l => l[i]?) hentries
    have hacc : i<s.accepted.length := by omega
    simp only [List.getElem?_map,List.getElem?_take,hlen,if_true,List.getElem?_mapIdx,
      List.getElem?_eq_getElem hlen,List.getElem?_eq_getElem hacc,Option.map_some] at hview
    have hrecord := h _ (List.getElem_mem hlen)
    rw [Option.some.inj hview,hentry,hget] at hrecord
    exact hrecord
  · intro h record hrecord
    obtain ⟨i,hi,hget⟩ := List.mem_iff_getElem.mp hrecord
    have hview := congrArg (fun l => l[i]?) hentries
    have hlength := congrArg List.length hentries
    rw [List.length_map,List.length_take,List.length_mapIdx] at hlength
    have hacc : i<s.accepted.length := by omega
    simp only [List.getElem?_map,List.getElem?_take,hi,if_true,List.getElem?_mapIdx,
      List.getElem?_eq_getElem hi,List.getElem?_eq_getElem hacc,Option.map_some] at hview
    rw [←hget,Option.some.inj hview,hentry]
    exact h _ (List.mem_take_iff_getElem.mpr ⟨i,by omega,rfl⟩)

/-- The text that the flush thread has appended to the log file. -/
def appendedText (logFile : Bytes) (s : AuditRun) : Bytes :=
  (s.trail.currentLogFile.getD logFile).drop logFile.length

/-- The appended text is the rendering of the written records. -/
theorem appendedText_eq {localtime : ℤ → Bytes} {logFile : Bytes} {past : List AuditLabel}
    {s : AuditRun} (hs : Consistent localtime logFile past s) :
    appendedText logFile s=s.handed.flatMap (fun record => recordLine localtime record++[10]) := by
  rw [appendedText,hs.logged,Option.getD_some,List.drop_left]
  rfl

/-- In every state of every run the appended text consists of the rendered
records as its lines, and of as many lines as written records, exactly when no
string of a written event has a line feed in the part that is kept. -/
theorem log_lines_iff_newlineFree {localtime : ℤ → Bytes} (htime : ∀ t,(10 : Byte)∉localtime t)
    (logFile : Bytes) (labels : List AuditLabel) {s : AuditRun}
    (hrun : execute (auditStep localtime) (.initial logFile) labels=some s) :
    (lines 10 (appendedText logFile s)=s.handed.map (recordLine localtime) ↔
      ∀ a∈s.accepted.take s.handed.length,NewlineFree a.2) ∧
    ((lines 10 (appendedText logFile s)).length=s.handed.length ↔
      ∀ a∈s.accepted.take s.handed.length,NewlineFree a.2) := by
  have hs := consistent_run localtime hrun
  have hfree : (∀ record∈s.handed,(10 : Byte)∉recordLine localtime record) ↔
      ∀ a∈s.accepted.take s.handed.length,NewlineFree a.2 := by
    rw [←written_newlineFree hs]
    constructor
    · intro h record hrecord
      exact (newline_mem_recordLine htime record).mp (h record hrecord)
    · intro h record hrecord
      exact (newline_mem_recordLine htime record).mpr (h record hrecord)
  rw [appendedText_eq hs,lines_terminated,length_lines_terminated,hfree]
  exact ⟨Iff.rfl,Iff.rfl⟩

/-- A session that records a command without line feeds. -/
def quietLabels : List AuditLabel :=
  [.record 0 ⟨.command,.high,13,some (text "::1"),6379,some (text "s"),none,text "PING"⟩,.test,
    .batch (fun _ => none)]

/-- The text that the time functions make of time zero in a UTC zone. -/
def epochText (_ : ℤ) : Bytes := text "1970-01-01 "++text "00:00:00"

/-- The time text contains no line feed. -/
theorem newline_not_mem_epochText (t : ℤ) : (10 : Byte)∉epochText t := by
  unfold epochText
  decide

/-- A command without line feeds is written as one line. -/
theorem log_lines_quiet :
    ∃ s,execute (auditStep epochText) (.initial []) quietLabels=some s ∧
      (lines 10 (appendedText [] s)).length=s.handed.length :=
  ⟨_,rfl,(log_lines_iff_newlineFree newline_not_mem_epochText [] quietLabels rfl).2.mpr (by decide)⟩

/-- A bulk string argument with a line feed, recorded as a command. -/
def forgingLabels : List AuditLabel :=
  [.record 0 ⟨.command,.high,13,some (text "::1"),6379,some (text "s"),none,
      text "SET k "++[10]++text "[1970-01-01"⟩,.test,.batch (fun _ => none)]

/-- One written record with a line feed in its detail text makes two lines. -/
theorem forged_line_in_log :
    ∃ s,execute (auditStep epochText) (.initial []) forgingLabels=some s ∧
      s.handed.length=1 ∧ (lines 10 (appendedText [] s)).length=2 :=
  ⟨_,rfl,rfl,by decide⟩

end HoneyDew.AuditLog
