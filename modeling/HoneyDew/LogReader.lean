import HoneyDew.AuditLog
import HoneyDew.MarkedFields

/-!
# Reading the audit log back

A line of the log shows the fields of a record between fixed labels, a dash for an empty
user name and a name for the protocol. A reader that cuts a line at the first occurrence of
each label finds every field as it was recorded exactly when no field brings the label that
ends it, the user name is not the dash itself and the protocol is one of the list. In a log
of such records without line feeds it finds all records again, numbered in their order.
-/

namespace HoneyDew.LogReader

open CText CMemory StepSystem AuditTrail AuditLog TextLines MarkedFields

/-! ## The reader -/

/-- What a line of the log shows. -/
structure Shown where
  /-- The text of the time. -/
  time : Bytes
  /-- The sequence number. -/
  sequence : ℕ
  /-- The severity. -/
  severity : AuditSeverity
  /-- The protocol number, zero for an unknown one. -/
  protocol : ℤ
  /-- The event type. -/
  eventType : AuditEventType
  /-- The address text. -/
  sourceIp : Bytes
  /-- The port of the peer. -/
  sourcePort : ℤ
  /-- The session identifier. -/
  sessionId : Bytes
  /-- The user name. -/
  username : Bytes
  /-- The detail text. -/
  details : Bytes
  deriving DecidableEq

/-- The severity with a name. -/
def severityOf (name : Bytes) : Option AuditSeverity :=
  [AuditSeverity.low,.medium,.high,.critical].find? (fun x => auditSeverityStr x=name)

/-- The event type with a name. -/
def eventTypeOf (name : Bytes) : Option AuditEventType :=
  [AuditEventType.connection,.disconnection,.authAttempt,.authSuccess,.authFailure,.command,
    .fileAccess,.fileModify,.dataExfil,.scanProbe,.exploitAttempt,.protocolError].find?
      (fun x => auditEventTypeStr x=name)

/-- The protocol number with a name. -/
def protocolOf (name : Bytes) : Option ℤ :=
  [0,1,2,3,4,5,6,7,8,9,10,11,12,13,14].find? (fun x => protocolName x=name)

/-- The value of a signed decimal number. -/
def intOf : Bytes → ℤ
  | [] => 0
  | b::bs => if b=45 then -(digitsValue 0 bs : ℕ) else (digitsValue 0 (b::bs) : ℕ)

/-- The texts between the labels of a line. -/
structure Parts where
  /-- Behind the bracket. -/
  time : Bytes
  /-- Behind `SEQ=`. -/
  sequence : Bytes
  /-- Behind the label of the severity. -/
  severity : Bytes
  /-- Behind the label of the protocol. -/
  protocol : Bytes
  /-- Behind the label of the event. -/
  event : Bytes
  /-- Behind the label of the source. -/
  source : Bytes
  /-- Behind the label of the session. -/
  session : Bytes
  /-- Behind the label of the user. -/
  user : Bytes
  /-- Behind the last label. -/
  details : Bytes

/-- Cut a line at its labels. -/
def partsOf (line : Bytes) : Option Parts := do
  let time ← cutAt (text "] SEQ=") (line.drop 1)
  let sequence ← cutAt (text " 严重性=") time.2
  let severity ← cutAt (text " 协议=") sequence.2
  let proto ← cutAt (text " 事件=") severity.2
  let event ← cutAt (text " 来源=") proto.2
  let source ← cutAt (text " 会话=") event.2
  let session ← cutAt (text " 用户=") source.2
  let user ← cutAt (text " 详情=") session.2
  some ⟨time.1,sequence.1,severity.1,proto.1,event.1,source.1,session.1,user.1,user.2⟩

/-- Read the texts between the labels. The dash stands for no user name. -/
def shownOf (parts : Parts) : Option Shown := do
  let severity ← severityOf parts.severity
  let protocol ← protocolOf parts.protocol
  let eventType ← eventTypeOf parts.event
  let source ← cutLast 58 parts.source
  some ⟨parts.time,digitsValue 0 parts.sequence,severity,protocol,eventType,source.1,intOf source.2,
    parts.session,if parts.user=text "-" then [] else parts.user,parts.details⟩

/-- Read a line of the log. -/
def readRecord (line : Bytes) : Option Shown := (partsOf line).bind shownOf

/-- What the line of an entry should show. -/
def shown (localtime : ℤ → Bytes) (v : AuditEntry) : Shown :=
  ⟨localtime v.timestamp,v.sequenceNumber,v.severity,v.protocol,v.eventType,v.sourceIp,v.sourcePort,
    v.sessionId,v.username,v.details⟩

/-- No field brings the label that ends it, the user name is not the dash, and the protocol
is one of the list. -/
def Readable (v : AuditEntry) : Prop :=
  ¬text " 会话="<:+:v.sourceIp ∧ ¬text " 用户="<:+:v.sessionId ∧ ¬text " 详情="<:+:v.username ∧
    v.username≠text "-" ∧ 0≤v.protocol ∧ v.protocol≤14

instance (v : AuditEntry) : Decidable (Readable v) := by
  unfold Readable
  infer_instance

/-! ## Names and numbers -/

/-- Every severity is found by its name. -/
theorem severityOf_auditSeverityStr (x : AuditSeverity) : severityOf (auditSeverityStr x)=some x := by
  cases x <;> decide

/-- Every event type is found by its name. -/
theorem eventTypeOf_auditEventTypeStr (x : AuditEventType) :
    eventTypeOf (auditEventTypeStr x)=some x := by
  cases x <;> decide

/-- Every protocol of the list is found by its name, and every other one as unknown. -/
theorem protocolOf_protocolName (x : ℤ) :
    protocolOf (protocolName x)=some (if 0≤x ∧ x≤14 then x else 0) := by
  by_cases hlist : 0≤x ∧ x≤14
  · rw [if_pos hlist]
    obtain ⟨hlow,hhigh⟩ := hlist
    interval_cases x <;> decide
  · have hunknown : protocolName x=text "UNKNOWN" := by
      unfold protocolName
      split <;> first | rfl | omega
    rw [if_neg hlist,hunknown]
    decide

/-- A printed number is read back with its sign. -/
theorem intOf_decimalInt (z : ℤ) : intOf (decimalInt z)=z := by
  have hvalue := digitsValue_decimal_self z.natAbs
  unfold decimalInt
  split
  · rw [intOf,if_pos rfl,hvalue]
    omega
  · obtain ⟨b,tail,hdecimal,hdigit⟩ := decimal_cons z.natAbs
    rw [hdecimal] at hvalue ⊢
    rw [intOf,if_neg (digit_bounds hdigit).2.2.2.1,hvalue]
    omega

/-- A printed number has digits and a sign only. -/
theorem mem_decimalInt {z : ℤ} {b : Byte} (h : b∈decimalInt z) : b=45 ∨ isDigit b=true := by
  unfold decimalInt at h
  split at h
  · rcases List.mem_cons.mp h with hsign|hdigits
    · exact .inl hsign
    · exact .inr (isDigit_of_mem_decimal hdigits)
  · exact .inr (isDigit_of_mem_decimal h)

/-! ## The fields of a line -/

/-- A text without the blank of a label does not contain the label. -/
theorem not_infix_of_blank {label field : Bytes} (hlabel : (32 : Byte)∈label)
    (h : (32 : Byte)∉field) : ¬label<:+:field := fun hwithin => h (hwithin.subset hlabel)

/-- A sequence number has no blank. -/
theorem blank_not_mem_decimal (n : ℕ) : (32 : Byte)∉decimal n :=
  fun h => absurd (isDigit_of_mem_decimal h) (by decide)

/-- A severity has no blank. -/
theorem blank_not_mem_severity (x : AuditSeverity) : (32 : Byte)∉auditSeverityStr x := by
  cases x <;> decide

/-- An event type has no blank. -/
theorem blank_not_mem_eventType (x : AuditEventType) : (32 : Byte)∉auditEventTypeStr x := by
  cases x <;> decide

/-- A protocol name has no blank. -/
theorem blank_not_mem_protocolName (x : ℤ) : (32 : Byte)∉protocolName x := by
  unfold protocolName
  split <;> decide

/-- The user name as a line shows it. -/
def shownUser (record : AuditRecord) : Bytes :=
  if record.username.cstring=[] then text "-" else record.username.cstring

/-- The source as a line shows it. -/
def shownSource (record : AuditRecord) : Bytes :=
  record.sourceIp.cstring++58::decimalInt record.sourcePort

/-- The line of a record from its labels on. -/
theorem recordLine_labels (localtime : ℤ → Bytes) (record : AuditRecord) :
    recordLine localtime record=91::(localtime record.timestamp++(text "] SEQ="++
      (decimal record.sequenceNumber++(text " 严重性="++(auditSeverityStr record.severity++
      (text " 协议="++(protocolName record.protocol++(text " 事件="++
      (auditEventTypeStr record.eventType++(text " 来源="++(shownSource record++(text " 会话="++
      (record.sessionId.cstring++(text " 用户="++(shownUser record++(text " 详情="++
      record.details.cstring)))))))))))))))) := by
  have hbracket : ∀ rest,text "["++rest=91::rest := fun _ => rfl
  have hcolon : ∀ rest,text ":"++rest=58::rest := fun _ => rfl
  unfold recordLine shownSource shownUser
  generalize text "["=bracket at *
  generalize text ":"=colon at *
  simp only [List.append_assoc,List.cons_append,hbracket,hcolon]

/-- The line is cut at its labels up to the source, whatever stands in the later fields. -/
theorem partsOf_recordLine {localtime : ℤ → Bytes} (htime : ∀ t,¬text "] SEQ="<:+:localtime t)
    (record : AuditRecord) :
    partsOf (recordLine localtime record)=(do
      let source ← cutAt (text " 会话=") (shownSource record++(text " 会话="++
        (record.sessionId.cstring++(text " 用户="++(shownUser record++(text " 详情="++
          record.details.cstring))))))
      let session ← cutAt (text " 用户=") source.2
      let user ← cutAt (text " 详情=") session.2
      some ⟨localtime record.timestamp,decimal record.sequenceNumber,
        auditSeverityStr record.severity,protocolName record.protocol,
        auditEventTypeStr record.eventType,source.1,session.1,user.1,user.2⟩) := by
  have hleads : Leads (text "] SEQ=") ∧ Leads (text " 严重性=") ∧ Leads (text " 协议=") ∧
      Leads (text " 事件=") ∧ Leads (text " 来源=") := by decide
  have hfirst := cutAt_field hleads.1 (htime record.timestamp)
  have hsequence := cutAt_field hleads.2.1
    (not_infix_of_blank (by decide) (blank_not_mem_decimal record.sequenceNumber))
  have hseverity := cutAt_field hleads.2.2.1
    (not_infix_of_blank (by decide) (blank_not_mem_severity record.severity))
  have hprotocol := cutAt_field hleads.2.2.2.1
    (not_infix_of_blank (by decide) (blank_not_mem_protocolName record.protocol))
  have hevent := cutAt_field hleads.2.2.2.2
    (not_infix_of_blank (by decide) (blank_not_mem_eventType record.eventType))
  rw [recordLine_labels,partsOf,List.drop_one,List.tail_cons,hfirst]
  simp only [Option.bind_eq_bind,Option.bind_some,hsequence,hseverity,hprotocol,hevent]

/-- The labels behind the fields that a peer may fill lead. -/
theorem leads_labels : Leads (text " 会话=") ∧ Leads (text " 用户=") ∧ Leads (text " 详情=") := by decide

/-- The source brings the label of the session only if the address does. -/
theorem not_infix_shownSource {record : AuditRecord} (h : ¬text " 会话="<:+:record.sourceIp.cstring) :
    ¬text " 会话="<:+:shownSource record := by
  intro hwithin
  rcases infix_around (by decide) hwithin with haddress|hport
  · exact h haddress
  · refine not_infix_of_blank (by decide) ?_ hport
    intro hblank
    rcases mem_decimalInt hblank with hsign|hdigit
    · exact absurd hsign (by decide)
    · exact absurd hdigit (by decide)

/-- The user name as shown brings its label only if the user name does. -/
theorem not_infix_shownUser {record : AuditRecord} (h : ¬text " 详情="<:+:record.username.cstring) :
    ¬text " 详情="<:+:shownUser record := by
  unfold shownUser
  split
  · exact not_infix_of_blank (by decide) (by decide)
  · exact h

/-- The port stands behind the last colon of the source. -/
theorem cutLast_shownSource (record : AuditRecord) :
    cutLast 58 (shownSource record)=
      some (record.sourceIp.cstring,decimalInt record.sourcePort) := by
  refine cutLast_append _ ?_
  intro hcolon
  rcases mem_decimalInt hcolon with hsign|hdigit
  · exact absurd hsign (by decide)
  · exact absurd hdigit (by decide)

/-- What a successful reading of the line of a record has found. -/
theorem readRecord_some {localtime : ℤ → Bytes} (htime : ∀ t,¬text "] SEQ="<:+:localtime t)
    {record : AuditRecord} {x : Shown} (h : readRecord (recordLine localtime record)=some x) :
    ∃ source session user address,
      cutAt (text " 会话=") (shownSource record++(text " 会话="++(record.sessionId.cstring++
        (text " 用户="++(shownUser record++(text " 详情="++record.details.cstring))))))=some source ∧
      cutAt (text " 用户=") source.2=some session ∧ cutAt (text " 详情=") session.2=some user ∧
      cutLast 58 source.1=some address ∧ x.sourceIp=address.1 ∧ x.sessionId=session.1 ∧
      x.username=(if user.1=text "-" then [] else user.1) ∧
      x.protocol=(if 0≤ record.protocol ∧ record.protocol≤14 then record.protocol else 0) := by
  rw [readRecord,partsOf_recordLine htime] at h
  simp only [Option.bind_eq_bind,Option.bind_assoc,Option.bind_eq_some_iff] at h
  obtain ⟨source,hsource,session,hsession,user,huser,parts,hparts,hshown⟩ := h
  cases hparts
  rw [shownOf] at hshown
  simp only [severityOf_auditSeverityStr,protocolOf_protocolName,eventTypeOf_auditEventTypeStr,
    Option.bind_eq_bind,Option.bind_some,Option.bind_eq_some_iff,Option.some.injEq] at hshown
  obtain ⟨address,haddress,rfl⟩ := hshown
  exact ⟨source,session,user,address,hsource,hsession,huser,haddress,rfl,rfl,rfl,rfl⟩

/-- A readable record is read back from its line. -/
theorem readRecord_recordLine {localtime : ℤ → Bytes} (htime : ∀ t,¬text "] SEQ="<:+:localtime t)
    {record : AuditRecord} (h : Readable record.view) :
    readRecord (recordLine localtime record)=some (shown localtime record.view) := by
  have hip : ¬text " 会话="<:+:record.sourceIp.cstring := h.1
  have hsession : ¬text " 用户="<:+:record.sessionId.cstring := h.2.1
  have huser : ¬text " 详情="<:+:record.username.cstring := h.2.2.1
  have hdash : record.username.cstring≠text "-" := h.2.2.2.1
  have hlist : 0≤ record.protocol ∧ record.protocol≤14 := h.2.2.2.2
  have hfirst := cutAt_field leads_labels.1 (not_infix_shownSource hip)
  have hsecond := cutAt_field leads_labels.2.1 hsession
  have hthird := cutAt_field leads_labels.2.2 (not_infix_shownUser huser)
  have hname : (if shownUser record=text "-" then [] else shownUser record)=record.username.cstring := by
    unfold shownUser
    by_cases hempty : record.username.cstring=[]
    · rw [if_pos hempty,if_pos rfl,hempty]
    · rw [if_neg hempty,if_neg hdash]
  rw [readRecord,partsOf_recordLine htime,hfirst]
  simp only [Option.bind_eq_bind,Option.bind_some,hsecond,hthird,shownOf,severityOf_auditSeverityStr,
    protocolOf_protocolName,eventTypeOf_auditEventTypeStr,cutLast_shownSource,if_pos hlist,
    digitsValue_decimal_self,intOf_decimalInt,hname]
  rfl

/-- The line of a record is read back as the record exactly if the record is readable. -/
theorem readRecord_iff {localtime : ℤ → Bytes} (htime : ∀ t,¬text "] SEQ="<:+:localtime t)
    (record : AuditRecord) :
    readRecord (recordLine localtime record)=some (shown localtime record.view) ↔
      Readable record.view := by
  refine ⟨?_,readRecord_recordLine htime⟩
  intro h
  have hblank : ∀ label : Bytes,Leads label → label≠[] := by
    intro label hlabel
    obtain ⟨c,tail,rfl,-⟩ := hlabel.cons
    exact List.cons_ne_nil c tail
  obtain ⟨source,session,user,address,hsource,hsession,huser,haddress,hxip,hxsession,hxuser,hxproto⟩ :=
    readRecord_some htime h
  have hip : ¬text " 会话="<:+:record.sourceIp.cstring := by
    intro hwithin
    have hcut := hsource
    rw [shownSource,List.append_assoc] at hcut
    have hshort := length_cutAt_lt (hblank _ leads_labels.1) hwithin hcut
    have hlong := length_cutLast_le haddress
    have heq : record.sourceIp.cstring=address.1 := hxip
    rw [heq] at hshort
    omega
  rw [cutAt_field leads_labels.1 (not_infix_shownSource hip)] at hsource
  cases hsource
  have hid : ¬text " 用户="<:+:record.sessionId.cstring := by
    intro hwithin
    have hshort := length_cutAt_lt (hblank _ leads_labels.2.1) hwithin hsession
    have heq : record.sessionId.cstring=session.1 := hxsession
    rw [heq] at hshort
    omega
  rw [cutAt_field leads_labels.2.1 hid] at hsession
  cases hsession
  have hread : record.username.cstring=(if user.1=text "-" then [] else user.1) := hxuser
  have hname : ¬text " 详情="<:+:record.username.cstring := by
    intro hwithin
    have hne : record.username.cstring≠[] := by
      intro hempty
      rw [hempty] at hwithin
      exact hblank _ leads_labels.2.2 (List.infix_nil.mp hwithin)
    have hcut := huser
    rw [shownUser,if_neg hne] at hcut
    have hshort := length_cutAt_lt (hblank _ leads_labels.2.2) hwithin hcut
    split at hread
    · exact hne hread
    · rw [hread] at hshort
      omega
  rw [cutAt_field leads_labels.2.2 (not_infix_shownUser hname)] at huser
  cases huser
  have hdash : record.username.cstring≠text "-" := by
    intro hdash
    have hne : record.username.cstring≠[] := by
      rw [hdash]
      decide
    rw [shownUser,if_neg hne,if_pos hdash] at hread
    exact hne hread
  have hlist : 0≤ record.protocol ∧ record.protocol≤14 := by
    have hproto : record.protocol=
        (if 0≤ record.protocol ∧ record.protocol≤14 then record.protocol else 0) := hxproto
    by_contra hforeign
    rw [if_neg hforeign] at hproto
    exact hforeign (by rw [hproto]; decide)
  exact ⟨hip,hid,hname,hdash,hlist⟩

/-- A user name that brings the label of the details. -/
def forgingEvent : AuditEvent :=
  ⟨.authFailure,.medium,13,some (text "10.0.0.9"),5000,some (text "id"),some (text "bob 详情=ok"),
    text "AUTH"⟩

/-- The record of such a name is read wrongly. -/
theorem readRecord_iff_forged :
    readRecord (recordLine epochText (fillRecord .zeroed 0 1 forgingEvent))≠
      some (shown epochText (fillRecord .zeroed 0 1 forgingEvent).view) := by
  have htime : ∀ t,¬text "] SEQ="<:+:epochText t := by
    intro t
    unfold epochText
    decide
  have hiff := readRecord_iff htime (fillRecord .zeroed 0 1 forgingEvent)
  rw [view_fillRecord] at hiff ⊢
  exact mt hiff.mp (by decide)

/-! ## The file -/

section File

variable {localtime : ℤ → Bytes} {logFile : Bytes} {s : AuditRun}

/-- The first entries of some events. -/
theorem take_mapIdx_acceptedEntry (accepted : List (ℤ×AuditEvent)) (n : ℕ) :
    (accepted.mapIdx acceptedEntry).take n=(accepted.take n).mapIdx acceptedEntry := by
  refine List.ext_getElem ?_ ?_
  · simp only [List.length_take,List.length_mapIdx]
  · intro i hi hi'
    rw [List.getElem_take,List.getElem_mapIdx,List.getElem_mapIdx,List.getElem_take]

/-- A written record has the entry of one of the written events. -/
theorem view_of_handed {past : List AuditLabel} (hs : Consistent localtime logFile past s)
    {record : AuditRecord} (h : record∈s.handed) :
    ∃ i,∃ a∈s.accepted.take s.handed.length,record.view=acceptedEntry i a := by
  have hview : record.view∈s.handed.map AuditRecord.view := List.mem_map_of_mem h
  rw [written_entries hs,take_mapIdx_acceptedEntry] at hview
  obtain ⟨i,hi,hentry⟩ := List.mem_mapIdx.mp hview
  exact ⟨i,_,List.getElem_mem hi,hentry.symm⟩

/-- In every state of every run with fewer than `2^64` calls whose written events bring
neither line feeds nor the labels of the log nor the dash as a user name, and whose protocols
are of the list, a reader of the log file finds one line for each of them, in the order of
the calls, numbered from one on, with every field as the record keeps it. -/
theorem log_read_back (htime : ∀ t,(10 : Byte)∉localtime t ∧ ¬text "] SEQ="<:+:localtime t)
    (labels : List AuditLabel)
    (hrun : execute (auditStep localtime) (.initial logFile) labels=some s)
    (hcalls : labels.countP AuditLabel.isRecord<2^64)
    (hclean : ∀ a∈s.accepted.take s.handed.length,NewlineFree a.2 ∧ Readable (a.2.entry a.1 0)) :
    (lines 10 (appendedText logFile s)).map readRecord=
      (s.accepted.take s.handed.length).mapIdx
        (fun i a => some (shown localtime (a.2.entry a.1 (i+1)))) := by
  have hs := consistent_run localtime hrun
  have hfree := (written_newlineFree hs).mpr (fun a ha => (hclean a ha).1)
  have hlines : lines 10 (appendedText logFile s)=s.handed.map (recordLine localtime) := by
    rw [appendedText_eq hs,lines_terminated]
    intro record hrecord
    exact (newline_mem_recordLine (fun t => (htime t).1) record).mpr (hfree record hrecord)
  have hread : ∀ record∈s.handed,
      readRecord (recordLine localtime record)=some (shown localtime record.view) := by
    intro record hrecord
    obtain ⟨i,a,ha,hview⟩ := view_of_handed hs hrecord
    refine readRecord_recordLine (fun t => (htime t).2) ?_
    rw [hview]
    exact (hclean a ha).2
  have hcount : s.accepted.length<wordModulus := by
    have hsum := hs.calls
    have hword : wordModulus=2^64 := rfl
    omega
  have hviews : (s.handed.map AuditRecord.view).map (fun v => some (shown localtime v))=
      (s.accepted.take s.handed.length).mapIdx
        (fun i a => some (shown localtime (a.2.entry a.1 (i+1)))) := by
    rw [written_entries hs,take_mapIdx_acceptedEntry]
    refine List.ext_getElem ?_ ?_
    · rw [List.length_map,List.length_mapIdx,List.length_mapIdx]
    · intro i hi hi'
      rw [List.length_mapIdx,List.length_take] at hi'
      rw [List.getElem_map,List.getElem_mapIdx,List.getElem_mapIdx,acceptedEntry,
        Nat.mod_eq_of_lt (by omega)]
  rw [hlines,←hviews,List.map_map,List.map_map]
  refine List.map_congr_left ?_
  intro record hrecord
  rw [Function.comp_apply,Function.comp_apply,hread record hrecord]

end File

/-- The line of the quiet session is read back. -/
theorem log_read_back_quiet :
    ∃ s,execute (auditStep epochText) (.initial []) quietLabels=some s ∧
      (lines 10 (appendedText [] s)).map readRecord=
        (s.accepted.take s.handed.length).mapIdx
          (fun i a => some (shown epochText (a.2.entry a.1 (i+1)))) := by
  have htime : ∀ t,(10 : Byte)∉epochText t ∧ ¬text "] SEQ="<:+:epochText t := by
    intro t
    unfold epochText
    decide
  exact ⟨_,rfl,log_read_back htime quietLabels rfl (by decide) (by decide)⟩

end HoneyDew.LogReader
