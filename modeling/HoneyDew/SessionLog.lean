import HoneyDew.Attribution
import HoneyDew.AuditLog
import HoneyDew.Producers

/-!
# The sessions of the log

Any number of sessions run at once, each handler performs its acts in its own
order, and the audit calls of all of them go through the one ring to the one
log file. The entries of the log that carry a session's identifier are then
that session's own events in their order, without one of another session, and
all of them unless the ring was full at some call.
-/

namespace HoneyDew.SessionLog

open CText AuditTrail AuditLog AuditBracket Attribution Connection Producers Service StepSystem

/-- The handlers of the sessions and the audit trail that they share. -/
structure Server (ι : Type*) where
  /-- The trail, the flush thread and their history. -/
  audit : AuditRun
  /-- What the handler of a session still has to do. -/
  rest : ι → List Action
  /-- The acts performed so far, in the order of the schedule. -/
  history : List (ι×Action)

/-- One scheduling choice. -/
inductive ServerLabel (ι : Type*)
  /-- The handler of a session performs its next act at a time of day. -/
  | act (i : ι) (now : ℤ)
  /-- The flush thread or shutdown takes a step. -/
  | audit (a : AuditLabel)

section Steps

variable {ι : Type*} [DecidableEq ι] (localtime : ℤ → Bytes)

/-- The state behind `audit_init`, before any handler has done anything. -/
def Server.initial (acts : ι → List Action) (logFile : Bytes) : Server ι :=
  ⟨.initial logFile,acts,[]⟩

/-- What an act does to the audit trail: only a recording call touches it. -/
def actOnTrail (audit : AuditRun) (now : ℤ) : Action → Option AuditRun
  | .audit e => auditStep localtime audit (.record now e)
  | _ => some audit

/-- One step of the server. The recording calls belong to the handlers. -/
def serverStep (srv : Server ι) : ServerLabel ι → Option (Server ι)
  | .act i now => match srv.rest i with
    | [] => none
    | a::as => (actOnTrail localtime srv.audit now a).map (fun audit =>
        ⟨audit,Function.update srv.rest i as,srv.history++[(i,a)]⟩)
  | .audit a =>
    if a.isRecord then none
    else (auditStep localtime srv.audit a).map (fun audit => {srv with audit := audit})

/-- A step of a handler performs the first of its acts. -/
theorem serverStep_act {srv t : Server ι} {i : ι} {now : ℤ}
    (h : serverStep localtime srv (.act i now)=some t) :
    ∃ a as,srv.rest i=a::as ∧ actOnTrail localtime srv.audit now a=some t.audit ∧
      t.rest=Function.update srv.rest i as ∧ t.history=srv.history++[(i,a)] := by
  rw [serverStep] at h
  cases hrest : srv.rest i with
  | nil =>
    rw [hrest] at h
    cases h
  | cons a as =>
    rw [hrest] at h
    obtain ⟨audit,haudit,ht⟩ := Option.map_eq_some_iff.mp h
    cases ht
    exact ⟨a,as,rfl,haudit,rfl,rfl⟩

/-- A step of the trail is no recording call and leaves the handlers alone. -/
theorem serverStep_audit {srv t : Server ι} {a : AuditLabel}
    (h : serverStep localtime srv (.audit a)=some t) :
    a.isRecord=false ∧ auditStep localtime srv.audit a=some t.audit ∧ t.rest=srv.rest ∧
      t.history=srv.history := by
  rw [serverStep] at h
  split at h
  · cases h
  · rename_i hrecord
    obtain ⟨audit,haudit,ht⟩ := Option.map_eq_some_iff.mp h
    cases ht
    exact ⟨Bool.eq_false_of_not_eq_true hrecord,haudit,rfl,rfl⟩

end Steps

/-! ## The accepted events -/

section Accepted

variable {localtime : ℤ → Bytes} {s t : AuditRun}

/-- A recording call adds its event to the accepted or to the rejected ones. -/
theorem auditStep_record {now : ℤ} {e : AuditEvent}
    (h : auditStep localtime s (.record now e)=some t) :
    (t.accepted=s.accepted++[(now,e)] ∧ t.rejected=s.rejected) ∨
      (t.accepted=s.accepted ∧ t.rejected=s.rejected++[(now,e)]) := by
  rw [auditStep] at h
  split at h
  · cases h
    exact .inl ⟨rfl,rfl⟩
  · cases h
    exact .inr ⟨rfl,rfl⟩

/-- Every other step leaves both as they are. -/
theorem auditStep_silent {a : AuditLabel} (ha : a.isRecord=false)
    (h : auditStep localtime s a=some t) : t.accepted=s.accepted ∧ t.rejected=s.rejected := by
  cases a with
  | record now e => cases ha
  | test =>
    rw [auditStep] at h
    split at h
    · cases h
      exact ⟨rfl,rfl⟩
    · cases h
  | batch reopened =>
    rw [auditStep] at h
    split at h
    · cases h
      exact ⟨rfl,rfl⟩
    · cases h
  | shutdown =>
    cases h
    exact ⟨rfl,rfl⟩
  | finalDrain reopened =>
    rw [auditStep] at h
    split at h
    · cases h
      exact ⟨rfl,rfl⟩
    · cases h

/-- The accepted events are some of the events recorded, in their order, and
all of them as long as none was rejected. -/
structure Accepts (recorded : List AuditEvent) (audit : AuditRun) : Prop where
  /-- No other event is accepted, and none twice or out of turn. -/
  sublist : (audit.accepted.map Prod.snd).Sublist recorded
  /-- Only a rejected event is missing. -/
  complete : audit.rejected=[] → audit.accepted.map Prod.snd=recorded

/-- A recording call keeps this. -/
theorem accepts_record {recorded : List AuditEvent} (hs : Accepts recorded s) {now : ℤ}
    {e : AuditEvent} (h : auditStep localtime s (.record now e)=some t) :
    Accepts (recorded++[e]) t := by
  rcases auditStep_record h with ⟨haccepted,hrejected⟩|⟨haccepted,hrejected⟩
  · refine ⟨?_,?_⟩
    · rw [haccepted,List.map_append]
      exact hs.sublist.append (List.Sublist.refl [e])
    · intro hnone
      rw [hrejected] at hnone
      rw [haccepted,List.map_append,hs.complete hnone]
      rfl
  · refine ⟨?_,?_⟩
    · rw [haccepted]
      exact hs.sublist.trans (List.sublist_append_left recorded [e])
    · intro hnone
      rw [hrejected] at hnone
      exact absurd hnone (List.append_ne_nil_of_right_ne_nil _ (List.cons_ne_nil _ _))

/-- An act of a handler keeps the accepted events those that were recorded. -/
theorem accepts_act {recorded : List AuditEvent} (hs : Accepts recorded s) {now : ℤ} {a : Action}
    (h : actOnTrail localtime s now a=some t) : Accepts (recorded++audits [a]) t := by
  cases a with
  | audit e =>
    have hcall : auditStep localtime s (.record now e)=some t := h
    exact accepts_record hs hcall
  | send bytes =>
    cases h
    rwa [audits_send,audits_nil,List.append_nil]
  | log message =>
    cases h
    have hnone : audits [.log message]=[] := rfl
    rwa [hnone,List.append_nil]
  | close =>
    cases h
    rwa [audits_close,audits_nil,List.append_nil]

/-- A step of the flush thread or of shutdown records nothing and leaves them. -/
theorem accepts_silent {recorded : List AuditEvent} (hs : Accepts recorded s) {a : AuditLabel}
    (ha : a.isRecord=false) (h : auditStep localtime s a=some t) : Accepts recorded t := by
  obtain ⟨haccepted,hrejected⟩ := auditStep_silent ha h
  refine ⟨?_,?_⟩
  · rw [haccepted]
    exact hs.sublist
  · intro hnone
    rw [hrejected] at hnone
    rw [haccepted]
    exact hs.complete hnone

end Accepted

/-! ## The runs -/

section Runs

variable {ι : Type*} [DecidableEq ι] {localtime : ℤ → Bytes}

/-- What holds in every state of the server. -/
structure Kept (localtime : ℤ → Bytes) (acts : ι → List Action) (logFile : Bytes)
    (srv : Server ι) : Prop where
  /-- The trail keeps its own invariant. -/
  consistent : ∃ past,Consistent localtime logFile past srv.audit
  /-- Every handler has performed the front of its acts. -/
  produced : Produced acts srv.rest srv.history
  /-- The accepted events are the recorded ones but for the rejected ones. -/
  accepts : Accepts (audits (srv.history.map Prod.snd)) srv.audit

/-- The sessions and the trail agree at the start. -/
theorem kept_initial (acts : ι → List Action) (logFile : Bytes) :
    Kept localtime acts logFile (.initial acts logFile) where
  consistent := ⟨[],consistent_initial localtime logFile⟩
  produced := produced_initial acts
  accepts := ⟨List.Sublist.refl [],fun _ => rfl⟩

/-- The trail keeps its invariant through every act. -/
theorem consistent_act {logFile : Bytes} {past : List AuditLabel} {s t : AuditRun}
    (hs : Consistent localtime logFile past s) {now : ℤ} {a : Action}
    (h : actOnTrail localtime s now a=some t) : ∃ past',Consistent localtime logFile past' t := by
  cases a with
  | audit e =>
    have hcall : auditStep localtime s (.record now e)=some t := h
    exact ⟨_,consistent_step localtime hs hcall⟩
  | send bytes =>
    cases h
    exact ⟨past,hs⟩
  | log message =>
    cases h
    exact ⟨past,hs⟩
  | close =>
    cases h
    exact ⟨past,hs⟩

/-- Every step keeps it. -/
theorem kept_step {acts : ι → List Action} {logFile : Bytes} {srv t : Server ι}
    {a : ServerLabel ι} (hs : Kept localtime acts logFile srv)
    (h : serverStep localtime srv a=some t) : Kept localtime acts logFile t := by
  obtain ⟨past,hpast⟩ := hs.consistent
  cases a with
  | act i now =>
    obtain ⟨a,as,hrest,haudit,ht,hhistory⟩ := serverStep_act localtime h
    refine ⟨consistent_act hpast haudit,?_,?_⟩
    · rw [ht,hhistory]
      exact produced_step hs.produced hrest
    · rw [hhistory,List.map_append,audits_append]
      exact accepts_act hs.accepts haudit
  | audit a =>
    obtain ⟨hrecord,haudit,hrest,hhistory⟩ := serverStep_audit localtime h
    refine ⟨⟨_,consistent_step localtime hpast haudit⟩,?_,?_⟩
    · rw [hrest,hhistory]
      exact hs.produced
    · rw [hhistory]
      exact accepts_silent hs.accepts hrecord haudit

/-- The sessions and the trail agree in every state that any schedule reaches. -/
theorem kept_run {acts : ι → List Action} {logFile : Bytes} {labels : List (ServerLabel ι)}
    {srv : Server ι} (hrun : execute (serverStep localtime) (.initial acts logFile) labels=some srv) :
    Kept localtime acts logFile srv :=
  execute_invariant (fun _ _ _ hs h => kept_step hs h) (kept_initial acts logFile) hrun

end Runs

/-! ## The entries of a session -/

/-- The identifier of a session as the field of a record keeps it. -/
def keptId (s : Session) : Bytes := (cstr s.sessionId).take 63

/-- What an entry says apart from its time and its place in the log. -/
def content (v : AuditEntry) : AuditEntry := {v with timestamp := 0,sequenceNumber := 0}

/-- What the entry of an event says. -/
def eventContent (e : AuditEvent) : AuditEntry := e.entry 0 0

/-- What the entries with the identifier of a session say, in their order. -/
def entriesOf (s : Session) (entries : List AuditEntry) : List AuditEntry :=
  (entries.map content).filter (fun v => v.sessionId=keptId s)

/-- What the log has of a session whose handler performs the given acts. -/
structure LogKeeps (s : Session) (proto : ProtocolType) (acts : List Action) (rest : List Action)
    (audit : AuditRun) : Prop where
  /-- Every entry is an event of the session, in the order of its handler, none twice. -/
  sublist : (entriesOf s (audit.handed.map AuditRecord.view)).Sublist
    ((audits acts).map eventContent)
  /-- Every entry names the session's peer and protocol. -/
  origin : ∀ v∈entriesOf s (audit.handed.map AuditRecord.view),
    v.sourceIp=(cstr s.remoteIp).take 45 ∧ v.sourcePort=s.remotePort ∧
      v.protocol=protocolNumber proto
  /-- Without a rejected event the entries are the first events of the session. -/
  front : audit.rejected=[] →
    entriesOf s (audit.handed.map AuditRecord.view)<+:(audits acts).map eventContent
  /-- The entries are all events of the session once its handler is done and the ring is empty. -/
  whole : audit.rejected=[] → rest=[] → audit.trail.count=0 →
    entriesOf s (audit.handed.map AuditRecord.view)=(audits acts).map eventContent

/-- The written entries say what the first accepted events say. -/
theorem content_written {localtime : ℤ → Bytes} {logFile : Bytes} {past : List AuditLabel}
    {audit : AuditRun} (hs : Consistent localtime logFile past audit) :
    (audit.handed.map AuditRecord.view).map content=
      ((audit.accepted.map Prod.snd).take audit.handed.length).map eventContent := by
  have hcontent : ∀ accepted : List (ℤ×AuditEvent),
      (accepted.mapIdx acceptedEntry).map content=(accepted.map Prod.snd).map eventContent := by
    intro accepted
    refine List.ext_getElem ?_ ?_
    · rw [List.length_map,List.length_mapIdx,List.length_map,List.length_map]
    · intro k hk hk'
      rw [List.getElem_map,List.getElem_mapIdx,List.getElem_map,List.getElem_map]
      rfl
  rw [written_entries hs,List.map_take,hcontent,List.map_take]

/-- An empty ring has been written whole. -/
theorem length_handed {localtime : ℤ → Bytes} {logFile : Bytes} {past : List AuditLabel}
    {audit : AuditRun} (hs : Consistent localtime logFile past audit) (hcount : audit.trail.count=0) :
    audit.handed.length=audit.accepted.length := by
  have hlength := congrArg List.length hs.stored
  rw [List.length_map,List.length_append,List.length_mapIdx,pending,hcount] at hlength
  exact hlength

section Sessions

variable {ι : Type*} [DecidableEq ι] {localtime : ℤ → Bytes} {logFile : Bytes}
  {s : ι → Session} {run : ι → ServiceRun}

/-- An event of an act in the history is an event of the session that acted. -/
theorem ownEvent_of_history {srv : Server ι}
    (hproduced : Produced (fun i => (run i).acts (s i)) srv.rest srv.history) {i : ι} {e : AuditEvent}
    (he : (i,Action.audit e)∈srv.history) : OwnEvent (s i) (protocolOf (run i)) e := by
  have hmem := hproduced.mem he
  exact ownActs_run (s i) (run i) e (List.mem_filterMap.mpr ⟨_,hmem,rfl⟩)

/-- The recorded events with a session's identifier are that session's. -/
theorem recorded_of_session (hnames : Function.Injective (fun i => keptId (s i))) {srv : Server ι}
    (hproduced : Produced (fun i => (run i).acts (s i)) srv.rest srv.history) (i : ι) :
    ((audits (srv.history.map Prod.snd)).filter
        (fun e => (eventContent e).sessionId=keptId (s i)))=audits (itemsOf i srv.history) := by
  refine filterMap_name hnames ?_ i
  intro a ha e he
  have haudit : a.2=.audit e := by
    cases hact : a.2 with
    | audit e' =>
      rw [hact] at he
      rw [Option.some.inj he]
    | send bytes =>
      rw [hact] at he
      cases he
    | log message =>
      rw [hact] at he
      cases he
    | close =>
      rw [hact] at he
      cases he
  have hown := ownEvent_of_history hproduced (i := a.1) (e := e) (by rw [←haudit]; exact ha)
  rw [eventContent,AuditEvent.entry,hown.sessionId,Option.getD_some,keptId]

/-- The entries of a session among the first of some events are that session's
share of these. -/
theorem entriesOf_events (sess : Session) (events : List AuditEvent) :
    (events.map eventContent).filter (fun v => v.sessionId=keptId sess)=
      (events.filter (fun e => (eventContent e).sessionId=keptId sess)).map eventContent :=
  List.filter_map

/-- In every state that any schedule of any sessions with different identifiers
reaches, the log has of each session what its handler recorded: its own events
only, in its order, and all of them where no call found the ring full. -/
theorem log_keeps_every_session (localtime : ℤ → Bytes) (logFile : Bytes) (s : ι → Session)
    (run : ι → ServiceRun) (hnames : Function.Injective (fun i => keptId (s i)))
    (labels : List (ServerLabel ι)) {srv : Server ι}
    (hrun : execute (serverStep localtime) (.initial (fun i => (run i).acts (s i)) logFile) labels=
      some srv) (i : ι) :
    LogKeeps (s i) (protocolOf (run i)) ((run i).acts (s i)) (srv.rest i) srv.audit := by
  have hkept := kept_run hrun
  obtain ⟨past,hpast⟩ := hkept.consistent
  have hshare := recorded_of_session hnames hkept.produced i
  have hfront : audits (itemsOf i srv.history)<+:audits ((run i).acts (s i)) :=
    (hkept.produced.front i).filterMap _
  have hentries : entriesOf (s i) (srv.audit.handed.map AuditRecord.view)=
      (((srv.audit.accepted.map Prod.snd).take srv.audit.handed.length).filter
        (fun e => (eventContent e).sessionId=keptId (s i))).map eventContent := by
    rw [entriesOf,content_written hpast,entriesOf_events]
  have hsublist : (entriesOf (s i) (srv.audit.handed.map AuditRecord.view)).Sublist
      ((audits ((run i).acts (s i))).map eventContent) := by
    rw [hentries]
    refine List.Sublist.map _ (List.Sublist.trans ?_ hfront.sublist)
    rw [←hshare]
    exact ((List.take_sublist _ _).trans hkept.accepts.sublist).filter _
  refine ⟨hsublist,?_,?_,?_⟩
  · intro v hv
    obtain ⟨e,he,hve⟩ := List.mem_map.mp (hsublist.subset hv)
    have hown := ownActs_run (s i) (run i) e he
    rw [←hve,eventContent,AuditEvent.entry,hown.sourceIp,hown.sourcePort,hown.protocol]
    exact ⟨rfl,rfl,rfl⟩
  · intro hnone
    rw [hentries,hkept.accepts.complete hnone]
    refine List.IsPrefix.map _ (List.IsPrefix.trans ?_ hfront)
    rw [←hshare]
    exact (List.take_prefix _ _).filter _
  · intro hnone hrest hcount
    rw [hentries,List.take_of_length_le,hkept.accepts.complete hnone,hshare,
      hkept.produced.complete hrest]
    rw [List.length_map,length_handed hpast hcount]

end Sessions

/-- Two mail clients that hang up at once, told apart by their identifiers. -/
def twoSessions (second : Bool) : Session :=
  ⟨text "10.0.0.7",if second then 4243 else 4242,if second then text "pop3-b" else text "pop3-a"⟩

/-- A schedule that mixes the two handlers and the flush thread. -/
def mixedSchedule : List (ServerLabel Bool) :=
  [.act false 0,.act true 0,.act false 0,.audit .test,.audit (.batch (fun _ => none)),.act true 1,
    .act true 1,.act false 2,.act true 2,.act false 2,.audit .test,.audit (.batch (fun _ => none))]

/-- The mixed schedule ends with an empty ring and without a rejected event. -/
theorem mixedSchedule_ends :
    ∃ srv : Server Bool,
      execute (serverStep epochText)
          (.initial (fun i => (ServiceRun.pop3 []).acts (twoSessions i)) []) mixedSchedule=some srv ∧
      srv.audit.rejected=[] ∧ srv.rest true=[] ∧ srv.audit.trail.count=0 :=
  ⟨_,rfl,rfl,rfl,rfl⟩

/-- Behind the mixed schedule the log has both sessions whole. -/
theorem log_keeps_two_sessions :
    ∃ srv : Server Bool,
      execute (serverStep epochText)
          (.initial (fun i => (ServiceRun.pop3 []).acts (twoSessions i)) []) mixedSchedule=some srv ∧
      entriesOf (twoSessions true) (srv.audit.handed.map AuditRecord.view)=
        (audits ((ServiceRun.pop3 []).acts (twoSessions true))).map eventContent := by
  obtain ⟨srv,hrun,hnone,hrest,hcount⟩ := mixedSchedule_ends
  have hnames : Function.Injective (fun i => keptId (twoSessions i)) := by decide
  have hkeeps := log_keeps_every_session epochText [] twoSessions (fun _ => .pop3 []) hnames
    mixedSchedule hrun true
  exact ⟨srv,hrun,hkeeps.whole hnone hrest hcount⟩

end HoneyDew.SessionLog
