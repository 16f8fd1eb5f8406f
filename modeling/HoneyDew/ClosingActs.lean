import HoneyDew.Attribution
import HoneyDew.HttpService
import HoneyDew.SmtpService

/-!
# The close at the end of a handler

A handler that owns its descriptor closes it in one place. In front of it the descriptor
stays open, and behind it the handler only records and logs. So it neither sends to nor
closes a descriptor that the kernel may have given to somebody else.
-/

namespace HoneyDew.ClosingActs

open CText AuditTrail Connection Service AuditBracket Attribution
open FtpService TelnetService MysqlService PostgresWire PostgresServices MailServices
open DnsService RedisCommands RedisParser SmtpService HttpService

/-- The act leaves the descriptor alone. -/
def isQuiet : Action → Bool
  | .audit _ => true
  | .log _ => true
  | .send _ => false
  | .close => false

/-- Acts that leave the descriptor alone. -/
def Quiet (actions : List Action) : Prop := ∀ a∈actions,isQuiet a=true

/-- Acts that do not close the descriptor. -/
def KeepsOpen (actions : List Action) : Prop := ∀ a∈actions,a≠.close

/-- Behind a close, the descriptor is left alone. -/
def QuietBehindClose (actions : List Action) : Prop :=
  ∀ front back,actions=front++.close::back → Quiet back

/-! ## The acts -/

section Acts

variable {s : Session} {proto : ProtocolType} {xs ys : List Action}

@[simp] theorem keepsOpen_nil : KeepsOpen [] := fun _ h => absurd h List.not_mem_nil

@[simp] theorem keepsOpen_append : KeepsOpen (xs++ys) ↔ KeepsOpen xs ∧ KeepsOpen ys :=
  List.forall_mem_append

/-- An act in front that is no close. -/
theorem keepsOpen_cons {a : Action} (ha : a≠.close) : KeepsOpen (a::xs) ↔ KeepsOpen xs :=
  List.forall_mem_cons.trans (and_iff_right ha)

@[simp] theorem keepsOpen_audit (e : AuditEvent) : KeepsOpen (.audit e::xs) ↔ KeepsOpen xs :=
  keepsOpen_cons nofun

@[simp] theorem keepsOpen_send (bytes : Bytes) : KeepsOpen (.send bytes::xs) ↔ KeepsOpen xs :=
  keepsOpen_cons nofun

@[simp] theorem keepsOpen_utilitiesLog (formatted : Bytes) :
    KeepsOpen (utilitiesLog formatted::xs) ↔ KeepsOpen xs :=
  keepsOpen_cons nofun

@[simp] theorem keepsOpen_recordAuth (username : Bytes) (password : Option Bytes) (success : Bool) :
    KeepsOpen (s.recordAuth proto username password success::xs) ↔ KeepsOpen xs :=
  keepsOpen_audit _

@[simp] theorem keepsOpen_recordCommand (command : Bytes) :
    KeepsOpen (s.recordCommand proto command::xs) ↔ KeepsOpen xs := keepsOpen_audit _

@[simp] theorem keepsOpen_recordEvent (eventType : AuditEventType) (severity : AuditSeverity)
    (username details : Bytes) :
    KeepsOpen (s.recordEvent eventType severity proto username details::xs) ↔ KeepsOpen xs :=
  keepsOpen_audit _

@[simp] theorem keepsOpen_recordDisconnect :
    KeepsOpen (s.recordDisconnect proto::xs) ↔ KeepsOpen xs := keepsOpen_audit _

@[simp] theorem keepsOpen_report (label : String) (value : Bytes) :
    KeepsOpen (report s label value::xs) ↔ KeepsOpen xs := keepsOpen_utilitiesLog _

@[simp] theorem keepsOpen_reportCredentials (label : String) (username password : Bytes) :
    KeepsOpen (reportCredentials s label username password::xs) ↔ KeepsOpen xs := keepsOpen_utilitiesLog _

/-- Sends alone keep the descriptor open. -/
theorem keepsOpen_sends (replies : List Bytes) : KeepsOpen (replies.map .send) := by
  intro a ha
  obtain ⟨bytes,_,rfl⟩ := List.mem_map.mp ha
  exact nofun

/-- The events recorded for a list of parts keep it open. -/
theorem keepsOpen_flatMap {β : Type*} {f : β → List Action} (h : ∀ b,KeepsOpen (f b)) (bs : List β) :
    KeepsOpen (bs.flatMap f) := by
  intro a ha
  obtain ⟨b,_,hb⟩ := List.mem_flatMap.mp ha
  exact h b a hb

/-- An act in front that is no close does not matter. -/
theorem quietBehindClose_cons {a : Action} (ha : a≠.close) :
    QuietBehindClose (a::xs) ↔ QuietBehindClose xs := by
  constructor
  · intro h front back heq
    exact h (a::front) back (by rw [heq]; rfl)
  · intro h front back heq
    cases front with
    | nil => exact absurd (List.cons.inj heq).1 ha
    | cons b front => exact h front back (List.cons.inj heq).2

/-- A close in front is the first one. -/
theorem quietBehindClose_close : QuietBehindClose (.close::xs) ↔ Quiet xs := by
  constructor
  · exact fun h => h [] xs rfl
  · intro h front back heq
    cases front with
    | nil =>
      rw [←(List.cons.inj heq).2]
      exact h
    | cons b front =>
      intro a ha
      refine h a ?_
      rw [(List.cons.inj heq).2]
      exact List.mem_append_right _ (List.mem_cons_of_mem _ ha)

/-- Acts that keep the descriptor open may stand in front of the others. -/
theorem quietBehindClose_append (h : KeepsOpen xs) :
    QuietBehindClose (xs++ys) ↔ QuietBehindClose ys := by
  induction xs with
  | nil => exact Iff.rfl
  | cons a xs ih =>
    rw [List.cons_append,quietBehindClose_cons (h a List.mem_cons_self)]
    exact ih (fun b hb => h b (List.mem_cons_of_mem a hb))

/-- A session that starts does so in front of its close. -/
theorem quietBehindClose_recordConnection :
    QuietBehindClose (s.recordConnection proto::xs) ↔ QuietBehindClose xs :=
  quietBehindClose_cons nofun

/-- A record of a login attempt stands in front of the close. -/
theorem quietBehindClose_recordAuth (username : Bytes) (password : Option Bytes) (success : Bool) :
    QuietBehindClose (s.recordAuth proto username password success::xs) ↔ QuietBehindClose xs :=
  quietBehindClose_cons nofun

/-- A send of the handler itself stands in front of the close. -/
theorem quietBehindClose_send (bytes : Bytes) :
    QuietBehindClose (.send bytes::xs) ↔ QuietBehindClose xs :=
  quietBehindClose_cons nofun

/-- A handler may close at its end. -/
theorem quietBehindClose_end : QuietBehindClose [.close] :=
  quietBehindClose_close.mpr (fun _ h => absurd h List.not_mem_nil)

/-- What is left alone is left alone behind a close. -/
theorem Quiet.behindClose (h : Quiet xs) : QuietBehindClose xs := by
  intro front back heq
  refine absurd (h .close ?_) Bool.false_ne_true
  rw [heq]
  exact List.mem_append_right _ List.mem_cons_self

end Acts

/-! ## The handlers -/

section Handlers

variable (s : Session)

/-- A dispatched Redis command keeps the descriptor open. -/
theorem keepsOpen_redisDispatchCommand (argv : List Bytes) :
    KeepsOpen (redisDispatchCommand s argv) := by
  unfold redisDispatchCommand
  split
  · exact keepsOpen_nil
  · rw [keepsOpen_recordCommand,keepsOpen_append]
    refine ⟨?_,keepsOpen_sends _⟩
    split
    · rw [keepsOpen_recordAuth]
      exact keepsOpen_nil
    · exact keepsOpen_nil

/-- Every FTP line keeps the descriptor open. -/
theorem keepsOpen_ftpExecute (sess : FtpSession) (line : Bytes) :
    KeepsOpen (ftpExecute s sess line).acts := by
  have hcommand : ∀ verb,KeepsOpen (ftpHandleCommand s sess line verb).2 := by
    intro verb
    cases verb <;> simp [ftpHandleCommand]
  unfold ftpExecute
  split
  · simp [ftpHandleUser]
  · simp only [ftpHandlePass,List.cons_append,List.nil_append,keepsOpen_recordAuth,keepsOpen_send]
    split <;> simp
  · simp
  · split
    · exact hcommand _
    · simp

/-- The bytes of an FTP segment keep the descriptor open. -/
theorem keepsOpen_ftpSegment (loop : FtpLoop) (bytes : Bytes) :
    KeepsOpen (ftpSegment s loop bytes).2 := by
  have hbyte : ∀ (loop : FtpLoop) (c : Byte),KeepsOpen (ftpByte s loop c).2 := by
    intro loop c
    unfold ftpByte
    split
    · split
      · exact keepsOpen_nil
      · exact keepsOpen_ftpExecute s _ _
    · split <;> exact keepsOpen_nil
  induction bytes generalizing loop with
  | nil => exact keepsOpen_nil
  | cons c cs ih =>
    rw [ftpSegment,keepsOpen_append]
    exact ⟨hbyte loop c,ih _⟩

/-- The FTP receive loop keeps the descriptor open. -/
theorem keepsOpen_ftpReceive (loop : FtpLoop) (results : List RecvResult) :
    KeepsOpen (ftpReceive s loop results) := by
  induction results generalizing loop with
  | nil => exact keepsOpen_nil
  | cons r rs ih =>
    rw [ftpReceive]
    split
    · split
      · exact keepsOpen_nil
      · rw [keepsOpen_append]
        exact ⟨keepsOpen_ftpSegment s loop _,ih _⟩
    · exact keepsOpen_nil

/-- A Telnet answer keeps the descriptor open. -/
theorem keepsOpen_telnetFakeResponse (cmd : Bytes) : KeepsOpen (telnetFakeResponse s cmd).1 := by
  unfold telnetFakeResponse
  split
  · exact keepsOpen_nil
  · split
    · dsimp only
      split <;> simp
    · split
      · exact keepsOpen_nil
      · split <;> exact keepsOpen_nil

/-- The Telnet shell keeps the descriptor open. -/
theorem keepsOpen_telnetShell (results : List RecvResult) : KeepsOpen (telnetShell s results) := by
  induction results with
  | nil => exact (keepsOpen_send _).mpr keepsOpen_nil
  | cons r rs ih =>
    rw [telnetShell,keepsOpen_send]
    split
    · exact keepsOpen_nil
    · split
      · exact ih
      · rw [keepsOpen_recordCommand,keepsOpen_append]
        refine ⟨keepsOpen_telnetFakeResponse s _,?_⟩
        split
        · exact keepsOpen_nil
        · rw [keepsOpen_append]
          refine ⟨?_,ih⟩
          split <;> simp

/-- The Telnet login and the shell behind it keep the descriptor open. -/
theorem keepsOpen_telnetLogin (k : ℕ) (results : List RecvResult) :
    KeepsOpen (telnetLogin s k results) := by
  induction k generalizing results with
  | zero => exact (keepsOpen_send _).mpr (keepsOpen_telnetShell s results)
  | succ k ih =>
    rw [telnetLogin,keepsOpen_append]
    refine ⟨by split <;> simp,?_⟩
    split
    · exact keepsOpen_nil
    · rw [keepsOpen_append]
      refine ⟨by simp,?_⟩
      split
      · simp
      · simp [ih]

/-- The POP3 commands keep the descriptor open. -/
theorem keepsOpen_pop3Commands (username : Bytes) (results : List RecvResult) :
    KeepsOpen (pop3Commands s username results) := by
  induction results generalizing username with
  | nil => exact keepsOpen_nil
  | cons r rs ih =>
    rw [pop3Commands]
    split
    · exact keepsOpen_nil
    · rw [keepsOpen_recordCommand]
      split
      · exact (keepsOpen_send _).mpr (ih _)
      · split
        · rw [keepsOpen_recordAuth,keepsOpen_send]
          exact ih _
        · rw [keepsOpen_send]
          split
          · exact keepsOpen_nil
          · exact ih _

/-- The IMAP commands keep the descriptor open. -/
theorem keepsOpen_imapCommands (results : List RecvResult) : KeepsOpen (imapCommands s results) := by
  induction results with
  | nil => exact keepsOpen_nil
  | cons r rs ih =>
    rw [imapCommands]
    split
    · exact keepsOpen_nil
    · rw [keepsOpen_recordCommand]
      split
      · rw [keepsOpen_recordAuth,keepsOpen_send]
        exact ih
      · rw [keepsOpen_send]
        split
        · exact keepsOpen_nil
        · exact ih

/-- A DNS answer keeps the descriptor open. -/
theorem keepsOpen_dnsAnswer (msg : Bytes) (len : ℕ) (tcpFramed : Bool) :
    KeepsOpen (dnsAnswer s msg len tcpFramed) := by
  have hsend : ∀ reply,KeepsOpen (dnsSend tcpFramed reply) := by
    intro reply
    unfold dnsSend
    split
    · exact keepsOpen_nil
    · split <;> simp
  unfold dnsAnswer
  split
  · exact keepsOpen_nil
  · split
    · exact hsend _
    · exact hsend _
    · rw [keepsOpen_recordCommand]
      split
      · simp [hsend]
      · split <;> exact hsend _

/-- The start of the PostgreSQL protocol keeps the descriptor open. -/
theorem keepsOpen_startup (memory : Bytes) (results : List RecvResult) :
    KeepsOpen (startup memory results).1 := by
  have hversion : ∀ memory' n later,KeepsOpen (checkVersion memory' n later).1 := by
    intro memory' n later
    unfold checkVersion
    split <;> simp
  unfold startup
  split
  · exact keepsOpen_nil
  · split
    · exact keepsOpen_nil
    · split
      · dsimp only
        split
        · simp
        · split
          · simp
          · exact (keepsOpen_send _).mpr (hversion _ _ _)
      · exact hversion _ _ _

/-- The QuestDB queries keep the descriptor open. -/
theorem keepsOpen_qdbQueries (results : List RecvResult) : KeepsOpen (qdbQueries s results) := by
  have hanswer : ∀ sql,KeepsOpen (qdbAnswer sql) := by
    intro sql
    unfold qdbAnswer
    repeat' split
    all_goals simp [qdbEmptyQueryResult]
  induction results with
  | nil => exact keepsOpen_nil
  | cons r rs ih =>
    rw [qdbQueries]
    split
    · exact keepsOpen_nil
    · split
      · rw [keepsOpen_recordCommand,keepsOpen_append,keepsOpen_send]
        exact ⟨hanswer _,ih⟩
      · split
        · exact keepsOpen_nil
        · split
          · exact (keepsOpen_send _).mpr ih
          · exact ih

/-- A MySQL denial keeps the descriptor open. -/
theorem keepsOpen_mysqlDeny (memory : Bytes) (username : Option ℕ) (seqId : Byte) :
    KeepsOpen (mysqlDeny s memory username seqId) := by
  unfold mysqlDeny
  dsimp only
  split <;> simp

/-- The MySQL queries keep the descriptor open. -/
theorem keepsOpen_mysqlQueries (username : Option ℕ) (memory : Bytes) (results : List RecvResult) :
    KeepsOpen (mysqlQueries s username memory results) := by
  induction results generalizing memory with
  | nil => exact keepsOpen_nil
  | cons r rs ih =>
    rw [mysqlQueries]
    split
    · exact keepsOpen_nil
    · rw [keepsOpen_append,keepsOpen_append]
      refine ⟨?_,keepsOpen_mysqlDeny s _ _ _,ih _⟩
      unfold mysqlExtractAndLogQuery
      split
      · exact keepsOpen_nil
      · split <;> simp

/-- The MySQL handler leaves the descriptor alone behind its close, at all its exits. -/
theorem quietBehindClose_runMysqlService (connId : ℕ) (salt : MysqlSalt) (sent : ℤ) (memory : Bytes)
    (results : List RecvResult) :
    QuietBehindClose (runMysqlService s connId salt sent memory results) := by
  have hend : QuietBehindClose [.close,s.recordDisconnect .mysql] := by
    refine quietBehindClose_close.mpr ?_
    intro a ha
    rw [List.mem_singleton.mp ha]
    rfl
  unfold runMysqlService
  dsimp only
  rw [quietBehindClose_recordConnection]
  split
  · exact quietBehindClose_end
  · rw [quietBehindClose_send]
    split
    · exact quietBehindClose_end
    · split
      · exact quietBehindClose_end
      · split
        · exact quietBehindClose_end
        · rw [quietBehindClose_recordAuth,quietBehindClose_append (keepsOpen_mysqlDeny s _ _ _),
            quietBehindClose_append (keepsOpen_mysqlQueries s _ _ _)]
          exact hend

end Handlers

section Smtp

variable (s : Session)

/-- A body keeps the descriptor open behind a send that may fail. -/
theorem keepsOpen_sendOrReturn {start : List Action} {body : Wire → List Action×Option Wire} (w : Wire)
    (hstart : KeepsOpen start) (hbody : ∀ w,KeepsOpen (body w).1) :
    KeepsOpen (sendOrReturn start body w).1 := by
  unfold sendOrReturn
  split
  · exact hbody _
  · exact hstart

/-- A body behind a line that may be missing keeps the descriptor open. -/
theorem keepsOpen_lineOrReturn {start : List Action}
    {body : Bytes → Wire → List Action×Option Wire} (w : Wire) (hstart : KeepsOpen start)
    (hbody : ∀ line w,KeepsOpen (body line w).1) : KeepsOpen (lineOrReturn start body w).1 := by
  unfold lineOrReturn
  split
  · exact hstart
  · exact hbody _ _

/-- The user name and the password are asked for on an open descriptor. -/
theorem keepsOpen_smtpHandleAuthLogin (w : Wire) : KeepsOpen (smtpHandleAuthLogin s w).1 := by
  have hstart : KeepsOpen [.send smtpAuthUsernameChallenge] := (keepsOpen_send _).mpr keepsOpen_nil
  unfold smtpHandleAuthLogin
  refine keepsOpen_sendOrReturn w hstart ?_
  intro w
  refine keepsOpen_lineOrReturn w hstart ?_
  intro first w
  have hasked : ∀ (label : String) (value : Bytes),KeepsOpen ([.send smtpAuthUsernameChallenge]++
      [report s label value,.send smtpAuthPasswordChallenge]) := fun label value =>
    keepsOpen_append.mpr ⟨hstart,(keepsOpen_report _ _).mpr ((keepsOpen_send _).mpr keepsOpen_nil)⟩
  refine keepsOpen_sendOrReturn w (hasked _ _) ?_
  intro w
  refine keepsOpen_lineOrReturn w (hasked _ _) ?_
  intro second w
  exact keepsOpen_append.mpr ⟨hasked _ _,(keepsOpen_report _ _).mpr
    ((keepsOpen_reportCredentials _ _ _).mpr ((keepsOpen_send _).mpr keepsOpen_nil))⟩

/-- The user name and the password in one line are taken on an open descriptor. -/
theorem keepsOpen_smtpHandleAuthPlain (arg : Bytes) (w : Wire) :
    KeepsOpen (smtpHandleAuthPlain s arg w).1 := by
  have hcredentials : ∀ data,KeepsOpen (smtpPlainCredentials s data) := by
    intro data
    simp [smtpPlainCredentials]
  unfold smtpHandleAuthPlain
  split
  · exact hcredentials _
  · refine keepsOpen_sendOrReturn w (by simp) (fun w => keepsOpen_lineOrReturn w (by simp) ?_)
    intro line w
    exact (keepsOpen_send _).mpr (hcredentials _)

/-- The mail text is taken on an open descriptor. -/
theorem keepsOpen_smtpHandleData (w : Wire) : KeepsOpen (smtpHandleData s w).1 := by
  refine keepsOpen_sendOrReturn w (by simp) ?_
  intro w
  unfold smtpCollectData
  split
  · simp
  · simp [reportData]

/-- Every SMTP command keeps the descriptor open. -/
theorem keepsOpen_smtpExecute (line : Bytes) (w : Wire) : KeepsOpen (smtpExecute s line w).1 := by
  have hlogin := keepsOpen_smtpHandleAuthLogin s w
  have hplain := keepsOpen_smtpHandleAuthPlain s (argument line 10) w
  have hdata := keepsOpen_smtpHandleData s w
  have hpair : ∀ (a : Action) (bytes : Bytes),a≠.close → KeepsOpen [a,.send bytes] :=
    fun a bytes ha => (keepsOpen_cons ha).mpr ((keepsOpen_send bytes).mpr keepsOpen_nil)
  unfold smtpExecute
  repeat' split
  all_goals first
    | exact hlogin
    | exact hplain
    | exact hdata
    | exact hpair _ _ nofun

/-- The SMTP command loop keeps the descriptor open. -/
theorem keepsOpen_smtpCommands (fuel : ℕ) (w : Wire) : KeepsOpen (smtpCommands s fuel w).1 := by
  induction fuel generalizing w with
  | zero => exact keepsOpen_nil
  | succ fuel ih =>
    rw [smtpCommands]
    split
    · exact keepsOpen_nil
    · dsimp only
      split
      · exact ih _
      · have hline := fun line w => keepsOpen_smtpExecute s line w
        split
        · exact (keepsOpen_report _ _).mpr (hline _ _)
        · exact (keepsOpen_report _ _).mpr (hline _ _)
        · exact (keepsOpen_report _ _).mpr (keepsOpen_append.mpr ⟨hline _ _,ih _⟩)

end Smtp

section Http

/-- A call of `handle_http` keeps the descriptor open. -/
theorem keepsOpen_httpHandled (conn : ConnectionT) : KeepsOpen (httpHandled conn).actions :=
  keepsOpen_sends _

/-- The HTTP loop over the lines in the buffer keeps the descriptor open. -/
theorem keepsOpen_httpLines (c : HttpConnection) : KeepsOpen (httpLines c).1.actions := by
  fun_induction httpLines c with
  | case1 c rest h => exact keepsOpen_nil
  | case2 c line rest h conn front hclose =>
    exact (keepsOpen_utilitiesLog _).mpr (keepsOpen_httpHandled c.conn)
  | case3 c line rest h conn front hopen others ih =>
    exact keepsOpen_append.mpr ⟨(keepsOpen_utilitiesLog _).mpr (keepsOpen_httpHandled c.conn),ih⟩

/-- Behind the close of the HTTP handler only a log line follows. -/
theorem quietBehindClose_httpDone (conn : ConnectionT) : QuietBehindClose (httpDone conn) := by
  refine quietBehindClose_close.mpr ?_
  intro a ha
  rw [List.mem_singleton.mp ha]
  rfl

/-- Behind the close in the HTTP receive loop only a log line follows. -/
theorem quietBehindClose_httpLoop {c : HttpConnection} {results : List (RecvResult×(ℕ → Byte))}
    {run : HttpRun} (h : httpLoop c results=some run) : QuietBehindClose run.actions := by
  induction results generalizing c run with
  | nil =>
    cases h
    intro front back heq
    cases front <;> cases heq
  | cons head results ih =>
    obtain ⟨result,garbage⟩ := head
    rw [httpLoop] at h
    split at h
    · cases h
      refine (quietBehindClose_cons ?_).mpr (quietBehindClose_httpDone c.conn)
      cases result <;> intro heq <;> cases heq
    · split at h
      · cases h
      · rename_i reassembly _
        dsimp only at h
        have hlines := keepsOpen_httpLines {c with reassembly := reassembly}
        split at h
        · cases h
          exact (quietBehindClose_append hlines).mpr (quietBehindClose_httpDone _)
        · obtain ⟨later,hlater,hrun⟩ := Option.map_eq_some_iff.mp h
          rw [←hrun]
          exact (quietBehindClose_append hlines).mpr (ih hlater)

end Http

/-- A run of a handler that closes its descriptor itself. -/
inductive SocketRun
  /-- A handler that records its session. -/
  | recorded (s : Session) (run : ServiceRun) (hrun : protocolOf run≠.ssh)
  /-- The SMTP handler. -/
  | smtp (s : Session) (w : Wire)
  /-- The HTTP handler. -/
  | http (conn : ConnectionT) (results : List (RecvResult×(ℕ → Byte))) (run : HttpRun)
    (hrun : runHttpService conn results=some run)

/-- What the handler does in a run. -/
def SocketRun.acts : SocketRun → List Action
  | recorded s run _ => run.acts s
  | smtp s w => runSmtpService s w
  | http _ _ run _ => run.actions

/-- No handler sends to its descriptor or closes it behind its close. -/
theorem quietBehindClose_acts (run : SocketRun) : QuietBehindClose run.acts := by
  have hend : ∀ {front : List Action} (s : Session) (proto : ProtocolType),KeepsOpen front →
      QuietBehindClose (front++[s.recordDisconnect proto,.close]) :=
    fun s proto hfront => (quietBehindClose_append hfront).mpr
      ((quietBehindClose_cons (a := s.recordDisconnect proto) nofun).mpr quietBehindClose_end)
  cases run with
  | smtp s w =>
    have hsession : KeepsOpen (smtpSession s w).1 :=
      keepsOpen_sendOrReturn w keepsOpen_nil (fun w => keepsOpen_smtpCommands s _ w)
    exact (quietBehindClose_send _).mpr ((quietBehindClose_append hsession).mpr quietBehindClose_end)
  | http conn results run hrun =>
    obtain ⟨later,hlater,hlast⟩ := Option.map_eq_some_iff.mp hrun
    have hfront : KeepsOpen (HttpRun.append ⟨[openedLog conn],[]⟩ (httpHandled conn)).actions :=
      (keepsOpen_utilitiesLog _).mpr (keepsOpen_httpHandled conn)
    rw [SocketRun.acts,←hlast]
    exact (quietBehindClose_append hfront).mpr (quietBehindClose_httpLoop hlater)
  | recorded s run hrun =>
    cases run with
    | ssh env => exact absurd rfl hrun
    | mysql connId salt sent memory results =>
      exact quietBehindClose_runMysqlService s connId salt sent memory results
    | ftp results => exact quietBehindClose_recordConnection.mpr ((quietBehindClose_send _).mpr
        (hend s .ftp (keepsOpen_ftpReceive s .start results)))
    | telnet results => exact quietBehindClose_recordConnection.mpr (hend s .telnet (keepsOpen_telnetLogin s 2 results))
    | redis memory h results =>
      exact quietBehindClose_recordConnection.mpr
        (hend s .redis (keepsOpen_flatMap (keepsOpen_redisDispatchCommand s) _))
    | pop3 results => exact quietBehindClose_recordConnection.mpr ((quietBehindClose_send _).mpr
        (hend s .pop3 (keepsOpen_pop3Commands s [] results)))
    | imap results => exact quietBehindClose_recordConnection.mpr ((quietBehindClose_send _).mpr
        (hend s .imap (keepsOpen_imapCommands s results)))
    | dns memory results =>
      refine quietBehindClose_recordConnection.mpr (hend s .dns ?_)
      split
      · exact keepsOpen_nil
      · split
        · exact keepsOpen_nil
        · exact keepsOpen_dnsAnswer s _ _ _
    | postgresql salt memory results =>
      refine quietBehindClose_recordConnection.mpr
        (hend s .postgresql (keepsOpen_append.mpr ⟨keepsOpen_startup memory results,?_⟩))
      split
      · exact keepsOpen_nil
      · dsimp only
        rw [keepsOpen_send]
        split <;> simp
    | questdb salt memory results =>
      refine quietBehindClose_recordConnection.mpr
        (hend s .questdb (keepsOpen_append.mpr ⟨keepsOpen_startup memory results,?_⟩))
      split
      · exact keepsOpen_nil
      · dsimp only
        rw [keepsOpen_send]
        split
        · exact keepsOpen_nil
        · rw [keepsOpen_recordAuth,keepsOpen_append]
          exact ⟨by simp [qdbWelcome],keepsOpen_qdbQueries s _⟩

/-- The receive results take a run to its end. All handlers but the HTTP one go on as if the
peer had closed when there are no more. -/
def SocketRun.Ended : SocketRun → Prop
  | http _ results _ _ => ∃ head∈results,recv 1024 head.1=none
  | _ => True

/-- The HTTP loop closes when a receive call gives nothing, if it has not done so before. -/
theorem close_mem_httpLoop {c : HttpConnection} {results : List (RecvResult×(ℕ → Byte))}
    {run : HttpRun} (h : httpLoop c results=some run) (hend : ∃ head∈results,recv 1024 head.1=none) :
    .close∈run.actions := by
  induction results generalizing c run with
  | nil =>
    obtain ⟨head,hhead,_⟩ := hend
    exact absurd hhead List.not_mem_nil
  | cons head results ih =>
    obtain ⟨result,garbage⟩ := head
    have hdone : ∀ conn,.close∈httpDone conn := fun conn => List.mem_cons_self
    rw [httpLoop] at h
    split at h
    · cases h
      exact List.mem_cons_of_mem _ (hdone c.conn)
    · rename_i bytes hrecv
      have hlater : ∃ head∈results,recv 1024 head.1=none := by
        obtain ⟨head,hhead,hnone⟩ := hend
        rcases List.mem_cons.mp hhead with rfl|hhead
        · rw [hnone] at hrecv
          cases hrecv
        · exact ⟨head,hhead,hnone⟩
      split at h
      · cases h
      · dsimp only at h
        split at h
        · cases h
          exact List.mem_append_right _ (hdone _)
        · obtain ⟨later,hrest,hrun⟩ := Option.map_eq_some_iff.mp h
          rw [←hrun]
          exact List.mem_append_right _ (ih hrest hlater)

/-- Every handler closes its descriptor before it returns. -/
theorem close_mem_acts {run : SocketRun} (hend : run.Ended) : .close∈run.acts := by
  have hlast : ∀ {front : List Action} {a : Action},.close∈front++[a,.close] :=
    List.mem_append_right _ (List.mem_cons_of_mem _ List.mem_cons_self)
  cases run with
  | smtp s w => exact List.mem_cons_of_mem _ (List.mem_append_right _ List.mem_cons_self)
  | http conn results run hrun =>
    obtain ⟨later,hlater,hlast⟩ := Option.map_eq_some_iff.mp hrun
    rw [SocketRun.acts,←hlast]
    exact List.mem_append_right _ (close_mem_httpLoop hlater hend)
  | recorded s run hrun =>
    cases run with
    | ssh env => exact absurd rfl hrun
    | mysql connId salt sent memory results =>
      refine List.mem_cons_of_mem _ ?_
      dsimp only
      split
      · exact List.mem_cons_self
      · refine List.mem_cons_of_mem _ ?_
        split
        · exact List.mem_cons_self
        · split
          · exact List.mem_cons_self
          · split
            · exact List.mem_cons_self
            · exact List.mem_cons_of_mem _ (List.mem_append_right _
                (List.mem_append_right _ List.mem_cons_self))
    | telnet results | redis memory h results | dns memory results =>
      exact List.mem_cons_of_mem _ hlast
    | postgresql salt memory results | questdb salt memory results =>
      exact List.mem_cons_of_mem _ hlast
    | ftp results | pop3 results | imap results =>
      exact List.mem_cons_of_mem _ (List.mem_cons_of_mem _ hlast)

/-- Every handler that returns has closed its descriptor once, and left it alone since then. -/
theorem closes_once {run : SocketRun} (hend : run.Ended) :
    ∃ front back,run.acts=front++.close::back ∧ KeepsOpen front ∧ Quiet back := by
  obtain ⟨front,back,hacts,hfront⟩ := List.eq_append_cons_of_mem (close_mem_acts hend)
  refine ⟨front,back,hacts,?_,quietBehindClose_acts run front back hacts⟩
  intro a ha heq
  exact hfront (heq ▸ ha)

end HoneyDew.ClosingActs
