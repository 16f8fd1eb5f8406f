import HoneyDew.AuditBracket

/-!
# Whose events a handler records

Every event that a handler records carries the identifier, the address and the port of
its own session and the number of its own protocol, whatever the client sends and
wherever the session ends. An event in the log can so be laid to a session.
-/

namespace HoneyDew.Attribution

open CText AuditTrail Connection Service AuditBracket
open FtpService TelnetService SshService MysqlService PostgresWire PostgresServices MailServices
open DnsService RedisCommands RedisParser

/-- An event of a session on the port of a protocol. -/
structure OwnEvent (s : Session) (proto : ProtocolType) (e : AuditEvent) : Prop where
  /-- The identifier of the session. -/
  sessionId : e.sessionId=some s.sessionId
  /-- The address of its peer. -/
  sourceIp : e.sourceIp=some s.remoteIp
  /-- The port of its peer. -/
  sourcePort : e.sourcePort=s.remotePort
  /-- The number of its protocol. -/
  protocol : e.protocol=protocolNumber proto

/-- Acts that record events of one session only. -/
def OwnActs (s : Session) (proto : ProtocolType) (actions : List Action) : Prop :=
  ∀ e∈audits actions,OwnEvent s proto e

/-! ## The acts -/

section Acts

variable {s : Session} {proto : ProtocolType} {xs ys : List Action}

@[simp] theorem ownActs_nil : OwnActs s proto [] := fun _ h => absurd h List.not_mem_nil

@[simp] theorem ownActs_append : OwnActs s proto (xs++ys) ↔ OwnActs s proto xs ∧ OwnActs s proto ys := by
  unfold OwnActs
  rw [audits_append]
  exact List.forall_mem_append

/-- One recorded event counts if it is the session's own. -/
theorem ownActs_audit (e : AuditEvent) :
    OwnActs s proto (.audit e::xs) ↔ OwnEvent s proto e ∧ OwnActs s proto xs := List.forall_mem_cons

@[simp] theorem ownActs_send (bytes : Bytes) :
    OwnActs s proto (.send bytes::xs) ↔ OwnActs s proto xs := Iff.rfl

@[simp] theorem ownActs_utilitiesLog (formatted : Bytes) :
    OwnActs s proto (utilitiesLog formatted::xs) ↔ OwnActs s proto xs := Iff.rfl

@[simp] theorem ownActs_close : OwnActs s proto (.close::xs) ↔ OwnActs s proto xs := Iff.rfl

@[simp] theorem ownActs_recordConnection :
    OwnActs s proto (s.recordConnection proto::xs) ↔ OwnActs s proto xs :=
  (ownActs_audit _).trans (and_iff_right ⟨rfl,rfl,rfl,rfl⟩)

@[simp] theorem ownActs_recordAuth (username : Bytes) (password : Option Bytes) (success : Bool) :
    OwnActs s proto (s.recordAuth proto username password success::xs) ↔ OwnActs s proto xs :=
  (ownActs_audit _).trans (and_iff_right ⟨rfl,rfl,rfl,rfl⟩)

@[simp] theorem ownActs_recordCommand (command : Bytes) :
    OwnActs s proto (s.recordCommand proto command::xs) ↔ OwnActs s proto xs :=
  (ownActs_audit _).trans (and_iff_right ⟨rfl,rfl,rfl,rfl⟩)

@[simp] theorem ownActs_recordEvent (eventType : AuditEventType) (severity : AuditSeverity)
    (username details : Bytes) :
    OwnActs s proto (s.recordEvent eventType severity proto username details::xs) ↔
      OwnActs s proto xs :=
  (ownActs_audit _).trans (and_iff_right ⟨rfl,rfl,rfl,rfl⟩)

@[simp] theorem ownActs_recordDisconnect :
    OwnActs s proto (s.recordDisconnect proto::xs) ↔ OwnActs s proto xs :=
  (ownActs_audit _).trans (and_iff_right ⟨rfl,rfl,rfl,rfl⟩)

/-- Sends alone record nothing. -/
theorem ownActs_sends (replies : List Bytes) : OwnActs s proto (replies.map .send) := by
  induction replies with
  | nil => exact ownActs_nil
  | cons bytes replies ih => exact ih

/-- Acts that record nothing. -/
theorem ownActs_of_silent (h : audits xs=[]) : OwnActs s proto xs := by
  intro e he
  rw [h] at he
  exact absurd he List.not_mem_nil

end Acts

/-! ## The handlers -/

section Handlers

variable (s : Session)

/-- A dispatched Redis command records events of its session. -/
theorem ownActs_redisDispatchCommand (argv : List Bytes) :
    OwnActs s .redis (redisDispatchCommand s argv) := by
  unfold redisDispatchCommand
  split
  · exact ownActs_nil
  · rw [ownActs_recordCommand,ownActs_append]
    refine ⟨?_,ownActs_sends _⟩
    split
    · rw [ownActs_recordAuth]
      exact ownActs_nil
    · exact ownActs_nil

/-- Redis commands dispatched one after the other record events of their session. -/
theorem ownActs_dispatched (commands : List (List Bytes)) :
    OwnActs s .redis (commands.flatMap (redisDispatchCommand s)) := by
  induction commands with
  | nil => exact ownActs_nil
  | cons argv commands ih =>
    rw [List.flatMap_cons,ownActs_append]
    exact ⟨ownActs_redisDispatchCommand s argv,ih⟩

/-- Every FTP line records events of its session, whoever sends it. -/
theorem ownActs_ftpExecute (sess : FtpSession) (line : Bytes) :
    OwnActs s .ftp (ftpExecute s sess line).acts := by
  have hcommand : ∀ verb,OwnActs s .ftp (ftpHandleCommand s sess line verb).2 := by
    intro verb
    cases verb <;> simp [ftpHandleCommand]
  unfold ftpExecute
  split
  · simp [ftpHandleUser]
  · simp only [ftpHandlePass,List.cons_append,List.nil_append,ownActs_recordAuth,ownActs_send]
    split <;> simp
  · simp
  · split
    · exact hcommand _
    · simp

/-- The bytes of an FTP segment record events of their session. -/
theorem ownActs_ftpSegment (loop : FtpLoop) (bytes : Bytes) :
    OwnActs s .ftp (ftpSegment s loop bytes).2 := by
  have hbyte : ∀ (loop : FtpLoop) (c : Byte),OwnActs s .ftp (ftpByte s loop c).2 := by
    intro loop c
    unfold ftpByte
    split
    · split
      · exact ownActs_nil
      · exact ownActs_ftpExecute s _ _
    · split <;> exact ownActs_nil
  induction bytes generalizing loop with
  | nil => exact ownActs_nil
  | cons c cs ih =>
    rw [ftpSegment,ownActs_append]
    exact ⟨hbyte loop c,ih _⟩

/-- The FTP receive loop records events of its session. -/
theorem ownActs_ftpReceive (loop : FtpLoop) (results : List RecvResult) :
    OwnActs s .ftp (ftpReceive s loop results) := by
  induction results generalizing loop with
  | nil => exact ownActs_nil
  | cons r rs ih =>
    rw [ftpReceive]
    split
    · split
      · exact ownActs_nil
      · rw [ownActs_append]
        exact ⟨ownActs_ftpSegment s loop _,ih _⟩
    · exact ownActs_nil

/-- A Telnet answer records nothing. -/
theorem ownActs_telnetFakeResponse (cmd : Bytes) :
    OwnActs s .telnet (telnetFakeResponse s cmd).1 := by
  unfold telnetFakeResponse
  split
  · exact ownActs_nil
  · split
    · dsimp only
      split <;> simp
    · split
      · exact ownActs_nil
      · split <;> exact ownActs_nil

/-- The Telnet shell records events of its session. -/
theorem ownActs_telnetShell (results : List RecvResult) :
    OwnActs s .telnet (telnetShell s results) := by
  induction results with
  | nil => exact (ownActs_send _).mpr ownActs_nil
  | cons r rs ih =>
    rw [telnetShell,ownActs_send]
    split
    · exact ownActs_nil
    · split
      · exact ih
      · rw [ownActs_recordCommand,ownActs_append]
        refine ⟨ownActs_telnetFakeResponse s _,?_⟩
        split
        · exact ownActs_nil
        · rw [ownActs_append]
          refine ⟨?_,ih⟩
          split <;> simp

/-- The Telnet login and the shell behind it record events of their session. -/
theorem ownActs_telnetLogin (k : ℕ) (results : List RecvResult) :
    OwnActs s .telnet (telnetLogin s k results) := by
  induction k generalizing results with
  | zero => exact (ownActs_send _).mpr (ownActs_telnetShell s results)
  | succ k ih =>
    rw [telnetLogin,ownActs_append]
    refine ⟨by split <;> simp,?_⟩
    split
    · exact ownActs_nil
    · rw [ownActs_append]
      refine ⟨by simp,?_⟩
      split
      · simp
      · simp [ih]

/-- The POP3 commands record events of their session. -/
theorem ownActs_pop3Commands (username : Bytes) (results : List RecvResult) :
    OwnActs s .pop3 (pop3Commands s username results) := by
  induction results generalizing username with
  | nil => exact ownActs_nil
  | cons r rs ih =>
    rw [pop3Commands]
    split
    · exact ownActs_nil
    · rw [ownActs_recordCommand]
      split
      · exact (ownActs_send _).mpr (ih _)
      · split
        · rw [ownActs_recordAuth,ownActs_send]
          exact ih _
        · rw [ownActs_send]
          split
          · exact ownActs_nil
          · exact ih _

/-- The IMAP commands record events of their session. -/
theorem ownActs_imapCommands (results : List RecvResult) :
    OwnActs s .imap (imapCommands s results) := by
  induction results with
  | nil => exact ownActs_nil
  | cons r rs ih =>
    rw [imapCommands]
    split
    · exact ownActs_nil
    · rw [ownActs_recordCommand]
      split
      · rw [ownActs_recordAuth,ownActs_send]
        exact ih
      · rw [ownActs_send]
        split
        · exact ownActs_nil
        · exact ih

/-- A DNS answer records events of its session. -/
theorem ownActs_dnsAnswer (msg : Bytes) (len : ℕ) (tcpFramed : Bool) :
    OwnActs s .dns (dnsAnswer s msg len tcpFramed) := by
  have hsend : ∀ reply,OwnActs s .dns (dnsSend tcpFramed reply) := by
    intro reply
    unfold dnsSend
    split
    · exact ownActs_nil
    · split <;> simp
  unfold dnsAnswer
  split
  · exact ownActs_nil
  · split
    · exact hsend _
    · exact hsend _
    · rw [ownActs_recordCommand]
      split
      · simp [hsend]
      · split <;> exact hsend _

/-- The start of the PostgreSQL protocol records nothing. -/
theorem ownActs_startup (proto : ProtocolType) (memory : Bytes) (results : List RecvResult) :
    OwnActs s proto (startup memory results).1 := by
  have hversion : ∀ memory' n later,OwnActs s proto (checkVersion memory' n later).1 := by
    intro memory' n later
    unfold checkVersion
    split <;> simp
  unfold startup
  split
  · exact ownActs_nil
  · split
    · exact ownActs_nil
    · split
      · dsimp only
        split
        · simp
        · split
          · simp
          · exact (ownActs_send _).mpr (hversion _ _ _)
      · exact hversion _ _ _

/-- The QuestDB queries record events of their session. -/
theorem ownActs_qdbQueries (results : List RecvResult) :
    OwnActs s .questdb (qdbQueries s results) := by
  have hanswer : ∀ sql,OwnActs s .questdb (qdbAnswer sql) := by
    intro sql
    unfold qdbAnswer
    repeat' split
    all_goals simp [qdbEmptyQueryResult]
  induction results with
  | nil => exact ownActs_nil
  | cons r rs ih =>
    rw [qdbQueries]
    split
    · exact ownActs_nil
    · split
      · rw [ownActs_recordCommand,ownActs_append,ownActs_send]
        exact ⟨hanswer _,ih⟩
      · split
        · exact ownActs_nil
        · split
          · exact (ownActs_send _).mpr ih
          · exact ih

/-- A MySQL denial records nothing. -/
theorem ownActs_mysqlDeny (memory : Bytes) (username : Option ℕ) (seqId : Byte) :
    OwnActs s .mysql (mysqlDeny s memory username seqId) := by
  unfold mysqlDeny
  dsimp only
  split <;> simp

/-- The MySQL queries record events of their session. -/
theorem ownActs_mysqlQueries (username : Option ℕ) (memory : Bytes) (results : List RecvResult) :
    OwnActs s .mysql (mysqlQueries s username memory results) := by
  induction results generalizing memory with
  | nil => exact ownActs_nil
  | cons r rs ih =>
    rw [mysqlQueries]
    split
    · exact ownActs_nil
    · rw [ownActs_append,ownActs_append]
      refine ⟨?_,ownActs_mysqlDeny s _ _ _,ih _⟩
      unfold mysqlExtractAndLogQuery
      split
      · exact ownActs_nil
      · split <;> simp

/-- The MySQL handler records events of its session at all its exits. -/
theorem ownActs_runMysqlService (connId : ℕ) (salt : MysqlSalt) (sent : ℤ) (memory : Bytes)
    (results : List RecvResult) :
    OwnActs s .mysql (runMysqlService s connId salt sent memory results) := by
  unfold runMysqlService
  dsimp only
  rw [ownActs_recordConnection]
  split
  · simp
  · rw [ownActs_send]
    split
    · simp
    · split
      · simp
      · split
        · simp
        · rw [ownActs_recordAuth,ownActs_append,ownActs_append]
          exact ⟨ownActs_mysqlDeny s _ _ _,ownActs_mysqlQueries s _ _ _,by simp⟩

/-- The SSH authentication loop records events of its session. -/
theorem ownActs_sshAuthenticate (attempts : ℕ) (messages : List SshMessage) :
    OwnActs s .ssh (plainActs (sshAuthenticate s attempts messages).1) := by
  induction messages generalizing attempts with
  | nil => exact ownActs_nil
  | cons m messages ih =>
    cases m with
    | authPassword user pass =>
      rw [sshAuthenticate]
      dsimp only
      split
      · exact (ownActs_recordAuth _ _ _).mpr ownActs_nil
      · exact (ownActs_recordAuth _ _ _).mpr (ih _)
    | authOther => exact ih _
    | channelOpen accepted => exact ih _
    | channelRequest request => exact ih _
    | other => exact ih _

/-- The SSH channel loop records nothing. -/
theorem ownActs_sshOpenShell (channel : Bool) (messages : List SshMessage) :
    OwnActs s .ssh (plainActs (sshOpenShell channel messages).1) := by
  induction messages generalizing channel with
  | nil => exact ownActs_nil
  | cons m messages ih =>
    cases m with
    | channelOpen accepted => exact ih _
    | channelRequest request =>
      cases channel with
      | false => exact ih _
      | true =>
        cases request with
        | shell => exact ownActs_nil
        | pty => exact ih _
        | env => exact ih _
        | other => exact ih _
    | authPassword user pass => cases channel <;> exact ih _
    | authOther => cases channel <;> exact ih _
    | other => cases channel <;> exact ih _

/-- The bytes of a read in the SSH shell record events of the session. -/
theorem ownActs_sshBytes (line bytes : Bytes) :
    OwnActs s .ssh (plainActs (sshBytes s line bytes).2) := by
  have hbyte : ∀ (line : Bytes) (c : Byte),OwnActs s .ssh (plainActs (sshByte s line c).2) := by
    intro line c
    unfold sshByte
    split
    · split
      · exact ownActs_nil
      · dsimp only
        split <;> exact (ownActs_recordCommand _).mpr ownActs_nil
    · split
      · split <;> exact ownActs_nil
      · split
        · exact ownActs_nil
        · split <;> exact ownActs_nil
  induction bytes generalizing line with
  | nil => exact ownActs_nil
  | cons c cs ih =>
    have hfirst := hbyte line c
    rw [sshBytes]
    split
    · exact hfirst
    · rw [plainActs_append,ownActs_append]
      exact ⟨hfirst,ih _⟩

/-- The SSH shell records events of its session. -/
theorem ownActs_sshShell (line : Bytes) (reads : List RecvResult) :
    OwnActs s .ssh (plainActs (sshShell s line reads)) := by
  induction reads generalizing line with
  | nil => exact ownActs_nil
  | cons r rs ih =>
    rw [sshShell]
    split
    · exact ownActs_nil
    · dsimp only
      split
      · exact ownActs_sshBytes s _ _
      · rw [plainActs_append,ownActs_append]
        exact ⟨ownActs_sshBytes s _ _,ih _⟩

/-- The SSH handler records events of its session at all its exits. -/
theorem ownActs_runSshService (env : SshEnvironment) :
    OwnActs s .ssh (plainActs (runSshService s env)) := by
  have hlogin := ownActs_sshAuthenticate s 0 env.messages
  have hstart : ∀ rest,OwnActs s .ssh (plainActs rest) →
      OwnActs s .ssh (plainActs (.act (s.recordConnection .ssh)::rest)) :=
    fun rest h => ownActs_recordConnection.mpr h
  rcases runSshService_exits s env with ⟨_,last,hlast,hrun⟩|⟨_,_,hrun⟩|⟨_,after,_,_,hrun⟩|
    ⟨_,after,_,_,hrun⟩
  · rw [hrun]
    refine hstart _ ?_
    rcases hlast with rfl|rfl
    · exact ownActs_of_silent rfl
    · exact ownActs_of_silent rfl
  · rw [hrun]
    refine hstart _ ?_
    rw [plainActs_append,ownActs_append]
    exact ⟨hlogin,ownActs_of_silent rfl⟩
  · rw [hrun]
    refine hstart _ ?_
    rw [plainActs_append,plainActs_append,ownActs_append,ownActs_append]
    exact ⟨⟨hlogin,ownActs_sshOpenShell s false after⟩,ownActs_of_silent rfl⟩
  · rw [hrun]
    refine hstart _ ?_
    rw [plainActs_append,plainActs_append,plainActs_append,plainActs_append,ownActs_append,
      ownActs_append,ownActs_append,ownActs_append]
    exact ⟨⟨⟨⟨hlogin,ownActs_sshOpenShell s false after⟩,ownActs_of_silent rfl⟩,
      ownActs_sshShell s [] env.reads⟩,ownActs_recordDisconnect.mpr ownActs_nil⟩

end Handlers

/-- The protocol of the handler that a run is of. -/
def protocolOf : ServiceRun → ProtocolType
  | .ftp _ => .ftp
  | .telnet _ => .telnet
  | .mysql _ _ _ _ _ => .mysql
  | .redis _ _ _ => .redis
  | .postgresql _ _ _ => .postgresql
  | .pop3 _ => .pop3
  | .imap _ => .imap
  | .dns _ _ => .dns
  | .questdb _ _ _ => .questdb
  | .ssh _ => .ssh

/-- Every event that a handler records in any of its runs is an event of its own session. -/
theorem ownActs_run (s : Session) (run : ServiceRun) : OwnActs s (protocolOf run) (run.acts s) := by
  have hend : ∀ proto,OwnActs s proto [s.recordDisconnect proto,.close] :=
    fun proto => ownActs_recordDisconnect.mpr ownActs_nil
  cases run with
  | mysql connId salt sent memory results =>
    exact ownActs_runMysqlService s connId salt sent memory results
  | ssh env => exact ownActs_runSshService s env
  | ftp results =>
    exact ownActs_recordConnection.mpr ((ownActs_send _).mpr
      (ownActs_append.mpr ⟨ownActs_ftpReceive s .start results,hend _⟩))
  | telnet results =>
    exact ownActs_recordConnection.mpr (ownActs_append.mpr ⟨ownActs_telnetLogin s 2 results,hend _⟩)
  | redis memory h results =>
    exact ownActs_recordConnection.mpr (ownActs_append.mpr ⟨ownActs_dispatched s _,hend _⟩)
  | postgresql salt memory results =>
    refine ownActs_recordConnection.mpr (ownActs_append.mpr ⟨ownActs_append.mpr
      ⟨ownActs_startup s _ memory results,?_⟩,hend _⟩)
    split
    · exact ownActs_nil
    · dsimp only
      rw [ownActs_send]
      split <;> simp [protocolOf]
  | pop3 results =>
    exact ownActs_recordConnection.mpr ((ownActs_send _).mpr
      (ownActs_append.mpr ⟨ownActs_pop3Commands s [] results,hend _⟩))
  | imap results =>
    exact ownActs_recordConnection.mpr ((ownActs_send _).mpr
      (ownActs_append.mpr ⟨ownActs_imapCommands s results,hend _⟩))
  | dns memory results =>
    refine ownActs_recordConnection.mpr (ownActs_append.mpr ⟨?_,hend _⟩)
    split
    · exact ownActs_nil
    · split
      · exact ownActs_nil
      · exact ownActs_dnsAnswer s _ _ _
  | questdb salt memory results =>
    refine ownActs_recordConnection.mpr (ownActs_append.mpr ⟨ownActs_append.mpr
      ⟨ownActs_startup s _ memory results,?_⟩,hend _⟩)
    split
    · exact ownActs_nil
    · dsimp only
      rw [ownActs_send]
      split
      · exact ownActs_nil
      · rw [protocolOf,ownActs_recordAuth,ownActs_append]
        exact ⟨ownActs_of_silent rfl,ownActs_qdbQueries s _⟩

end HoneyDew.Attribution
