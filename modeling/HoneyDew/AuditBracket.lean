import HoneyDew.EventWords
import HoneyDew.DnsService
import HoneyDew.FtpService
import HoneyDew.MailServices
import HoneyDew.MysqlService
import HoneyDew.PostgresServices
import HoneyDew.RedisParser
import HoneyDew.SshService
import HoneyDew.TelnetService

/-!
# The audit events of a session

A session should leave one connection event first and one disconnection event
last. What stands between the two is collected here for every handler, and the
handlers with an exit that forgets the end are told apart by their inputs.
-/

namespace HoneyDew.AuditBracket

open CText AuditTrail Service EventWords
open FtpService TelnetService SshService MysqlService PostgresWire PostgresServices MailServices
open DnsService RedisCommands RedisParser

/-- Whether an event carries the identifier of a session. -/
def ofSession (s : Session) (e : AuditEvent) : Bool := e.sessionId=some s.sessionId

/-- The events recorded for a session identifier. -/
def sessionEvents (s : Session) (actions : List Action) : List AuditEvent :=
  (audits actions).filter (ofSession s)

/-- The session's events start with its only connection event and end with its
only disconnection event. -/
def RecordsBracket (s : Session) (actions : List Action) : Prop :=
  Bracketed (fun e => e.eventType=.connection) (fun e => e.eventType=.disconnection)
    (sessionEvents s actions)

/-- Acts between the two ends of a session. -/
def Inner (actions : List Action) : Prop :=
  ∀ e∈audits actions,¬e.eventType=.connection ∧ ¬e.eventType=.disconnection

section Inner

variable {xs ys : List Action} {s : Session}

@[simp] theorem inner_nil : Inner [] := fun _ h => absurd h List.not_mem_nil

@[simp] theorem inner_append : Inner (xs++ys) ↔ Inner xs ∧ Inner ys := by
  unfold Inner
  rw [audits_append]
  exact List.forall_mem_append

/-- One audited event is an inner act if its type is. -/
@[simp] theorem inner_audit (e : AuditEvent) :
    Inner (.audit e::xs) ↔ (¬e.eventType=.connection ∧ ¬e.eventType=.disconnection) ∧ Inner xs :=
  List.forall_mem_cons

@[simp] theorem inner_send (bytes : Bytes) : Inner (.send bytes::xs) ↔ Inner xs := Iff.rfl

@[simp] theorem inner_utilitiesLog (formatted : Bytes) :
    Inner (utilitiesLog formatted::xs) ↔ Inner xs := Iff.rfl

@[simp] theorem inner_close : Inner (.close::xs) ↔ Inner xs := Iff.rfl

@[simp] theorem inner_recordCommand (proto : Connection.ProtocolType) (command : Bytes) :
    Inner (s.recordCommand proto command::xs) ↔ Inner xs :=
  (inner_audit _).trans (and_iff_right ⟨AuditEventType.noConfusion,AuditEventType.noConfusion⟩)

@[simp] theorem inner_recordAuth (proto : Connection.ProtocolType) (username : Bytes)
    (password : Option Bytes) (success : Bool) :
    Inner (s.recordAuth proto username password success::xs) ↔ Inner xs := by
  refine (inner_audit _).trans (and_iff_right ?_)
  cases success <;> exact ⟨AuditEventType.noConfusion,AuditEventType.noConfusion⟩

/-- Sends alone record nothing. -/
theorem inner_sends (replies : List Bytes) : Inner (replies.map .send) := by
  induction replies with
  | nil => exact inner_nil
  | cons bytes replies ih => exact ih

/-- Inner acts between the two ends make a bracket, with the closing act in
front of the last event or behind it. -/
theorem recordsBracket_of_inner (proto : Connection.ProtocolType) (middle : List Action)
    {tail : List Action} (hinner : Inner middle) (htail : audits tail=audits [s.recordDisconnect proto]) :
    RecordsBracket s (s.recordConnection proto::(middle++tail)) := by
  have hends : audits (s.recordConnection proto::(middle++tail))=
      auditRecordConnection (protocolNumber proto) s.remoteIp s.remotePort s.sessionId::
        (audits middle++[auditRecordDisconnect (protocolNumber proto) s.remoteIp s.remotePort
          s.sessionId]) := by
    have hhead : audits (s.recordConnection proto::(middle++tail))=
        auditRecordConnection (protocolNumber proto) s.remoteIp s.remotePort s.sessionId::
          audits (middle++tail) := rfl
    rw [hhead,audits_append,htail]
    rfl
  have hfirst : ofSession s (auditRecordConnection (protocolNumber proto) s.remoteIp s.remotePort
      s.sessionId)=true := decide_eq_true rfl
  have hlast : ofSession s (auditRecordDisconnect (protocolNumber proto) s.remoteIp s.remotePort
      s.sessionId)=true := decide_eq_true rfl
  unfold RecordsBracket sessionEvents
  rw [hends,List.filter_cons_of_pos hfirst,List.filter_append,List.filter_cons_of_pos hlast,
    List.filter_nil]
  refine bracketed_of_inner rfl rfl ?_
  intro e he
  exact hinner e (List.mem_of_mem_filter he)

/-- Without a disconnection event there is no bracket. -/
theorem not_recordsBracket (h : ∀ e∈audits xs,¬e.eventType=.disconnection) :
    ¬RecordsBracket s xs := by
  intro hbracket
  have hclosing := Bracketed.exists_closes hbracket
  rcases hclosing with ⟨e,he,hlast⟩
  exact h e (List.mem_of_mem_filter he) hlast

/-- A session that only records its start and inner acts has no bracket. -/
theorem not_recordsBracket_of_inner (proto : Connection.ProtocolType) (h : Inner xs) :
    ¬RecordsBracket s (s.recordConnection proto::xs) := by
  refine not_recordsBracket ?_
  intro e he
  rcases List.mem_cons.mp he with he|he
  · rw [he]
    exact AuditEventType.noConfusion
  · exact (h e he).2

end Inner

section Handlers

variable (s : Session)

/-- A dispatched Redis command records commands and attempts only. -/
theorem inner_redisDispatchCommand (argv : List Bytes) : Inner (redisDispatchCommand s argv) := by
  unfold redisDispatchCommand
  split
  · exact inner_nil
  · rw [inner_recordCommand,inner_append]
    refine ⟨?_,inner_sends _⟩
    split
    · rw [inner_recordAuth]
      exact inner_nil
    · exact inner_nil

/-- Redis commands dispatched one after the other record inner events. -/
theorem inner_dispatched (commands : List (List Bytes)) :
    Inner (commands.flatMap (redisDispatchCommand s)) := by
  induction commands with
  | nil => exact inner_nil
  | cons argv commands ih =>
    rw [List.flatMap_cons,inner_append]
    exact ⟨inner_redisDispatchCommand s argv,ih⟩

/-- The commands of an authenticated FTP client record inner events. -/
theorem inner_ftpHandleCommand (sess : FtpSession) (line : Bytes) (verb : FtpVerb) :
    Inner (ftpHandleCommand s sess line verb).2 := by
  cases verb <;> simp [ftpHandleCommand,Session.recordEvent]

/-- Every FTP line records inner events. -/
theorem inner_ftpExecute (sess : FtpSession) (line : Bytes) :
    Inner (ftpExecute s sess line).acts := by
  unfold ftpExecute
  split
  · simp [ftpHandleUser]
  · simp only [ftpHandlePass,List.cons_append,List.nil_append,inner_recordAuth,inner_send]
    split <;> simp
  · simp
  · split
    · exact inner_ftpHandleCommand s sess line _
    · simp

/-- A byte for the FTP line buffer records inner events. -/
theorem inner_ftpByte (loop : FtpLoop) (c : Byte) : Inner (ftpByte s loop c).2 := by
  unfold ftpByte
  split
  · split
    · exact inner_nil
    · exact inner_ftpExecute s _ _
  · split
    · exact inner_nil
    · exact inner_nil

/-- The bytes of an FTP segment record inner events. -/
theorem inner_ftpSegment (loop : FtpLoop) (bytes : Bytes) : Inner (ftpSegment s loop bytes).2 := by
  induction bytes generalizing loop with
  | nil => exact inner_nil
  | cons c cs ih =>
    rw [ftpSegment,inner_append]
    exact ⟨inner_ftpByte s loop c,ih _⟩

/-- The FTP receive loop records inner events. -/
theorem inner_ftpReceive (loop : FtpLoop) (results : List RecvResult) :
    Inner (ftpReceive s loop results) := by
  induction results generalizing loop with
  | nil => exact inner_nil
  | cons r rs ih =>
    rw [ftpReceive]
    split
    · split
      · exact inner_nil
      · rw [inner_append]
        exact ⟨inner_ftpSegment s loop _,ih _⟩
    · exact inner_nil

/-- A Telnet answer records nothing. -/
theorem inner_telnetFakeResponse (cmd : Bytes) : Inner (telnetFakeResponse s cmd).1 := by
  unfold telnetFakeResponse
  split
  · exact inner_nil
  · split
    · dsimp only
      split <;> simp
    · split
      · exact inner_nil
      · split <;> exact inner_nil

/-- The Telnet shell records commands only. -/
theorem inner_telnetShell (results : List RecvResult) : Inner (telnetShell s results) := by
  induction results with
  | nil => exact (inner_send _).mpr inner_nil
  | cons r rs ih =>
    rw [telnetShell,inner_send]
    split
    · exact inner_nil
    · split
      · exact ih
      · rw [inner_recordCommand,inner_append]
        refine ⟨inner_telnetFakeResponse s _,?_⟩
        split
        · exact inner_nil
        · rw [inner_append]
          refine ⟨?_,ih⟩
          split <;> simp

/-- The Telnet login records attempts only. -/
theorem inner_telnetLogin (k : ℕ) (results : List RecvResult) : Inner (telnetLogin s k results) := by
  induction k generalizing results with
  | zero => exact (inner_send _).mpr (inner_telnetShell s results)
  | succ k ih =>
    rw [telnetLogin,inner_append]
    refine ⟨by split <;> simp,?_⟩
    split
    · exact inner_nil
    · rw [inner_append]
      refine ⟨by simp,?_⟩
      split
      · simp
      · simp [ih]

/-- The POP3 commands record commands and attempts. -/
theorem inner_pop3Commands (username : Bytes) (results : List RecvResult) :
    Inner (pop3Commands s username results) := by
  induction results generalizing username with
  | nil => exact inner_nil
  | cons r rs ih =>
    rw [pop3Commands]
    split
    · exact inner_nil
    · rw [inner_recordCommand]
      split
      · exact (inner_send _).mpr (ih _)
      · split
        · rw [inner_recordAuth,inner_send]
          exact ih _
        · rw [inner_send]
          split
          · exact inner_nil
          · exact ih _

/-- The IMAP commands record commands and attempts. -/
theorem inner_imapCommands (results : List RecvResult) : Inner (imapCommands s results) := by
  induction results with
  | nil => exact inner_nil
  | cons r rs ih =>
    rw [imapCommands]
    split
    · exact inner_nil
    · rw [inner_recordCommand]
      split
      · rw [inner_recordAuth,inner_send]
        exact ih
      · rw [inner_send]
        split
        · exact inner_nil
        · exact ih

/-- A DNS answer records nothing by itself. -/
theorem inner_dnsSend (tcpFramed : Bool) (reply : Bytes) : Inner (dnsSend tcpFramed reply) := by
  unfold dnsSend
  split
  · exact inner_nil
  · split <;> simp

/-- The DNS handler records the name and perhaps a transfer attempt. -/
theorem inner_dnsAnswer (msg : Bytes) (len : ℕ) (tcpFramed : Bool) :
    Inner (dnsAnswer s msg len tcpFramed) := by
  unfold dnsAnswer
  split
  · exact inner_nil
  · split
    · exact inner_dnsSend _ _
    · exact inner_dnsSend _ _
    · rw [inner_recordCommand]
      split
      · simp [Session.recordEvent,inner_dnsSend]
      · split <;> exact inner_dnsSend _ _

/-- The start of the PostgreSQL protocol records nothing. -/
theorem inner_startup (memory : Bytes) (results : List RecvResult) :
    Inner (startup memory results).1 := by
  have hversion : ∀ memory' n later,Inner (checkVersion memory' n later).1 := by
    intro memory' n later
    unfold checkVersion
    split <;> simp
  unfold startup
  split
  · exact inner_nil
  · split
    · exact inner_nil
    · split
      · dsimp only
        split
        · simp
        · split
          · simp
          · exact (inner_send _).mpr (hversion _ _ _)
      · exact hversion _ _ _

/-- The QuestDB queries record commands. -/
theorem inner_qdbQueries (results : List RecvResult) : Inner (qdbQueries s results) := by
  have hanswer : ∀ sql,Inner (qdbAnswer sql) := by
    intro sql
    unfold qdbAnswer
    repeat' split
    all_goals simp [qdbEmptyQueryResult]
  induction results with
  | nil => exact inner_nil
  | cons r rs ih =>
    rw [qdbQueries]
    split
    · exact inner_nil
    · split
      · rw [inner_recordCommand,inner_append,inner_send]
        exact ⟨hanswer _,ih⟩
      · split
        · exact inner_nil
        · split
          · exact (inner_send _).mpr ih
          · exact ih

/-- The MySQL queries record commands. -/
theorem inner_mysqlDeny (memory : Bytes) (username : Option ℕ) (seqId : Byte) :
    Inner (mysqlDeny s memory username seqId) := by
  unfold mysqlDeny
  dsimp only
  split <;> simp

/-- The loop behind the MySQL login records commands. -/
theorem inner_mysqlQueries (username : Option ℕ) (memory : Bytes) (results : List RecvResult) :
    Inner (mysqlQueries s username memory results) := by
  induction results generalizing memory with
  | nil => exact inner_nil
  | cons r rs ih =>
    rw [mysqlQueries]
    split
    · exact inner_nil
    · rw [inner_append,inner_append]
      refine ⟨?_,inner_mysqlDeny s _ _ _,ih _⟩
      unfold mysqlExtractAndLogQuery
      split
      · exact inner_nil
      · split <;> simp

/-- The SSH authentication loop records attempts. -/
theorem inner_sshAuthenticate (attempts : ℕ) (messages : List SshMessage) :
    Inner (plainActs (sshAuthenticate s attempts messages).1) := by
  induction messages generalizing attempts with
  | nil => exact inner_nil
  | cons m messages ih =>
    cases m with
    | authPassword user pass =>
      rw [sshAuthenticate]
      dsimp only
      split
      · exact (inner_recordAuth _ _ _ _).mpr inner_nil
      · exact (inner_recordAuth _ _ _ _).mpr (ih _)
    | authOther => exact ih _
    | channelOpen accepted => exact ih _
    | channelRequest request => exact ih _
    | other => exact ih _

/-- The SSH channel loop records nothing. -/
theorem inner_sshOpenShell (channel : Bool) (messages : List SshMessage) :
    Inner (plainActs (sshOpenShell channel messages).1) := by
  induction messages generalizing channel with
  | nil => exact inner_nil
  | cons m messages ih =>
    cases m with
    | channelOpen accepted => exact ih _
    | channelRequest request =>
      cases channel with
      | false => exact ih _
      | true =>
        cases request with
        | shell => exact inner_nil
        | pty => exact ih _
        | env => exact ih _
        | other => exact ih _
    | authPassword user pass => cases channel <;> exact ih _
    | authOther => cases channel <;> exact ih _
    | other => cases channel <;> exact ih _

/-- The acts without the library follow each other. -/
theorem plainActs_append (xs ys : List SshAction) :
    plainActs (xs++ys)=plainActs xs++plainActs ys := List.filterMap_append

/-- A byte of the SSH shell records at most a command. -/
theorem inner_sshByte (line : Bytes) (c : Byte) : Inner (plainActs (sshByte s line c).2) := by
  unfold sshByte
  split
  · split
    · exact inner_nil
    · dsimp only
      split <;> exact (inner_recordCommand _ _).mpr inner_nil
  · split
    · split <;> exact inner_nil
    · split
      · exact inner_nil
      · split <;> exact inner_nil

/-- The bytes of a read of the SSH shell record inner events. -/
theorem inner_sshBytes (line bytes : Bytes) : Inner (plainActs (sshBytes s line bytes).2) := by
  induction bytes generalizing line with
  | nil => exact inner_nil
  | cons c cs ih =>
    have hfirst := inner_sshByte s line c
    rw [sshBytes]
    split
    · exact hfirst
    · rw [plainActs_append,inner_append]
      exact ⟨hfirst,ih _⟩

/-- The SSH shell records inner events. -/
theorem inner_sshShell (line : Bytes) (reads : List RecvResult) :
    Inner (plainActs (sshShell s line reads)) := by
  induction reads generalizing line with
  | nil => exact inner_nil
  | cons r rs ih =>
    rw [sshShell]
    split
    · exact inner_nil
    · dsimp only
      split
      · exact inner_sshBytes s _ _
      · rw [plainActs_append,inner_append]
        exact ⟨inner_sshBytes s _ _,ih _⟩

end Handlers

section Shell

/-- A password attempt. -/
def isPassword : SshMessage → Bool
  | .authPassword _ _ => true
  | _ => false

/-- A request for a session channel. -/
def isChannelOpen : SshMessage → Bool
  | .channelOpen _ => true
  | _ => false

/-- A shell is requested before the next channel is. -/
def ShellBeforeOpen (messages : List SshMessage) : Prop :=
  ∃ before after,messages=before++.channelRequest .shell::after ∧
    ∀ m∈before,isChannelOpen m=false

/-- A shell is requested while the last channel requested was given. -/
def OpensShell (messages : List SshMessage) : Prop :=
  ∃ before after,messages=before++.channelOpen true::after ∧ ShellBeforeOpen after

/-- Behind the third password attempt a shell is requested on a channel. -/
def ReachesShell (messages : List SshMessage) : Prop :=
  ∃ before third after,messages=before++third::after ∧ isPassword third=true ∧
    before.countP isPassword=2 ∧ OpensShell after

/-- The first message decides or is passed over. -/
theorem shellBeforeOpen_cons (m : SshMessage) (messages : List SshMessage) :
    ShellBeforeOpen (m::messages) ↔
      m=.channelRequest .shell ∨ (isChannelOpen m=false ∧ ShellBeforeOpen messages) := by
  constructor
  · rintro ⟨before,after,hmessages,hbefore⟩
    cases before with
    | nil => exact Or.inl (List.cons.inj hmessages).1
    | cons b before =>
      have hparts := List.cons.inj hmessages
      refine Or.inr ⟨?_,before,after,hparts.2,fun x hx => hbefore x (List.mem_cons_of_mem _ hx)⟩
      rw [hparts.1]
      exact hbefore b List.mem_cons_self
  · rintro (rfl|⟨hm,before,after,rfl,hbefore⟩)
    · exact ⟨[],messages,rfl,fun _ hx => absurd hx List.not_mem_nil⟩
    · refine ⟨m::before,after,rfl,?_⟩
      intro x hx
      rcases List.mem_cons.mp hx with hx|hx
      · rw [hx]
        exact hm
      · exact hbefore x hx

/-- The first message gives the channel or the rest does everything. -/
theorem opensShell_cons (m : SshMessage) (messages : List SshMessage) :
    OpensShell (m::messages) ↔
      (m=.channelOpen true ∧ ShellBeforeOpen messages) ∨ OpensShell messages := by
  constructor
  · rintro ⟨before,after,hmessages,hshell⟩
    cases before with
    | nil =>
      have hparts := List.cons.inj hmessages
      exact Or.inl ⟨hparts.1,hparts.2 ▸ hshell⟩
    | cons b before => exact Or.inr ⟨before,after,(List.cons.inj hmessages).2,hshell⟩
  · rintro (⟨rfl,hshell⟩|⟨before,after,rfl,hshell⟩)
    · exact ⟨[],messages,rfl,hshell⟩
    · exact ⟨m::before,after,rfl,hshell⟩

/-- The channel loop ends with a shell exactly when one is requested on a
channel. -/
theorem sshOpenShell_iff (channel : Bool) (messages : List SshMessage) :
    (sshOpenShell channel messages).2=true ↔
      (channel=true ∧ ShellBeforeOpen messages) ∨ OpensShell messages := by
  induction messages generalizing channel with
  | nil =>
    have hnone : ∀ before : List SshMessage,∀ m after,[]≠before++m::after :=
      fun before m after h => List.append_ne_nil_of_right_ne_nil _ (List.cons_ne_nil _ _) h.symm
    constructor
    · intro h
      exact absurd h Bool.false_ne_true
    · rintro (⟨_,before,after,h,_⟩|⟨before,after,h,_⟩)
      · exact absurd h (hnone _ _ _)
      · exact absurd h (hnone _ _ _)
  | cons m messages ih =>
    rw [shellBeforeOpen_cons,opensShell_cons]
    cases m with
    | channelOpen accepted =>
      rw [sshOpenShell,ih accepted]
      simp [isChannelOpen]
    | channelRequest request =>
      cases channel with
      | false =>
        rw [sshOpenShell.eq_def]
        simp [ih false]
      | true =>
        cases request with
        | shell => simp [sshOpenShell]
        | pty => simp [sshOpenShell,ih true,isChannelOpen]
        | env => simp [sshOpenShell,ih true,isChannelOpen]
        | other => simp [sshOpenShell,ih true,isChannelOpen]
    | authPassword user pass => cases channel <;> simp [sshOpenShell,ih,isChannelOpen]
    | authOther => cases channel <;> simp [sshOpenShell,ih,isChannelOpen]
    | other => cases channel <;> simp [sshOpenShell,ih,isChannelOpen]

/-- A list splits in front of `after` at an element of a kind with so many of the kind
before it. -/
def SplitsAt {α : Type} (kind : α → Bool) (n : ℕ) (after list : List α) : Prop :=
  ∃ before x,list=before++x::after ∧ kind x=true ∧ before.countP kind=n

section Splits

variable {α : Type} {kind : α → Bool} {n : ℕ} {m : α} {after list : List α}

/-- An element of another kind in front changes nothing. -/
theorem splitsAt_cons_neg (hm : kind m=false) :
    SplitsAt kind n after (m::list) ↔ SplitsAt kind n after list := by
  constructor
  · rintro ⟨before,x,hlist,hx,hcount⟩
    cases before with
    | nil =>
      rw [(List.cons.inj hlist).1,hx] at hm
      cases hm
    | cons b before =>
      obtain ⟨hb,htail⟩ := List.cons.inj hlist
      rw [←hb,List.countP_cons_of_neg (ne_true_of_eq_false hm)] at hcount
      exact ⟨before,x,htail,hx,hcount⟩
  · rintro ⟨before,x,rfl,hx,hcount⟩
    refine ⟨m::before,x,rfl,hx,?_⟩
    rw [List.countP_cons_of_neg (ne_true_of_eq_false hm)]
    exact hcount

/-- An element of the kind in front is the one when none is to stand before it. -/
theorem splitsAt_cons_zero (hm : kind m=true) :
    SplitsAt kind 0 after (m::list) ↔ list=after := by
  constructor
  · rintro ⟨before,x,hlist,_,hcount⟩
    cases before with
    | nil => exact (List.cons.inj hlist).2
    | cons b before =>
      rw [←(List.cons.inj hlist).1,List.countP_cons_of_pos hm] at hcount
      exact absurd hcount (Nat.succ_ne_zero _)
  · rintro rfl
    exact ⟨[],m,rfl,hm,rfl⟩

/-- An element of the kind in front counts. -/
theorem splitsAt_cons_succ (hm : kind m=true) :
    SplitsAt kind (n+1) after (m::list) ↔ SplitsAt kind n after list := by
  constructor
  · rintro ⟨before,x,hlist,hx,hcount⟩
    cases before with
    | nil => exact absurd hcount.symm (Nat.succ_ne_zero _)
    | cons b before =>
      obtain ⟨hb,htail⟩ := List.cons.inj hlist
      rw [←hb,List.countP_cons_of_pos hm] at hcount
      exact ⟨before,x,htail,hx,Nat.succ.inj hcount⟩
  · rintro ⟨before,x,rfl,hx,hcount⟩
    refine ⟨m::before,x,rfl,hx,?_⟩
    rw [List.countP_cons_of_pos hm,hcount]

end Splits

/-- The authentication loop lets the client in at the attempt that makes three. -/
theorem sshAuthenticate_splits (s : Session) {attempts left : ℕ} (h : left+attempts=2)
    (messages after : List SshMessage) :
    (sshAuthenticate s attempts messages).2=some after ↔
      SplitsAt isPassword left after messages := by
  induction messages generalizing attempts left with
  | nil =>
    constructor
    · intro h
      cases h
    · rintro ⟨before,third,h,_⟩
      exact absurd h.symm (List.append_ne_nil_of_right_ne_nil _ (List.cons_ne_nil _ _))
  | cons m messages ih =>
    cases m with
    | authPassword user pass =>
      rw [sshAuthenticate]
      dsimp only
      cases left with
      | zero =>
        rw [splitsAt_cons_zero rfl,if_pos (decide_eq_true (by omega))]
        exact Option.some_inj
      | succ left =>
        rw [splitsAt_cons_succ rfl,if_neg (by rw [decide_eq_true_eq]; omega)]
        exact ih (by omega)
    | authOther => exact (ih h).trans (splitsAt_cons_neg rfl).symm
    | channelOpen accepted => exact (ih h).trans (splitsAt_cons_neg rfl).symm
    | channelRequest request => exact (ih h).trans (splitsAt_cons_neg rfl).symm
    | other => exact (ih h).trans (splitsAt_cons_neg rfl).symm

end Shell

/-- A run of one of the ten handlers that record a connection event, with
everything the run depends on. -/
inductive ServiceRun
  /-- The FTP handler. -/
  | ftp (results : List RecvResult)
  /-- The Telnet handler. -/
  | telnet (results : List RecvResult)
  /-- The MySQL handler. -/
  | mysql (connId : ℕ) (salt : MysqlSalt) (sent : ℤ) (memory : Bytes) (results : List RecvResult)
  /-- The Redis handler. -/
  | redis (memory : Bytes) (h : memory.length=4096) (results : List RecvResult)
  /-- The PostgreSQL handler. -/
  | postgresql (salt memory : Bytes) (results : List RecvResult)
  /-- The POP3 handler. -/
  | pop3 (results : List RecvResult)
  /-- The IMAP handler. -/
  | imap (results : List RecvResult)
  /-- The DNS handler. -/
  | dns (memory : Bytes) (results : List RecvResult)
  /-- The QuestDB handler. -/
  | questdb (salt memory : Bytes) (results : List RecvResult)
  /-- The SSH handler. -/
  | ssh (env : SshEnvironment)

namespace ServiceRun

/-- What the handler does in a run. -/
def acts (s : Session) : ServiceRun → List Action
  | ftp results => runFtpService s results
  | telnet results => runTelnetService s results
  | mysql connId salt sent memory results => runMysqlService s connId salt sent memory results
  | redis memory h results => runRedisService s memory h results
  | postgresql salt memory results => runPostgresqlService s salt memory results
  | pop3 results => runPop3Service s results
  | imap results => runImapService s results
  | dns memory results => runDnsService s memory results
  | questdb salt memory results => runQuestdbService s salt memory results
  | ssh env => plainActs (runSshService s env)

/-- The runs that leave through the exit that records the end. -/
def ReachesEnd : ServiceRun → Prop
  | mysql _ _ sent _ results => 0<sent ∧ ∃ bytes later,results=.data bytes::later ∧ bytes≠[]
  | ssh env => env.sshNew=true ∧ env.sshBindNew=true ∧ env.acceptFd=true ∧
      env.keyExchange=true ∧ ReachesShell env.messages
  | _ => True

end ServiceRun

/-- A MySQL session is bracketed exactly when the greeting is sent and
answered. -/
theorem mysql_recordsBracket_iff (s : Session) (connId : ℕ) (salt : MysqlSalt) (sent : ℤ)
    (memory : Bytes) (results : List RecvResult) :
    RecordsBracket s (runMysqlService s connId salt sent memory results) ↔
      0<sent ∧ ∃ bytes later,results=.data bytes::later ∧ bytes≠[] := by
  have hclosed : ¬RecordsBracket s (s.recordConnection .mysql::
      [.send (mysqlBuildGreetingPacket connId salt),.close]) :=
    not_recordsBracket_of_inner .mysql (by simp)
  unfold runMysqlService
  dsimp only
  rw [if_neg (mysqlBuildGreetingPacket_ne_nil connId salt)]
  by_cases hsent : sent≤0
  · rw [if_pos hsent]
    constructor
    · intro h
      exact absurd h hclosed
    · intro h
      omega
  · rw [if_neg hsent]
    cases results with
    | nil =>
      constructor
      · intro h
        exact absurd h hclosed
      · rintro ⟨_,bytes,later,h,_⟩
        cases h
    | cons r rs =>
      have hanswered := recv_ne_none_iff (by decide : 0<4096) r
      dsimp only
      cases hrecv : recv 4096 r with
      | none =>
        dsimp only
        constructor
        · intro h
          exact absurd h hclosed
        · rintro ⟨_,bytes,later,h,hne⟩
          have hr := (List.cons.inj h).1
          exact absurd hrecv (hanswered.mpr ⟨bytes,hr,hne⟩)
      | some bytes =>
        have hdata := hanswered.mp (by rw [hrecv]; exact Option.some_ne_none _)
        rcases hdata with ⟨raw,hraw,hne⟩
        constructor
        · intro _
          exact ⟨by omega,raw,rs,by rw [hraw],hne⟩
        · intro _
          dsimp only
          have hend : audits [Action.close,s.recordDisconnect .mysql]=
              audits [s.recordDisconnect .mysql] := rfl
          have hbracket := recordsBracket_of_inner (s := s) .mysql
            (.send (mysqlBuildGreetingPacket connId salt)::
              s.recordAuth .mysql (mysqlUsernameText (CMemory.writeAt memory 0 bytes)
                  (mysqlUsername (CMemory.writeAt memory 0 bytes) bytes.length)) (some []) false::
              (mysqlDeny s (CMemory.writeAt memory 0 bytes)
                  (mysqlUsername (CMemory.writeAt memory 0 bytes) bytes.length) 2++
                mysqlQueries s (mysqlUsername (CMemory.writeAt memory 0 bytes) bytes.length)
                  (CMemory.writeAt memory 0 bytes) rs))
            (by simp [inner_mysqlDeny,inner_mysqlQueries]) hend
          rw [List.cons_append,List.cons_append,List.append_assoc] at hbracket
          exact hbracket

/-- An SSH session is bracketed exactly when it reaches the shell. -/
theorem ssh_recordsBracket_iff (s : Session) (env : SshEnvironment) :
    RecordsBracket s (plainActs (runSshService s env)) ↔
      env.sshNew=true ∧ env.sshBindNew=true ∧ env.acceptFd=true ∧ env.keyExchange=true ∧
        ReachesShell env.messages := by
  have hleft : ∀ rest : List SshAction,Inner (plainActs rest) →
      ¬RecordsBracket s (plainActs (.act (s.recordConnection .ssh)::rest)) :=
    fun rest hinner => not_recordsBracket_of_inner .ssh hinner
  have hlogin := inner_sshAuthenticate s 0 env.messages
  have hreached := sshAuthenticate_splits s (Nat.add_zero 2) env.messages
  have hready : (env.sshNew=true ∧ env.sshBindNew=true ∧ env.acceptFd=true ∧ env.keyExchange=true ∧
      ReachesShell env.messages) ↔ env.Ready ∧ ReachesShell env.messages := by
    simp only [SshEnvironment.Ready,and_assoc]
  rw [hready]
  rcases runSshService_exits s env with ⟨hunready,last,hlast,hrun⟩|⟨_,hauth,hrun⟩|
    ⟨_,after,hauth,hopen,hrun⟩|⟨hset,after,hauth,hopen,hrun⟩
  · rw [hrun]
    refine iff_of_false (hleft _ ?_) (fun h => hunready h.1)
    rcases hlast with rfl|rfl
    · exact inner_nil
    · exact inner_nil
  · rw [hrun]
    refine iff_of_false (hleft _ ?_) ?_
    · rw [plainActs_append,inner_append]
      exact ⟨hlogin,inner_nil⟩
    · rintro ⟨_,before,third,after,hmessages,hthird,hcount,_⟩
      have hsome := (hreached after).mpr ⟨before,third,hmessages,hthird,hcount⟩
      rw [hauth] at hsome
      cases hsome
  · rw [hrun]
    refine iff_of_false (hleft _ ?_) ?_
    · rw [plainActs_append,plainActs_append,inner_append,inner_append]
      exact ⟨⟨hlogin,inner_sshOpenShell false after⟩,inner_nil⟩
    · rintro ⟨_,before,third,after',hmessages,hthird,hcount,hopens⟩
      have hsome := (hreached after').mpr ⟨before,third,hmessages,hthird,hcount⟩
      rw [hauth] at hsome
      rw [←Option.some.inj hsome] at hopens
      have htrue := (sshOpenShell_iff false after).mpr (Or.inr hopens)
      rw [hopen] at htrue
      cases htrue
  · rw [hrun]
    have hopens : OpensShell after := by
      rcases (sshOpenShell_iff false after).mp hopen with h|h
      · cases h.1
      · exact h
    rcases (hreached after).mp hauth with ⟨before,third,hmessages,hthird,hcount⟩
    refine iff_of_true ?_ ⟨hset,before,third,after,hmessages,hthird,hcount,hopens⟩
    have hinner : Inner (plainActs ((sshAuthenticate s 0 env.messages).1++
        (sshOpenShell false after).1++[.channelWrite sshMotd,.channelWrite sshShellPrompt]++
        sshShell s [] env.reads)) := by
      rw [plainActs_append,plainActs_append,plainActs_append,inner_append,inner_append,
        inner_append]
      exact ⟨⟨⟨hlogin,inner_sshOpenShell false after⟩,inner_nil⟩,inner_sshShell s [] env.reads⟩
    have hend : audits (plainActs [.disconnect,.act (s.recordDisconnect .ssh)])=
        audits [s.recordDisconnect .ssh] := rfl
    have hbracket := recordsBracket_of_inner (s := s) .ssh _ hinner hend
    rw [←plainActs_append] at hbracket
    exact hbracket

/-- A handler leaves one connection event first and one disconnection event
last exactly in the runs that reach its last exit, which all runs of eight of
the ten handlers do. -/
theorem recordsBracket_iff (s : Session) (run : ServiceRun) :
    RecordsBracket s (run.acts s) ↔ run.ReachesEnd := by
  have hend : ∀ proto,audits [s.recordDisconnect proto,.close]=
      audits [s.recordDisconnect proto] := fun _ => rfl
  cases run with
  | mysql connId salt sent memory results =>
    exact mysql_recordsBracket_iff s connId salt sent memory results
  | ssh env => exact ssh_recordsBracket_iff s env
  | ftp results =>
    exact iff_true_intro (recordsBracket_of_inner .ftp (.send ftpBanner::_)
      ((inner_send _).mpr (inner_ftpReceive s .start results)) (hend _))
  | telnet results =>
    exact iff_true_intro (recordsBracket_of_inner .telnet _ (inner_telnetLogin s 2 results) (hend _))
  | redis memory h results =>
    exact iff_true_intro (recordsBracket_of_inner .redis _ (inner_dispatched s _) (hend _))
  | postgresql salt memory results =>
    refine iff_true_intro (recordsBracket_of_inner .postgresql _ ?_ (hend _))
    rw [inner_append]
    refine ⟨inner_startup memory results,?_⟩
    split
    · exact inner_nil
    · dsimp only
      rw [inner_send]
      split <;> simp
  | pop3 results =>
    exact iff_true_intro (recordsBracket_of_inner .pop3 (.send _::_)
      ((inner_send _).mpr (inner_pop3Commands s [] results)) (hend _))
  | imap results =>
    exact iff_true_intro (recordsBracket_of_inner .imap (.send _::_)
      ((inner_send _).mpr (inner_imapCommands s results)) (hend _))
  | dns memory results =>
    refine iff_true_intro (recordsBracket_of_inner .dns _ ?_ (hend _))
    split
    · exact inner_nil
    · split
      · exact inner_nil
      · exact inner_dnsAnswer s _ _ _
  | questdb salt memory results =>
    refine iff_true_intro (recordsBracket_of_inner .questdb _ ?_ (hend _))
    rw [inner_append]
    refine ⟨inner_startup memory results,?_⟩
    split
    · exact inner_nil
    · dsimp only
      rw [inner_send]
      split
      · exact inner_nil
      · simp [qdbWelcome,inner_qdbQueries]

/-- A client that reads the MySQL greeting and goes away leaves no end. -/
theorem mysql_session_without_end :
    ∃ salt,¬RecordsBracket ⟨text "10.0.0.9",40000,text "id"⟩
      (runMysqlService ⟨text "10.0.0.9",40000,text "id"⟩ 1 salt 95 [] [.data []]) := by
  refine ⟨⟨List.replicate 8 97,by decide,List.replicate 12 97,by decide⟩,?_⟩
  rw [mysql_recordsBracket_iff]
  rintro ⟨_,bytes,later,h,hne⟩
  cases h
  exact hne rfl

end HoneyDew.AuditBracket
