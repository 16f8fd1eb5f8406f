import HoneyDew.AuditBracket

/-!
# What the audit trail says of a login and what the client is told

Four handlers let clients in. Their acts are read as a word of verdicts, the
recorded attempts and the answers, and the runs in which every record announces
its answer are told apart by the inputs.
-/

namespace HoneyDew.AuthOutcome

open CText AuditTrail Service EventWords AuditBracket
open FtpService TelnetService SshService PostgresWire PostgresServices

/-- The record of an attempt to log in. -/
def recordedAttempt (e : AuditEvent) : Option (Verdict AuditEvent) :=
  if e.eventType=.authSuccess ∨ e.eventType=.authFailure then some (.recorded e) else none

/-- The sends with which a handler answers an attempt. -/
structure Door where
  /-- The client is let in. -/
  grants : Bytes → Bool
  /-- The client is turned away. -/
  rejects : Bytes → Bool

namespace Door

/-- The verdict in one act. -/
def verdict (door : Door) : Action → Option (Verdict AuditEvent)
  | .audit e => recordedAttempt e
  | .send bytes =>
    if door.grants bytes then some .granted
    else if door.rejects bytes then some .rejected
    else none
  | _ => none

/-- The verdicts in the acts of a handler. -/
def word (door : Door) (actions : List Action) : List (Verdict AuditEvent) :=
  actions.filterMap door.verdict

variable {door : Door} {s : Session} {acts : List Action}

@[simp] theorem word_nil : door.word []=[] := rfl

@[simp] theorem word_append (more : List Action) :
    door.word (acts++more)=door.word acts++door.word more := List.filterMap_append

@[simp] theorem word_utilitiesLog (formatted : Bytes) :
    door.word (utilitiesLog formatted::acts)=door.word acts := rfl

@[simp] theorem word_close : door.word (.close::acts)=door.word acts := rfl

@[simp] theorem word_recordCommand (proto : Connection.ProtocolType) (command : Bytes) :
    door.word (s.recordCommand proto command::acts)=door.word acts := rfl

@[simp] theorem word_recordConnection (proto : Connection.ProtocolType) :
    door.word (s.recordConnection proto::acts)=door.word acts := rfl

@[simp] theorem word_recordDisconnect (proto : Connection.ProtocolType) :
    door.word (s.recordDisconnect proto::acts)=door.word acts := rfl

/-- An attempt is part of the word. -/
theorem word_recordAuth (proto : Connection.ProtocolType) (username : Bytes)
    (password : Option Bytes) (success : Bool) :
    door.word (s.recordAuth proto username password success::acts)=
      .recorded (auditRecordAuth (protocolNumber proto) s.remoteIp s.remotePort s.sessionId username
        password success)::door.word acts := by
  cases success <;> rfl

/-- A send that answers no attempt is not part of the word. -/
theorem word_send {bytes : Bytes} (h : door.grants bytes=false ∧ door.rejects bytes=false) :
    door.word (.send bytes::acts)=door.word acts := by
  have hnone : door.verdict (.send bytes)=none := by
    rw [verdict,h.1,h.2]
    rfl
  exact List.filterMap_cons_none hnone

/-- A send that lets the client in. -/
theorem word_grant {bytes : Bytes} (h : door.grants bytes=true) :
    door.word (.send bytes::acts)=.granted::door.word acts := by
  have hsome : door.verdict (.send bytes)=some .granted := by
    rw [verdict,h]
    rfl
  exact List.filterMap_cons_some hsome

/-- A send that turns the client away. -/
theorem word_reject {bytes : Bytes} (h : door.grants bytes=false ∧ door.rejects bytes=true) :
    door.word (.send bytes::acts)=.rejected::door.word acts := by
  have hsome : door.verdict (.send bytes)=some .rejected := by
    rw [verdict,h.1,h.2]
    rfl
  exact List.filterMap_cons_some hsome

end Door

/-- A record that announces admission: a success of high severity. -/
def Accepts (e : AuditEvent) : Prop := e.eventType=.authSuccess ∧ e.severity=.high

/-- A record that announces refusal. -/
def Refuses (e : AuditEvent) : Prop := e.eventType=.authFailure

/-- The audit trail and the answers agree on every attempt. -/
abbrev AgreesOnAttempts (word : List (Verdict AuditEvent)) : Prop := Agrees Accepts Refuses word

section Ftp

/-- The answers of the FTP handler. -/
def ftpDoor : Door := ⟨fun bytes => bytes=ftpRespLoginOk,fun bytes => bytes=ftpRespLoginFail⟩

variable (s : Session)

/-- Every other reply answers no attempt. -/
theorem ftpDoor_quiet {bytes : Bytes} (hok : bytes≠ftpRespLoginOk) (hfail : bytes≠ftpRespLoginFail) :
    ftpDoor.grants bytes=false ∧ ftpDoor.rejects bytes=false := by
  change decide (bytes=ftpRespLoginOk)=false ∧ decide (bytes=ftpRespLoginFail)=false
  exact ⟨decide_eq_false hok,decide_eq_false hfail⟩

/-- A recorded line with a reply that answers no attempt. -/
theorem ftp_word_reply {line bytes : Bytes}
    (h : ftpDoor.grants bytes=false ∧ ftpDoor.rejects bytes=false) :
    ftpDoor.word [s.recordCommand .ftp line,.send bytes]=[] := by
  rw [Door.word_recordCommand,Door.word_send h,Door.word_nil]

/-- The answer to `PWD` is never taken for an answer to an attempt. -/
theorem ftp_pwd_reply (rest : Bytes) :
    ftpDoor.grants ((text "257 "++rest).take 599)=false ∧
      ftpDoor.rejects ((text "257 "++rest).take 599)=false := by
  have hhead : ((text "257 "++rest).take 599).take 4=text "257 " := by
    rw [List.take_take]
    exact List.take_left' (by decide)
  have hok : ftpRespLoginOk.take 4≠text "257 " := by decide
  have hfail : ftpRespLoginFail.take 4≠text "257 " := by decide
  refine ftpDoor_quiet ?_ ?_
  · intro h
    rw [h] at hhead
    exact hok hhead
  · intro h
    rw [h] at hhead
    exact hfail hhead

/-- The lines of an authenticated client answer no attempt. -/
theorem ftp_word_command (sess : FtpSession) (line : Bytes) (verb : FtpVerb) :
    ftpDoor.word (ftpHandleCommand s sess line verb).2=[] := by
  have hevent : ∀ eventType details bytes,
      ¬(eventType=AuditEventType.authSuccess ∨ eventType=AuditEventType.authFailure) →
      (ftpDoor.grants bytes=false ∧ ftpDoor.rejects bytes=false) →
      ftpDoor.word [s.recordEvent eventType .high .ftp [] details,.send bytes]=[] := by
    intro eventType details bytes htype hbytes
    have hnone : ftpDoor.verdict (s.recordEvent eventType .high .ftp [] details)=none := if_neg htype
    exact (List.filterMap_cons_none hnone).trans (Door.word_send hbytes)
  have hlogged : ∀ formatted bytes,(ftpDoor.grants bytes=false ∧ ftpDoor.rejects bytes=false) →
      ftpDoor.word [s.recordCommand .ftp line,utilitiesLog formatted,.send bytes]=[] :=
    fun _ _ hbytes => Door.word_send hbytes
  cases verb with
  | pwd => exact ftp_word_reply s (by
      rw [List.append_assoc,List.append_assoc,List.append_assoc]
      exact ftp_pwd_reply _)
  | list =>
    have hheader : ftpDoor.grants (replyLine "150 Here comes the directory listing.")=false ∧
        ftpDoor.rejects (replyLine "150 Here comes the directory listing.")=false := by
      decide
    have hdata : ftpDoor.grants ftpFakeListData=false ∧ ftpDoor.rejects ftpFakeListData=false := by
      decide
    have hfooter : ftpDoor.grants (replyLine "226 Directory send OK.")=false ∧
        ftpDoor.rejects (replyLine "226 Directory send OK.")=false := by
      decide
    exact (Door.word_send hheader).trans ((Door.word_send hdata).trans (Door.word_send hfooter))
  | retr =>
    refine hevent _ _ _ ?_ ?_
    · decide
    · decide
  | stor =>
    refine hevent _ _ _ ?_ ?_
    · decide
    · decide
  | dele =>
    refine hevent _ _ _ ?_ ?_
    · decide
    · decide
  | mkd =>
    refine hlogged _ _ ?_
    decide
  | rmd =>
    refine hlogged _ _ ?_
    decide
  | _ =>
    refine ftp_word_reply s ?_
    decide

/-- An attempt is answered as it is recorded. -/
theorem ftp_agrees_pass (sess : FtpSession) (line : Bytes) :
    AgreesOnAttempts (ftpDoor.word (ftpHandlePass s sess line).acts) := by
  have hlimit : ∀ limit : Bool,ftpDoor.word (if limit then [.send ftpRespGoodbye] else [])=[] := by
    intro limit
    cases limit with
    | false => rfl
    | true => exact Door.word_send (by decide)
  unfold ftpHandlePass
  dsimp only
  rw [Door.word_append,hlimit,List.append_nil,Door.word_recordAuth]
  by_cases hsuccess : 2 ≤ sess.authAttempts+1
  · have hgrant : ftpDoor.grants ftpRespLoginOk=true := by decide
    rw [decide_eq_true hsuccess,if_pos rfl,Door.word_grant hgrant]
    exact .granted ⟨rfl,rfl⟩ .nil
  · have hreject : ftpDoor.grants ftpRespLoginFail=false ∧ ftpDoor.rejects ftpRespLoginFail=true := by
      decide
    rw [decide_eq_false hsuccess,if_neg Bool.false_ne_true,Door.word_reject hreject]
    exact .rejected rfl .nil

/-- Every FTP line agrees with its record. -/
theorem ftp_agrees_execute (sess : FtpSession) (line : Bytes) :
    AgreesOnAttempts (ftpDoor.word (ftpExecute s sess line).acts) := by
  have hquiet : ∀ {acts},ftpDoor.word acts=[] → AgreesOnAttempts (ftpDoor.word acts) := by
    intro acts h
    rw [h]
    exact .nil
  unfold ftpExecute
  split
  · exact hquiet (ftp_word_reply s (by decide))
  · exact ftp_agrees_pass s sess line
  · exact hquiet (ftp_word_reply s (by decide))
  · split
    · exact hquiet (ftp_word_command s sess line _)
    · exact hquiet (ftp_word_reply s (by decide))

/-- The lines of an FTP segment agree with their records, wherever it ends. -/
theorem ftp_agrees_segment (loop : FtpLoop) (bytes : Bytes) :
    AgreesOnAttempts (ftpDoor.word (ftpSegment s loop bytes).2) := by
  induction bytes generalizing loop with
  | nil => exact .nil
  | cons c cs ih =>
    rw [ftpSegment,Door.word_append]
    refine Agrees.append ?_ (ih _)
    unfold ftpByte
    split
    · split
      · exact .nil
      · exact ftp_agrees_execute s _ _
    · split
      · exact .nil
      · exact .nil

/-- The FTP handler always answers as it records. -/
theorem ftp_agrees (results : List RecvResult) :
    AgreesOnAttempts (ftpDoor.word (runFtpService s results)) := by
  have hreceive : ∀ loop,AgreesOnAttempts (ftpDoor.word (ftpReceive s loop results)) := by
    induction results with
    | nil => exact fun _ => .nil
    | cons r rs ih =>
      intro loop
      rw [ftpReceive]
      split
      · split
        · exact .nil
        · rw [Door.word_append]
          exact Agrees.append (ftp_agrees_segment s loop _) (ih _)
      · exact .nil
  have hbanner : ftpDoor.grants ftpBanner=false ∧ ftpDoor.rejects ftpBanner=false := by
    decide
  unfold runFtpService
  rw [Door.word_recordConnection,Door.word_send hbanner,Door.word_append,
    Door.word_recordDisconnect,Door.word_close,Door.word_nil,List.append_nil]
  exact hreceive _

end Ftp

section Telnet

/-- The answers of the Telnet handler. -/
def telnetDoor : Door := ⟨fun bytes => bytes=telnetMotd,fun bytes => bytes=telnetLoginIncorrect⟩

variable (s : Session)

/-- A `recv` call that gives bytes. -/
def Delivers (r : RecvResult) : Prop := ∃ bytes,r=.data bytes ∧ bytes≠[]

/-- The client sends two user names and two passwords. -/
def CompletesLogin (results : List RecvResult) : Prop :=
  ∃ name word name' word' later,results=name::word::name'::word'::later ∧ Delivers name ∧
    Delivers word ∧ Delivers name' ∧ Delivers word'

/-- A line is read exactly where a call gives bytes. -/
theorem telnetReadLine_cases (results : List RecvResult) :
    (∃ r rs line,results=r::rs ∧ Delivers r ∧ telnetReadLine results=(some line,rs)) ∨
    (∃ rest,telnetReadLine results=(none,rest) ∧ ∀ r rs,results=r::rs → ¬Delivers r) := by
  cases results with
  | nil => exact Or.inr ⟨[],rfl,fun r rs h => absurd h.symm (List.cons_ne_nil _ _)⟩
  | cons r rs =>
    have hdelivers := recv_ne_none_iff (by decide : 0<4095) r
    cases hrecv : recv 4095 r with
    | none =>
      refine Or.inr ⟨rs,by rw [telnetReadLine,hrecv]; rfl,?_⟩
      intro r' rs' h hr
      rw [←(List.cons.inj h).1] at hr
      exact hdelivers.mpr hr hrecv
    | some raw =>
      refine Or.inl ⟨r,rs,telnetStripCrlf (telnetStripIac raw 1024),rfl,?_,?_⟩
      · exact hdelivers.mp (by rw [hrecv]; exact Option.some_ne_none _)
      · rw [telnetReadLine,hrecv]
        rfl

/-- The verdict in a Telnet attempt: it is always recorded as refused. -/
def telnetAttempt (username password : Bytes) : Verdict AuditEvent :=
  .recorded (auditRecordAuth (protocolNumber .telnet) s.remoteIp s.remotePort s.sessionId
    (username.take 255) (some (password.take 255)) false)

/-- One round of the login loop gives a recorded attempt and goes on, or gives
nothing and ends the login. -/
theorem telnet_word_round (k : ℕ) (results : List RecvResult) :
    (∃ name word later username password,results=name::word::later ∧ Delivers name ∧
      Delivers word ∧ telnetDoor.word (telnetLogin s (k+1) results)=
        (if k=1 then [] else [.rejected])++telnetAttempt s username password::
          telnetDoor.word (telnetLogin s k later)) ∨
    ((∀ name word later,results=name::word::later → ¬(Delivers name ∧ Delivers word)) ∧
      telnetDoor.word (telnetLogin s (k+1) results)=if k=1 then [] else [.rejected]) := by
  have hprompt : telnetDoor.word (if k=1 then [.send telnetBanner]
      else [.send telnetLoginIncorrect,.send (text "honeydew login: ")])=
        if k=1 then [] else [.rejected] := by
    split
    · refine Door.word_send ?_
      decide
    · have hincorrect : telnetDoor.grants telnetLoginIncorrect=false ∧
          telnetDoor.rejects telnetLoginIncorrect=true := by
        decide
      rw [Door.word_reject hincorrect]
      refine congrArg _ (Door.word_send ?_)
      decide
  have hecho : telnetDoor.word [.send iacWillEcho,.send (text "Password: ")]=[] := by
    decide
  have hwont : telnetDoor.grants iacWontEcho=false ∧ telnetDoor.rejects iacWontEcho=false := by
    decide
  have hcrlf : telnetDoor.grants crlf=false ∧ telnetDoor.rejects crlf=false := by
    decide
  rw [telnetLogin,Door.word_append,hprompt]
  rcases telnetReadLine_cases results with hname|hname
  · rcases hname with ⟨name,rs,username,hresults,hdelivers,hread⟩
    rw [hread]
    dsimp only
    rw [Door.word_append,hecho,List.nil_append]
    rcases telnetReadLine_cases rs with hword|hword
    · rcases hword with ⟨word,later,password,hrs,hdelivers',hread'⟩
      rw [hread']
      refine Or.inl ⟨name,word,later,username,password,by rw [hresults,hrs],hdelivers,hdelivers',?_⟩
      dsimp only
      rw [Door.word_append,Door.word_send hwont,Door.word_send hcrlf,Door.word_recordAuth]
      rfl
    · rcases hword with ⟨rest,hread',hnone⟩
      rw [hread']
      refine Or.inr ⟨?_,?_⟩
      · intro name' word later h hboth
        rw [hresults] at h
        exact hnone word later (List.cons.inj h).2 hboth.2
      · dsimp only
        rw [Door.word_send hwont,Door.word_send hcrlf,Door.word_nil,List.append_nil]
  · rcases hname with ⟨rest,hread,hnone⟩
    rw [hread]
    refine Or.inr ⟨?_,?_⟩
    · intro name word later h hboth
      exact hnone name (word::later) h hboth.1
    · dsimp only
      rw [Door.word_nil,List.append_nil]

/-- The Telnet handler answers as it records exactly until a client gets in. -/
theorem telnet_agrees_iff (results : List RecvResult) :
    AgreesOnAttempts (telnetDoor.word (runTelnetService s results)) ↔ ¬CompletesLogin results := by
  have hrefused : ∀ username password : Bytes,Refuses (auditRecordAuth (protocolNumber .telnet) s.remoteIp
      s.remotePort s.sessionId (username.take 255) (some (password.take 255)) false) :=
    fun _ _ => rfl
  have hword : telnetDoor.word (runTelnetService s results)=
      telnetDoor.word (telnetLogin s 2 results) := by
    unfold runTelnetService
    rw [Door.word_recordConnection,Door.word_append,Door.word_recordDisconnect,Door.word_close,
      Door.word_nil,List.append_nil]
  rw [hword]
  rcases telnet_word_round s 1 results with hfirst|hfirst
  · rcases hfirst with ⟨name,word,later,username,password,hresults,hname,hpass,hfirst⟩
    rw [hfirst,if_pos rfl,List.nil_append]
    rcases telnet_word_round s 0 later with hsecond|hsecond
    · rcases hsecond with ⟨name',word',later',username',password',hlater,hname',hpass',hsecond⟩
      have hmotd : telnetDoor.grants telnetMotd=true := by decide +kernel
      rw [hsecond,telnetLogin,Door.word_grant hmotd]
      refine iff_of_false ?_ (not_not.mpr
        ⟨name,word,name',word',later',by rw [hresults,hlater],hname,hpass,hname',hpass'⟩)
      have hnotaccepted : ¬Accepts (auditRecordAuth (protocolNumber .telnet) s.remoteIp
          s.remotePort s.sessionId (username'.take 255) (some (password'.take 255)) false) :=
        fun h => AuditEventType.noConfusion h.1
      exact not_agrees_of_granted (.rejected (hrefused username password) .nil) hnotaccepted
    · rw [hsecond.2]
      refine iff_of_true (.rejected (hrefused username password) .nil) ?_
      rintro ⟨name₁,word₁,name₂,word₂,later₂,h,_,_,hname₂,hword₂⟩
      rw [hresults] at h
      have hrest := (List.cons.inj (List.cons.inj h).2).2
      exact hsecond.1 name₂ word₂ later₂ hrest ⟨hname₂,hword₂⟩
  · rw [hfirst.2]
    refine iff_of_true .nil ?_
    rintro ⟨name,word,name',word',later,h,hname,hpass,_⟩
    exact hfirst.1 name word (name'::word'::later) h ⟨hname,hpass⟩

end Telnet

section Ssh

/-- The verdict in one act of the SSH handler. -/
def sshVerdict : SshAction → Option (Verdict AuditEvent)
  | .act (.audit e) => recordedAttempt e
  | .authReplySuccess => some .granted
  | .replyDefault m => if isPassword m then some .rejected else none
  | _ => none

/-- The verdicts in the acts of the SSH handler. -/
def sshWord (actions : List SshAction) : List (Verdict AuditEvent) := actions.filterMap sshVerdict

variable (s : Session)

/-- The parts of a run follow each other. -/
theorem sshWord_append (xs ys : List SshAction) : sshWord (xs++ys)=sshWord xs++sshWord ys :=
  List.filterMap_append

/-- An attempt is part of the word. -/
theorem sshWord_recordAuth (username : Bytes) (password : Option Bytes) (success : Bool)
    (acts : List SshAction) :
    sshWord (.act (s.recordAuth .ssh username password success)::acts)=
      .recorded (auditRecordAuth (protocolNumber .ssh) s.remoteIp s.remotePort s.sessionId username
        password success)::sshWord acts := by
  cases success <;> rfl

/-- The authentication loop answers as it records. -/
theorem ssh_agrees_authenticate (attempts : ℕ) (messages : List SshMessage) :
    AgreesOnAttempts (sshWord (sshAuthenticate s attempts messages).1) := by
  induction messages generalizing attempts with
  | nil => exact .nil
  | cons m messages ih =>
    cases m with
    | authPassword user pass =>
      rw [sshAuthenticate]
      dsimp only
      by_cases hlast : 3 ≤ attempts+1
      · rw [decide_eq_true hlast,if_pos rfl]
        dsimp only
        rw [sshWord_recordAuth]
        exact .granted ⟨rfl,rfl⟩ .nil
      · rw [decide_eq_false hlast,if_neg Bool.false_ne_true]
        dsimp only
        rw [sshWord_recordAuth]
        exact .rejected rfl (ih _)
    | authOther => exact ih _
    | channelOpen accepted => exact ih _
    | channelRequest request => exact ih _
    | other => exact ih _

/-- A message that is passed over leaves the question whether an attempt was turned away
to the others. -/
theorem ssh_word_openShell_pass {channel channel' : Bool} {x : SshMessage}
    {messages : List SshMessage} (hx : isPassword x=false)
    (hword : sshWord (sshOpenShell channel (x::messages)).1=sshWord (sshOpenShell channel' messages).1)
    (hresult : ∀ rest,(sshOpenShell channel (x::rest)).2=(sshOpenShell channel' rest).2)
    (h : (sshWord (sshOpenShell channel' messages).1=[] ∧
        ∀ before m after,messages=before++m::after → isPassword m=true →
          (sshOpenShell channel' before).2=true) ∨
      ((∃ more,sshWord (sshOpenShell channel' messages).1=.rejected::more) ∧
        ∃ before m after,messages=before++m::after ∧ isPassword m=true ∧
          (sshOpenShell channel' before).2=false)) :
    (sshWord (sshOpenShell channel (x::messages)).1=[] ∧
      ∀ before m after,x::messages=before++m::after → isPassword m=true →
        (sshOpenShell channel before).2=true) ∨
    ((∃ more,sshWord (sshOpenShell channel (x::messages)).1=.rejected::more) ∧
      ∃ before m after,x::messages=before++m::after ∧ isPassword m=true ∧
        (sshOpenShell channel before).2=false) := by
  rw [hword]
  cases h with
  | inl hquiet =>
    refine Or.inl ⟨hquiet.1,?_⟩
    intro before m after hsplit hm
    cases before with
    | nil =>
      rw [(List.cons.inj hsplit).1,hm] at hx
      cases hx
    | cons b before =>
      have hparts := List.cons.inj hsplit
      rw [←hparts.1,hresult]
      exact hquiet.2 before m after hparts.2 hm
  | inr hloud =>
    obtain ⟨before,m,after,hmessages,hm,hopen⟩ := hloud.2
    refine Or.inr ⟨hloud.1,x::before,m,after,by rw [hmessages]; rfl,hm,?_⟩
    rw [hresult]
    exact hopen

/-- The channel loop turns attempts away but does not record them. -/
theorem ssh_word_openShell (channel : Bool) (messages : List SshMessage) :
    (sshWord (sshOpenShell channel messages).1=[] ∧
      ∀ before m after,messages=before++m::after → isPassword m=true →
        (sshOpenShell channel before).2=true) ∨
    ((∃ more,sshWord (sshOpenShell channel messages).1=.rejected::more) ∧
      ∃ before m after,messages=before++m::after ∧ isPassword m=true ∧
        (sshOpenShell channel before).2=false) := by
  induction messages generalizing channel with
  | nil =>
    refine Or.inl ⟨rfl,?_⟩
    intro before m after h
    exact absurd h.symm (List.append_ne_nil_of_right_ne_nil _ (List.cons_ne_nil _ _))
  | cons x messages ih =>
    cases x with
    | authPassword user pass =>
      refine Or.inr ⟨?_,[],.authPassword user pass,messages,rfl,rfl,rfl⟩
      cases channel <;> exact ⟨_,rfl⟩
    | channelOpen accepted => exact ssh_word_openShell_pass rfl rfl (fun _ => rfl) (ih accepted)
    | authOther =>
      cases channel with
      | false => exact ssh_word_openShell_pass rfl rfl (fun _ => rfl) (ih false)
      | true => exact ssh_word_openShell_pass rfl rfl (fun _ => rfl) (ih true)
    | other =>
      cases channel with
      | false => exact ssh_word_openShell_pass rfl rfl (fun _ => rfl) (ih false)
      | true => exact ssh_word_openShell_pass rfl rfl (fun _ => rfl) (ih true)
    | channelRequest request =>
      cases channel with
      | false => exact ssh_word_openShell_pass rfl rfl (fun _ => rfl) (ih false)
      | true =>
        cases request with
        | pty => exact ssh_word_openShell_pass rfl rfl (fun _ => rfl) (ih true)
        | env => exact ssh_word_openShell_pass rfl rfl (fun _ => rfl) (ih true)
        | other => exact ssh_word_openShell_pass rfl rfl (fun _ => rfl) (ih true)
        | shell =>
          refine Or.inl ⟨rfl,?_⟩
          intro before m after h hm
          cases before with
          | nil =>
            rw [←(List.cons.inj h).1] at hm
            cases hm
          | cons b before =>
            rw [←(List.cons.inj h).1]
            rfl

/-- The shell gives no verdicts. -/
theorem ssh_word_shell (line : Bytes) (reads : List RecvResult) :
    sshWord (sshShell s line reads)=[] := by
  have hbyte : ∀ line c,sshWord (sshByte s line c).2=[] := by
    intro line c
    unfold sshByte
    split
    · split
      · rfl
      · dsimp only
        split <;> rfl
    · split
      · split <;> rfl
      · split
        · rfl
        · split <;> rfl
  have hbytes : ∀ line bytes,sshWord (sshBytes s line bytes).2=[] := by
    intro line bytes
    induction bytes generalizing line with
    | nil => rfl
    | cons c cs ih =>
      rw [sshBytes]
      split
      · exact hbyte line c
      · rw [sshWord_append,hbyte,ih,List.nil_append]
  induction reads generalizing line with
  | nil => rfl
  | cons r rs ih =>
    rw [sshShell]
    split
    · rfl
    · dsimp only
      split
      · exact hbytes _ _
      · rw [sshWord_append,hbytes,ih,List.nil_append]

/-- A client that has been let in sends a password once more before it has a
shell. -/
def TriesAgain (messages : List SshMessage) : Prop :=
  ∃ front third before m after,messages=front++third::(before++m::after) ∧
    isPassword third=true ∧ front.countP isPassword=2 ∧ isPassword m=true ∧ ¬OpensShell before

/-- Behind the login, a client that tries again is turned away unrecorded, and no
other one. -/
theorem ssh_agrees_behind_login {all messages : List SshMessage}
    (hauth : (sshAuthenticate s 0 all).2=some messages) :
    AgreesOnAttempts (sshWord (sshAuthenticate s 0 all).1++sshWord (sshOpenShell false messages).1) ↔
      ¬TriesAgain all := by
  have hlogin := ssh_agrees_authenticate s 0 all
  have hreached := sshAuthenticate_splits s (Nat.add_zero 2) all
  rcases ssh_word_openShell false messages with hquiet|hloud
  · rw [hquiet.1,List.append_nil]
    refine iff_of_true hlogin ?_
    rintro ⟨front,third,before,m,after,hmessages,hthird,hcount,hm,hopens⟩
    have hsome := (hreached (before++m::after)).mpr ⟨front,third,hmessages,hthird,hcount⟩
    rw [hauth] at hsome
    have hopen := hquiet.2 before m after (Option.some.inj hsome) hm
    rcases (sshOpenShell_iff false before).mp hopen with h|h
    · cases h.1
    · exact hopens h
  · rcases hloud with ⟨⟨more,hmore⟩,before,m,after,hmessages,hm,hopen⟩
    rcases (hreached messages).mp hauth with ⟨front,third,hfront,hthird,hcount⟩
    rw [hmore]
    refine iff_of_false (not_agrees_of_rejected hlogin) (not_not.mpr ?_)
    refine ⟨front,third,before,m,after,by rw [hfront,hmessages],hthird,hcount,hm,?_⟩
    intro hopens
    have htrue := (sshOpenShell_iff false before).mpr (Or.inr hopens)
    rw [hopen] at htrue
    cases htrue

/-- The SSH handler answers as it records exactly until a client that has been
let in tries again. -/
theorem ssh_agrees_iff (env : SshEnvironment) :
    AgreesOnAttempts (sshWord (runSshService s env)) ↔
      ¬(env.sshNew=true ∧ env.sshBindNew=true ∧ env.acceptFd=true ∧ env.keyExchange=true ∧
        TriesAgain env.messages) := by
  have hlogin := ssh_agrees_authenticate s 0 env.messages
  have hstart : ∀ acts,sshWord (.act (s.recordConnection .ssh)::acts)=sshWord acts := fun _ => rfl
  have hready : (env.sshNew=true ∧ env.sshBindNew=true ∧ env.acceptFd=true ∧ env.keyExchange=true ∧
      TriesAgain env.messages) ↔ env.Ready ∧ TriesAgain env.messages := by
    simp only [SshEnvironment.Ready,and_assoc]
  have hbehind : env.Ready → ∀ messages,(sshAuthenticate s 0 env.messages).2=some messages →
      (AgreesOnAttempts (sshWord (sshAuthenticate s 0 env.messages).1++
        sshWord (sshOpenShell false messages).1) ↔ ¬(env.Ready ∧ TriesAgain env.messages)) := by
    intro hset messages hauth
    rw [ssh_agrees_behind_login s hauth,and_iff_right hset]
  rw [hready]
  rcases runSshService_exits s env with ⟨hunready,last,hlast,hrun⟩|⟨_,hauth,hrun⟩|
    ⟨hset,messages,hauth,_,hrun⟩|⟨hset,messages,hauth,_,hrun⟩
  · rw [hrun,hstart]
    refine iff_of_true ?_ (fun h => hunready h.1)
    rcases hlast with rfl|rfl
    · exact .nil
    · exact .nil
  · rw [hrun,hstart,sshWord_append]
    refine iff_of_true (hlogin.append .nil) ?_
    rintro ⟨_,front,third,before,m,after,hmessages,hthird,hcount,_⟩
    have hsome := (sshAuthenticate_splits s (Nat.add_zero 2) env.messages (before++m::after)).mpr
      ⟨front,third,hmessages,hthird,hcount⟩
    rw [hauth] at hsome
    cases hsome
  · rw [hrun,hstart,sshWord_append,sshWord_append,show sshWord [.disconnect]=[] from rfl,
      List.append_nil]
    exact hbehind hset messages hauth
  · have hmotd : sshWord [.channelWrite sshMotd,.channelWrite sshShellPrompt]=[] := rfl
    have hlast : sshWord [.disconnect,.act (s.recordDisconnect .ssh)]=[] := rfl
    rw [hrun,hstart,sshWord_append,sshWord_append,sshWord_append,sshWord_append,ssh_word_shell,hmotd,
      hlast,List.append_nil,List.append_nil,List.append_nil]
    exact hbehind hset messages hauth

end Ssh

section Questdb

/-- The answers of the QuestDB handler, which turns nobody away. -/
def questdbDoor : Door := ⟨fun bytes => bytes=qdbAuthOk,fun _ => false⟩

variable (s : Session)

/-- A message that gives a protocol version at its fifth byte. -/
def HasVersion (version : ℕ) (bytes : Bytes) : Prop :=
  8 ≤ bytes.length ∧ readBigEndian32 bytes 4=version

/-- A password message with at least one byte of password. -/
def IsPasswordMessage (bytes : Bytes) : Prop := 5<bytes.length ∧ bytes.head?=some 112

/-- Where the start ends: behind a message of the third version, itself behind
at most one request for encryption. -/
def Accepted (results later : List RecvResult) : Prop :=
  (∃ start,results=.data start::later ∧ HasVersion 196608 start) ∨
  (∃ request start,results=.data request::.data start::later ∧ HasVersion 80877103 request ∧
    8<start.length ∧ HasVersion 196608 start)

/-- The client completes the start and sends a password. -/
def SendsPassword (results : List RecvResult) : Prop :=
  ∃ password later,Accepted results (.data password::later) ∧ IsPasswordMessage password

/-- The start of a client whose first call gives a message. -/
theorem accepted_data {bytes : Bytes} {rs later : List RecvResult} :
    Accepted (.data bytes::rs) later ↔ HasVersion 196608 bytes ∧ rs=later ∨
      HasVersion 80877103 bytes ∧ ∃ start,rs=.data start::later ∧ 8<start.length ∧
        HasVersion 196608 start := by
  constructor
  · rintro (⟨start,hresults,hstart⟩|⟨request,start,hresults,hrequest,hlong,hstart⟩)
    · obtain ⟨hbytes,hrest⟩ := List.cons.inj hresults
      exact Or.inl ⟨RecvResult.data.inj hbytes ▸ hstart,hrest⟩
    · obtain ⟨hbytes,hrest⟩ := List.cons.inj hresults
      exact Or.inr ⟨RecvResult.data.inj hbytes ▸ hrequest,start,hrest,hlong,hstart⟩
  · rintro (⟨hbytes,rfl⟩|⟨hbytes,start,rfl,hlong,hstart⟩)
    · exact Or.inl ⟨bytes,rfl,hbytes⟩
    · exact Or.inr ⟨bytes,start,rfl,hbytes,hlong,hstart⟩

/-- A start that is accepted begins with a message. -/
theorem Accepted.first {results later : List RecvResult} (h : Accepted results later) :
    ∃ bytes rs,results=.data bytes::rs ∧ 8 ≤ bytes.length := by
  rcases h with ⟨start,hresults,hstart⟩|⟨request,start,hresults,hrequest,_⟩
  · exact ⟨start,later,hresults,hstart.1⟩
  · exact ⟨request,_,hresults,hrequest.1⟩

/-- A message has one version. -/
theorem HasVersion.unique {version version' : ℕ} {bytes : Bytes} (h : HasVersion version bytes)
    (h' : HasVersion version' bytes) : version=version' := h.2.symm.trans h'.2

/-- The start ends at one place only. -/
theorem accepted_unique {results later later' : List RecvResult} (h : Accepted results later)
    (h' : Accepted results later') : later=later' := by
  obtain ⟨bytes,rs,rfl,_⟩ := h.first
  rcases accepted_data.mp h with ⟨hthird,hrest⟩|⟨hrequest,start,hrest,_⟩
  · rcases accepted_data.mp h' with ⟨_,hrest'⟩|⟨hrequest,_⟩
    · rw [←hrest,←hrest']
    · exact absurd (hthird.unique hrequest) (by decide)
  · rcases accepted_data.mp h' with ⟨hthird,_⟩|⟨_,start',hrest',_⟩
    · exact absurd (hthird.unique hrequest) (by decide)
    · rw [hrest] at hrest'
      exact (List.cons.inj hrest').2

/-- A receive call for a message of at least so many bytes: it stands in the buffer,
or the client has not sent one. -/
theorem recvInto_message (memory : Bytes) (results : List RecvResult) {k : ℕ} (hk : 8 ≤ k ∧ k ≤ 4096) :
    (∃ bytes rs n memory',results=.data bytes::rs ∧ k ≤ bytes.length ∧ k ≤ n ∧
      recvInto memory results=some (n,memory',rs) ∧
      readBigEndian32 memory' 4=readBigEndian32 bytes 4) ∨
    ((recvInto memory results=none ∨
      ∃ n memory' rs,recvInto memory results=some (n,memory',rs) ∧ n<k) ∧
      ∀ bytes rs,results=.data bytes::rs → bytes.length<k) := by
  cases results with
  | nil => exact Or.inr ⟨Or.inl rfl,fun bytes rs h => absurd h.symm (List.cons_ne_nil _ _)⟩
  | cons r rs =>
    cases hrecv : recv 4096 r with
    | none =>
      refine Or.inr ⟨Or.inl (recvInto_none hrecv rs),?_⟩
      intro bytes rs' h
      by_contra hlong
      have hne : bytes≠[] := List.ne_nil_of_length_pos (by omega)
      exact (recv_ne_none_iff (by decide : 0<4096) r).mpr ⟨bytes,(List.cons.inj h).1,hne⟩ hrecv
    | some raw =>
      obtain ⟨bytes,hr,_,hraw⟩ := recv_eq_some hrecv
      have hread : recvInto memory (r::rs)=some (raw.length,CMemory.writeAt memory 0 raw,rs) :=
        recvInto_some hrecv rs
      have hlength : raw.length=min 4096 bytes.length := by
        rw [hraw,List.length_take]
      by_cases hlong : k ≤ bytes.length
      · refine Or.inl ⟨bytes,rs,raw.length,_,by rw [hr],hlong,by omega,hread,?_⟩
        have hbyte : ∀ i < 8,(bytes.take 4096).getD i 0=bytes.getD i 0 := by
          intro i hi
          rw [List.getD_eq_getElem?_getD,List.getElem?_take_of_lt (by omega),
            ←List.getD_eq_getElem?_getD]
        rw [readBigEndian32_writeAt memory (by omega),hraw]
        unfold readBigEndian32
        rw [hbyte 4 (by decide),hbyte (4+1) (by decide),hbyte (4+2) (by decide),
          hbyte (4+3) (by decide)]
      · refine Or.inr ⟨Or.inr ⟨raw.length,_,rs,hread,by omega⟩,?_⟩
        intro bytes' rs' h
        have hsame := (List.cons.inj h).1
        rw [hr] at hsame
        rw [←RecvResult.data.inj hsame]
        omega

/-- A password message is taken exactly where one arrives. -/
theorem passwordMessage_cases (later : List RecvResult) :
    (∃ password rest text,later=.data password::rest ∧ IsPasswordMessage password ∧
      passwordMessage later=some (text,rest)) ∨
    (passwordMessage later=none ∧
      ∀ password rest,later=.data password::rest → ¬IsPasswordMessage password) := by
  cases later with
  | nil => exact Or.inr ⟨rfl,fun _ _ h => absurd h.symm (List.cons_ne_nil _ _)⟩
  | cons r rest =>
    cases r with
    | failed => exact Or.inr ⟨rfl,fun _ _ h => RecvResult.noConfusion (List.cons.inj h).1⟩
    | data password =>
      have htake : 5<(password.take 4096).length ∧ (password.take 4096).head?=some 112 ↔
          IsPasswordMessage password := by
        unfold IsPasswordMessage
        rw [List.length_take,List.head?_take,if_neg (by decide)]
        exact and_congr_left (fun _ => by omega)
      by_cases hpassword : IsPasswordMessage password
      · have hne : ¬password.take 4096=[] := by
          intro hnil
          have hlong := (htake.mpr hpassword).1
          rw [hnil] at hlong
          exact absurd hlong (by decide)
        refine Or.inl ⟨password,rest,(cstr ((password.take 4096).drop 5)).take 255,rfl,hpassword,?_⟩
        rw [passwordMessage,recv,if_neg hne,Option.bind_some,if_pos (htake.mpr hpassword)]
      · refine Or.inr ⟨?_,?_⟩
        · rw [passwordMessage,recv]
          split
          · rfl
          · rw [Option.bind_some,if_neg (mt htake.mp hpassword)]
        · intro password' rest' h
          have hsame := RecvResult.data.inj (List.cons.inj h).1
          rw [←hsame]
          exact hpassword

/-- The refusal of a version gives no verdict. -/
theorem word_denied : questdbDoor.word
    [.send (errorResponse "FATAL" "08004" (text "unsupported protocol version"))]=[] := by
  decide

/-- The refusal of encryption gives no verdict. -/
theorem word_unencrypted (acts : List Action) :
    questdbDoor.word (.send (text "N")::acts)=questdbDoor.word acts := by
  refine Door.word_send ?_
  decide

/-- How the start goes: where it is accepted, and that its acts give no verdict. -/
def StartCase (results : List RecvResult) (started : List Action×Startup) : Prop :=
  (∃ memory' n later,started.2=.accepted memory' n later ∧ questdbDoor.word started.1=[] ∧
    Accepted results later) ∨
  (started.2=.ended ∧ questdbDoor.word started.1=[] ∧ ∀ later,¬Accepted results later)

/-- A start that ends where nothing can be accepted. -/
theorem StartCase.ended {results : List RecvResult} (h : ∀ later,¬Accepted results later) :
    StartCase results ([],.ended) := Or.inr ⟨rfl,rfl,h⟩

/-- The refusal of encryption in front of the rest of the start. -/
theorem StartCase.unencrypted {results : List RecvResult} {started : List Action×Startup}
    (h : StartCase results started) :
    StartCase results (.send (text "N")::started.1,started.2) := by
  unfold StartCase at h ⊢
  rwa [word_unencrypted]

/-- The test of a version that decides about the start. -/
theorem startCase_checkVersion {results rs : List RecvResult} {memory bytes : Bytes} {n : ℕ}
    (hversion : readBigEndian32 memory 4=readBigEndian32 bytes 4)
    (hthird : readBigEndian32 bytes 4=196608 → Accepted results rs)
    (hother : readBigEndian32 bytes 4≠196608 → ∀ later,¬Accepted results later) :
    StartCase results (checkVersion memory n rs) := by
  rw [checkVersion,hversion]
  by_cases h : readBigEndian32 bytes 4=196608
  · rw [if_pos h]
    exact Or.inl ⟨memory,n,rs,rfl,rfl,hthird h⟩
  · rw [if_neg h]
    exact Or.inr ⟨rfl,word_denied,hother h⟩

/-- The start behind a request for encryption. -/
theorem startup_request {memory request : Bytes} {rs : List RecvResult}
    (hrequest : HasVersion 80877103 request) :
    StartCase (.data request::rs)
      (match recvInto memory rs with
        | none => ([.send (text "N")],.ended)
        | some (n,memory',later) =>
          if n ≤ 8 then ([.send (text "N")],.ended)
          else (.send (text "N")::(checkVersion memory' n later).1,(checkVersion memory' n later).2)) := by
  have hsecond : ∀ later,Accepted (.data request::rs) later ↔
      ∃ start,rs=.data start::later ∧ 8<start.length ∧ HasVersion 196608 start := by
    intro later
    have hnotthird : ¬HasVersion 196608 request := fun h => absurd (h.unique hrequest) (by decide)
    rw [accepted_data]
    simp only [hnotthird,hrequest,false_and,true_and,false_or]
  rcases recvInto_message memory rs (k := 9) (by decide) with
    ⟨bytes,later,n,memory',hrs,hlong,hn,hread,hversion⟩|⟨hread,hshort⟩
  · rw [hread]
    dsimp only
    rw [if_neg (by omega)]
    refine (startCase_checkVersion hversion ?_ ?_).unencrypted
    · intro hthird
      exact (hsecond later).mpr ⟨bytes,hrs,hlong,by omega,hthird⟩
    · intro hother later' h
      obtain ⟨start,hstart,_,hthird⟩ := (hsecond later').mp h
      rw [hrs] at hstart
      rw [←RecvResult.data.inj (List.cons.inj hstart).1] at hthird
      exact hother hthird.2
  · have hnone : ∀ later,¬Accepted (.data request::rs) later := by
      intro later h
      obtain ⟨start,hstart,hlong,_⟩ := (hsecond later).mp h
      have hlength := hshort start later hstart
      omega
    rcases hread with hread|⟨n,memory',later,hread,hn⟩
    · rw [hread]
      exact (StartCase.ended hnone).unencrypted
    · rw [hread]
      dsimp only
      rw [if_pos (by omega)]
      exact (StartCase.ended hnone).unencrypted

/-- The acts of the start give no verdicts, and it is accepted exactly where a
message of the third version arrives. -/
theorem startup_cases (memory : Bytes) (results : List RecvResult) :
    StartCase results (startup memory results) := by
  unfold startup
  rcases recvInto_message memory results (k := 8) (by decide) with
    ⟨bytes,rs,n,memory',rfl,hlong,hn,hread,hversion⟩|⟨hread,hshort⟩
  · rw [hread]
    dsimp only
    rw [if_neg (by omega),hversion]
    by_cases hrequest : readBigEndian32 bytes 4=80877103
    · rw [if_pos hrequest]
      exact startup_request ⟨hlong,hrequest⟩
    · rw [if_neg hrequest]
      refine startCase_checkVersion hversion ?_ ?_
      · intro hthird
        exact accepted_data.mpr (Or.inl ⟨⟨hlong,hthird⟩,rfl⟩)
      · intro hother later h
        rcases accepted_data.mp h with ⟨hthird,_⟩|⟨hencryption,_⟩
        · exact hother hthird.2
        · exact hrequest hencryption.2
  · have hnone : ∀ later,¬Accepted results later := by
      intro later h
      obtain ⟨bytes,rs,hresults,hlong⟩ := h.first
      have hlength := hshort bytes rs hresults
      omega
    rcases hread with hread|⟨n,memory',later,hread,hn⟩
    · rw [hread]
      exact StartCase.ended hnone
    · rw [hread]
      dsimp only
      rw [if_pos hn]
      exact StartCase.ended hnone

/-- The QuestDB handler answers as it records exactly until a password arrives. -/
theorem questdb_agrees_iff (salt memory : Bytes) (results : List RecvResult) :
    AgreesOnAttempts (questdbDoor.word (runQuestdbService s salt memory results)) ↔
      ¬SendsPassword results := by
  have hchallenge : questdbDoor.grants (authMd5 salt)=false ∧
      questdbDoor.rejects (authMd5 salt)=false := by
    have hfront : (authMd5 salt).take 5=text "R"++bigEndian32 12 := by
      unfold authMd5
      rw [List.append_assoc]
      exact List.take_left' (by decide)
    have hne : authMd5 salt≠qdbAuthOk := by
      intro h
      rw [h] at hfront
      exact absurd hfront (by decide)
    exact ⟨decide_eq_false hne,rfl⟩
  have hgrant : questdbDoor.grants qdbAuthOk=true := by decide
  unfold runQuestdbService
  dsimp only
  rw [Door.word_recordConnection,Door.word_append,Door.word_append,Door.word_recordDisconnect,
    Door.word_close,Door.word_nil,List.append_nil]
  rcases startup_cases memory results with ⟨memory',n,later,hstartup,hquiet,haccepted⟩|hended
  · rw [hstartup]
    dsimp only
    rw [hquiet,List.nil_append,Door.word_send hchallenge]
    rcases passwordMessage_cases later with hpassword|hpassword
    · rcases hpassword with ⟨password,rest,hash,hlater,hmessage,hpassword⟩
      rw [hpassword]
      dsimp only
      rw [Door.word_recordAuth,qdbWelcome,List.cons_append,Door.word_grant hgrant]
      refine iff_of_false ?_ (not_not.mpr ⟨password,rest,hlater ▸ haccepted,hmessage⟩)
      intro h
      cases h with
      | granted he _ => exact AuditEventType.noConfusion he.1
    · rw [hpassword.1]
      refine iff_of_true .nil ?_
      rintro ⟨password,rest,haccepted',hmessage⟩
      exact hpassword.2 password rest (accepted_unique haccepted haccepted') hmessage
  · obtain ⟨hstartup,hquiet,hnone⟩ := hended
    rw [hstartup,hquiet]
    refine iff_of_true .nil ?_
    rintro ⟨password,rest,haccepted,_⟩
    exact hnone _ haccepted

end Questdb

/-- A run of one of the four handlers that let clients in. -/
inductive LoginRun
  /-- The FTP handler. -/
  | ftp (results : List RecvResult)
  /-- The Telnet handler. -/
  | telnet (results : List RecvResult)
  /-- The SSH handler. -/
  | ssh (env : SshEnvironment)
  /-- The QuestDB handler. -/
  | questdb (salt memory : Bytes) (results : List RecvResult)

namespace LoginRun

/-- The verdicts in a run. -/
def word (s : Session) : LoginRun → List (Verdict AuditEvent)
  | ftp results => ftpDoor.word (runFtpService s results)
  | telnet results => telnetDoor.word (runTelnetService s results)
  | ssh env => sshWord (runSshService s env)
  | questdb salt memory results => questdbDoor.word (runQuestdbService s salt memory results)

/-- The runs in which nobody gets in unrecorded and nobody tries again. -/
def Truthful : LoginRun → Prop
  | ftp _ => True
  | telnet results => ¬CompletesLogin results
  | ssh env => ¬(env.sshNew=true ∧ env.sshBindNew=true ∧ env.acceptFd=true ∧
      env.keyExchange=true ∧ TriesAgain env.messages)
  | questdb _ _ results => ¬SendsPassword results

end LoginRun

/-- The audit trail and the answers agree on every attempt exactly in the
truthful runs. -/
theorem agrees_iff_truthful (s : Session) (run : LoginRun) :
    AgreesOnAttempts (run.word s) ↔ run.Truthful := by
  cases run with
  | ftp results => exact iff_true_intro (ftp_agrees s results)
  | telnet results => exact telnet_agrees_iff s results
  | ssh env => exact ssh_agrees_iff s env
  | questdb salt memory results => exact questdb_agrees_iff s salt memory results

/-- A Telnet client that sends four lines stands in the shell while the audit
trail knows two refused attempts. -/
theorem telnet_grants_unrecorded :
    ¬AgreesOnAttempts (telnetDoor.word (runTelnetService ⟨text "10.0.0.9",40000,text "id"⟩
      [.data (text "root"),.data (text "toor"),.data (text "root"),.data (text "1234")])) := by
  rw [telnet_agrees_iff,not_not]
  exact ⟨_,_,_,_,_,rfl,⟨_,rfl,by decide⟩,⟨_,rfl,by decide⟩,
    ⟨_,rfl,by decide⟩,⟨_,rfl,by decide⟩⟩

end HoneyDew.AuthOutcome
