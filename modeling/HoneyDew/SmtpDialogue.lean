import HoneyDew.Mealy
import HoneyDew.ReplyLines
import HoneyDew.SmtpService

/-!
# The SMTP service line by line

The service is written as a loop of handlers that read lines of their own. Seen from its
client it is a machine that hears one line after the other: a command, an answer to a
challenge, or a line of a mail text. The machine gives one reply to every line that
asks for one, and the service does exactly what the machine does.
-/

namespace HoneyDew.SmtpDialogue

open CText Service SmtpService Mealy ReplyLines

/-- What the service waits for. -/
inductive Dialogue
  /-- A command. -/
  | command
  /-- The user name of `AUTH LOGIN`. -/
  | authUser
  /-- The password of `AUTH LOGIN`, behind the line with the user name. -/
  | authPassword (name : Bytes)
  /-- The credentials of `AUTH PLAIN`. -/
  | authPlain
  /-- The next line of a mail text, behind the text collected so far. -/
  | mail (data : Bytes)
  /-- Nothing: the client has quit. -/
  | closed
  deriving DecidableEq,Repr

/-- What follows a command line that is not empty. -/
def commandNext (line : Bytes) : Dialogue :=
  if startsNoCase line "EHLO" ∨ startsNoCase line "HELO" then .command
  else if startsNoCase line "AUTH LOGIN" then .authUser
  else if startsNoCase line "AUTH PLAIN" then
    if argument line 10≠[] then .command else .authPlain
  else if startsNoCase line "MAIL FROM:" then .command
  else if startsNoCase line "RCPT TO:" then .command
  else if startsNoCase line "DATA" then .mail []
  else if startsNoCase line "VRFY" then .command
  else if startsNoCase line "RSET" then .command
  else if startsNoCase line "QUIT" then .closed
  else .command

/-- What such a line makes the service do at once. -/
def commandActs (s : Session) (line : Bytes) : List Action :=
  if startsNoCase line "EHLO" ∨ startsNoCase line "HELO" then
    [report s "[SMTP蜜罐] 客户端标识: " (argument line 4),.send smtpEhloResponse]
  else if startsNoCase line "AUTH LOGIN" then [.send smtpAuthUsernameChallenge]
  else if startsNoCase line "AUTH PLAIN" then
    if argument line 10≠[] then smtpPlainCredentials s ((argument line 10).take 4095)
    else [.send (replyLine "334")]
  else if startsNoCase line "MAIL FROM:" then
    [report s "[SMTP蜜罐] 发件人: " (argument line 10),.send (replyLine "250 2.1.0 Ok")]
  else if startsNoCase line "RCPT TO:" then
    [report s "[SMTP蜜罐] 收件人: " (argument line 8),.send (replyLine "250 2.1.5 Ok")]
  else if startsNoCase line "DATA" then [.send smtpDataStart]
  else if startsNoCase line "VRFY" then
    [report s "[SMTP蜜罐] 验证用户: " (argument line 4),.send (replyLine "252 2.0.0 user")]
  else if startsNoCase line "RSET" then
    [utilitiesLog (text "[SMTP蜜罐] 会话重置"++s.origin),.send (replyLine "250 2.0.0 Ok")]
  else if startsNoCase line "QUIT" then
    [utilitiesLog (text "[SMTP蜜罐] 客户端退出: "++cstr s.remoteIp++text ":"++decimalInt s.remotePort),
      .send (replyLine "221 2.0.0 Bye")]
  else [report s "[SMTP蜜罐] 未知命令: " line,
    .send (replyLine "502 5.5.2 Error: command not recognized")]

/-- The mail text behind one more line, which is left out where it does not fit. -/
def grown (data line : Bytes) : Bytes :=
  if data.length+(cstr line).length+2<65536 then data++cstr line++[10] else data

/-- One line. -/
def hears (s : Session) (d : Dialogue) (received : Bytes) : Dialogue×List Action :=
  let line := smtpStripCrlf received
  match d with
  | .command =>
    if line=[] then (.command,[])
    else (commandNext line,report s "[SMTP蜜罐] 收到命令: " line::commandActs s line)
  | .authUser =>
    (.authPassword line,[report s "[SMTP蜜罐] AUTH LOGIN 用户名(base64): " line,
      .send smtpAuthPasswordChallenge])
  | .authPassword name =>
    (.command,[report s "[SMTP蜜罐] AUTH LOGIN 密码(base64): " line,
      reportCredentials s "[SMTP蜜罐] 捕获凭据: " (base64Decode name 4096) (base64Decode line 4096),
      .send smtpAuthFailed])
  | .authPlain => (.command,smtpPlainCredentials s (line.take 4095))
  | .mail data =>
    if cstr received=text "." then
      (.command,[reportData s data,.send (replyLine "250 2.0.0 Ok: queued")])
    else (.mail (grown data received),[])
  | .closed => (.closed,[])

/-- Whether the service replies to a line. -/
def expects (d : Dialogue) (received : Bytes) : Bool :=
  match d with
  | .command => smtpStripCrlf received≠[]
  | .mail _ => cstr received=text "."
  | .closed => false
  | _ => true

/-- The last line of a reply: three digits and no hyphen behind them. -/
def isReplyEnd : Bytes → Bool
  | a::b::c::d::_ => isDigit a && isDigit b && isDigit c && d≠45
  | _ => false

/-- A mail text within the bounds of its array. -/
def InBounds : Dialogue → Prop
  | .mail data => data.length<65535
  | _ => True

section Machine

variable (s : Session)

/-- The text of a mail stays within its array. -/
theorem length_grown {data : Bytes} (h : data.length<65535) (line : Bytes) :
    (grown data line).length<65535 := by
  unfold grown
  split
  · simp only [List.length_append,List.length_singleton]
    omega
  · exact h

/-- A line keeps the text of a mail within its array. -/
theorem inBounds_hears {d : Dialogue} (h : InBounds d) (received : Bytes) :
    InBounds (hears s d received).1 := by
  have hnext : ∀ line,InBounds (commandNext line) := by
    intro line
    unfold commandNext
    repeat' split
    all_goals simp [InBounds]
  cases d with
  | command =>
    unfold hears
    dsimp only
    split
    · trivial
    · exact hnext _
  | authUser => trivial
  | authPassword name => trivial
  | authPlain => trivial
  | mail data =>
    unfold hears
    dsimp only
    split
    · trivial
    · exact length_grown h received
  | closed => trivial

/-- The mail text fits in every state that the machine reaches. -/
theorem inBounds_feed (lines : List Bytes) : InBounds (feed (hears s) .command lines).1 := by
  induction lines using List.reverseRecOn with
  | nil => trivial
  | append_singleton lines line ih =>
    rw [feed_append]
    exact inBounds_hears s ih line

/-- A reply with a log line in front. -/
theorem replies_after_log {formatted : Bytes} {reply : Bytes} (h : Replies 10 isReplyEnd 1 reply) :
    Replies 10 isReplyEnd 1 (sent [utilitiesLog formatted,.send reply]) := by
  rw [sent_utilitiesLog,sent_send,sent_nil,List.append_nil]
  exact h

/-- The refusal of `AUTH PLAIN` is one reply. -/
theorem replies_smtpPlainCredentials (authData : Bytes) :
    Replies 10 isReplyEnd 1 (sent (smtpPlainCredentials s authData)) := by
  have hfailed : Replies 10 isReplyEnd 1 (smtpAuthFailed++[]) := by decide
  exact hfailed

/-- Every command has one reply. -/
theorem replies_commandActs (line : Bytes) :
    Replies 10 isReplyEnd 1 (sent (commandActs s line)) := by
  have hchallenge : Replies 10 isReplyEnd 1 (smtpAuthUsernameChallenge++[]) := by decide
  have hempty : Replies 10 isReplyEnd 1 (replyLine "334"++[]) := by decide
  have hdata : Replies 10 isReplyEnd 1 (smtpDataStart++[]) := by decide
  unfold commandActs report
  split
  · exact replies_after_log (by decide)
  · split
    · exact hchallenge
    · split
      · split
        · exact replies_smtpPlainCredentials s _
        · exact hempty
      · split
        · exact replies_after_log (by decide)
        · split
          · exact replies_after_log (by decide)
          · split
            · exact hdata
            · repeat' split
              all_goals exact replies_after_log (by decide)

/-- A line has one reply if it asks for one, and none else. -/
theorem replies_hears (d : Dialogue) (received : Bytes) :
    Replies 10 isReplyEnd (if expects d received then 1 else 0) (sent (hears s d received).2) := by
  have hchallenge : Replies 10 isReplyEnd 1 (smtpAuthPasswordChallenge++[]) := by decide
  have hfailed : Replies 10 isReplyEnd 1 (smtpAuthFailed++[]) := by decide
  have hqueued : Replies 10 isReplyEnd 1 (replyLine "250 2.0.0 Ok: queued"++[]) := by decide
  cases d with
  | command =>
    unfold hears expects
    dsimp only
    by_cases hline : smtpStripCrlf received=[]
    · rw [if_pos hline,if_neg (fun h => absurd hline (of_decide_eq_true h))]
      exact replies_nil
    · rw [if_neg hline,if_pos (decide_eq_true hline)]
      exact replies_commandActs s _
  | authUser => exact hchallenge
  | authPassword name => exact hfailed
  | authPlain => exact replies_smtpPlainCredentials s _
  | mail data =>
    unfold hears expects
    dsimp only
    by_cases hdot : cstr received=text "."
    · rw [if_pos hdot,if_pos (decide_eq_true hdot)]
      exact hqueued
    · rw [if_neg hdot,if_neg (fun h => absurd (of_decide_eq_true h) hdot)]
      exact replies_nil
  | closed => exact replies_nil

end Machine

/-! ## The service does what the machine does -/

section Service

variable (s : Session)

/-- No send fails any more. -/
def AllDelivered (w : Wire) : Prop := ∀ b∈w.delivers,b=true

/-- A send that does not fail leaves the lines as they are. -/
theorem smtpSend_delivered {w : Wire} (h : AllDelivered w) :
    (smtpSend w).1=true ∧ (smtpSend w).2.lines=w.lines ∧ AllDelivered (smtpSend w).2 := by
  refine ⟨?_,rfl,fun b hb => h b (List.mem_of_mem_tail hb)⟩
  unfold smtpSend
  cases hdelivers : w.delivers with
  | nil => rfl
  | cons b bs => exact h b (by rw [hdelivers]; exact List.mem_cons_self)

/-- The rest of a command, against what the machine puts out from some state on. -/
def Follows (d : Dialogue) (lines : List Bytes) (start done : List Action) : SmtpNext → Prop
  | .lost => done=start++(feed (hears s) d lines).2
  | .quit _ => done=start++(feed (hears s) d lines).2
  | .continues w =>
    AllDelivered w ∧ w.lines.length≤lines.length ∧
      done++(feed (hears s) .command w.lines).2=start++(feed (hears s) d lines).2

/-- A command without lines of its own. -/
theorem follows_command {w : Wire} (h : AllDelivered w) (acts : List Action) :
    Follows s .command w.lines acts acts (.continues (smtpSend w).2) :=
  ⟨(smtpSend_delivered h).2.2,le_refl _,rfl⟩

/-- `smtp_handle_auth_login` asks for two lines. -/
theorem follows_authLogin {w : Wire} (h : AllDelivered w) :
    Follows s .authUser w.lines [.send smtpAuthUsernameChallenge] (smtpHandleAuthLogin s w).1
      (goesOn (smtpHandleAuthLogin s w).2) := by
  obtain ⟨hfirst,hlines,hrest⟩ := smtpSend_delivered h
  unfold smtpHandleAuthLogin
  dsimp only
  rw [sendOrReturn,if_pos hfirst,lineOrReturn,nextLine,hlines]
  cases hw : w.lines with
  | nil => rfl
  | cons name lines =>
    have hleft : AllDelivered {(smtpSend w).2 with lines} := hrest
    obtain ⟨hsecond,-,hlast⟩ := smtpSend_delivered hleft
    dsimp only
    rw [sendOrReturn,if_pos hsecond,lineOrReturn,nextLine]
    dsimp only [smtpSend]
    cases lines with
    | nil => rfl
    | cons password lines =>
      refine ⟨(smtpSend_delivered (w := ⟨lines,_⟩) hlast).2.2,?_,?_⟩
      · exact Nat.le_succ_of_le (Nat.le_succ _)
      · rw [feed_cons,feed_cons]
        simp only [hears,List.cons_append,List.nil_append]

/-- `smtp_handle_auth_plain` asks for a line if it has no argument. -/
theorem follows_authPlain {w : Wire} (h : AllDelivered w) (arg : Bytes) :
    Follows s (if arg≠[] then .command else .authPlain) w.lines
      (if arg≠[] then smtpPlainCredentials s (arg.take 4095) else [.send (replyLine "334")])
      (smtpHandleAuthPlain s arg w).1 (goesOn (smtpHandleAuthPlain s arg w).2) := by
  obtain ⟨hfirst,hlines,hrest⟩ := smtpSend_delivered h
  unfold smtpHandleAuthPlain
  by_cases harg : arg≠[]
  · rw [if_pos harg,if_pos harg,if_pos harg]
    exact follows_command s h _
  · rw [if_neg harg,if_neg harg,if_neg harg,sendOrReturn,if_pos hfirst,lineOrReturn,nextLine,hlines]
    cases hw : w.lines with
    | nil => rfl
    | cons line lines =>
      refine ⟨(smtpSend_delivered (w := ⟨lines,_⟩) hrest).2.2,Nat.le_succ _,?_⟩
      rw [feed_cons]
      simp only [hears,List.append_assoc]
      rfl

/-- The loop of `smtp_handle_data` hears the lines of the mail text: it ends at the
single dot only, never for want of room. -/
theorem smtpDataLoop_hears (data : Bytes) (lines : List Bytes) (h : data.length<65535) :
    (∀ text',smtpDataLoop data lines=(text',none) → (feed (hears s) (.mail data) lines).2=[]) ∧
    ∀ text' rest,smtpDataLoop data lines=(text',some rest) →
      rest.length≤lines.length ∧
        (feed (hears s) (.mail data) lines).2=
          reportData s text'::.send (replyLine "250 2.0.0 Ok: queued")::
            (feed (hears s) .command rest).2 := by
  induction lines generalizing data with
  | nil =>
    refine ⟨fun _ _ => rfl,?_⟩
    intro text' rest hloop
    rw [smtpDataLoop,if_pos h] at hloop
    cases hloop
  | cons line lines ih =>
    have hgrown := ih (grown data line) (length_grown h line)
    rw [smtpDataLoop,if_pos h,feed_cons]
    by_cases hdot : cstr line=text "."
    · rw [if_pos hdot]
      have hhears : hears s (.mail data) line=
          (.command,[reportData s data,.send (replyLine "250 2.0.0 Ok: queued")]) := by
        rw [hears]
        exact if_pos hdot
      rw [hhears]
      refine ⟨?_,?_⟩
      · intro text' hloop
        cases hloop
      · intro text' rest hloop
        cases hloop
        exact ⟨Nat.le_succ _,rfl⟩
    · rw [if_neg hdot]
      have hhears : hears s (.mail data) line=(.mail (grown data line),[]) := by
        rw [hears]
        exact if_neg hdot
      rw [hhears]
      refine ⟨hgrown.1,?_⟩
      intro text' rest hloop
      obtain ⟨hlength,hacts⟩ := hgrown.2 text' rest hloop
      exact ⟨Nat.le_succ_of_le hlength,hacts⟩

/-- `smtp_handle_data`. -/
theorem follows_data {w : Wire} (h : AllDelivered w) :
    Follows s (.mail []) w.lines [.send smtpDataStart] (smtpHandleData s w).1
      (goesOn (smtpHandleData s w).2) := by
  obtain ⟨hfirst,hlines,hrest⟩ := smtpSend_delivered h
  have hloop := smtpDataLoop_hears s [] w.lines (by decide)
  rw [smtpHandleData,sendOrReturn,if_pos hfirst,smtpCollectData,hlines]
  cases hresult : smtpDataLoop [] w.lines with
  | mk data rest =>
    cases rest with
    | none =>
      have hsilent := hloop.1 data hresult
      dsimp only
      rw [goesOn,Follows,hsilent]
      rfl
    | some rest =>
      obtain ⟨hlength,hacts⟩ := hloop.2 data rest hresult
      refine ⟨(smtpSend_delivered (w := ⟨rest,_⟩) hrest).2.2,hlength,?_⟩
      rw [hacts]
      rfl

/-- Every command follows the machine. -/
theorem follows_smtpExecute {w : Wire} (h : AllDelivered w) (line : Bytes) :
    Follows s (commandNext line) w.lines (commandActs s line) (smtpExecute s line w).1
      (smtpExecute s line w).2 := by
  have hquit : ∀ acts : List Action,Follows s .closed w.lines acts acts (.quit (smtpSend w).2) := by
    intro acts
    have hsilent : feed (hears s) .closed w.lines=(.closed,[]) := feed_silent _ (fun _ _ => rfl)
    rw [Follows,hsilent,List.append_nil]
  unfold commandNext commandActs smtpExecute
  by_cases hehlo : startsNoCase line "EHLO" ∨ startsNoCase line "HELO"
  · rw [if_pos hehlo,if_pos hehlo,if_pos hehlo]
    exact follows_command s h _
  · rw [if_neg hehlo,if_neg hehlo,if_neg hehlo]
    by_cases hlogin : startsNoCase line "AUTH LOGIN"=true
    · rw [if_pos hlogin,if_pos hlogin,if_pos hlogin]
      exact follows_authLogin s h
    · rw [if_neg hlogin,if_neg hlogin,if_neg hlogin]
      by_cases hplain : startsNoCase line "AUTH PLAIN"=true
      · rw [if_pos hplain,if_pos hplain,if_pos hplain]
        exact follows_authPlain s h _
      · rw [if_neg hplain,if_neg hplain,if_neg hplain]
        by_cases hfrom : startsNoCase line "MAIL FROM:"=true
        · rw [if_pos hfrom,if_pos hfrom,if_pos hfrom]
          exact follows_command s h _
        · rw [if_neg hfrom,if_neg hfrom,if_neg hfrom]
          by_cases hto : startsNoCase line "RCPT TO:"=true
          · rw [if_pos hto,if_pos hto,if_pos hto]
            exact follows_command s h _
          · rw [if_neg hto,if_neg hto,if_neg hto]
            by_cases hdata : startsNoCase line "DATA"=true
            · rw [if_pos hdata,if_pos hdata,if_pos hdata]
              exact follows_data s h
            · rw [if_neg hdata,if_neg hdata,if_neg hdata]
              by_cases hvrfy : startsNoCase line "VRFY"=true
              · rw [if_pos hvrfy,if_pos hvrfy,if_pos hvrfy]
                exact follows_command s h _
              · rw [if_neg hvrfy,if_neg hvrfy,if_neg hvrfy]
                by_cases hrset : startsNoCase line "RSET"=true
                · rw [if_pos hrset,if_pos hrset,if_pos hrset]
                  exact follows_command s h _
                · rw [if_neg hrset,if_neg hrset,if_neg hrset]
                  by_cases hbye : startsNoCase line "QUIT"=true
                  · rw [if_pos hbye,if_pos hbye,if_pos hbye]
                    exact hquit _
                  · rw [if_neg hbye,if_neg hbye,if_neg hbye]
                    exact follows_command s h _

/-- The command loop is the machine waiting for commands. -/
theorem smtpCommands_feed {fuel : ℕ} {w : Wire} (h : AllDelivered w) (hfuel : w.lines.length<fuel) :
    (smtpCommands s fuel w).1=(feed (hears s) .command w.lines).2 := by
  induction fuel generalizing w with
  | zero => omega
  | succ fuel ih =>
    rw [smtpCommands,nextLine]
    cases hw : w.lines with
    | nil => rfl
    | cons received lines =>
      rw [hw,List.length_cons] at hfuel
      have hleft : AllDelivered {w with lines} := h
      have hrest := ih hleft (Nat.lt_of_succ_lt_succ hfuel)
      rw [feed_cons]
      dsimp only [hears]
      by_cases hline : smtpStripCrlf received=[]
      · rw [if_pos hline,if_pos hline]
        exact hrest
      · rw [if_neg hline,if_neg hline]
        have hfollows := follows_smtpExecute s hleft (smtpStripCrlf received)
        dsimp only
        cases hnext : (smtpExecute s (smtpStripCrlf received) {w with lines}).2 with
        | lost =>
          rw [hnext] at hfollows
          exact congrArg _ hfollows
        | quit w' =>
          rw [hnext] at hfollows
          exact congrArg _ hfollows
        | continues w' =>
          rw [hnext] at hfollows
          obtain ⟨hdelivered,hlength,hacts⟩ := hfollows
          have hlater := ih hdelivered (Nat.lt_of_le_of_lt hlength (Nat.lt_of_succ_lt_succ hfuel))
          dsimp only
          rw [hlater,hacts]
          rfl

/-- As long as no send fails, the service does line by line what the machine does: it
greets, and to each line it gives one reply at once if the line asks for one and none
otherwise, whatever lines follow. -/
theorem smtp_dialogue (lines : List Bytes) (delivers : List Bool) (h : ∀ b∈delivers,b=true) :
    runSmtpService s ⟨lines,delivers⟩=
        .send smtpBanner::((feed (hears s) .command lines).2++[.close]) ∧
    ∀ (before after : List Bytes) (line : Bytes),lines=before++line::after →
      let d := (feed (hears s) .command before).1
      runSmtpService s ⟨lines,delivers⟩=
          .send smtpBanner::((feed (hears s) .command before).2++(hears s d line).2++
            (feed (hears s) (hears s d line).1 after).2++[.close]) ∧
        Replies 10 isReplyEnd (if expects d line then 1 else 0) (sent (hears s d line).2) ∧
        InBounds d := by
  have hwire : AllDelivered ⟨lines,delivers⟩ := h
  obtain ⟨hfirst,hlines,hrest⟩ := smtpSend_delivered hwire
  have hrun : runSmtpService s ⟨lines,delivers⟩=
      .send smtpBanner::((feed (hears s) .command lines).2++[.close]) := by
    have hcommands := smtpCommands_feed s hrest (Nat.lt_succ_self _)
    rw [hlines] at hcommands
    rw [runSmtpService,smtpSession,sendOrReturn,if_pos hfirst,hlines,hcommands]
  refine ⟨hrun,?_⟩
  intro before after line hsplit d
  refine ⟨?_,replies_hears s d line,?_⟩
  · rw [hrun,hsplit,feed_append,feed_cons]
    simp only [List.append_assoc,d]
  · exact inBounds_feed s before

end Service

/-- A client that answers both challenges and quits. -/
theorem smtp_dialogue_login :
    runSmtpService ⟨text "10.0.0.9",5000,[]⟩
        ⟨[text "AUTH LOGIN",text "Ym9i",text "c2VjcmV0",text "QUIT"],[true,true]⟩=
      .send smtpBanner::((feed (hears ⟨text "10.0.0.9",5000,[]⟩) .command
        [text "AUTH LOGIN",text "Ym9i",text "c2VjcmV0",text "QUIT"]).2++[.close]) :=
  (smtp_dialogue ⟨text "10.0.0.9",5000,[]⟩
    [text "AUTH LOGIN",text "Ym9i",text "c2VjcmV0",text "QUIT"] [true,true] (by decide)).1

end HoneyDew.SmtpDialogue
