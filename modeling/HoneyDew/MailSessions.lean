import HoneyDew.MailServices
import HoneyDew.ReplyLines

/-!
# Whole mail sessions

Both mail services answer every command they take with one status line, in the order
of the commands. What POP3 records for a password is the name of the last `USER` line
that no other password has used up. An IMAP answer is never cut off, and its last line
starts with the tag of its command.
-/

namespace HoneyDew.MailSessions

open CText CMemory Service MailServices ReplyLines TextLines

/-! ## POP3 -/

/-- The commands that the POP3 loop takes. -/
def pop3Lines : List RecvResult → List Bytes
  | [] => []
  | r::rs =>
    match recv 4095 r with
    | none => []
    | some bytes =>
      if startsNoCase (pop3StripCrlf bytes) "QUIT" then [pop3StripCrlf bytes]
      else pop3StripCrlf bytes::pop3Lines rs

/-- What one command does, with the user name kept so far. -/
def pop3LineActs (s : Session) (username line : Bytes) : List Action :=
  s.recordCommand .pop3 line::
    if startsNoCase line "USER " then [.send (replyLine "+OK")]
    else if startsNoCase line "PASS " then
      [s.recordAuth .pop3 username (some (line.drop 5)) false,
        .send (replyLine "-ERR Authentication failed.")]
    else [.send (pop3Reply line)]

/-- The user name kept behind a command. -/
def nameBehind (username line : Bytes) : Bytes :=
  if startsNoCase line "USER " then (line.drop 5).take 255
  else if startsNoCase line "PASS " then []
  else username

/-- What some commands do one after the other. -/
def pop3ActsOf (s : Session) (username : Bytes) : List Bytes → List Action
  | [] => []
  | line::lines => pop3LineActs s username line++pop3ActsOf s (nameBehind username line) lines

/-- The name given by the last `USER` line if no `PASS` line follows it. -/
def lastName (lines : List Bytes) : Bytes :=
  match (lines.filter (fun line => startsNoCase line "USER " || startsNoCase line "PASS ")).getLast? with
  | none => []
  | some line => if startsNoCase line "USER " then (line.drop 5).take 255 else []

/-- A status line. -/
def isStatus (line : Bytes) : Bool := line.take 3=text "+OK" || line.take 4=text "-ERR"

section Pop3

variable (s : Session)

/-- The loop does what its commands do. -/
theorem pop3Commands_lines (username : Bytes) (results : List RecvResult) :
    pop3Commands s username results=pop3ActsOf s username (pop3Lines results) := by
  induction results generalizing username with
  | nil => rfl
  | cons r rs ih =>
    rw [pop3Commands,pop3Lines]
    cases recv 4095 r with
    | none => rfl
    | some bytes =>
      dsimp only
      generalize pop3StripCrlf bytes=line
      by_cases huser : startsNoCase line "USER "=true
      · have hquit : startsNoCase line "QUIT"=false :=
          startsNoCase_excludes huser rfl rfl (by decide)
        rw [if_pos huser,hquit,if_neg Bool.false_ne_true,ih,pop3ActsOf,pop3LineActs,nameBehind,
          if_pos huser,if_pos huser]
        rfl
      · by_cases hpass : startsNoCase line "PASS "=true
        · have hquit : startsNoCase line "QUIT"=false :=
            startsNoCase_excludes hpass rfl rfl (by decide)
          rw [if_neg huser,if_pos hpass,hquit,if_neg Bool.false_ne_true,ih,pop3ActsOf,pop3LineActs,
            nameBehind,if_neg huser,if_neg huser,if_pos hpass,if_pos hpass]
          rfl
        · rw [if_neg huser,if_neg hpass]
          by_cases hquit : startsNoCase line "QUIT"=true
          · rw [if_pos hquit,if_pos hquit,pop3ActsOf,pop3LineActs,if_neg huser,if_neg hpass,
              pop3ActsOf]
            rfl
          · rw [if_neg hquit,if_neg hquit,pop3ActsOf,pop3LineActs,nameBehind,if_neg huser,
              if_neg hpass,if_neg huser,if_neg hpass,ih]
            rfl

/-- The acts of commands one behind the other. -/
theorem pop3ActsOf_append (username : Bytes) (xs ys : List Bytes) :
    pop3ActsOf s username (xs++ys)=
      pop3ActsOf s username xs++pop3ActsOf s (xs.foldl nameBehind username) ys := by
  induction xs generalizing username with
  | nil => rfl
  | cons line xs ih =>
    rw [List.cons_append,pop3ActsOf,pop3ActsOf,ih,List.append_assoc]
    rfl

/-- The name kept behind some commands is the one that counts. -/
theorem foldl_nameBehind (lines : List Bytes) : lines.foldl nameBehind []=lastName lines := by
  induction lines using List.reverseRecOn with
  | nil => rfl
  | append_singleton lines line ih =>
    have hsplit : lastName (lines++[line])=
        match (lines.filter (fun line => startsNoCase line "USER " || startsNoCase line "PASS ")++
          bif startsNoCase line "USER " || startsNoCase line "PASS " then [line] else []).getLast? with
        | none => []
        | some line => if startsNoCase line "USER " then (line.drop 5).take 255 else [] := by
      rw [lastName,List.filter_append,List.filter_singleton]
    rw [List.foldl_append,List.foldl_cons,List.foldl_nil,ih,hsplit,nameBehind]
    by_cases huser : startsNoCase line "USER "=true
    · rw [if_pos huser,huser,Bool.true_or,cond_true,List.getLast?_concat]
      dsimp only
      rw [if_pos huser]
    · by_cases hpass : startsNoCase line "PASS "=true
      · rw [if_neg huser,if_pos hpass,hpass,Bool.or_true,cond_true,List.getLast?_concat]
        dsimp only
        rw [if_neg huser]
      · have hneither : (startsNoCase line "USER " || startsNoCase line "PASS ")=false := by
          rw [Bool.eq_false_of_not_eq_true huser,Bool.eq_false_of_not_eq_true hpass]
          rfl
        rw [if_neg huser,if_neg hpass,hneither,cond_false,List.append_nil]
        rfl

/-- Every command has one status line. -/
theorem replies_pop3LineActs (username line : Bytes) :
    Replies 10 isStatus 1 (sent (pop3LineActs s username line)) := by
  have hreply : Replies 10 isStatus 1 (pop3Reply line++[]) := by
    unfold pop3Reply
    repeat' split
    all_goals decide
  unfold pop3LineActs
  dsimp only [Session.recordCommand,Session.recordAuth]
  rw [sent_audit]
  split
  · rw [sent_send,sent_nil]
    decide
  · split
    · rw [sent_audit,sent_send,sent_nil]
      decide
    · rw [sent_send,sent_nil]
      exact hreply

/-- The acts on POP3 lines have one status line for each. -/
theorem replies_pop3ActsOf (username : Bytes) (lines : List Bytes) :
    Replies 10 isStatus lines.length (sent (pop3ActsOf s username lines)) := by
  induction lines generalizing username with
  | nil => exact replies_nil
  | cons line lines ih =>
    rw [pop3ActsOf,sent_append,List.length_cons,Nat.add_comm]
    exact (replies_pop3LineActs s username line).append (ih _)

/-- In every POP3 session the greeting and every command have one status line each, in
their order; and each command does what it does alone with the name that the commands
before it have left, so that a password is recorded with the name of the last `USER`
line that no password has followed, or with none. -/
theorem pop3_session (results : List RecvResult) :
    Replies 10 isStatus (1+(pop3Lines results).length) (sent (runPop3Service s results)) ∧
    ∀ (before after : List Bytes) (line : Bytes),pop3Lines results=before++line::after →
      ∃ front back,runPop3Service s results=front++pop3LineActs s (lastName before) line++back ∧
        Replies 10 isStatus (1+before.length) (sent front) ∧
        Replies 10 isStatus after.length (sent back) ∧
        (startsNoCase line "PASS "=true →
          audits (pop3LineActs s (lastName before) line)=
            audits [s.recordCommand .pop3 line,
              s.recordAuth .pop3 (lastName before) (some (line.drop 5)) false]) := by
  have hbanner : Replies 10 isStatus 1 (replyLine "+OK Dovecot ready."++[]) := by decide
  have hend : sent [s.recordDisconnect .pop3,.close]=[] := rfl
  refine ⟨?_,?_⟩
  · rw [runPop3Service,pop3Commands_lines]
    dsimp only [Session.recordConnection]
    rw [sent_audit,sent_send,sent_append,hend]
    exact hbanner.append ((replies_pop3ActsOf s [] _).append replies_nil)
  · intro before after line hlines
    refine ⟨s.recordConnection .pop3::.send (replyLine "+OK Dovecot ready.")::pop3ActsOf s [] before,
      pop3ActsOf s (nameBehind (lastName before) line) after++[s.recordDisconnect .pop3,.close],?_,?_,
      ?_,?_⟩
    · rw [runPop3Service,pop3Commands_lines,hlines,pop3ActsOf_append,foldl_nameBehind,pop3ActsOf]
      simp only [List.cons_append,List.append_assoc]
    · dsimp only [Session.recordConnection]
      rw [sent_audit,sent_send]
      exact hbanner.append (replies_pop3ActsOf s [] before)
    · rw [sent_append,hend]
      exact (replies_pop3ActsOf s _ after).append replies_nil
    · intro hpass
      have huser : startsNoCase line "USER "=false :=
        startsNoCase_excludes hpass rfl rfl (by decide)
      rw [pop3LineActs,huser,if_neg Bool.false_ne_true,if_pos hpass]
      rfl

end Pop3

/-! ## IMAP -/

/-- The commands that the IMAP loop takes. -/
def imapLines : List RecvResult → List Bytes
  | [] => []
  | r::rs =>
    match recv 4095 r with
    | none => []
    | some bytes =>
      if startsNoCase (imapCommand (imapStripCrlf bytes)) "LOGOUT" then [imapStripCrlf bytes]
      else imapStripCrlf bytes::imapLines rs

/-- The lines of an answer that stand in front of its tagged line. -/
def imapUntagged (cmd : Bytes) : List Bytes :=
  if startsNoCase cmd "CAPABILITY" then
    [text "* CAPABILITY IMAP4rev1 LITERAL+ SASL-IR LOGIN-REFERRALS "++
      text "ID ENABLE IDLE AUTH=PLAIN AUTH=LOGIN STARTTLS"]
  else if startsNoCase cmd "LOGOUT" then [text "* BYE Dovecot closing connection"]
  else []

/-- What the tagged line says behind the tag. -/
def imapVerdict (cmd : Bytes) : Bytes :=
  if startsNoCase cmd "LOGIN " then text " NO [AUTHENTICATIONFAILED] Authentication failed."
  else if startsNoCase cmd "CAPABILITY" then text " OK CAPABILITY completed"
  else if startsNoCase cmd "LOGOUT" then text " OK LOGOUT completed"
  else if startsNoCase cmd "NOOP" then text " OK NOOP completed"
  else if startsNoCase cmd "STARTTLS" then text " BAD TLS not available"
  else if startsNoCase cmd "AUTHENTICATE" then
    text " NO [AUTHENTICATIONFAILED] Authentication failed."
  else if ["SELECT","EXAMINE","LIST","FETCH","STORE","SEARCH"].any (startsNoCase cmd) then
    text " BAD Not authenticated"
  else text " BAD Command not recognized"

/-- The lines of the answer to a command line, without their ends. -/
def imapAnswer (line : Bytes) : List Bytes :=
  imapUntagged (imapCommand line)++[imapTag line++imapVerdict (imapCommand line)]

/-- What one command does. -/
def imapLineActs (s : Session) (line : Bytes) : List Action :=
  s.recordCommand .imap line::
    ((if startsNoCase (imapCommand line) "LOGIN " then
      [s.recordAuth .imap (imapParseLoginArgs ((imapCommand line).drop 6)).1
        (some (imapParseLoginArgs ((imapCommand line).drop 6)).2) false] else [])++
    [.send ((imapAnswer line).flatMap (fun l => l++crlf))])

/-- The greeting of the service. -/
def imapGreeting : Bytes :=
  text "* OK [CAPABILITY IMAP4rev1 LITERAL+ SASL-IR LOGIN-REFERRALS AUTH=PLAIN] Dovecot ready."

section Imap

variable (s : Session)

/-- A tag fits its array. -/
theorem length_imapTag (line : Bytes) : (imapTag line).length≤63 := by
  unfold imapTag
  split
  · exact List.length_take_le _ _
  · decide

/-- A tagged line with a text that fits behind every tag is not cut off. -/
theorem take_tagged {line front : Bytes} {verdict : String} {size : ℕ}
    (h : front.length+63+(replyLine verdict).length≤ size) :
    (front++(imapTag line++replyLine verdict)).take size=
      front++(imapTag line++(text verdict++crlf)) := by
  have htag := length_imapTag line
  refine List.take_of_length_le ?_
  rw [List.length_append,List.length_append]
  omega

/-- No answer is cut off by its array. -/
theorem imapReply_eq {cmd line : Bytes} (hcmd : cmd=imapCommand line)
    (hlogin : startsNoCase cmd "LOGIN "=false) :
    imapReply cmd (imapTag line)=(imapAnswer line).flatMap (fun l => l++crlf) := by
  have hflat : ∀ untagged : List Bytes,∀ verdict,
      (untagged++[imapTag line++verdict]).flatMap (fun l => l++crlf)=
        untagged.flatMap (fun l => l++crlf)++(imapTag line++(verdict++crlf)) := by
    intro untagged verdict
    rw [List.flatMap_append,List.flatMap_singleton,List.append_assoc]
  have hplain : ∀ (verdict : String) (size : ℕ),63+(replyLine verdict).length≤ size →
      (imapTag line++replyLine verdict).take size=
        ([] : List Bytes).flatMap (fun l => l++crlf)++(imapTag line++(text verdict++crlf)) := by
    intro verdict size hsize
    have hnone : ([] : Bytes).length+63+(replyLine verdict).length≤ size := by
      rw [List.length_nil,Nat.zero_add]
      exact hsize
    exact take_tagged hnone
  rw [imapAnswer,hflat,←hcmd,imapReply,imapUntagged,imapVerdict,hlogin,if_neg Bool.false_ne_true]
  by_cases hcapability : startsNoCase cmd "CAPABILITY"=true
  · rw [if_pos hcapability,if_pos hcapability,if_pos hcapability,List.append_assoc,
      take_tagged (by decide),List.flatMap_singleton,List.append_assoc (text _) (text _) crlf]
    rfl
  · rw [if_neg hcapability,if_neg hcapability,if_neg hcapability]
    by_cases hlogout : startsNoCase cmd "LOGOUT"=true
    · rw [if_pos hlogout,if_pos hlogout,if_pos hlogout,List.append_assoc,take_tagged (by decide),
        List.flatMap_singleton]
      rfl
    · rw [if_neg hlogout,if_neg hlogout,if_neg hlogout]
      by_cases hnoop : startsNoCase cmd "NOOP"=true
      · rw [if_pos hnoop,if_pos hnoop]
        exact hplain " OK NOOP completed" 127 (by decide)
      · rw [if_neg hnoop,if_neg hnoop]
        by_cases htls : startsNoCase cmd "STARTTLS"=true
        · rw [if_pos htls,if_pos htls]
          exact hplain " BAD TLS not available" 255 (by decide)
        · rw [if_neg htls,if_neg htls]
          by_cases hauth : startsNoCase cmd "AUTHENTICATE"=true
          · rw [if_pos hauth,if_pos hauth]
            exact hplain " NO [AUTHENTICATIONFAILED] Authentication failed." 255 (by decide)
          · rw [if_neg hauth,if_neg hauth]
            split
            · exact hplain " BAD Not authenticated" 255 (by decide)
            · exact hplain " BAD Command not recognized" 255 (by decide)

/-- The loop does what its commands do. -/
theorem imapCommands_lines (results : List RecvResult) :
    imapCommands s results=(imapLines results).flatMap (imapLineActs s) := by
  induction results with
  | nil => rfl
  | cons r rs ih =>
    rw [imapCommands,imapLines]
    cases recv 4095 r with
    | none => rfl
    | some bytes =>
      dsimp only
      generalize imapStripCrlf bytes=line
      by_cases hlogin : startsNoCase (imapCommand line) "LOGIN "=true
      · have hlogout : startsNoCase (imapCommand line) "LOGOUT"=false := by
          rw [startsNoCase,decide_eq_true_eq] at hlogin
          rw [startsNoCase,decide_eq_false_iff_not]
          intro hboth
          have hdifferent : (text "LOGIN ").map toUpper=(text "LOGOUT").map toUpper :=
            hlogin.symm.trans hboth
          exact absurd hdifferent (by decide)
        have hanswer : (imapTag line++
            replyLine " NO [AUTHENTICATIONFAILED] Authentication failed.").take 511=
              (imapAnswer line).flatMap (fun l => l++crlf) := by
          have hcapability : startsNoCase (imapCommand line) "CAPABILITY"=false :=
            startsNoCase_excludes hlogin rfl rfl (by decide)
          have htagged := @take_tagged line [] " NO [AUTHENTICATIONFAILED] Authentication failed." 511
            (by decide)
          rw [List.nil_append,List.nil_append] at htagged
          rw [htagged,imapAnswer,imapUntagged,hcapability,hlogout,imapVerdict,if_pos hlogin,
            if_neg Bool.false_ne_true,if_neg Bool.false_ne_true,List.nil_append,
            List.flatMap_singleton,List.append_assoc]
        rw [if_pos hlogin,hlogout,if_neg Bool.false_ne_true,ih,List.flatMap_cons,imapLineActs,
          if_pos hlogin,hanswer]
        rfl
      · have hanswer : imapReply (imapCommand line) (imapTag line)=_ :=
          imapReply_eq rfl (Bool.eq_false_of_not_eq_true hlogin)
        rw [if_neg hlogin,hanswer]
        by_cases hlogout : startsNoCase (imapCommand line) "LOGOUT"=true
        · rw [if_pos hlogout,if_pos hlogout,List.flatMap_singleton,imapLineActs,if_neg hlogin]
          rfl
        · rw [if_neg hlogout,if_neg hlogout,ih,List.flatMap_cons,imapLineActs,if_neg hlogin]
          rfl

/-- What some commands are answered is their answers one after the other. -/
theorem sent_imapLineActs (lines : List Bytes) :
    sent (lines.flatMap (imapLineActs s))=
      (lines.flatMap imapAnswer).flatMap (fun l => l++crlf) := by
  induction lines with
  | nil => rfl
  | cons line lines ih =>
    have hline : sent (imapLineActs s line)=(imapAnswer line).flatMap (fun l => l++crlf) := by
      rw [imapLineActs]
      dsimp only [Session.recordCommand,Session.recordAuth]
      rw [sent_audit,sent_append]
      split
      · rw [sent_audit,sent_nil,List.nil_append,sent_send,sent_nil,List.append_nil]
      · rw [sent_nil,List.nil_append,sent_send,sent_nil,List.append_nil]
    rw [List.flatMap_cons,sent_append,ih,hline,List.flatMap_cons,List.flatMap_append]

/-- The fixed texts of an answer have no line feed. -/
theorem lineFeed_not_mem_imapAnswer {line : Bytes} (htag : (10 : Byte)∉imapTag line) :
    ∀ l∈imapAnswer line,(10 : Byte)∉l++[13] := by
  have hverdict : (10 : Byte)∉imapVerdict (imapCommand line) := by
    unfold imapVerdict
    repeat' split
    all_goals decide
  have huntagged : ∀ l∈imapUntagged (imapCommand line),(10 : Byte)∉l := by
    unfold imapUntagged
    repeat' split
    all_goals decide
  intro l hl
  rw [List.mem_append,List.mem_singleton,not_or]
  refine ⟨?_,by decide⟩
  rcases List.mem_append.mp hl with hfront|hlast
  · exact huntagged l hfront
  · rw [List.mem_singleton.mp hlast,List.mem_append,not_or]
    exact ⟨htag,hverdict⟩

/-- In every IMAP session what is sent is the greeting and for every command its whole
answer, in their order, with the tag of the command as far as its array holds it; each
command does what it does alone. When no tag brings a line feed, the lines that the
client reads are those of the greeting and of the answers. -/
theorem imap_session (results : List RecvResult) :
    runImapService s results=s.recordConnection .imap::.send (imapGreeting++crlf)::
        ((imapLines results).flatMap (imapLineActs s)++[s.recordDisconnect .imap,.close]) ∧
    sent (runImapService s results)=
        (imapGreeting::(imapLines results).flatMap imapAnswer).flatMap (fun l => l++crlf) ∧
    ((∀ line∈imapLines results,(10 : Byte)∉imapTag line) →
      lines 10 (sent (runImapService s results))=
        (imapGreeting::(imapLines results).flatMap imapAnswer).map (fun l => l++[13])) := by
  have hrun : runImapService s results=s.recordConnection .imap::.send (imapGreeting++crlf)::
      ((imapLines results).flatMap (imapLineActs s)++[s.recordDisconnect .imap,.close]) := by
    rw [runImapService,imapCommands_lines]
    rfl
  have hsent : sent (runImapService s results)=
      (imapGreeting::(imapLines results).flatMap imapAnswer).flatMap (fun l => l++crlf) := by
    rw [hrun]
    dsimp only [Session.recordConnection,Session.recordDisconnect]
    rw [sent_audit,sent_send,sent_append,sent_imapLineActs,sent_audit,sent_close,sent_nil,
      List.append_nil,List.flatMap_cons]
  refine ⟨hrun,hsent,?_⟩
  intro htags
  have hends : ∀ answers : List Bytes,answers.flatMap (fun l => l++crlf)=
      answers.flatMap (fun l => (l++[13])++[10]) := by
    intro answers
    refine List.flatMap_congr ?_
    intro l _
    rw [List.append_assoc]
    rfl
  rw [hsent,hends,lines_terminated]
  intro l hl
  rcases List.mem_cons.mp hl with hfirst|hlater
  · rw [hfirst]
    decide
  · obtain ⟨line,hline,hanswer⟩ := List.mem_flatMap.mp hlater
    exact lineFeed_not_mem_imapAnswer (htags line hline) l hanswer

end Imap

/-- A client that tries one password and leaves. -/
theorem imap_session_login :
    lines 10 (sent (runImapService ⟨text "10.0.0.9",5000,text "imap_5"⟩
        [.data (text "a1 LOGIN bob secret"++crlf),.data (text "a2 LOGOUT"++crlf)]))=
      (imapGreeting::(imapLines [.data (text "a1 LOGIN bob secret"++crlf),
        .data (text "a2 LOGOUT"++crlf)]).flatMap imapAnswer).map (fun l => l++[13]) :=
  (imap_session ⟨text "10.0.0.9",5000,text "imap_5"⟩ [.data (text "a1 LOGIN bob secret"++crlf),
    .data (text "a2 LOGOUT"++crlf)]).2.2 (by decide)

end HoneyDew.MailSessions
