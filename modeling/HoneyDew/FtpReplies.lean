import HoneyDew.FtpDirectory
import HoneyDew.ReplyLines

/-!
# One answer for every FTP command

A client of the control connection counts the lines that start with a code from 200 on
and a blank. In every run there is one such line for the greeting and one for every line
that the service executes, in their order, whatever the directory is called that it
reports.
-/

namespace HoneyDew.FtpReplies

open CText CMemory Service FtpService FtpRuns FtpDirectory ReplyLines

/-- The last line of an answer: three digits, the first one not `1`, and a blank. -/
def isFinal : Bytes → Bool
  | a::b::c::d::_ => isDigit a && 50≤a && isDigit b && isDigit c && d=32
  | _ => false

/-- The listing has no line that looks like an answer. -/
theorem replies_list : Replies 10 isFinal 0 ftpFakeListData := by
  unfold ftpFakeListData
  exact replies_flatMap (n := 0) (by decide)

/-- The answer to `PWD` is one line if the directory has no line feed. -/
theorem replies_pwd {cwd : Bytes} (h : (10 : Byte)∉cwd) : Replies 10 isFinal 1 (pwdReply cwd) := by
  have hfree : (10 : Byte)∉text "257 "++[34]++cwd++[34]++text " is the current directory"++[13] := by
    have hfirst : (10 : Byte)∉text "257 "++[34] := by decide
    have hlast : (10 : Byte)∉[34]++text " is the current directory"++[13] := by decide
    simp only [List.mem_append,not_or] at hfirst hlast ⊢
    exact ⟨⟨⟨⟨hfirst,h⟩,hlast.1.1⟩,hlast.1.2⟩,hlast.2⟩
  have hline : Replies 10 isFinal (if isFinal (text "257 "++[34]++cwd++[34]++
      text " is the current directory"++[13]) then 1 else 0) _ := replies_line hfree
  have hcode : isFinal (text "257 "++[34]++cwd++[34]++text " is the current directory"++[13])=true := rfl
  have hreply : pwdReply cwd=
      (text "257 "++[34]++cwd++[34]++text " is the current directory"++[13])++[10] := by
    simp only [pwdReply,replyLine,List.append_assoc]
    rfl
  rw [hcode,if_pos rfl,←hreply] at hline
  exact hline

section Lines

variable (s : Session) {sess : FtpSession}

/-- A command of a client that is logged in has one answer. -/
theorem replies_ftpHandleCommand (hcwd : (10 : Byte)∉sess.cwd.cstring) (line : Bytes) (verb : FtpVerb) :
    Replies 10 isFinal 1 (sent (ftpHandleCommand s sess line verb).2) := by
  cases verb
  case pwd =>
    have hsent : sent (ftpHandleCommand s sess line .pwd).2=
        (pwdReply sess.cwd.cstring).take 599++[] := rfl
    rw [hsent,List.append_nil,pwdReply_take]
    exact replies_pwd hcwd
  case list =>
    have hfirst : Replies 10 isFinal 0 (replyLine "150 Here comes the directory listing.") := by decide
    have hlast : Replies 10 isFinal 1 (replyLine "226 Directory send OK."++[]) := by decide
    exact hfirst.append (replies_list.append hlast)
  all_goals
    simp only [ftpHandleCommand,Session.recordCommand,Session.recordEvent,sent_audit,
      sent_utilitiesLog,sent_send,sent_nil]
    decide

/-- Every FTP line is answered by exactly one final reply. -/
theorem replies_ftpExecute (hcwd : (10 : Byte)∉sess.cwd.cstring) (line : Bytes) :
    Replies 10 isFinal 1 (sent (ftpExecute s sess line).acts) := by
  have hgoodbye : Replies 10 isFinal 1 (ftpRespGoodbye++[]) := by decide
  have hrefused : Replies 10 isFinal 1 (ftpRespNotLoggedIn++[]) := by decide
  have hcommand : ∀ verb : FtpVerb,Replies 10 isFinal 1 (sent
      (if sess.authenticated then
        (⟨(ftpHandleCommand s sess line verb).1,true,(ftpHandleCommand s sess line verb).2⟩ : FtpAnswer)
      else ⟨sess,true,[s.recordCommand .ftp line,.send ftpRespNotLoggedIn]⟩).acts) := by
    intro verb
    split
    · exact replies_ftpHandleCommand s hcwd line verb
    · exact hrefused
  cases hverb : ftpVerb line with
  | user =>
    have hasked : Replies 10 isFinal 1 (replyLine "331 Please specify the password."++[]) := by decide
    unfold ftpExecute
    rw [hverb]
    exact hasked
  | pass =>
    -- whoever has tried twice is logged in, so that no second answer follows
    have hnever : (decide (6≤ sess.authAttempts+1) &&
        !(decide (2≤ sess.authAttempts+1) || sess.authenticated))=false := by
      by_cases htwo : 2≤ sess.authAttempts+1
      · rw [decide_eq_true htwo,Bool.true_or]
        exact Bool.and_false _
      · rw [decide_eq_false (by omega : ¬6≤ sess.authAttempts+1)]
        rfl
    have hanswers : Replies 10 isFinal 1 (ftpRespLoginOk++[]) ∧
        Replies 10 isFinal 1 (ftpRespLoginFail++[]) := by decide
    unfold ftpExecute
    rw [hverb]
    dsimp only [ftpHandlePass,Session.recordAuth]
    rw [hnever,if_neg Bool.false_ne_true,List.append_nil,sent_audit,sent_send,sent_nil]
    split
    · exact hanswers.1
    · exact hanswers.2
  | quit =>
    unfold ftpExecute
    rw [hverb]
    exact hgoodbye
  | _ =>
    unfold ftpExecute
    rw [hverb]
    exact hcommand _

/-- The lines that follow some lines have as many answers as they are. -/
theorem replies_actsOf {before lines : List Bytes} (h : ∀ line∈before++lines,∀ b∈line,b≠0 ∧ b≠10) :
    Replies 10 isFinal lines.length (sent (actsOf s (sessionAfter s .start before) lines)) := by
  induction lines using List.reverseRecOn with
  | nil => exact replies_nil
  | append_singleton lines line ih =>
    rw [←List.append_assoc] at h
    have hfront : ∀ l∈before++lines,∀ b∈l,b≠0 ∧ b≠10 := fun l hl => h l (List.mem_append_left _ hl)
    have hstands := standsAt_lines s hfront
    have hcwd : (10 : Byte)∉(sessionAfter s .start (before++lines)).cwd.cstring := by
      rw [hstands.cwd]
      exact fun hfeed => (hstands.clean 10 (List.mem_of_mem_take hfeed)).2 rfl
    have hline := replies_ftpExecute s hcwd line
    rw [actsOf_append,sent_append,List.length_append,←sessionAfter_append]
    refine (ih hfront).append ?_
    rw [actsOf,sent_append]
    exact hline.append replies_nil

end Lines

/-- In every run what is sent consists of whole lines with one answer for the greeting
and one for every line that the service executes; and what is sent up to some line has
the answers of the lines up to there, so that the client can lay each answer to its line. -/
theorem one_answer_per_line (s : Session) (results : List RecvResult) :
    Replies 10 isFinal (1+(executedLines s .start results).length) (sent (runFtpService s results)) ∧
    ∀ lines later : List Bytes,executedLines s .start results=lines++later →
      ∃ back,sent (runFtpService s results)=ftpBanner++sent (actsOf s .start lines)++back ∧
        Replies 10 isFinal (1+lines.length) (ftpBanner++sent (actsOf s .start lines)) ∧
        Replies 10 isFinal later.length back := by
  have hstart : (10 : Byte)∉FtpLoop.start.line := List.not_mem_nil
  have hclean := clean_executedLines s hstart results
  have hbanner : Replies 10 isFinal 1 ftpBanner := by decide
  have hsent : sent (runFtpService s results)=
      ftpBanner++sent (actsOf s .start (executedLines s .start results)) := by
    rw [runFtpService_lines]
    dsimp only [Session.recordConnection,Session.recordDisconnect]
    rw [sent_audit,sent_send,sent_append,sent_audit,sent_close,sent_nil,List.append_nil]
  refine ⟨?_,?_⟩
  · rw [hsent]
    exact hbanner.append (@replies_actsOf s [] _ hclean)
  · intro lines later hlines
    rw [hlines] at hsent hclean
    refine ⟨sent (actsOf s (sessionAfter s .start lines) later),?_,?_,replies_actsOf s hclean⟩
    · rw [hsent,actsOf_append,sent_append,List.append_assoc]
    · exact hbanner.append (@replies_actsOf s [] lines
        (fun line hline => hclean line (List.mem_append_left _ hline)))

end HoneyDew.FtpReplies
