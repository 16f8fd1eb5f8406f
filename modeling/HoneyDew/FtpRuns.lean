import HoneyDew.FtpSegments

/-!
# What the lines of an FTP session do

A session executes lines one by one, however they come in segments. Only the lines
that the chain takes for `USER` and `PASS` touch the login, and what they leave is
told by the lines executed so far.
-/

namespace HoneyDew.FtpRuns

open CText CMemory Service FtpService FtpSegments

/-! ## Executed lines -/

section Lines

variable (s : Session)

/-- The session behind some lines. -/
def sessionAfter (sess : FtpSession) : List Bytes → FtpSession
  | [] => sess
  | line::lines => sessionAfter (ftpExecute s sess line).sess lines

/-- The acts of some lines. -/
def actsOf (sess : FtpSession) : List Bytes → List Action
  | [] => []
  | line::lines => (ftpExecute s sess line).acts++actsOf (ftpExecute s sess line).sess lines

/-- The lines that a segment ends and that are not empty. -/
def segmentLines (loop : FtpLoop) : Bytes → List Bytes
  | [] => []
  | c::cs =>
    if c=10 ∧ loop.line≠[] then ftpStripCrlf loop.line::segmentLines (ftpByte s loop c).1 cs
    else segmentLines (ftpByte s loop c).1 cs

/-- The lines that the receive loop executes. -/
def executedLines (loop : FtpLoop) : List RecvResult → List Bytes
  | [] => []
  | r::rs =>
    if loop.running then
      match recv 4095 r with
      | none => []
      | some bytes => segmentLines s loop bytes++executedLines (ftpSegment s loop bytes).1 rs
    else []

/-- Lines one behind the other. -/
theorem sessionAfter_append (sess : FtpSession) (xs ys : List Bytes) :
    sessionAfter s sess (xs++ys)=sessionAfter s (sessionAfter s sess xs) ys := by
  induction xs generalizing sess with
  | nil => rfl
  | cons line xs ih => exact ih _

/-- The acts of lines one behind the other. -/
theorem actsOf_append (sess : FtpSession) (xs ys : List Bytes) :
    actsOf s sess (xs++ys)=actsOf s sess xs++actsOf s (sessionAfter s sess xs) ys := by
  induction xs generalizing sess with
  | nil => rfl
  | cons line xs ih =>
    rw [List.cons_append,actsOf,actsOf,ih,List.append_assoc]
    rfl

/-- A byte executes the line it ends, if it ends one. -/
theorem ftpByte_lines (loop : FtpLoop) (c : Byte) :
    (ftpByte s loop c).1.sess=
        sessionAfter s loop.sess (if c=10 ∧ loop.line≠[] then [ftpStripCrlf loop.line] else []) ∧
      (ftpByte s loop c).2=
        actsOf s loop.sess (if c=10 ∧ loop.line≠[] then [ftpStripCrlf loop.line] else []) := by
  unfold ftpByte
  by_cases hc : c=10
  · by_cases hline : loop.line=[]
    · rw [if_pos hc,if_pos hline,if_neg (fun h => h.2 hline)]
      exact ⟨rfl,rfl⟩
    · rw [if_pos hc,if_neg hline,if_pos ⟨hc,hline⟩]
      exact ⟨rfl,(List.append_nil _).symm⟩
  · rw [if_neg hc,if_neg (fun h => hc h.1)]
    by_cases hroom : loop.line.length<4095
    · rw [dif_pos hroom]
      exact ⟨rfl,rfl⟩
    · rw [dif_neg hroom]
      exact ⟨rfl,rfl⟩

/-- A segment executes its lines. -/
theorem ftpSegment_lines (loop : FtpLoop) (bytes : Bytes) :
    (ftpSegment s loop bytes).1.sess=sessionAfter s loop.sess (segmentLines s loop bytes) ∧
      (ftpSegment s loop bytes).2=actsOf s loop.sess (segmentLines s loop bytes) := by
  induction bytes generalizing loop with
  | nil => exact ⟨rfl,rfl⟩
  | cons c cs ih =>
    have hbyte := ftpByte_lines s loop c
    have hrest := ih (ftpByte s loop c).1
    have hsplit : segmentLines s loop (c::cs)=
        (if c=10 ∧ loop.line≠[] then [ftpStripCrlf loop.line] else [])++
          segmentLines s (ftpByte s loop c).1 cs := by
      rw [segmentLines]
      split
      · rfl
      · rfl
    rw [hsplit,sessionAfter_append,actsOf_append,← hbyte.1,← hbyte.2,ftpSegment]
    exact ⟨hrest.1,congrArg ((ftpByte s loop c).2++·) hrest.2⟩

/-- The receive loop executes its lines. -/
theorem ftpReceive_lines (loop : FtpLoop) (results : List RecvResult) :
    ftpReceive s loop results=actsOf s loop.sess (executedLines s loop results) := by
  induction results generalizing loop with
  | nil => rfl
  | cons r rs ih =>
    rw [ftpReceive,executedLines]
    by_cases hrunning : loop.running=true
    · rw [if_pos hrunning,if_pos hrunning]
      cases recv 4095 r with
      | none => rfl
      | some bytes =>
        have hsegment := ftpSegment_lines s loop bytes
        dsimp only
        rw [actsOf_append,← hsegment.1,← hsegment.2,ih]
    · rw [if_neg hrunning,if_neg hrunning]
      rfl

/-- A run records the connection, greets, executes its lines and ends. -/
theorem runFtpService_lines (results : List RecvResult) :
    runFtpService s results=s.recordConnection .ftp::.send ftpBanner::
      (actsOf s .start (executedLines s .start results)++[s.recordDisconnect .ftp,.close]) := by
  rw [runFtpService,ftpReceive_lines]
  rfl

end Lines

/-! ## The directory at the level of bytes -/

section Directory

/-- `strncat(dst, src, n)`. -/
def strncat (dst src : Bytes) (n : ℕ) : Bytes := writeAt dst (cstr dst).length ((cstr src).take n++[0])

/-- A C string ends inside its array. -/
theorem length_cstring {capacity : ℕ} (a : CharArray capacity) :
    a.cstring.length≤capacity ∧ ∃ rest,a.bytes=a.cstring++0::rest := by
  have hnul : (0 : Byte)∈a.bytes := List.mem_append_right _ (List.mem_singleton_self 0)
  obtain ⟨rest,hrest⟩ := exists_terminator hnul
  have hlength := congrArg List.length hrest
  rw [CharArray.bytes,List.length_append,List.length_singleton,a.length_body,List.length_append,
    List.length_cons] at hlength
  have hstring : a.cstring.length=(cstr (a.body++[0])).length := rfl
  exact ⟨by omega,rest,hrest⟩

/-- Appending with the room that is left behaves as the array of the model. -/
theorem strncat_bytes {capacity : ℕ} (a : CharArray capacity) {src : Bytes} (h : (0 : Byte)∉src) :
    strncat a.bytes src (capacity+1-a.cstring.length-1)=(a.snprintfInto (a.cstring++src)).bytes := by
  obtain ⟨hfit,rest,hsplit⟩ := length_cstring a
  have hstring : cstr a.bytes=a.cstring := rfl
  have hroom : capacity+1-a.cstring.length-1=capacity-a.cstring.length := by omega
  have hfront : a.bytes.take a.cstring.length=a.cstring := by rw [hsplit,List.take_left]
  rw [strncat,hstring,cstr_self h,hroom,writeAt,hfront]
  rcases Nat.lt_or_ge (a.cstring++src).length capacity with hshort|hlong
  · have hlength := @List.length_append _ a.cstring src
    have hsrc : src.take (capacity-a.cstring.length)=src := List.take_of_length_le (by omega)
    have hend : a.cstring.length+(src++[0]).length=(a.cstring++src).length+1 := by
      simp only [List.length_append,List.length_singleton]
      omega
    rw [hsrc,hend,CharArray.bytes_snprintfInto_short a hshort,← List.append_assoc,List.append_assoc]
    rfl
  · have htext : (a.cstring++src).take capacity=a.cstring++src.take (capacity-a.cstring.length) := by
      rw [List.take_append,List.take_of_length_le hfit]
    have hnothing : a.bytes.drop
        (a.cstring.length+(src.take (capacity-a.cstring.length)++[0]).length)=[] := by
      rw [List.length_append] at hlong
      apply List.drop_eq_nil_of_le
      simp only [CharArray.bytes,List.length_append,List.length_take,List.length_singleton,
        a.length_body]
      omega
    rw [hnothing,List.append_nil,CharArray.bytes_snprintfInto_long a hlong,htext,List.append_assoc]

/-- The steps of `ftp_handle_cwd` on the bytes of `cwd`: in no state do the bounds it
computes wrap, and the array behind them is that of the model. -/
theorem bytes_ftpChangeDirectory (cwd : CharArray 511) {dir : Bytes} (h : (0 : Byte)∉dir) :
    (ftpChangeDirectory cwd dir).bytes=
      if dir.head?=some 47 then strncpy cwd.bytes dir 511
      else
        let based := if cwd.cstring≠[] ∧ cwd.cstring.getLast?≠some 47 then
          strncat cwd.bytes [47] (512-(cstr cwd.bytes).length-1) else cwd.bytes
        strncat based dir (512-(cstr based).length-1) := by
  unfold ftpChangeDirectory
  by_cases habsolute : dir.head?=some 47
  · rw [if_pos habsolute,if_pos habsolute,strncpy,CharArray.bytes,CharArray.bytes,
      List.drop_append_of_le_length (by rw [cwd.length_body]),
      List.drop_eq_nil_of_le (by rw [cwd.length_body]),List.nil_append]
    rfl
  · rw [if_neg habsolute,if_neg habsolute]
    have hslash : strncat cwd.bytes [47] (512-(cstr cwd.bytes).length-1)=
        (cwd.snprintfInto (cwd.cstring++[47])).bytes := strncat_bytes cwd (by decide)
    by_cases hbase : cwd.cstring≠[] ∧ cwd.cstring.getLast?≠some 47
    · simp only [if_pos hbase,hslash]
      exact (strncat_bytes _ h).symm
    · simp only [if_neg hbase]
      exact (strncat_bytes _ h).symm

end Directory

/-! ## What a line may change -/

section Login

variable (s : Session)

/-- The number of lines taken for `PASS`. -/
def passes (lines : List Bytes) : ℕ := lines.countP (fun line => ftpVerb line=.pass)

/-- The last line taken for `USER` or `PASS`, by what it is taken for. -/
def lastLogin (lines : List Bytes) : Option FtpVerb :=
  ((lines.map ftpVerb).filter (fun verb => verb=.user || verb=.pass)).getLast?

/-- The parts of the session that only a login changes. -/
def SameLogin (sess sess' : FtpSession) : Prop :=
  sess'.authenticated=sess.authenticated ∧ sess'.authAttempts=sess.authAttempts ∧
    sess'.username=sess.username ∧ sess'.password=sess.password

/-- The commands of a client that is logged in change the directory at most. -/
theorem sameLogin_ftpHandleCommand (sess : FtpSession) (line : Bytes) (verb : FtpVerb) :
    SameLogin sess (ftpHandleCommand s sess line verb).1 := by
  cases verb <;> exact ⟨rfl,rfl,rfl,rfl⟩

/-- Every other line than a login leaves it as it is. -/
theorem sameLogin_ftpExecute (sess : FtpSession) {line : Bytes} (huser : ftpVerb line≠.user)
    (hpass : ftpVerb line≠.pass) : SameLogin sess (ftpExecute s sess line).sess := by
  have hcommand : ∀ verb : FtpVerb,SameLogin sess
      (if sess.authenticated then
        (⟨(ftpHandleCommand s sess line verb).1,true,(ftpHandleCommand s sess line verb).2⟩ : FtpAnswer)
      else ⟨sess,true,[s.recordCommand .ftp line,.send ftpRespNotLoggedIn]⟩).sess := by
    intro verb
    split
    · exact sameLogin_ftpHandleCommand s sess line verb
    · exact ⟨rfl,rfl,rfl,rfl⟩
  unfold ftpExecute
  cases hverb : ftpVerb line with
  | user => exact absurd hverb huser
  | pass => exact absurd hverb hpass
  | quit => exact ⟨rfl,rfl,rfl,rfl⟩
  | _ => exact hcommand _

/-- A `USER` line ends the login. -/
theorem ftpExecute_user (sess : FtpSession) {line : Bytes} (h : ftpVerb line=.user) :
    (ftpExecute s sess line).sess.authenticated=false ∧
      (ftpExecute s sess line).sess.authAttempts=sess.authAttempts := by
  unfold ftpExecute
  rw [h]
  exact ⟨rfl,rfl⟩

/-- A `PASS` line counts, and logs in from the second one on. -/
theorem ftpExecute_pass (sess : FtpSession) {line : Bytes} (h : ftpVerb line=.pass) :
    (ftpExecute s sess line).sess.authAttempts=sess.authAttempts+1 ∧
      (ftpExecute s sess line).sess.authenticated=
        (decide (2≤ sess.authAttempts+1) || sess.authenticated) := by
  unfold ftpExecute
  rw [h]
  exact ⟨rfl,rfl⟩

/-- The login that some lines leave behind. -/
structure LoginAfter (lines : List Bytes) (sess : FtpSession) : Prop where
  /-- Every `PASS` line has counted. -/
  attempts : sess.authAttempts=passes lines
  /-- Two of them are needed, and no `USER` line may follow the last one. -/
  authenticated_iff : sess.authenticated=true ↔ 2≤passes lines ∧ lastLogin lines=some .pass

/-- One more line. -/
theorem LoginAfter.concat {lines : List Bytes} {sess : FtpSession} (h : LoginAfter lines sess)
    (line : Bytes) : LoginAfter (lines++[line]) (ftpExecute s sess line).sess := by
  have hattempts := h.attempts
  have hauth := h.authenticated_iff
  by_cases huser : ftpVerb line=.user
  · have hpasses : passes (lines++[line])=passes lines := by simp [passes,huser]
    have hlast : lastLogin (lines++[line])=some .user := by simp [lastLogin,huser]
    have hexecute := ftpExecute_user s sess huser
    refine ⟨by rw [hexecute.2,hpasses,hattempts],?_⟩
    rw [hexecute.1,hlast]
    simp
  · by_cases hpass : ftpVerb line=.pass
    · have hpasses : passes (lines++[line])=passes lines+1 := by simp [passes,hpass]
      have hlast : lastLogin (lines++[line])=some .pass := by simp [lastLogin,hpass]
      have hexecute := ftpExecute_pass s sess hpass
      refine ⟨by rw [hexecute.1,hpasses,hattempts],?_⟩
      rw [hexecute.2,hlast,hpasses,hattempts,Bool.or_eq_true,decide_eq_true_eq,hauth]
      constructor
      · intro hor
        exact ⟨hor.elim id (fun hboth => by omega),rfl⟩
      · intro hboth
        exact Or.inl hboth.1
    · have hpasses : passes (lines++[line])=passes lines := by simp [passes,hpass]
      have hlast : lastLogin (lines++[line])=lastLogin lines := by simp [lastLogin,huser,hpass]
      have hsame := sameLogin_ftpExecute s sess huser hpass
      exact ⟨by rw [hsame.2.1,hpasses,hattempts],by rw [hsame.1,hlast,hpasses,hauth]⟩

/-- The login of a session is told by its lines. -/
theorem loginAfter_lines (lines : List Bytes) : LoginAfter lines (sessionAfter s .start lines) := by
  induction lines using List.reverseRecOn with
  | nil => exact ⟨rfl,by simp [passes,sessionAfter,FtpSession.start]⟩
  | append_singleton lines line ih =>
    rw [sessionAfter_append]
    exact ih.concat s line

/-! ## What a line is answered -/

/-- The answer to `PWD`, which fits its array whatever the directory is. -/
def pwdReply (cwd : Bytes) : Bytes := text "257 "++[34]++cwd++[34]++replyLine " is the current directory"

/-- The directory is reported whole. -/
theorem pwdReply_take (cwd : CharArray 511) : (pwdReply cwd.cstring).take 599=pwdReply cwd.cstring := by
  have hlength := (length_cstring cwd).1
  have hfirst : (text "257 ").length=4 := by decide
  have hlast : (replyLine " is the current directory").length=27 := by decide
  apply List.take_of_length_le
  simp only [pwdReply,List.length_append,List.length_singleton,hfirst,hlast]
  omega

/-- No command of a client that is logged in is answered only with the demand to
log in. -/
theorem sends_ftpHandleCommand (sess : FtpSession) (line : Bytes) (verb : FtpVerb) :
    sends (ftpHandleCommand s sess line verb).2≠[ftpRespNotLoggedIn] := by
  cases verb
  case pwd =>
    have hsends : sends (ftpHandleCommand s sess line .pwd).2=[pwdReply sess.cwd.cstring] :=
      congrArg (fun reply => [reply]) (pwdReply_take sess.cwd)
    rw [hsends]
    intro h
    have hhead : some (50 : Byte)=some 53 := congrArg List.head? (List.cons.inj h).1
    exact absurd hhead (by decide)
  case list =>
    intro h
    have hlength : 3=1 := congrArg List.length h
    exact absurd hlength (by decide)
  all_goals
    intro h
    have hreply := (List.cons.inj h).1
    exact absurd hreply (by decide)

/-- A line that is no login and does not end the session is answered only with the
demand to log in exactly as long as the client is not logged in. -/
theorem sends_ftpExecute_iff (sess : FtpSession) {line : Bytes} (huser : ftpVerb line≠.user)
    (hpass : ftpVerb line≠.pass) (hquit : ftpVerb line≠.quit) :
    sends (ftpExecute s sess line).acts=[ftpRespNotLoggedIn] ↔ sess.authenticated=false := by
  have hcommand : ∀ verb : FtpVerb,sends
      (if sess.authenticated then
        (⟨(ftpHandleCommand s sess line verb).1,true,(ftpHandleCommand s sess line verb).2⟩ : FtpAnswer)
      else ⟨sess,true,[s.recordCommand .ftp line,.send ftpRespNotLoggedIn]⟩).acts=
        [ftpRespNotLoggedIn] ↔ sess.authenticated=false := by
    intro verb
    cases hauth : sess.authenticated with
    | true =>
      rw [if_pos rfl]
      exact iff_of_false (sends_ftpHandleCommand s sess line verb) (by decide)
    | false => exact iff_of_true rfl rfl
  unfold ftpExecute
  cases hverb : ftpVerb line with
  | user => exact absurd hverb huser
  | pass => exact absurd hverb hpass
  | quit => exact absurd hverb hquit
  | _ => exact hcommand _

/-- A client that is logged in is told its whole directory. -/
theorem sends_ftpExecute_pwd {sess : FtpSession} {line : Bytes} (h : ftpVerb line=.pwd)
    (hauth : sess.authenticated=true) :
    sends (ftpExecute s sess line).acts=[pwdReply sess.cwd.cstring] := by
  unfold ftpExecute
  rw [h]
  dsimp only
  rw [if_pos hauth]
  exact congrArg (fun reply => [reply]) (pwdReply_take sess.cwd)

/-- A `PASS` line that counts to the limit of attempts logs in, so that the limit
never ends a session. -/
theorem ftpExecute_pass_limit (sess : FtpSession) {line : Bytes} (h : ftpVerb line=.pass) :
    ¬(6≤(ftpExecute s sess line).sess.authAttempts ∧
        (ftpExecute s sess line).sess.authenticated=false) ∧
      ftpRespGoodbye∉sends (ftpExecute s sess line).acts ∧
      (ftpExecute s sess line).running=true := by
  have hpass := ftpExecute_pass s sess h
  have hlimit : ¬(6≤(ftpExecute s sess line).sess.authAttempts ∧
      (ftpExecute s sess line).sess.authenticated=false) := by
    rw [hpass.1,hpass.2,Bool.or_eq_false_iff,decide_eq_false_iff_not]
    omega
  have hexecute : ftpExecute s sess line=ftpHandlePass s sess line := by
    unfold ftpExecute
    rw [h]
  refine ⟨hlimit,?_,by rw [hexecute]; exact running_ftpHandlePass s sess line⟩
  have hbool : (decide (6≤(ftpExecute s sess line).sess.authAttempts) &&
      !(ftpExecute s sess line).sess.authenticated)=false := by
    rw [← Bool.not_eq_true,Bool.and_eq_true,decide_eq_true_eq,Bool.not_eq_true']
    exact hlimit
  rw [hexecute] at hbool ⊢
  have hacts : (ftpHandlePass s sess line).acts=
      [s.recordAuth .ftp sess.username.cstring (some (ftpHandlePass s sess line).sess.password.cstring)
          (decide (2≤ sess.authAttempts+1)),
        .send (if decide (2≤ sess.authAttempts+1) then ftpRespLoginOk else ftpRespLoginFail)]++
      (if decide (6≤(ftpHandlePass s sess line).sess.authAttempts) &&
          !(ftpHandlePass s sess line).sess.authenticated then [.send ftpRespGoodbye] else []) := rfl
  rw [hacts,hbool]
  cases decide (2≤ sess.authAttempts+1) with
  | true =>
    have hne : ftpRespGoodbye∉[ftpRespLoginOk] := by decide
    exact hne
  | false =>
    have hne : ftpRespGoodbye∉[ftpRespLoginFail] := by decide
    exact hne

/-! ## The login of a run -/

/-- In every run, behind every line executed, the login is told by the lines so far:
two `PASS` lines are needed, and a `USER` line behind the last one ends it. The next
line that is none of these is refused exactly without it and leaves the login as it
is; no `PASS` line reaches the limit of attempts; and the directory fits its array
and its report. -/
theorem ftp_login (results : List RecvResult) :
    runFtpService s results=s.recordConnection .ftp::.send ftpBanner::
        (actsOf s .start (executedLines s .start results)++[s.recordDisconnect .ftp,.close]) ∧
    ∀ lines later : List Bytes,executedLines s .start results=lines++later →
      let sess := sessionAfter s .start lines
      (sess.authAttempts=passes lines ∧
        (sess.authenticated=true ↔ 2≤passes lines ∧ lastLogin lines=some .pass)) ∧
      (sess.cwd.cstring.length≤511 ∧ ∃ rest,sess.cwd.bytes=sess.cwd.cstring++0::rest) ∧
      ∀ (line : Bytes) (more : List Bytes),later=line::more →
        let answer := ftpExecute s sess line
        ((ftpVerb line≠.user → ftpVerb line≠.pass → ftpVerb line≠.quit →
          (sends answer.acts=[ftpRespNotLoggedIn] ↔ sess.authenticated=false) ∧
            SameLogin sess answer.sess) ∧
        (ftpVerb line=.pass →
          ¬(6≤answer.sess.authAttempts ∧ answer.sess.authenticated=false) ∧
            ftpRespGoodbye∉sends answer.acts ∧ answer.running=true) ∧
        (ftpVerb line=.pwd → sess.authenticated=true →
          sends answer.acts=[pwdReply sess.cwd.cstring])) := by
  refine ⟨runFtpService_lines s results,?_⟩
  intro lines later _ sess
  have hlogin := loginAfter_lines s lines
  refine ⟨⟨hlogin.attempts,hlogin.authenticated_iff⟩,length_cstring sess.cwd,?_⟩
  intro line more _ answer
  refine ⟨?_,?_,?_⟩
  · intro huser hpass hquit
    exact ⟨sends_ftpExecute_iff s sess huser hpass hquit,sameLogin_ftpExecute s sess huser hpass⟩
  · intro hpass
    exact ftpExecute_pass_limit s sess hpass
  · intro hpwd hauth
    exact sends_ftpExecute_pwd s hpwd hauth

end Login

/-- A client with two passwords asks for its directory. -/
theorem ftp_login_two_passwords :
    ((sessionAfter ⟨[],0,[]⟩ .start [text "PASS a",text "PASS b"]).authenticated=true ↔
      2≤passes [text "PASS a",text "PASS b"] ∧
        lastLogin [text "PASS a",text "PASS b"]=some .pass) ∧
    sends (ftpExecute ⟨[],0,[]⟩ (sessionAfter ⟨[],0,[]⟩ .start [text "PASS a",text "PASS b"])
        (text "PWD")).acts=
      [pwdReply (sessionAfter ⟨[],0,[]⟩ .start [text "PASS a",text "PASS b"]).cwd.cstring] := by
  have hrun := (ftp_login ⟨[],0,[]⟩ [.data (text "PASS a"++[10]++text "PASS b"++[13,10]),
    .data (text "PWD"++[10])]).2 [text "PASS a",text "PASS b"] [text "PWD"] (by decide)
  exact ⟨hrun.1.2,(hrun.2.2 (text "PWD") [] rfl).2.2 (by decide) (by decide)⟩

end HoneyDew.FtpRuns
