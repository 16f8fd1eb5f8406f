import HoneyDew.SmtpBase64
import HoneyDew.SmtpFraming

/-!
# The credentials the SMTP service reports

The zero bytes that decoding fills in stand behind the decoded text, where a C
string has already ended. In both authentication exchanges the user name and the
password therefore come back as they were encoded. The message that reports them
is cut where the buffer of the logger ends, so a long password is not shown whole.
-/

namespace HoneyDew.SmtpCredentials

open CText Service Base64 SmtpService SmtpBase64 SmtpFraming PairLines

/-! ## Decoded credentials as C strings -/

/-- Zero bytes behind a text do not change it as a C string. -/
theorem cstr_zeroFilled {s : Bytes} (h : (0 : Byte)∉s) : cstr (zeroFilled s)=s := by
  unfold zeroFilled
  cases (3-s.length%3)%3 with
  | zero =>
    rw [List.replicate_zero,List.append_nil]
    exact cstr_self h
  | succ k =>
    rw [List.replicate_succ]
    exact cstr_terminated h _

/-- An encoding that fits a line fits the output array decoded. -/
theorem length_zeroFilled_lt {s : Bytes} (h : (encode s).length≤4093) :
    (zeroFilled s).length<4096 := by
  rw [length_encode] at h
  rw [length_zeroFilled]
  omega

/-- A decoded text as a C string. -/
theorem cstr_base64Decode_encode {s : Bytes} (hnul : (0 : Byte)∉s)
    (hfit : (encode s).length≤4093) : cstr (base64Decode (encode s) 4096)=s := by
  rw [base64Decode_encode s (symbols_encode s) (length_zeroFilled_lt hfit)]
  exact cstr_zeroFilled hnul

/-- What stands behind the first NUL. -/
theorem behindNul_append {s : Bytes} (h : (0 : Byte)∉s) (rest : Bytes) :
    behindNul (s++0::rest)=rest := by
  have hs : ∀ b∈s,decide (b≠0)=true := by
    intro b hb
    rw [decide_eq_true_eq]
    intro hzero
    rw [hzero] at hb
    exact h hb
  rw [behindNul,List.dropWhile_append_of_pos hs]
  rfl

/-- The text that AUTH PLAIN encodes. -/
def plainText (authzid user pass : Bytes) : Bytes := authzid++0::(user++0::pass)

/-- The end of the AUTH PLAIN exchange with an encoded text. -/
theorem smtpPlainCredentials_encode (s : Session) {authzid user pass : Bytes}
    (hnul : (0 : Byte)∉authzid ∧ (0 : Byte)∉user ∧ (0 : Byte)∉pass)
    (hfit : (encode (plainText authzid user pass)).length≤4093) :
    smtpPlainCredentials s (encode (plainText authzid user pass))=
      [report s "[SMTP蜜罐] AUTH PLAIN (base64): " (encode (plainText authzid user pass)),
        reportCredentials s "[SMTP蜜罐] 捕获凭据(PLAIN): " user pass,.send smtpAuthFailed] := by
  obtain ⟨hauthzid,huser,hpass⟩ := hnul
  obtain ⟨k,hfilled⟩ : ∃ k,zeroFilled (plainText authzid user pass)=
      authzid++0::(user++0::(pass++List.replicate k 0)) := by
    refine ⟨(3-(plainText authzid user pass).length%3)%3,?_⟩
    simp only [zeroFilled,plainText,List.append_assoc,List.cons_append]
  have hdecoded : base64Decode (encode (plainText authzid user pass)) 4096=
      authzid++0::(user++0::(pass++List.replicate k 0)) := by
    rw [base64Decode_encode _ (symbols_encode _) (length_zeroFilled_lt hfit),hfilled]
  have hname : cstr (user++0::(pass++List.replicate k 0))=user := cstr_terminated huser _
  have hpassword : cstr (pass++List.replicate k 0)=pass := by
    cases k with
    | zero =>
      rw [List.replicate_zero,List.append_nil]
      exact cstr_self hpass
    | succ k => exact cstr_terminated hpass _
  rw [smtpPlainCredentials]
  simp only [hdecoded,behindNul_append hauthzid,behindNul_append huser,reportCredentials,
    credentialsText,hname,hpassword,cstr_self huser,cstr_self hpass]

/-! ## Lines with encodings -/

/-- A line without line breaks is unbroken. -/
theorem unbroken_of_clean {line : Bytes} (h : ∀ b∈line,b≠0 ∧ b≠13 ∧ b≠10) : Unbroken 13 10 line :=
  unbroken_of_not_mem (fun hcr => (h 13 hcr).2.1 rfl)

/-- An encoding holds neither NUL nor line breaks. -/
theorem encode_breaks (s : Bytes) : ∀ b∈encode s,b≠0 ∧ b≠13 ∧ b≠10 := by
  intro b hb
  have hclean := encode_clean s b hb
  refine ⟨hclean.2,?_,?_⟩
  · intro hcr
    rw [hcr] at hclean
    exact absurd hclean.1 (by decide)
  · intro hlf
    rw [hlf] at hclean
    exact absurd hclean.1 (by decide)

/-- Nothing is stripped from an encoding. -/
theorem smtpStripCrlf_encode (s : Bytes) : smtpStripCrlf (encode s)=encode s :=
  stripCrlf_self (encode_breaks s)

/-- The wire of a client that sends some lines and more bytes behind them. -/
def clientWire (lines : List Bytes) (rest : Bytes) (delivers : List Bool) : Wire :=
  ⟨(smtpReceived (lines.flatMap (fun line => line++crlf)++rest)).map Received.line,delivers⟩

/-- A line that fits the array is received first. -/
theorem clientWire_cons {line : Bytes} (h : ∀ b∈line,b≠0 ∧ b≠13 ∧ b≠10) (hfit : line.length≤4093)
    (lines : List Bytes) (rest : Bytes) (delivers : List Bool) :
    clientWire (line::lines) rest delivers=⟨line::(clientWire lines rest delivers).lines,delivers⟩ := by
  have hread := smtpRecvLine_line (unbroken_of_clean h) hfit
    (lines.flatMap (fun line => line++crlf)++rest)
  have hsplit : (line::lines).flatMap (fun line => line++crlf)++rest=
      line++crlf++(lines.flatMap (fun line => line++crlf)++rest) := by
    rw [List.flatMap_cons,List.append_assoc]
  unfold clientWire
  rw [hsplit,smtpReceived_cons hread,List.map_cons]

/-- The next so many calls of `smtp_send` deliver all their bytes. -/
def Delivered (n : ℕ) (delivers : List Bool) : Prop := ∀ b∈delivers.take n,b=true

/-- When the next calls deliver all their bytes, the first of them does and the others do.
-/
theorem Delivered.head {n : ℕ} {delivers : List Bool} (h : Delivered (n+1) delivers) :
    delivers.headD true=true ∧ Delivered n delivers.tail := by
  cases delivers with
  | nil => exact ⟨rfl,by simp [Delivered]⟩
  | cons b delivers =>
    simp only [Delivered,List.take_succ_cons,List.mem_cons,forall_eq_or_imp] at h
    exact h

/-! ## The exchanges -/

/-- Credentials are reported as C strings. -/
theorem reportCredentials_congr (s : Session) (label : String) {user user' pass pass' : Bytes}
    (huser : cstr user=cstr user') (hpass : cstr pass=cstr pass') :
    reportCredentials s label user pass=reportCredentials s label user' pass' := by
  rw [reportCredentials,reportCredentials,credentialsText,credentialsText,huser,hpass]

/-- Credentials whose message fits the buffer of the logger are shown whole. -/
theorem reportCredentials_short {s : Session} {label : String} {user pass : Bytes}
    (h : (credentialsText s label user pass).length≤4095) :
    reportCredentials s label user pass=.log (credentialsText s label user pass) := by
  rw [reportCredentials,utilitiesLog,List.take_of_length_le h]

/-- What the service does in the AUTH LOGIN exchange. -/
def loginActs (s : Session) (user pass : Bytes) : List Action :=
  [.send smtpAuthUsernameChallenge,report s "[SMTP蜜罐] AUTH LOGIN 用户名(base64): " (encode user),
    .send smtpAuthPasswordChallenge,report s "[SMTP蜜罐] AUTH LOGIN 密码(base64): " (encode pass),
    reportCredentials s "[SMTP蜜罐] 捕获凭据: " user pass,.send smtpAuthFailed]

/-- What the service does about the text of AUTH PLAIN. -/
def plainActs (s : Session) (authzid user pass : Bytes) : List Action :=
  [report s "[SMTP蜜罐] AUTH PLAIN (base64): " (encode (plainText authzid user pass)),
    reportCredentials s "[SMTP蜜罐] 捕获凭据(PLAIN): " user pass,.send smtpAuthFailed]

/-- The AUTH LOGIN exchange with both answers at hand. -/
theorem smtpHandleAuthLogin_encode (s : Session) {user pass : Bytes} (lines : List Bytes)
    {delivers : List Bool} (hnul : (0 : Byte)∉user ∧ (0 : Byte)∉pass)
    (huser : (encode user).length≤4093) (hpass : (encode pass).length≤4093)
    (hsent : Delivered 2 delivers) :
    smtpHandleAuthLogin s ⟨encode user::encode pass::lines,delivers⟩=
      (loginActs s user pass,some ⟨lines,delivers.drop 3⟩) := by
  have hfirst := hsent.head
  have hsecond := hfirst.2.head
  have hcredentials := reportCredentials_congr s "[SMTP蜜罐] 捕获凭据: "
    ((cstr_base64Decode_encode hnul.1 huser).trans (cstr_self hnul.1).symm)
    ((cstr_base64Decode_encode hnul.2 hpass).trans (cstr_self hnul.2).symm)
  have htail : delivers.tail.tail.tail=delivers.drop 3 := by
    simp only [← List.drop_one,List.drop_drop]
  simp only [smtpHandleAuthLogin,sendOrReturn,lineOrReturn,smtpSend,nextLine,hfirst.1,hsecond.1,
    if_true,smtpStripCrlf_encode,hcredentials,loginActs,List.cons_append,List.nil_append,htail]

/-- An encoding that is not empty fits the array for it. -/
theorem smtpHandleAuthPlain_encode (s : Session) {authzid user pass : Bytes} (lines : List Bytes)
    (delivers : List Bool) (hnul : (0 : Byte)∉authzid ∧ (0 : Byte)∉user ∧ (0 : Byte)∉pass)
    (hfit : (encode (plainText authzid user pass)).length≤4093) :
    smtpHandleAuthPlain s (encode (plainText authzid user pass)) ⟨lines,delivers⟩=
        (plainActs s authzid user pass,some ⟨lines,delivers.tail⟩) ∧
      (Delivered 1 delivers →
        smtpHandleAuthPlain s [] ⟨encode (plainText authzid user pass)::lines,delivers⟩=
          (.send (replyLine "334")::plainActs s authzid user pass,
            some ⟨lines,delivers.drop 2⟩)) := by
  have hne : encode (plainText authzid user pass)≠[] := by
    apply encode_ne_nil
    exact List.append_ne_nil_of_right_ne_nil _ (List.cons_ne_nil _ _)
  have htake : (encode (plainText authzid user pass)).take 4095=
      encode (plainText authzid user pass) := List.take_of_length_le (by omega)
  constructor
  · rw [smtpHandleAuthPlain,if_pos hne,htake,smtpPlainCredentials_encode s hnul hfit]
    rfl
  · intro hsent
    have hfirst := hsent.head
    have htail : delivers.tail.tail=delivers.drop 2 := by
      simp only [← List.drop_one,List.drop_drop]
    simp only [smtpHandleAuthPlain,ne_eq,not_true_eq_false,if_false,sendOrReturn,lineOrReturn,smtpSend,
      nextLine,hfirst.1,if_true,smtpStripCrlf_encode,htake,smtpPlainCredentials_encode s hnul hfit,
      plainActs,List.cons_append,List.nil_append,htail]

/-- The acts on a command line and the rest of the session. -/
def thenCommands (s : Session) (line : Bytes) (acts : List Action) (n : ℕ) (w : Wire) :
    List Action×Option Wire :=
  (report s "[SMTP蜜罐] 收到命令: " line::(acts++(smtpCommands s n w).1),(smtpCommands s n w).2)

/-- A round of the command loop that goes on. -/
theorem smtpCommands_continues {s : Session} {line : Bytes} {lines : List Bytes}
    {delivers : List Bool} {acts : List Action} {w : Wire} (n : ℕ) (hne : line≠[])
    (hline : smtpStripCrlf line=line)
    (hrun : smtpExecute s line ⟨lines,delivers⟩=(acts,.continues w)) :
    smtpCommands s (n+1) ⟨line::lines,delivers⟩=thenCommands s line acts n w := by
  simp only [smtpCommands,nextLine,hline,if_neg hne,hrun]
  rfl

/-- The command line of AUTH PLAIN with what stands behind the name. -/
def plainLine (arg : Bytes) : Bytes := text "AUTH PLAIN"++arg

/-- The commands that come before AUTH PLAIN in the chain do not match, and the
blanks behind the name are skipped. -/
theorem smtpExecute_plainLine (s : Session) (arg : Bytes) (w : Wire) :
    smtpExecute s (plainLine arg) w=
      ((smtpHandleAuthPlain s (arg.dropWhile (fun b => b=32)) w).1,
        goesOn (smtpHandleAuthPlain s (arg.dropWhile (fun b => b=32)) w).2) := by
  have hargument : argument (plainLine arg) 10=arg.dropWhile (fun b => b=32) := rfl
  have hehlo : startsNoCase (plainLine arg) "EHLO"=false := rfl
  have hhelo : startsNoCase (plainLine arg) "HELO"=false := rfl
  have hlogin : startsNoCase (plainLine arg) "AUTH LOGIN"=false := rfl
  have hplain : startsNoCase (plainLine arg) "AUTH PLAIN"=true := rfl
  rw [smtpExecute,hehlo,hhelo,hlogin,hplain,hargument]
  rfl

/-- An encoding starts with no blank. -/
theorem dropWhile_encode (s : Bytes) :
    (32::encode s).dropWhile (fun b => b=32)=encode s := by
  rw [List.dropWhile_cons_of_pos (by decide)]
  cases hs : encode s with
  | nil => rfl
  | cons c rest =>
    have hclean := encode_clean s c (by rw [hs]; exact List.mem_cons_self)
    rw [List.dropWhile_cons_of_neg]
    intro hblank
    rw [of_decide_eq_true hblank] at hclean
    exact absurd hclean.1 (by decide)

/-- A command line with an encoding is a line of its own. -/
theorem plainLine_clean (s : Bytes) :
    ∀ b∈plainLine (32::encode s),b≠0 ∧ b≠13 ∧ b≠10 := by
  have hname : ∀ b∈text "AUTH PLAIN"++[32],b≠0 ∧ b≠13 ∧ b≠10 := by decide +kernel
  intro b hb
  have hsplit : plainLine (32::encode s)=(text "AUTH PLAIN"++[32])++encode s := by
    rw [plainLine,List.append_assoc,List.singleton_append]
  rw [hsplit] at hb
  cases List.mem_append.mp hb with
  | inl hfront => exact hname b hfront
  | inr hback => exact encode_breaks s b hback

section Exchanges

variable (s : Session) (n : ℕ) {authzid user pass : Bytes} (rest : Bytes) {delivers : List Bool}

/-- The answers to both challenges are reported. -/
theorem smtpCommands_login (hnul : (0 : Byte)∉user ∧ (0 : Byte)∉pass)
    (huser : (encode user).length≤4093) (hpass : (encode pass).length≤4093)
    (hsent : Delivered 2 delivers) :
    smtpCommands s (n+1) (clientWire [text "AUTH LOGIN",encode user,encode pass] rest delivers)=
      thenCommands s (text "AUTH LOGIN") (loginActs s user pass) n
        (clientWire [] rest (delivers.drop 3)) := by
  have hlogin : ∀ b∈text "AUTH LOGIN",b≠0 ∧ b≠13 ∧ b≠10 := by decide +kernel
  have hlength : (text "AUTH LOGIN").length≤4093 := by decide
  have hrun : smtpExecute s (text "AUTH LOGIN")
      ⟨encode user::encode pass::(clientWire [] rest delivers).lines,delivers⟩=
        (loginActs s user pass,.continues (clientWire [] rest (delivers.drop 3))) := by
    have hdispatch : ∀ w,smtpExecute s (text "AUTH LOGIN") w=
        ((smtpHandleAuthLogin s w).1,goesOn (smtpHandleAuthLogin s w).2) := fun _ => rfl
    rw [hdispatch,smtpHandleAuthLogin_encode s _ hnul huser hpass hsent]
    rfl
  rw [clientWire_cons hlogin hlength,clientWire_cons (encode_breaks user) huser,
    clientWire_cons (encode_breaks pass) hpass]
  exact smtpCommands_continues n (by decide) (stripCrlf_self hlogin) hrun

variable (hnul : (0 : Byte)∉authzid ∧ (0 : Byte)∉user ∧ (0 : Byte)∉pass)

include hnul

/-- An encoding on the command line is reported. -/
theorem smtpCommands_plainLine
    (hfit : (plainLine (32::encode (plainText authzid user pass))).length≤4093) :
    smtpCommands s (n+1)
        (clientWire [plainLine (32::encode (plainText authzid user pass))] rest delivers)=
      thenCommands s (plainLine (32::encode (plainText authzid user pass)))
        (plainActs s authzid user pass) n (clientWire [] rest (delivers.drop 1)) := by
  have hinside : (encode (plainText authzid user pass)).length≤
      (plainLine (32::encode (plainText authzid user pass))).length := by
    rw [plainLine,List.length_append,List.length_cons]
    omega
  have hhandler := smtpHandleAuthPlain_encode s (clientWire [] rest delivers).lines delivers hnul
    (hinside.trans hfit)
  have hrun : smtpExecute s (plainLine (32::encode (plainText authzid user pass)))
      ⟨(clientWire [] rest delivers).lines,delivers⟩=
        (plainActs s authzid user pass,.continues (clientWire [] rest (delivers.drop 1))) := by
    rw [smtpExecute_plainLine,dropWhile_encode,hhandler.1,List.drop_one]
    rfl
  rw [clientWire_cons (plainLine_clean _) hfit]
  exact smtpCommands_continues n (List.cons_ne_nil _ _) (stripCrlf_self (plainLine_clean _)) hrun

/-- An encoding on a line of its own is reported. -/
theorem smtpCommands_plain (hfit : (encode (plainText authzid user pass)).length≤4093)
    (hsent : Delivered 1 delivers) :
    smtpCommands s (n+1)
        (clientWire [text "AUTH PLAIN",encode (plainText authzid user pass)] rest delivers)=
      thenCommands s (text "AUTH PLAIN") (.send (replyLine "334")::plainActs s authzid user pass) n
        (clientWire [] rest (delivers.drop 2)) := by
  have hplain : ∀ b∈text "AUTH PLAIN",b≠0 ∧ b≠13 ∧ b≠10 := by decide +kernel
  have hlength : (text "AUTH PLAIN").length≤4093 := by decide
  have hhandler := smtpHandleAuthPlain_encode s (clientWire [] rest delivers).lines delivers hnul hfit
  have hrun : smtpExecute s (text "AUTH PLAIN")
      ⟨encode (plainText authzid user pass)::(clientWire [] rest delivers).lines,delivers⟩=
        (.send (replyLine "334")::plainActs s authzid user pass,
          .continues (clientWire [] rest (delivers.drop 2))) := by
    have hdispatch := smtpExecute_plainLine s []
      ⟨encode (plainText authzid user pass)::(clientWire [] rest delivers).lines,delivers⟩
    rw [plainLine,List.append_nil] at hdispatch
    rw [hdispatch,List.dropWhile_nil,hhandler.2 hsent]
    rfl
  rw [clientWire_cons hplain hlength,clientWire_cons (encode_breaks _) hfit]
  exact smtpCommands_continues n (by decide) (stripCrlf_self hplain) hrun

end Exchanges

/-- Wherever the command loop of a session stands and whatever follows, the
credentials given to the logger are those the client has encoded: in answers to
both challenges, on the command line, or on a line of their own. They are shown whole
when their message fits the buffer of the logger. -/
theorem smtpCommands_credentials (s : Session) (n : ℕ) (authzid user pass rest : Bytes)
    (delivers : List Bool)
    (hnul : (0 : Byte)∉authzid ∧ (0 : Byte)∉user ∧ (0 : Byte)∉pass) :
    ((encode user).length≤4093 → (encode pass).length≤4093 → Delivered 2 delivers →
      smtpCommands s (n+1)
          (clientWire [text "AUTH LOGIN",encode user,encode pass] rest delivers)=
        thenCommands s (text "AUTH LOGIN") (loginActs s user pass) n
          (clientWire [] rest (delivers.drop 3))) ∧
    ((plainLine (32::encode (plainText authzid user pass))).length≤4093 →
      smtpCommands s (n+1)
          (clientWire [plainLine (32::encode (plainText authzid user pass))] rest delivers)=
        thenCommands s (plainLine (32::encode (plainText authzid user pass)))
          (plainActs s authzid user pass) n (clientWire [] rest (delivers.drop 1))) ∧
    ((encode (plainText authzid user pass)).length≤4093 → Delivered 1 delivers →
      smtpCommands s (n+1)
          (clientWire [text "AUTH PLAIN",encode (plainText authzid user pass)] rest delivers)=
        thenCommands s (text "AUTH PLAIN")
          (.send (replyLine "334")::plainActs s authzid user pass) n
          (clientWire [] rest (delivers.drop 2))) ∧
    ∀ label,(credentialsText s label user pass).length≤4095 →
      reportCredentials s label user pass=.log (credentialsText s label user pass) := by
  refine ⟨?_,?_,?_,fun label => reportCredentials_short⟩
  · intro huser hpass hsent
    exact smtpCommands_login s n rest hnul.2 huser hpass hsent
  · intro hfit
    exact smtpCommands_plainLine s n rest hnul hfit
  · intro hfit hsent
    exact smtpCommands_plain s n rest hnul hfit hsent

/-- A client without a password in the three exchanges. -/
theorem smtpCommands_credentials_root :
    smtpCommands ⟨[],0,[]⟩ 1
        (clientWire [text "AUTH LOGIN",encode (text "root"),encode []] [] [true,true])=
      thenCommands ⟨[],0,[]⟩ (text "AUTH LOGIN") (loginActs ⟨[],0,[]⟩ (text "root") []) 0
        (clientWire [] [] []) ∧
    smtpCommands ⟨[],0,[]⟩ 1
        (clientWire [plainLine (32::encode (plainText [] (text "root") []))] [] [true,true])=
      thenCommands ⟨[],0,[]⟩ (plainLine (32::encode (plainText [] (text "root") [])))
        (plainActs ⟨[],0,[]⟩ [] (text "root") []) 0 (clientWire [] [] [true]) ∧
    smtpCommands ⟨[],0,[]⟩ 1
        (clientWire [text "AUTH PLAIN",encode (plainText [] (text "root") [])] [] [true,true])=
      thenCommands ⟨[],0,[]⟩ (text "AUTH PLAIN")
        (.send (replyLine "334")::plainActs ⟨[],0,[]⟩ [] (text "root") []) 0 (clientWire [] [] []) ∧
    reportCredentials ⟨[],0,[]⟩ "[SMTP蜜罐] 捕获凭据: " (text "root") []=
      .log (credentialsText ⟨[],0,[]⟩ "[SMTP蜜罐] 捕获凭据: " (text "root") []) := by
  have hnul : (0 : Byte)∉([] : Bytes) ∧ (0 : Byte)∉text "root" ∧ (0 : Byte)∉([] : Bytes) := by
    decide
  have hrun := smtpCommands_credentials ⟨[],0,[]⟩ 0 [] (text "root") [] [] [true,true] hnul
  have hsent : Delivered 2 [true,true] ∧ Delivered 1 [true,true] := by simp [Delivered]
  exact ⟨hrun.1 (by decide) (by decide) hsent.1,hrun.2.1 (by decide),
    hrun.2.2.1 (by decide) hsent.2,hrun.2.2.2 _ (by decide)⟩

/-- The message about credentials is longer than both together. -/
theorem length_credentialsText (s : Session) (label : String) {user pass : Bytes}
    (hnul : (0 : Byte)∉user ∧ (0 : Byte)∉pass) :
    user.length+pass.length≤(credentialsText s label user pass).length := by
  rw [credentialsText,cstr_self hnul.1,cstr_self hnul.2]
  simp only [List.length_append]
  omega

/-- The AUTH LOGIN exchange does not show credentials whole that are too long for a
message. -/
theorem login_not_logged (s : Session) {user pass : Bytes} {delivers : List Bool}
    (hnul : (0 : Byte)∉user ∧ (0 : Byte)∉pass) (huser : (encode user).length≤4093)
    (hpass : (encode pass).length≤4093) (hsent : Delivered 2 delivers)
    (hlong : 4095<user.length+pass.length) :
    .log (credentialsText s "[SMTP蜜罐] 捕获凭据: " user pass)∉
      (smtpCommands s 1
        (clientWire [text "AUTH LOGIN",encode user,encode pass] [] delivers)).1 := by
  have htext := length_credentialsText s "[SMTP蜜罐] 捕获凭据: " hnul
  rw [smtpCommands_login s 0 [] hnul huser hpass hsent]
  intro hmem
  simp only [thenCommands,loginActs,report,reportCredentials,smtpCommands,List.append_nil,
    List.mem_cons,reduceCtorEq,List.not_mem_nil,false_or,or_false] at hmem
  rcases hmem with hcommand|hname|hpassword|hboth
  · have hfits := length_utilitiesLog hcommand
    omega
  · have hfits := length_utilitiesLog hname
    omega
  · have hfits := length_utilitiesLog hpassword
    omega
  · have hfits := length_utilitiesLog hboth
    omega

/-- A user name and a password of 3069 bytes fit their lines encoded, and the message
that reports them is not logged whole. -/
theorem long_credentials_cut :
    (encode (List.replicate 3069 97)).length≤4093 ∧
      .log (credentialsText ⟨[],0,[]⟩ "[SMTP蜜罐] 捕获凭据: " (List.replicate 3069 97)
        (List.replicate 3069 97))∉
        (smtpCommands ⟨[],0,[]⟩ 1 (clientWire [text "AUTH LOGIN",encode (List.replicate 3069 97),
          encode (List.replicate 3069 97)] [] [true,true])).1 := by
  have hnul : (0 : Byte)∉List.replicate 3069 97 := by
    intro hmem
    exact absurd (List.eq_of_mem_replicate hmem) (by decide)
  have hlength : (List.replicate 3069 (97 : Byte)).length=3069 := List.length_replicate
  generalize List.replicate 3069 (97 : Byte)=name at hnul hlength ⊢
  have hfit : (encode name).length≤4093 := by
    rw [length_encode,hlength]
    decide
  exact ⟨hfit,login_not_logged ⟨[],0,[]⟩ ⟨hnul,hnul⟩ hfit hfit (by simp [Delivered]) (by omega)⟩

end HoneyDew.SmtpCredentials
