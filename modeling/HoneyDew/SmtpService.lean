import HoneyDew.Service
import HoneyDew.PairLines

/-!
# The SMTP service

Lines are read byte by byte into an array of 4096 bytes, up to a CR LF or until
the array is full. The command loop, the two authentication exchanges and the
mail text all read their lines this way. The service keeps no audit trail of its
own; it reports what it captures in log lines.
-/

namespace HoneyDew.SmtpService

open CText CMemory Service

/-- `SMTP_BANNER`. -/
def smtpBanner : Bytes := replyLine "220 mail.honeydew.local ESMTP Postfix (Ubuntu)"

/-- `SMTP_EHLO_RESPONSE`. -/
def smtpEhloResponse : Bytes :=
  ["250-mail.honeydew.local","250-SIZE 10240000","250-AUTH PLAIN LOGIN","250 OK"].flatMap replyLine

/-- `SMTP_AUTH_USERNAME_CHALLENGE`. -/
def smtpAuthUsernameChallenge : Bytes := replyLine "334 VXNlcm5hbWU6"

/-- `SMTP_AUTH_PASSWORD_CHALLENGE`. -/
def smtpAuthPasswordChallenge : Bytes := replyLine "334 UGFzc3dvcmQ6"

/-- `SMTP_AUTH_FAILED`. -/
def smtpAuthFailed : Bytes := replyLine "535 5.7.8 Authentication failed"

/-- `SMTP_DATA_START`. -/
def smtpDataStart : Bytes := replyLine "354 End data with <CR><LF>.<CR><LF>"

/-! ## Base64 -/

/-- `decode_table`, zero for every character it does not list. -/
def decodeTable (c : Byte) : ℕ :=
  if 65≤c ∧ c≤90 then c.toNat-65
  else if 97≤c ∧ c≤122 then c.toNat-97+26
  else if 48≤c ∧ c≤57 then c.toNat-48+52
  else if c=43 then 62
  else if c=47 then 63
  else 0

/-- The inner loop of `base64_decode`: up to so many sextets and the input
behind them. Line breaks and blanks are skipped, padding counts as zero. -/
def base64Sextets : ℕ → Bytes → List ℕ×Bytes
  | 0,input => ([],input)
  | _+1,[] => ([],[])
  | n+1,c::input =>
    if c=13 ∨ c=10 ∨ c=32 then base64Sextets (n+1) input
    else ((if c=61 then 0 else decodeTable c)::(base64Sextets n input).1,(base64Sextets n input).2)

/-- The bytes of one group of sextets. -/
def base64Group (sextets : List ℕ) : Bytes :=
  let triple := sextets.getD 0 0*2^18+sextets.getD 1 0*2^12+sextets.getD 2 0*2^6+sextets.getD 3 0
  ([triple/2^16,triple/2^8,triple].take (sextets.length-1)).map UInt8.ofNat

/-- The outer loop of `base64_decode` with room for so many more bytes. -/
def base64Loop : ℕ → ℕ → Bytes → Bytes
  | 0,_,_ => []
  | fuel+1,room,input =>
    if input=[] ∨ room=0 then []
    else
      let group := base64Sextets 4 input
      if group.1.length<2 then []
      else
        let output := (base64Group group.1).take room
        output++base64Loop fuel (room-output.length) group.2

/-- `base64_decode`: the bytes written in front of the NUL. Every round reads
at least one character, so the input's length is enough fuel. -/
def base64Decode (input : Bytes) (outSize : ℕ) : Bytes :=
  base64Loop (cstr input).length (outSize-1) (cstr input)

/-! ## Reading lines -/

/-- The loop of `smtp_recv_line` with the bytes of the array so far: the line
and the rest of the stream, or nothing at the end of the stream. -/
def smtpRecvLoop (bufSize : ℕ) (buf : Bytes) : Bytes → Option (Bytes×Bytes)
  | [] => if buf.length<bufSize-1 then none else some (buf,[])
  | c::stream =>
    if buf.length<bufSize-1 then
      if PairLines.Completes 13 10 buf c then some (buf.dropLast,stream)
      else smtpRecvLoop bufSize (buf++[c]) stream
    else some (buf,c::stream)

/-- `smtp_recv_line` into an array of `SMTP_BUF_SIZE` bytes. -/
def smtpRecvLine (stream : Bytes) : Option (Bytes×Bytes) := smtpRecvLoop 4096 [] stream

/-- What a handler reads from and writes to: the results of the calls of
`smtp_recv_line` still to come, and whether the sends still to come deliver all
their bytes. Sends beyond the list do. -/
structure Wire where
  /-- Lines of the later calls of `smtp_recv_line`. -/
  lines : List Bytes
  /-- Outcomes of the later calls of `smtp_send`. -/
  delivers : List Bool
  deriving DecidableEq,Repr

/-- `smtp_send`: whether it returns zero. -/
def smtpSend (w : Wire) : Bool×Wire := (w.delivers.headD true,{w with delivers := w.delivers.tail})

/-- The next call of `smtp_recv_line`. -/
def nextLine (w : Wire) : Option (Bytes×Wire) :=
  match w.lines with
  | [] => none
  | line::lines => some (line,{w with lines})

/-- `smtp_strip_crlf`. -/
def smtpStripCrlf (line : Bytes) : Bytes := stripCrlf line

/-- A log line that quotes one value. -/
def report (s : Session) (label : String) (value : Bytes) : Action :=
  utilitiesLog (text label++[34]++cstr value++[34]++s.origin)

/-- The message about captured credentials. -/
def credentialsText (s : Session) (label : String) (username password : Bytes) : Bytes :=
  text label++text "用户="++[34]++cstr username++[34]++text " 密码="++[34]++cstr password++[34]++s.origin

/-- The log line with captured credentials. -/
def reportCredentials (s : Session) (label : String) (username password : Bytes) : Action :=
  utilitiesLog (credentialsText s label username password)

/-- `if (smtp_send(..) < 0) return;`, with the acts up to and including the
send. -/
def sendOrReturn (start : List Action) (body : Wire → List Action×Option Wire) (w : Wire) :
    List Action×Option Wire :=
  if (smtpSend w).1 then body (smtpSend w).2 else (start,some (smtpSend w).2)

/-- `if (smtp_recv_line(..) < 0) return;`, with the acts before it. There is no
wire left when the line is missing. -/
def lineOrReturn (start : List Action) (body : Bytes → Wire → List Action×Option Wire) (w : Wire) :
    List Action×Option Wire :=
  match nextLine w with
  | none => (start,none)
  | some (line,w) => body line w

/-- `smtp_handle_auth_login`. -/
def smtpHandleAuthLogin (s : Session) (w : Wire) : List Action×Option Wire :=
  let start := [.send smtpAuthUsernameChallenge]
  sendOrReturn start (lineOrReturn start (fun first =>
    let name := smtpStripCrlf first
    let asked := start++[report s "[SMTP蜜罐] AUTH LOGIN 用户名(base64): " name,
      .send smtpAuthPasswordChallenge]
    sendOrReturn asked (lineOrReturn asked (fun second w =>
      let password := smtpStripCrlf second
      (asked++[report s "[SMTP蜜罐] AUTH LOGIN 密码(base64): " password,
        reportCredentials s "[SMTP蜜罐] 捕获凭据: " (base64Decode name 4096)
          (base64Decode password 4096),.send smtpAuthFailed],some (smtpSend w).2))))) w

/-- The bytes behind the first NUL among decoded bytes, none without one. -/
def behindNul (bytes : Bytes) : Bytes := (bytes.dropWhile (fun b => b≠0)).drop 1

/-- The end of `smtp_handle_auth_plain`: decode, take the user name and the
password apart, report them and turn the client away. -/
def smtpPlainCredentials (s : Session) (authData : Bytes) : List Action :=
  let decoded := base64Decode authData 4096
  [report s "[SMTP蜜罐] AUTH PLAIN (base64): " authData,
    reportCredentials s "[SMTP蜜罐] 捕获凭据(PLAIN): " (behindNul decoded)
      (behindNul (behindNul decoded)),.send smtpAuthFailed]

/-- `smtp_handle_auth_plain`, the argument being empty where it is a null
pointer. -/
def smtpHandleAuthPlain (s : Session) (arg : Bytes) (w : Wire) : List Action×Option Wire :=
  if arg≠[] then (smtpPlainCredentials s (arg.take 4095),some (smtpSend w).2)
  else
    let start := [.send (replyLine "334")]
    sendOrReturn start (lineOrReturn start (fun line w =>
      (start++smtpPlainCredentials s ((smtpStripCrlf line).take 4095),some (smtpSend w).2))) w

/-- The loop of `smtp_handle_data` with the mail text collected so far: the text
and the lines behind the end marker, or none when the lines run out. -/
def smtpDataLoop (data : Bytes) : List Bytes → Bytes×Option (List Bytes)
  | [] => (data,if data.length<65535 then none else some [])
  | line::lines =>
    if data.length<65535 then
      if cstr line=text "." then (data,some lines)
      else smtpDataLoop
        (if data.length+(cstr line).length+2<65536 then data++cstr line++[10] else data) lines
    else (data,some (line::lines))

/-- The log line of `smtp_handle_data` about the mail text. -/
def reportData (s : Session) (data : Bytes) : Action :=
  utilitiesLog (text "[SMTP蜜罐] 邮件内容 ("++decimal data.length++text " 字节)"++s.origin++text ": "++[34]++
    cstr ((data.take 400).map (fun b => if b=13 ∨ b=10 then 32 else b))++[34])

/-- `smtp_handle_data` behind its first reply. -/
def smtpCollectData (s : Session) (w : Wire) : List Action×Option Wire :=
  match smtpDataLoop [] w.lines with
  | (_,none) => ([.send smtpDataStart],none)
  | (data,some lines) =>
    ([.send smtpDataStart,reportData s data,.send (replyLine "250 2.0.0 Ok: queued")],
      some (smtpSend {w with lines}).2)

/-- `smtp_handle_data`. -/
def smtpHandleData (s : Session) (w : Wire) : List Action×Option Wire :=
  sendOrReturn [.send smtpDataStart] (smtpCollectData s) w

/-! ## The command loop -/

/-- How the command loop goes on after a command. -/
inductive SmtpNext
  /-- A line is missing, so that the next one is missing as well. -/
  | lost
  /-- The client has quit. -/
  | quit (w : Wire)
  /-- The next command is read. -/
  | continues (w : Wire)
  deriving DecidableEq,Repr

/-- A handler that has read its lines goes back to the command loop. -/
def goesOn : Option Wire → SmtpNext
  | none => .lost
  | some w => .continues w

/-- The text of a command behind its name, without the blanks in front. -/
def argument (line : Bytes) (n : ℕ) : Bytes := (line.drop n).dropWhile (fun b => b=32)

/-- The command chain of `run_smtp_service`. -/
def smtpExecute (s : Session) (line : Bytes) (w : Wire) : List Action×SmtpNext :=
  if startsNoCase line "EHLO" ∨ startsNoCase line "HELO" then
    ([report s "[SMTP蜜罐] 客户端标识: " (argument line 4),.send smtpEhloResponse],
      .continues (smtpSend w).2)
  else if startsNoCase line "AUTH LOGIN" then
    ((smtpHandleAuthLogin s w).1,goesOn (smtpHandleAuthLogin s w).2)
  else if startsNoCase line "AUTH PLAIN" then
    ((smtpHandleAuthPlain s (argument line 10) w).1,
      goesOn (smtpHandleAuthPlain s (argument line 10) w).2)
  else if startsNoCase line "MAIL FROM:" then
    ([report s "[SMTP蜜罐] 发件人: " (argument line 10),.send (replyLine "250 2.1.0 Ok")],
      .continues (smtpSend w).2)
  else if startsNoCase line "RCPT TO:" then
    ([report s "[SMTP蜜罐] 收件人: " (argument line 8),.send (replyLine "250 2.1.5 Ok")],
      .continues (smtpSend w).2)
  else if startsNoCase line "DATA" then ((smtpHandleData s w).1,goesOn (smtpHandleData s w).2)
  else if startsNoCase line "VRFY" then
    ([report s "[SMTP蜜罐] 验证用户: " (argument line 4),.send (replyLine "252 2.0.0 user")],
      .continues (smtpSend w).2)
  else if startsNoCase line "RSET" then
    ([utilitiesLog (text "[SMTP蜜罐] 会话重置"++s.origin),.send (replyLine "250 2.0.0 Ok")],
      .continues (smtpSend w).2)
  else if startsNoCase line "QUIT" then
    ([utilitiesLog (text "[SMTP蜜罐] 客户端退出: "++cstr s.remoteIp++text ":"++decimalInt s.remotePort),
      .send (replyLine "221 2.0.0 Bye")],.quit (smtpSend w).2)
  else
    ([report s "[SMTP蜜罐] 未知命令: " line,
      .send (replyLine "502 5.5.2 Error: command not recognized")],.continues (smtpSend w).2)

/-- The command loop, with the wire left when the client has quit. Every round
reads at least one line, so one more round than there are lines is enough. -/
def smtpCommands (s : Session) : ℕ → Wire → List Action×Option Wire
  | 0,_ => ([],none)
  | fuel+1,w =>
    match nextLine w with
    | none => ([],none)
    | some (received,w) =>
      let line := smtpStripCrlf received
      if line=[] then smtpCommands s fuel w
      else
        let done := smtpExecute s line w
        let command := report s "[SMTP蜜罐] 收到命令: " line
        match done.2 with
        | .lost => (command::done.1,none)
        | .quit w => (command::done.1,some w)
        | .continues w =>
          (command::(done.1++(smtpCommands s fuel w).1),(smtpCommands s fuel w).2)

/-- The session behind the banner, with the wire left by a client that quits. -/
def smtpSession (s : Session) (w : Wire) : List Action×Option Wire :=
  sendOrReturn [] (fun w => smtpCommands s (w.lines.length+1) w) w

/-- `run_smtp_service` with the lines its reads return. -/
def runSmtpService (s : Session) (w : Wire) : List Action :=
  .send smtpBanner::((smtpSession s w).1++[.close])

end HoneyDew.SmtpService
