import HoneyDew.Service

/-!
# The POP3 and the IMAP service

Both take what one receive call gives, without the line breaks at its end, for
one command, record it and answer it.
-/

namespace HoneyDew.MailServices

open CText CMemory Service

/-- `pop3_strip_crlf`. -/
def pop3StripCrlf (str : Bytes) : Bytes := stripCrlf str

/-- The replies of the POP3 command chain behind `USER` and `PASS`. -/
def pop3Reply (line : Bytes) : Bytes :=
  if startsNoCase line "CAPA" then
    ["+OK Capability list follows","USER","UIDL","TOP","RESP-CODES","AUTH-RESP-CODE","PIPELINING",
      "STLS","."].flatMap replyLine
  else if startsNoCase line "QUIT" then replyLine "+OK Bye."
  else if startsNoCase line "NOOP" then replyLine "+OK"
  else if startsNoCase line "STAT" then replyLine "-ERR Not authenticated"
  else if startsNoCase line "LIST" then replyLine "-ERR Not authenticated"
  else if startsNoCase line "RETR" then replyLine "-ERR Not authenticated"
  else if startsNoCase line "STLS" then replyLine "-ERR TLS not available"
  else if startsNoCase line "AUTH" then replyLine "-ERR Unknown authentication mechanism"
  else replyLine "-ERR Unknown command"

/-- The POP3 command loop with the user name kept so far. -/
def pop3Commands (s : Session) (username : Bytes) : List RecvResult → List Action
  | [] => []
  | r::rs =>
    match recv 4095 r with
    | none => []
    | some bytes =>
      let line := pop3StripCrlf bytes
      s.recordCommand .pop3 line::
        if startsNoCase line "USER " then
          .send (replyLine "+OK")::pop3Commands s ((line.drop 5).take 255) rs
        else if startsNoCase line "PASS " then
          s.recordAuth .pop3 username (some (line.drop 5)) false::
            .send (replyLine "-ERR Authentication failed.")::pop3Commands s [] rs
        else .send (pop3Reply line)::
          if startsNoCase line "QUIT" then []
          else pop3Commands s username rs

/-- `run_pop3_service`. -/
def runPop3Service (s : Session) (results : List RecvResult) : List Action :=
  s.recordConnection .pop3::.send (replyLine "+OK Dovecot ready.")::
    (pop3Commands s [] results++[s.recordDisconnect .pop3,.close])

/-- `imap_strip_crlf`. -/
def imapStripCrlf (str : Bytes) : Bytes := stripCrlf str

/-- The bytes in front of the first occurrence of a byte, and those behind it:
`strchr` on a C string. -/
def splitAtByte (b : Byte) (str : Bytes) : Option (Bytes×Bytes) :=
  if b∈str then
    some (str.takeWhile (fun c => c≠b),(str.dropWhile (fun c => c≠b)).drop 1)
  else none

/-- `imap_parse_login_args` on zeroed arrays of 256 bytes: the user name and
the password. -/
def imapParseLoginArgs (args : Bytes) : Bytes×Bytes :=
  let name :=
    if args.head?=some 34 then
      (splitAtByte 34 (args.drop 1)).map (fun parts => (parts.1,parts.2.dropWhile (fun c => c=32)))
    else splitAtByte 32 args
  match name with
  | none => ([],[])
  | some (username,pwStart) =>
    (username.take 255,
      if pwStart.head?=some 34 then
        match splitAtByte 34 (pwStart.drop 1) with
        | none => []
        | some (password,_) => password.take 255
      else pwStart.take 255)

/-- The IMAP command chain behind `LOGIN`: the reply as its array holds it. -/
def imapReply (cmd tag : Bytes) : Bytes :=
  if startsNoCase cmd "CAPABILITY" then
    (text "* CAPABILITY IMAP4rev1 LITERAL+ SASL-IR LOGIN-REFERRALS "++
      replyLine "ID ENABLE IDLE AUTH=PLAIN AUTH=LOGIN STARTTLS"++tag++
      replyLine " OK CAPABILITY completed").take 511
  else if startsNoCase cmd "LOGOUT" then
    (replyLine "* BYE Dovecot closing connection"++tag++replyLine " OK LOGOUT completed").take 255
  else if startsNoCase cmd "NOOP" then (tag++replyLine " OK NOOP completed").take 127
  else if startsNoCase cmd "STARTTLS" then (tag++replyLine " BAD TLS not available").take 255
  else if startsNoCase cmd "AUTHENTICATE" then
    (tag++replyLine " NO [AUTHENTICATIONFAILED] Authentication failed.").take 255
  else if ["SELECT","EXAMINE","LIST","FETCH","STORE","SEARCH"].any (startsNoCase cmd) then
    (tag++replyLine " BAD Not authenticated").take 255
  else (tag++replyLine " BAD Command not recognized").take 255

/-- The tag of a command line, as its array of 64 bytes holds it. -/
def imapTag (line : Bytes) : Bytes :=
  match splitAtByte 32 line with
  | some (tag,_) => tag.take 63
  | none => text "*"

/-- The part of a command line behind its tag. -/
def imapCommand (line : Bytes) : Bytes :=
  match splitAtByte 32 line with
  | some (_,cmd) => cmd
  | none => line

/-- The IMAP command loop. -/
def imapCommands (s : Session) : List RecvResult → List Action
  | [] => []
  | r::rs =>
    match recv 4095 r with
    | none => []
    | some bytes =>
      let line := imapStripCrlf bytes
      let cmd := imapCommand line
      s.recordCommand .imap line::
        if startsNoCase cmd "LOGIN " then
          let login := imapParseLoginArgs (cmd.drop 6)
          s.recordAuth .imap login.1 (some login.2) false::
            .send ((imapTag line++
              replyLine " NO [AUTHENTICATIONFAILED] Authentication failed.").take 511)::
            imapCommands s rs
        else .send (imapReply cmd (imapTag line))::
          if startsNoCase cmd "LOGOUT" then []
          else imapCommands s rs

/-- `run_imap_service`. -/
def runImapService (s : Session) (results : List RecvResult) : List Action :=
  s.recordConnection .imap::
    .send (text "* OK [CAPABILITY IMAP4rev1 LITERAL+ SASL-IR LOGIN-REFERRALS "++
      replyLine "AUTH=PLAIN] Dovecot ready.")::
    (imapCommands s results++[s.recordDisconnect .imap,.close])

end HoneyDew.MailServices
