import HoneyDew.Service

/-!
# The FTP service

The receive loop collects bytes into a line buffer, whatever segment they come
from, and executes a line at every line feed. A line that ends the session
stops the receive loop only: what the segment holds behind it is still
executed.
-/

namespace HoneyDew.FtpService

open CText CMemory AuditTrail Service

/-- `FTP_BANNER`. -/
def ftpBanner : Bytes := replyLine "220 (vsFTPd 3.0.3)"

/-- `FTP_RESP_LOGIN_OK`. -/
def ftpRespLoginOk : Bytes := replyLine "230 Login successful."

/-- `FTP_RESP_LOGIN_FAIL`. -/
def ftpRespLoginFail : Bytes := replyLine "530 Login incorrect."

/-- `FTP_RESP_NOT_LOGGED_IN`. -/
def ftpRespNotLoggedIn : Bytes := replyLine "530 Please login with USER and PASS."

/-- `FTP_RESP_GOODBYE`. -/
def ftpRespGoodbye : Bytes := replyLine "221 Goodbye."

/-- `FTP_RESP_CWD_OK`. -/
def ftpRespCwdOk : Bytes := replyLine "250 Directory successfully changed."

/-- `FTP_RESP_FEAT`. -/
def ftpRespFeat : Bytes :=
  ["211-Features:"," EPRT"," EPSV"," MDTM"," PASV"," REST STREAM"," SIZE"," TVFS"," UTF8",
    "211 End"].flatMap replyLine

/-- `FTP_FAKE_LIST_DATA`. -/
def ftpFakeListData : Bytes :=
  ["drwxr-xr-x    2 www-data www-data     4096 Jul 05 08:12 .",
    "drwxr-xr-x    3 root     root         4096 Jun 28 14:30 ..",
    "-rw-r--r--    1 www-data www-data  2048576 Jul 04 22:15 backup.sql",
    "-rw-------    1 root     root          487 Jun 15 09:44 .htpasswd",
    "-rw-r--r--    1 www-data www-data     3214 Jul 01 16:33 wp-config.php",
    "-rw-r--r--    1 www-data www-data 15728640 Jul 03 03:00 database_dump.tar.gz",
    "-rw-r--r--    1 www-data www-data      741 Jun 20 11:22 .env",
    "-rwxr-xr-x    1 www-data www-data     1024 Jun 18 07:55 deploy.sh",
    "drwxr-xr-x    5 www-data www-data     4096 Jul 02 19:40 uploads"].flatMap replyLine

/-- The branches of the command chain. -/
inductive FtpVerb
  | user
  | pass
  | quit
  | pwd
  | list
  | cwd
  | cdup
  | type
  | pasv
  | epsv
  | port
  | retr
  | stor
  | dele
  | mkd
  | rmd
  | syst
  | feat
  | size
  | noop
  | site
  | mdtm
  | unknown
  deriving DecidableEq,Repr

/-- The comparisons of the command chain in their order. -/
def ftpVerb (line : Bytes) : FtpVerb :=
  if startsNoCase line "USER " then .user
  else if startsNoCase line "PASS " then .pass
  else if startsNoCase line "QUIT" then .quit
  else if startsNoCase line "PWD" || startsNoCase line "XPWD" then .pwd
  else if startsNoCase line "LIST" || startsNoCase line "NLST" ||
    line.map toUpper=text "LS" || startsNoCase line "ls " then .list
  else if startsNoCase line "CWD " || startsNoCase line "XCWD " then .cwd
  else if startsNoCase line "CDUP" || startsNoCase line "XCUP" then .cdup
  else if startsNoCase line "TYPE " then .type
  else if startsNoCase line "PASV" then .pasv
  else if startsNoCase line "EPSV" then .epsv
  else if startsNoCase line "PORT " then .port
  else if startsNoCase line "RETR " then .retr
  else if startsNoCase line "STOR " then .stor
  else if startsNoCase line "DELE " then .dele
  else if startsNoCase line "MKD " || startsNoCase line "XMKD " then .mkd
  else if startsNoCase line "RMD " || startsNoCase line "XRMD " then .rmd
  else if startsNoCase line "SYST" then .syst
  else if startsNoCase line "FEAT" then .feat
  else if startsNoCase line "SIZE " then .size
  else if startsNoCase line "NOOP" then .noop
  else if startsNoCase line "SITE " then .site
  else if startsNoCase line "MDTM " then .mdtm
  else .unknown

/-- `ftp_session_t`. -/
structure FtpSession where
  /-- `authenticated`. -/
  authenticated : Bool
  /-- `auth_attempts`, an `int` that counts fewer than 2^31 attempts. -/
  authAttempts : ℕ
  /-- `char username[256]`. -/
  username : CharArray 255
  /-- `char password[256]`. -/
  password : CharArray 255
  /-- `char cwd[512]`. -/
  cwd : CharArray 511
  deriving DecidableEq,Repr

/-- The session at the start of `run_ftp_service`. -/
def FtpSession.start : FtpSession :=
  ⟨false,0,.zeroed 255,.zeroed 255,(CharArray.zeroed 511).strncpyInto (text "/")⟩

/-- What one line does. -/
structure FtpAnswer where
  /-- The session behind the line. -/
  sess : FtpSession
  /-- Whether the receive loop goes on. -/
  running : Bool
  /-- The acts of the line. -/
  acts : List Action

/-- `ftp_strip_crlf`. -/
def ftpStripCrlf (str : Bytes) : Bytes := stripCrlf str

/-- `ftp_extract_argument`. -/
def ftpExtractArgument (line : Bytes) (cmdLen : ℕ) : Bytes :=
  if line.length≤cmdLen then [] else (line.drop cmdLen).dropWhile (fun b => b=32)

/-- `ftp_handle_user`. -/
def ftpHandleUser (s : Session) (sess : FtpSession) (line : Bytes) : FtpAnswer :=
  ⟨{sess with
      username := sess.username.strncpyInto (ftpExtractArgument line 4)
      authenticated := false
      password := .zeroed 255},true,
    [s.recordCommand .ftp line,.send (replyLine "331 Please specify the password.")]⟩

/-- `ftp_handle_pass` and the attempt limit behind it. -/
def ftpHandlePass (s : Session) (sess : FtpSession) (line : Bytes) : FtpAnswer :=
  let password := sess.password.strncpyInto (ftpExtractArgument line 4)
  let attempts := sess.authAttempts+1
  let success : Bool := 2≤attempts
  let after : FtpSession := {sess with
    password := password
    authAttempts := attempts
    authenticated := success || sess.authenticated
    cwd := if success then sess.cwd.strncpyInto (text "/var/www/html") else sess.cwd}
  let limit : Bool := 6≤after.authAttempts && !after.authenticated
  ⟨after,!limit,
    [s.recordAuth .ftp sess.username.cstring (some password.cstring) success,
      .send (if success then ftpRespLoginOk else ftpRespLoginFail)]++
    (if limit then [.send ftpRespGoodbye] else [])⟩

/-- The directory that `ftp_handle_cwd` leaves in `cwd`. -/
def ftpChangeDirectory (cwd : CharArray 511) (dir : Bytes) : CharArray 511 :=
  if dir.head?=some 47 then cwd.strncpyInto dir
  else
    let base := if cwd.cstring≠[] ∧ cwd.cstring.getLast?≠some 47 then
      cwd.snprintfInto (cwd.cstring++[47]) else cwd
    base.snprintfInto (base.cstring++dir)

/-- The lines that an authenticated client may send besides the three that
everybody may. -/
def ftpHandleCommand (s : Session) (sess : FtpSession) (line : Bytes) (verb : FtpVerb) :
    FtpSession×List Action :=
  let command := s.recordCommand .ftp line
  match verb with
  | .pwd => (sess,[command,.send ((text "257 "++[34]++sess.cwd.cstring++[34]++
      replyLine " is the current directory").take 599)])
  | .list => (sess,[command,.send (replyLine "150 Here comes the directory listing."),
      .send ftpFakeListData,.send (replyLine "226 Directory send OK.")])
  | .cwd => ({sess with cwd := ftpChangeDirectory sess.cwd (ftpExtractArgument line 3)},
      [command,.send ftpRespCwdOk])
  | .cdup => ({sess with cwd := sess.cwd.strncpyInto (text "/var/www")},
      [command,.send ftpRespCwdOk])
  | .type => (sess,[command,.send (replyLine "200 Switching to Binary mode.")])
  | .pasv => (sess,[command,.send (replyLine "227 Entering Passive Mode (10,0,2,15,39,45).")])
  | .epsv => (sess,[command,.send (replyLine "229 Entering Extended Passive Mode (|||10029|).")])
  | .port => (sess,[command,.send (replyLine "200 PORT command successful.")])
  | .retr => (sess,[s.recordEvent .fileAccess .high .ftp [] (text "RETR "++ftpExtractArgument line 4),
      .send (replyLine "550 Failed to open file.")])
  | .stor => (sess,[s.recordEvent .fileModify .high .ftp [] (text "STOR "++ftpExtractArgument line 4),
      .send (replyLine "226 Transfer complete.")])
  | .dele => (sess,[s.recordEvent .fileModify .high .ftp [] (text "DELE "++ftpExtractArgument line 4),
      .send (replyLine "550 Permission denied.")])
  | .mkd => (sess,[command,
      utilitiesLog (text "[FTP蜜罐] 创建目录尝试: "++[34]++ftpExtractArgument line 3++[34]++s.origin),
      .send (replyLine "550 Permission denied.")])
  | .rmd => (sess,[command,
      utilitiesLog (text "[FTP蜜罐] 删除目录尝试: "++[34]++ftpExtractArgument line 3++[34]++s.origin),
      .send (replyLine "550 Permission denied.")])
  | .syst => (sess,[command,.send (replyLine "215 UNIX Type: L8")])
  | .feat => (sess,[command,.send ftpRespFeat])
  | .size | .mdtm => (sess,[command,.send (replyLine "550 Could not get file size.")])
  | .noop => (sess,[command,.send (replyLine "200 NOOP ok.")])
  | .site | .unknown | .user | .pass | .quit =>
    (sess,[command,.send (replyLine "500 Unknown command.")])

/-- One line of the command chain. -/
def ftpExecute (s : Session) (sess : FtpSession) (line : Bytes) : FtpAnswer :=
  match ftpVerb line with
  | .user => ftpHandleUser s sess line
  | .pass => ftpHandlePass s sess line
  | .quit => ⟨sess,false,[s.recordCommand .ftp line,.send ftpRespGoodbye]⟩
  | verb =>
    if sess.authenticated then
      let done := ftpHandleCommand s sess line verb
      ⟨done.1,true,done.2⟩
    else ⟨sess,true,[s.recordCommand .ftp line,.send ftpRespNotLoggedIn]⟩

/-- The variables of the receive loop. -/
structure FtpLoop where
  /-- `sess`. -/
  sess : FtpSession
  /-- The first `line_len` bytes of `line_buf`. -/
  line : Bytes
  /-- A line and its NUL fit the line buffer. -/
  line_le : line.length≤4095
  /-- `running`. -/
  running : Bool
  deriving DecidableEq,Repr

/-- The variables before the first `recv`. -/
def FtpLoop.start : FtpLoop := ⟨.start,[],Nat.zero_le _,true⟩

/-- One byte of a segment. -/
def ftpByte (s : Session) (loop : FtpLoop) (c : Byte) : FtpLoop×List Action :=
  if c=10 then
    if loop.line=[] then (loop,[])
    else
      let answer := ftpExecute s loop.sess (ftpStripCrlf loop.line)
      (⟨answer.sess,[],Nat.zero_le _,loop.running && answer.running⟩,answer.acts)
  else if h : loop.line.length<4095 then
    ({loop with
      line := loop.line++[c]
      line_le := by
        rw [List.length_append,List.length_singleton]
        omega},[])
  else (loop,[])

/-- The bytes of a segment. -/
def ftpSegment (s : Session) (loop : FtpLoop) : Bytes → FtpLoop×List Action
  | [] => (loop,[])
  | c::cs =>
    let first := ftpByte s loop c
    let rest := ftpSegment s first.1 cs
    (rest.1,first.2++rest.2)

/-- The receive loop over the results of its `recv` calls. -/
def ftpReceive (s : Session) (loop : FtpLoop) : List RecvResult → List Action
  | [] => []
  | r::rs =>
    if loop.running then
      match recv 4095 r with
      | none => []
      | some bytes =>
        let segment := ftpSegment s loop bytes
        segment.2++ftpReceive s segment.1 rs
    else []

/-- `run_ftp_service`. -/
def runFtpService (s : Session) (results : List RecvResult) : List Action :=
  s.recordConnection .ftp::.send ftpBanner::
    (ftpReceive s .start results++[s.recordDisconnect .ftp,.close])

end HoneyDew.FtpService
