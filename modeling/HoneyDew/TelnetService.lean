import HoneyDew.Service

/-!
# The Telnet service

One receive call is taken for one line: its bytes are freed from the Telnet
commands among them and from the line breaks at the end. Two attempts to log in
are recorded, then the client stands in a shell with canned answers.
-/

namespace HoneyDew.TelnetService

open CText CMemory Service

/-- `TELNET_BANNER`. -/
def telnetBanner : Bytes := replyLine ""++replyLine "Ubuntu 22.04.3 LTS"++text "honeydew login: "

/-- `TELNET_SHELL_PROMPT`. -/
def telnetShellPrompt : Bytes := text "root@honeydew:~# "

/-- `TELNET_MOTD`. -/
def telnetMotd : Bytes :=
  ["","Welcome to Ubuntu 22.04.3 LTS (GNU/Linux 5.15.0-91-generic x86_64)","","",
    "BusyBox v1.35.0 (Ubuntu 1:1.35.0-4ubuntu1) built-in shell (ash)",
    "Enter 'help' for a list of built-in commands.",""].flatMap replyLine

/-- What a client reads when its attempt is turned away. -/
def telnetLoginIncorrect : Bytes := replyLine ""++replyLine "Login incorrect"

/-- `iac_will_echo`. -/
def iacWillEcho : Bytes := [0xFF,0xFB,0x01]

/-- `iac_wont_echo`. -/
def iacWontEcho : Bytes := [0xFF,0xFC,0x01]

/-- The loop of `telnet_strip_iac` with room for so many more bytes; the flag
tells whether the inner loop skips a sub-negotiation. -/
def telnetStripFrom : Bool → ℕ → Bytes → Bytes
  | _,_,[] => []
  | true,room,b::rest =>
    match rest with
    | next::rest' =>
      if b=0xFF ∧ next=0xF0 then telnetStripFrom false room rest'
      else telnetStripFrom true room (next::rest')
    | [] => []
  | false,room,b::rest =>
    match room with
    | 0 => []
    | room+1 =>
      match rest with
      | cmd::rest' =>
        if b=0xFF then
          if cmd=0xFA then telnetStripFrom true (room+1) rest'
          else if 0xFB≤cmd ∧ cmd≤0xFE then
            match rest' with
            | [] => []
            | _::rest'' => telnetStripFrom false (room+1) rest''
          else if cmd=0xFF then 0xFF::telnetStripFrom false room rest'
          else telnetStripFrom false (room+1) rest'
        else b::telnetStripFrom false room (cmd::rest')
      | [] => [b]

/-- `telnet_strip_iac`: the bytes written in front of the NUL. -/
def telnetStripIac (src : Bytes) (dstCap : ℕ) : Bytes := telnetStripFrom false (dstCap-1) src

/-- `telnet_strip_crlf`. -/
def telnetStripCrlf (str : Bytes) : Bytes := stripCrlf str

/-- `telnet_read_line` into `line_buf`: the line, if the connection gives one,
and the results of the later calls. -/
def telnetReadLine : List RecvResult → Option Bytes×List RecvResult
  | [] => (none,[])
  | r::rs => ((recv 4095 r).map (fun raw => telnetStripCrlf (telnetStripIac raw 1024)),rs)

/-- What `telnet_fake_response` looks for before it looks for a download. -/
def telnetAnswers : List (List String×Bytes) :=
  [(["whoami"],replyLine "root"),
    (["id"],replyLine "uid=0(root) gid=0(root) groups=0(root)"),
    (["uname"],text "Linux honeydew 5.15.0-91-generic "++
      text "#101-Ubuntu SMP Tue Nov 14 13:30:08 UTC 2023 x86_64 "++
      replyLine "x86_64 x86_64 GNU/Linux"),
    (["pwd"],replyLine "/root"),
    (["cat /etc/passwd"],
      ["root:x:0:0:root:/root:/bin/bash","daemon:x:1:1:daemon:/usr/sbin:/usr/sbin/nologin",
        "bin:x:2:2:bin:/bin:/usr/sbin/nologin","sys:x:3:3:sys:/dev:/usr/sbin/nologin",
        "www-data:x:33:33:www-data:/var/www:/usr/sbin/nologin",
        "nobody:x:65534:65534:nobody:/nonexistent:/usr/sbin/nologin",
        "sshd:x:110:65534::/run/sshd:/usr/sbin/nologin"].flatMap replyLine),
    (["cat /etc/shadow"],replyLine "cat: /etc/shadow: Permission denied"),
    (["ls"],replyLine "Desktop  Documents  Downloads  .bash_history  .ssh"),
    (["ps"],
      ["  PID TTY          TIME CMD","    1 ?        00:00:01 systemd",
        "  234 ?        00:00:00 telnetd","  512 ?        00:00:00 sshd",
        "  789 ?        00:00:00 cron"," 1024 pts/0    00:00:00 bash",
        " 1337 pts/0    00:00:00 ps"].flatMap replyLine),
    (["ifconfig","ip addr"],
      ["eth0: flags=4163<UP,BROADCAST,RUNNING,MULTICAST>  mtu 1500",
        "        inet 10.0.2.15  netmask 255.255.255.0  broadcast 10.0.2.255",
        "        inet6 fe80::a00:27ff:fe8d:c04d  prefixlen 64  scopeid 0x20<link>",
        "        ether 08:00:27:8d:c0:4d  txqueuelen 1000  (Ethernet)","",
        "lo: flags=73<UP,LOOPBACK,RUNNING>  mtu 65536","        inet 127.0.0.1  netmask 255.0.0.0",
        "        inet6 ::1  prefixlen 128  scopeid 0x10<host>"].flatMap replyLine)]

/-- What `telnet_fake_response` looks for afterwards. -/
def telnetLaterAnswers : List (List String×Bytes) :=
  [(["help"],
      ["Built-in commands:","  cat cd cp echo exit help id ifconfig kill ls mkdir",
        "  mv ping ps pwd rm rmdir sh uname wget whoami"].flatMap replyLine),
    (["cd"],[]),
    (["hostname"],replyLine "honeydew"),
    (["uptime"],
      replyLine " 14:23:01 up 42 days,  3:17,  1 user,  load average: 0.08, 0.03, 0.01")]

/-- `telnet_fake_response`: the download warning and the answer, which is
missing where the function returns a null pointer. -/
def telnetFakeResponse (s : Session) (cmd : Bytes) : List Action×Option Bytes :=
  match cannedAnswer telnetAnswers cmd with
  | some response => ([],some response)
  | none =>
    if mentions cmd "wget" || mentions cmd "curl" then
      (match strstr cmd (text "http") with
        | some i =>
          [utilitiesLog (text "[Telnet蜜罐] 检测到下载尝试: URL="++[34]++cstr (cmd.drop i)++[34]++s.origin)]
        | none => [],
        some (if mentions cmd "wget" then
            replyLine "Connecting to remote host... Connection refused"
          else replyLine "curl: (7) Failed to connect to remote host: Connection refused"))
    else match cannedAnswer telnetLaterAnswers cmd with
      | some response => ([],some response)
      | none =>
        if mentions cmd "exit" || mentions cmd "logout" then ([],none)
        else ([],some (replyLine "sh: command not found"))

/-- The shell loop. -/
def telnetShell (s : Session) : List RecvResult → List Action
  | [] => [.send telnetShellPrompt]
  | r::rs =>
    .send telnetShellPrompt::
      match (telnetReadLine (r::rs)).1 with
      | none => []
      | some line =>
        if line=[] then telnetShell s rs
        else s.recordCommand .telnet line::
          ((telnetFakeResponse s line).1++
            match (telnetFakeResponse s line).2 with
            | none => []
            | some response =>
              (if response=[] then [] else [.send response])++telnetShell s rs)

/-- The login loop with so many attempts left, then the shell. -/
def telnetLogin (s : Session) : ℕ → List RecvResult → List Action
  | 0,results => .send telnetMotd::telnetShell s results
  | k+1,results =>
    (if k=1 then [.send telnetBanner]
      else [.send telnetLoginIncorrect,.send (text "honeydew login: ")])++
    match telnetReadLine results with
    | (none,_) => []
    | (some username,afterName) =>
      [.send iacWillEcho,.send (text "Password: ")]++
      match telnetReadLine afterName with
      | (none,_) => [.send iacWontEcho,.send crlf]
      | (some password,afterPassword) =>
        [.send iacWontEcho,.send crlf,
          s.recordAuth .telnet (username.take 255) (some (password.take 255)) false]++
        telnetLogin s k afterPassword

/-- `run_telnet_service`. -/
def runTelnetService (s : Session) (results : List RecvResult) : List Action :=
  s.recordConnection .telnet::(telnetLogin s 2 results++[s.recordDisconnect .telnet,.close])

end HoneyDew.TelnetService
