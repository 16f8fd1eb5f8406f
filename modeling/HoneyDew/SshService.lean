import HoneyDew.Service

/-!
# The SSH service

The library's calls are the environment: whether its objects come about,
whether the connection is accepted and the keys are exchanged, the messages it
delivers and the bytes its channel gives. Only the last of the handler's exits
records the end of the session.
-/

namespace HoneyDew.SshService

open CText Service

/-- The requests on an open channel that the handler tells apart. -/
inductive SshChannelRequest
  /-- `SSH_CHANNEL_REQUEST_PTY`. -/
  | pty
  /-- `SSH_CHANNEL_REQUEST_SHELL`. -/
  | shell
  /-- `SSH_CHANNEL_REQUEST_ENV`. -/
  | env
  /-- Every other subtype. -/
  | other
  deriving DecidableEq,Repr

/-- A message of `ssh_message_get`. -/
inductive SshMessage
  /-- A password attempt; a null pointer is no text. -/
  | authPassword (user pass : Option Bytes)
  /-- An authentication request with another method. -/
  | authOther
  /-- A request for a session channel, and whether accepting it gives one. -/
  | channelOpen (accepted : Bool)
  /-- A request on a channel. -/
  | channelRequest (request : SshChannelRequest)
  /-- A message of another type. -/
  | other
  deriving DecidableEq,Repr

/-- What the library returns in a run of the handler. -/
structure SshEnvironment where
  /-- `ssh_new` gives a session. -/
  sshNew : Bool
  /-- `ssh_bind_new` gives a bind. -/
  sshBindNew : Bool
  /-- `ssh_bind_accept_fd` returns `SSH_OK`. -/
  acceptFd : Bool
  /-- `ssh_handle_key_exchange` returns `SSH_OK`. -/
  keyExchange : Bool
  /-- The messages before the first null pointer. -/
  messages : List SshMessage
  /-- The results of `ssh_channel_read` while the channel is open and not at
  its end. -/
  reads : List RecvResult
  deriving DecidableEq,Repr

/-- One visible act of the handler. -/
inductive SshAction
  /-- An act that has nothing to do with the library. -/
  | act (a : Action)
  /-- `ssh_message_auth_reply_success`. -/
  | authReplySuccess
  /-- `ssh_message_auth_set_methods` with the password method. -/
  | authSetMethods
  /-- `ssh_message_reply_default` to a message. -/
  | replyDefault (m : SshMessage)
  /-- `ssh_message_channel_request_open_reply_accept`. -/
  | openReplyAccept
  /-- `ssh_message_channel_request_reply_success`. -/
  | requestReplySuccess
  /-- `ssh_channel_write`. -/
  | channelWrite (bytes : Bytes)
  /-- `ssh_disconnect`. -/
  | disconnect
  deriving DecidableEq,Repr

/-- The acts that have nothing to do with the library. -/
def plainActs (actions : List SshAction) : List Action :=
  actions.filterMap (fun | .act a => some a | _ => none)

/-- `SSH_HONEYPOT_SHELL_PROMPT`. -/
def sshShellPrompt : Bytes := text "root@honeydew:~# "

/-- `SSH_HONEYPOT_MOTD`. -/
def sshMotd : Bytes :=
  ["Welcome to Ubuntu 22.04.3 LTS (GNU/Linux 5.15.0-91-generic x86_64)","",
    " * Documentation:  https://help.ubuntu.com"," * Management:     https://landscape.canonical.com",
    " * Support:        https://ubuntu.com/pro","",
    "System information as of Sun Jul  6 14:23:01 UTC 2026","",
    "  System load:  0.08       Processes:           142",
    "  Usage of /:   34.2%      Users logged in:     1",
    "  Memory usage: 62%        IPv4 address for eth0: 10.0.2.15","  Swap usage:   0%","",
    "Last login: Sun Jul  6 12:45:33 2026 from 203.0.113.42"].flatMap replyLine

/-- The texts that `fake_command_response` looks for, in its order. -/
def sshAnswers : List (List String×Bytes) :=
  [(["whoami"],replyLine "root"),
    (["id"],replyLine "uid=0(root) gid=0(root) groups=0(root)"),
    (["uname"],replyLine "Linux honeydew 5.15.0-91-generic #101-Ubuntu SMP x86_64"),
    (["pwd"],replyLine "/root"),
    (["ls"],replyLine "Desktop  Documents  Downloads  .bash_history  .ssh"),
    (["cat /etc/passwd"],
      ["root:x:0:0:root:/root:/bin/bash","daemon:x:1:1:daemon:/usr/sbin:/usr/sbin/nologin",
        "www-data:x:33:33:www-data:/var/www:/usr/sbin/nologin"].flatMap replyLine),
    (["cat /etc/shadow"],replyLine "cat: /etc/shadow: Permission denied"),
    (["ifconfig","ip addr"],
      ["eth0: inet 10.0.2.15/24 brd 10.0.2.255","lo: inet 127.0.0.1/8"].flatMap replyLine),
    (["ps"],
      ["  PID TTY          TIME CMD","    1 ?        00:00:01 systemd",
        "  512 ?        00:00:00 sshd"," 1024 pts/0    00:00:00 bash"].flatMap replyLine)]

/-- `fake_command_response`: nothing where it returns a null pointer. -/
def fakeCommandResponse (cmd : Bytes) : Option Bytes :=
  match cannedAnswer sshAnswers cmd with
  | some response => some response
  | none =>
    if mentions cmd "exit" || mentions cmd "logout" then none
    else some (replyLine "bash: command not found")

/-- The authentication loop behind so many attempts: its acts and, if the
client is let in, the messages left. -/
def sshAuthenticate (s : Session) : ℕ → List SshMessage → List SshAction×Option (List SshMessage)
  | _,[] => ([],none)
  | attempts,.authPassword user pass::messages =>
    let success : Bool := 3≤attempts+1
    let recorded := s.recordAuth .ssh (user.getD []) (some (pass.getD [])) success
    if success then ([.act recorded,.authReplySuccess],some messages)
    else
      let rest := sshAuthenticate s (attempts+1) messages
      (.act recorded::.replyDefault (.authPassword user pass)::rest.1,rest.2)
  | attempts,.authOther::messages =>
    let rest := sshAuthenticate s attempts messages
    (.authSetMethods::.replyDefault .authOther::rest.1,rest.2)
  | attempts,m::messages =>
    let rest := sshAuthenticate s attempts messages
    (.replyDefault m::rest.1,rest.2)

/-- The channel loop; the flag tells whether the last accepting call gave a
channel. The second result tells whether a shell stands on a channel. -/
def sshOpenShell : Bool → List SshMessage → List SshAction×Bool
  | _,[] => ([],false)
  | _,.channelOpen accepted::messages =>
    let rest := sshOpenShell accepted messages
    (.openReplyAccept::rest.1,rest.2)
  | true,.channelRequest request::messages =>
    match request with
    | .shell => ([.requestReplySuccess],true)
    | .pty | .env =>
      let rest := sshOpenShell true messages
      (.requestReplySuccess::rest.1,rest.2)
    | .other =>
      let rest := sshOpenShell true messages
      (.replyDefault (.channelRequest .other)::rest.1,rest.2)
  | channel,m::messages =>
    let rest := sshOpenShell channel messages
    (.replyDefault m::rest.1,rest.2)

/-- The first `cmd_len` bytes of `cmd_buf`; nothing once the client has left
the shell. -/
abbrev SshLine := Option Bytes

/-- One byte from the channel. -/
def sshByte (s : Session) (line : Bytes) (c : Byte) : SshLine×List SshAction :=
  if c=13 ∨ c=10 then
    if line=[] then (some [],[.channelWrite crlf,.channelWrite sshShellPrompt])
    else
      let recorded := s.recordCommand .ssh (cstr line)
      match fakeCommandResponse (cstr line) with
      | none => (none,[.channelWrite crlf,.act recorded])
      | some response =>
        (some [],[.channelWrite crlf,.act recorded,.channelWrite response,
          .channelWrite sshShellPrompt])
  else if c=127 ∨ c=8 then
    if line=[] then (some [],[]) else (some line.dropLast,[.channelWrite [8,32,8]])
  else if c=3 then
    (some [],[.channelWrite (text "^C"++crlf),.channelWrite sshShellPrompt])
  else if line.length<1023 then (some (line++[c]),[.channelWrite [c]])
  else (some line,[])

/-- The bytes of one read. -/
def sshBytes (s : Session) (line : Bytes) : Bytes → SshLine×List SshAction
  | [] => (some line,[])
  | c::cs =>
    let first := sshByte s line c
    match first.1 with
    | none => (none,first.2)
    | some line' =>
      let rest := sshBytes s line' cs
      (rest.1,first.2++rest.2)

/-- The shell loop. -/
def sshShell (s : Session) (line : Bytes) : List RecvResult → List SshAction
  | [] => []
  | r::rs =>
    match recv 255 r with
    | none => []
    | some bytes =>
      let chunk := sshBytes s line bytes
      match chunk.1 with
      | none => chunk.2
      | some line' => chunk.2++sshShell s line' rs

/-- `run_ssh_service`. -/
def runSshService (s : Session) (env : SshEnvironment) : List SshAction :=
  .act (s.recordConnection .ssh)::
    if env.sshNew=false then [.act .close]
    else if env.sshBindNew=false then [.act .close]
    else if env.acceptFd=false then [.act .close]
    else if env.keyExchange=false then [.disconnect]
    else
      let login := sshAuthenticate s 0 env.messages
      match login.2 with
      | none => login.1++[.disconnect]
      | some messages =>
        let channel := sshOpenShell false messages
        if channel.2 then
          login.1++channel.1++[.channelWrite sshMotd,.channelWrite sshShellPrompt]++
            sshShell s [] env.reads++[.disconnect,.act (s.recordDisconnect .ssh)]
        else login.1++channel.1++[.disconnect]

/-- The library has set the session up and the keys are exchanged. -/
def SshEnvironment.Ready (env : SshEnvironment) : Prop :=
  env.sshNew=true ∧ env.sshBindNew=true ∧ env.acceptFd=true ∧ env.keyExchange=true

/-- The exits of the handler: before the keys are exchanged, without a login, without
a shell, and behind the shell. -/
theorem runSshService_exits (s : Session) (env : SshEnvironment) :
    (¬env.Ready ∧ ∃ last,(last=.act .close ∨ last=.disconnect) ∧
      runSshService s env=[.act (s.recordConnection .ssh),last]) ∨
    (env.Ready ∧ (sshAuthenticate s 0 env.messages).2=none ∧
      runSshService s env=.act (s.recordConnection .ssh)::
        ((sshAuthenticate s 0 env.messages).1++[.disconnect])) ∨
    (env.Ready ∧ ∃ messages,(sshAuthenticate s 0 env.messages).2=some messages ∧
      (sshOpenShell false messages).2=false ∧
      runSshService s env=.act (s.recordConnection .ssh)::
        ((sshAuthenticate s 0 env.messages).1++(sshOpenShell false messages).1++[.disconnect])) ∨
    (env.Ready ∧ ∃ messages,(sshAuthenticate s 0 env.messages).2=some messages ∧
      (sshOpenShell false messages).2=true ∧
      runSshService s env=.act (s.recordConnection .ssh)::
        ((sshAuthenticate s 0 env.messages).1++(sshOpenShell false messages).1++
          [.channelWrite sshMotd,.channelWrite sshShellPrompt]++sshShell s [] env.reads++
          [.disconnect,.act (s.recordDisconnect .ssh)])) := by
  unfold runSshService SshEnvironment.Ready
  by_cases hnew : env.sshNew=false
  · rw [if_pos hnew,hnew]
    exact Or.inl ⟨by simp,_,Or.inl rfl,rfl⟩
  by_cases hbind : env.sshBindNew=false
  · rw [if_neg hnew,if_pos hbind,hbind]
    exact Or.inl ⟨by simp,_,Or.inl rfl,rfl⟩
  by_cases haccept : env.acceptFd=false
  · rw [if_neg hnew,if_neg hbind,if_pos haccept,haccept]
    exact Or.inl ⟨by simp,_,Or.inl rfl,rfl⟩
  by_cases hkey : env.keyExchange=false
  · rw [if_neg hnew,if_neg hbind,if_neg haccept,if_pos hkey,hkey]
    exact Or.inl ⟨by simp,_,Or.inr rfl,rfl⟩
  rw [if_neg hnew,if_neg hbind,if_neg haccept,if_neg hkey]
  rw [Bool.not_eq_false] at hnew hbind haccept hkey
  have hready := And.intro hnew (And.intro hbind (And.intro haccept hkey))
  dsimp only
  cases hauth : (sshAuthenticate s 0 env.messages).2 with
  | none => exact Or.inr (Or.inl ⟨hready,rfl,rfl⟩)
  | some messages =>
    dsimp only
    cases hopen : (sshOpenShell false messages).2 with
    | false =>
      rw [if_neg Bool.false_ne_true]
      exact Or.inr (Or.inr (Or.inl ⟨hready,messages,rfl,hopen,rfl⟩))
    | true =>
      rw [if_pos rfl]
      exact Or.inr (Or.inr (Or.inr ⟨hready,messages,rfl,hopen,rfl⟩))

end HoneyDew.SshService
