import HoneyDew.MysqlDenial
import HoneyDew.PacketStream

/-!
# What a MySQL client reads and what it leaves in the trail

Everything the handler sends is whole packets: the greeting and then one error for every
packet received, numbered two for the login and one more than the client's number for
each packet behind it. The trail has the login and every query in the order of the client.
-/

namespace HoneyDew.MysqlStream

open CText CMemory AuditTrail Connection Service MysqlService MysqlHandshake MysqlDenial PacketStream

/-! ## Every run -/

/-- The packet that an error is. -/
def errorOf (sequence : Byte) (user remoteIp : Bytes) : Packet :=
  ⟨sequence,[255]++(littleEndian 2 1045++([35]++(text "28000"++(denialText user remoteIp).take 255)))⟩

/-- The names that the errors of a session give, with their numbers: for the login, and
for each packet behind it with what the buffer holds then. -/
def turnedAway (memory : Bytes) : List RecvResult → List (Byte×Bytes)
  | [] => []
  | r::rs =>
    match recv 4096 r with
    | none => []
    | some login =>
      let memory' := writeAt memory 0 login
      let username := mysqlUsername memory' login.length
      (2,mysqlUsernameText memory' username)::
        (laterBuffers memory' (laterPackets rs)).map
          (fun buffer => (buffer.getD 3 0+1,mysqlUsernameText buffer username))

/-- An error says that access is denied, with the text for its name. -/
theorem readError_errorOf (sequence : Byte) (user remoteIp : Bytes) :
    readError (errorOf sequence user remoteIp).payload=
      some ⟨1045,text "28000",(denialText user remoteIp).take 255⟩ :=
  readError_append (by decide) (by decide) _

section Stream

variable (s : Session)

/-- An error is sent as its packet. -/
theorem sends_deny (memory : Bytes) (username : Option ℕ) (sequence : Byte) :
    sends (mysqlDeny s memory username sequence)=
      [(errorOf sequence (mysqlUsernameText memory username) s.remoteIp).encode] := by
  have hlength : (text "28000").length=5 := by decide
  have hsign : text "#"=[35] := by decide
  rw [sends_mysqlDeny,mysqlBuildErrorPacket_eq,hsign]
  unfold errorOf Packet.encode
  generalize (denialText (mysqlUsernameText memory username) s.remoteIp).take 255=message
  have hpayload : ([255]++(littleEndian 2 1045++([35]++(text "28000"++message)))).length=
      9+message.length := by
    simp only [List.length_append,List.length_singleton,length_littleEndian,hlength]
    omega
  rw [hpayload]
  simp only [List.append_assoc,List.cons_append,List.nil_append]

/-- The loop sends an error for every packet it receives. -/
theorem sends_queries (username : Option ℕ) (memory : Bytes) (results : List RecvResult) :
    sends (mysqlQueries s username memory results)=
      (laterBuffers memory (laterPackets results)).map (fun buffer =>
        (errorOf (buffer.getD 3 0+1) (mysqlUsernameText buffer username) s.remoteIp).encode) := by
  induction results generalizing memory with
  | nil => rfl
  | cons r rs ih =>
    unfold mysqlQueries laterPackets
    cases recv 4096 r with
    | none => rfl
    | some packet =>
      dsimp only
      rw [sends_append,sends_append,sends_mysqlExtractAndLogQuery,sends_deny,ih]
      rfl

/-- The packets of a session. -/
def packetsOf (connId : ℕ) (salt : MysqlSalt) (sent : ℤ) (memory : Bytes) (results : List RecvResult) :
    List Packet :=
  ⟨0,mysqlGreetingPayload connId salt⟩::(if sent ≤ 0 then [] else turnedAway memory results).map
    (fun denied => errorOf denied.1 denied.2 s.remoteIp)

/-- The greeting and the errors are what is sent. -/
theorem sends_run (connId : ℕ) (salt : MysqlSalt) (sent : ℤ) (memory : Bytes)
    (results : List RecvResult) : sends (runMysqlService s connId salt sent memory results)=
      (packetsOf s connId salt sent memory results).map Packet.encode := by
  have hne := mysqlBuildGreetingPacket_ne_nil connId salt
  have hgreeting : mysqlBuildGreetingPacket connId salt=
      (⟨0,mysqlGreetingPayload connId salt⟩ : Packet).encode := by
    unfold mysqlBuildGreetingPacket at hne ⊢
    dsimp only at hne ⊢
    split at hne
    · exact absurd rfl hne
    · rename_i hfits
      rw [if_neg hfits,List.append_assoc]
      rfl
  have haudit : ∀ (e : AuditEvent) (acts : List Action),sends (.audit e::acts)=sends acts :=
    fun _ _ => rfl
  have hsend : ∀ (bytes : Bytes) (acts : List Action),sends (.send bytes::acts)=bytes::sends acts :=
    fun _ _ => rfl
  have hclose : sends [.close]=[] := rfl
  have hend : sends [.close,s.recordDisconnect .mysql]=[] := rfl
  unfold runMysqlService packetsOf
  dsimp only
  rw [if_neg hne,Session.recordConnection,haudit,hsend,hgreeting,List.map_cons]
  refine congrArg (List.cons _) ?_
  by_cases hsent : sent ≤ 0
  · rw [if_pos hsent,if_pos hsent,hclose]
    rfl
  rw [if_neg hsent,if_neg hsent]
  cases results with
  | nil =>
    rw [hclose]
    rfl
  | cons r rs =>
    rw [turnedAway]
    dsimp only
    cases recv 4096 r with
    | none =>
      dsimp only
      rw [hclose]
      rfl
    | some login =>
      dsimp only
      rw [Session.recordAuth,haudit,sends_append,sends_append,sends_deny,sends_queries,hend,
        List.append_nil,List.map_cons,List.map_cons,List.map_map,List.map_map,List.singleton_append]
      rfl

/-- The packets fit their headers, so that the stream is read back. -/
theorem readStream_run (connId : ℕ) (salt : MysqlSalt) (sent : ℤ) (memory : Bytes)
    (results : List RecvResult) :
    readStream (Service.sent (runMysqlService s connId salt sent memory results))=
      some (packetsOf s connId salt sent memory results) := by
  rw [sent_eq_flatten,sends_run,←List.flatMap_def]
  refine readStream_encode ?_
  intro p hp
  rcases List.mem_cons.mp hp with rfl|hp
  · have hne := mysqlBuildGreetingPacket_ne_nil connId salt
    have hfits : ¬512<(mysqlGreetingPayload connId salt).length+4 := by
      intro hlong
      unfold mysqlBuildGreetingPacket at hne
      exact hne (if_pos hlong)
    dsimp only
    omega
  · obtain ⟨denied,_,rfl⟩ := List.mem_map.mp hp
    have hlength : (text "28000").length=5 := by decide
    have hmessage : ((denialText denied.2 s.remoteIp).take 255).length ≤ 255 := List.length_take_le _ _
    simp only [errorOf,List.length_append,List.length_singleton,length_littleEndian,hlength]
    omega

end Stream

/-- Everything the handler sends, in any run, is whole packets: the greeting with the
number zero and one error for every packet received, the errors numbered two and then one
more than the byte that stands for the number of the packet. Each says the same but for the
name. -/
theorem mysql_stream_packets (s : Session) (connId : ℕ) (salt : MysqlSalt) (sent : ℤ) (memory : Bytes)
    (results : List RecvResult) :
    ∃ answers,readStream (Service.sent (runMysqlService s connId salt sent memory results))=
        some (⟨0,mysqlGreetingPayload connId salt⟩::answers) ∧
      answers.map (fun p => (p.sequence,readError p.payload))=
        (if sent ≤ 0 then [] else turnedAway memory results).map (fun denied =>
          (denied.1,some ⟨1045,text "28000",(denialText denied.2 s.remoteIp).take 255⟩)) := by
  refine ⟨_,readStream_run s connId salt sent memory results,?_⟩
  rw [List.map_map]
  refine List.map_congr_left ?_
  intro denied _
  rw [Function.comp_apply,readError_errorOf]
  rfl

/-! ## A client -/

/-- What a client says behind its login. -/
inductive Command
  /-- A query. -/
  | query (sql : Bytes)
  /-- Another command with what it needs. -/
  | other (code : Byte) (body : Bytes)
  deriving DecidableEq,Repr

/-- The packet of a command, which starts a new exchange. -/
def Command.packet : Command → Packet
  | query sql => ⟨0,3::sql⟩
  | other code body => ⟨0,code::body⟩

/-- What is recorded of a command. -/
def Command.recorded : Command → Option Bytes
  | query sql => if sql=[] then none else some (sql.take 1024)
  | other _ _ => none

/-- A client that answers the greeting. -/
structure Client where
  /-- Its flags, its packet size, its character set and the bytes kept free. -/
  header : Bytes
  /-- Its user. -/
  user : Bytes
  /-- The rest of its answer. -/
  auth : Bytes
  /-- What it says then. -/
  commands : List Command
  deriving DecidableEq,Repr

/-- The answer to the greeting. -/
def Client.login (c : Client) : Packet := ⟨1,c.header++(c.user++0::c.auth)⟩

/-- The receive calls of a handler that the client talks to, one for each packet. -/
def Client.received (c : Client) : List RecvResult :=
  .data c.login.encode::c.commands.map (fun command => .data command.packet.encode)

/-- A client whose packets fit the receive buffer. -/
structure Client.Fits (c : Client) : Prop where
  /-- The bytes in front of the user. -/
  header : c.header.length=32
  /-- The user is a C string. -/
  user : (0 : Byte)∉c.user
  /-- The answer fits. -/
  login : c.login.encode.length ≤ 4096
  /-- The commands fit, and queries have their own code. -/
  commands : ∀ command∈c.commands,command.packet.encode.length ≤ 4096 ∧
    ∀ code body,command=.other code body → code≠3

/-- The user as the handler records it. -/
def Client.name (c : Client) : Bytes := if c.user=[] then text "(unknown)" else c.user

section Clients

variable {s : Session}

/-- A packet comes as it is. -/
theorem recv_encode {p : Packet} (h : p.encode.length ≤ 4096) :
    recv 4096 (.data p.encode)=some p.encode := by
  have hlength := length_encode p
  exact recv_data (List.ne_nil_of_length_pos (by omega)) h

/-- The fourth byte is the number of the packet. -/
theorem sequence_writeAt (memory : Bytes) (p : Packet) :
    (writeAt memory 0 p.encode).getD 3 0=p.sequence := by
  have hlength : (littleEndian 3 p.payload.length).length=3 := length_littleEndian _ _
  rw [writeAt_zero,Packet.encode,List.append_assoc,List.getD_eq_getElem?_getD,
    List.getElem?_append_right (by omega),hlength]
  rfl

/-- What stands behind the header is the payload. -/
theorem drop_writeAt_encode (memory : Bytes) (p : Packet) (n : ℕ) :
    (writeAt memory 0 p.encode).drop (n+4)=(p.payload++memory.drop p.encode.length).drop n := by
  have hlength : (littleEndian 3 p.payload.length).length=3 := length_littleEndian _ _
  have hfour : n+4=(littleEndian 3 p.payload.length).length+(n+1) := by omega
  rw [writeAt_zero]
  generalize memory.drop p.encode.length=behind
  rw [hfour,Packet.encode,List.append_assoc,List.drop_length_add_append,List.cons_append,
    List.drop_succ_cons]

/-- The first byte of the payload. -/
theorem getD_writeAt_encode (memory : Bytes) {p : Packet} {b : Byte} {rest : Bytes}
    (hpayload : p.payload=b::rest) : (writeAt memory 0 p.encode).getD 4 0=b := by
  have hget := congrArg (fun l => l.getD 0 0) (drop_writeAt_encode memory p 0)
  rw [hpayload] at hget
  simpa only [List.getD_eq_getElem?_getD,List.getElem?_drop,Nat.add_zero,Nat.zero_add,List.drop_zero,
    List.cons_append,List.getElem?_cons_zero,Option.getD_some] using hget

/-- Behind a client's login the name is found. -/
theorem name_of_login {c : Client} (hc : c.Fits) (memory : Bytes) :
    mysqlUsernameText (writeAt memory 0 c.login.encode)
      (mysqlUsername (writeAt memory 0 c.login.encode) c.login.encode.length)=c.name := by
  have hheader := hc.header
  have hplace : (writeAt memory 0 c.login.encode).drop 36=
      c.user++0::(c.auth++memory.drop c.login.encode.length) := by
    have hbehind := drop_writeAt_encode memory c.login 32
    rw [Client.login,List.append_assoc,List.drop_left' hheader,List.append_assoc,List.cons_append]
      at hbehind
    exact hbehind
  have hlength : c.login.encode.length=36+(c.user.length+(c.auth.length+1)) := by
    rw [length_encode,Client.login,List.length_append,List.length_append,List.length_cons,hheader]
    omega
  have hextract : mysqlExtractUsername (writeAt memory 0 c.login.encode) c.login.encode.length=
      some 36 := by
    have hread : (0 : Byte)∈readAt (writeAt memory 0 c.login.encode) 36 (c.login.encode.length-36) := by
      rw [readAt,hplace,hlength,Nat.add_sub_cancel_left,List.take_length_add_append,List.take_succ_cons]
      exact List.mem_append_right _ List.mem_cons_self
    rw [mysqlExtractUsername,if_neg (by omega),if_pos hread]
  unfold Client.name
  by_cases huser : c.user=[]
  · have hfirst : (writeAt memory 0 c.login.encode).getD 36 0=0 := by
      have hget := congrArg (fun l => l.getD 0 0) hplace
      rw [huser] at hget
      simpa only [List.getD_eq_getElem?_getD,List.getElem?_drop,Nat.add_zero,List.nil_append,
        List.getElem?_cons_zero,Option.getD_some] using hget
    rw [if_pos huser,mysqlUsername,hextract,Option.filter_some,hfirst]
    rfl
  · rw [if_neg huser,mysqlUsername_of_name hextract hplace hc.user huser,cstr_of_name hplace hc.user]

/-- The packets behind the login are the commands. -/
theorem laterPackets_commands {commands : List Command} {later : List RecvResult}
    (hcommands : ∀ command∈commands,command.packet.encode.length ≤ 4096)
    (hlater : laterPackets later=[]) :
    laterPackets (commands.map (fun command => .data command.packet.encode)++later)=
      commands.map (fun command => command.packet.encode) := by
  induction commands with
  | nil => exact hlater
  | cons command commands ih =>
    rw [List.map_cons,List.cons_append,laterPackets,recv_encode (hcommands command List.mem_cons_self)]
    dsimp only
    rw [ih (fun k hk => hcommands k (List.mem_cons_of_mem _ hk)),List.map_cons]

/-- The numbers of the packets stand in the buffers. -/
theorem sequences_laterBuffers (memory : Bytes) (packets : List Packet) :
    (laterBuffers memory (packets.map Packet.encode)).map (fun buffer => buffer.getD 3 0+1)=
      packets.map (fun p => p.sequence+1) := by
  induction packets generalizing memory with
  | nil => rfl
  | cons p packets ih =>
    rw [List.map_cons,laterBuffers,List.map_cons,List.map_cons,ih,sequence_writeAt]

/-- A query that is not empty is recorded as far as its array reaches. -/
theorem extract_command (memory : Bytes) {command : Command}
    (hother : ∀ code body,command=.other code body → code≠3) :
    mysqlExtractAndLogQuery s (writeAt memory 0 command.packet.encode) command.packet.encode.length=
      command.recorded.toList.map (s.recordCommand .mysql) := by
  have hlength := length_encode command.packet
  unfold mysqlExtractAndLogQuery
  cases command with
  | other code body =>
    have hcode := getD_writeAt_encode memory (p := (Command.other code body).packet) rfl
    rw [hcode]
    split
    · rfl
    · rw [if_neg (fun h => hother code body rfl h.1)]
      rfl
  | query sql =>
    have hcode := getD_writeAt_encode memory (p := (Command.query sql).packet) rfl
    have hfive : (Command.query sql).packet.payload.length=sql.length+1 := rfl
    rw [hcode,if_neg (by omega)]
    have hrecorded : (Command.query sql).recorded=if sql=[] then none else some (sql.take 1024) := rfl
    rw [hrecorded]
    by_cases hsql : sql=[]
    · have hnothing : sql.length=0 := by rw [hsql]; rfl
      rw [if_neg (by omega),if_pos hsql]
      rfl
    · have hsome := List.length_pos_iff.mpr hsql
      have hbehind := drop_writeAt_encode memory (Command.query sql).packet 1
      have hsub : (Command.query sql).packet.encode.length-5=sql.length := by omega
      have hcut : sql.take (min sql.length 1024)=sql.take 1024 := by
        rw [List.take_eq_take_iff]
        omega
      rw [if_pos ⟨rfl,by omega⟩,if_neg hsql,hsub,readAt,hbehind]
      rw [show (Command.query sql).packet.payload=3::sql from rfl,List.cons_append,List.drop_succ_cons,
        List.drop_zero,List.take_append_of_le_length (Nat.min_le_left _ _),hcut]
      rfl

/-- An error leaves nothing in the trail. -/
theorem audits_deny (memory : Bytes) (username : Option ℕ) (sequence : Byte) :
    audits (mysqlDeny s memory username sequence)=[] := by
  unfold mysqlDeny
  dsimp only
  split <;> rfl

/-- Recorded queries are audit events and nothing else. -/
theorem audits_recorded (queries : List Bytes) :
    (audits (queries.map (s.recordCommand .mysql))).map Action.audit=
      queries.map (s.recordCommand .mysql) := by
  induction queries with
  | nil => rfl
  | cons q queries ih => exact congrArg (List.cons _) ih

/-- The commands of a client are recorded in their order. -/
theorem audits_queries (username : Option ℕ) (memory : Bytes) {commands : List Command}
    {later : List RecvResult} (hcommands : ∀ command∈commands,command.packet.encode.length ≤ 4096 ∧
      ∀ code body,command=.other code body → code≠3) (hlater : laterPackets later=[]) :
    (audits (mysqlQueries s username memory
        (commands.map (fun command => .data command.packet.encode)++later))).map Action.audit=
      (commands.filterMap Command.recorded).map (s.recordCommand .mysql) := by
  induction commands generalizing memory with
  | nil =>
    cases later with
    | nil => rfl
    | cons r rs =>
      have hnone : recv 4096 r=none := by
        cases hrecv : recv 4096 r with
        | none => rfl
        | some packet =>
          rw [laterPackets,hrecv] at hlater
          cases hlater
      rw [List.map_nil,List.nil_append,mysqlQueries,hnone]
      rfl
  | cons command commands ih =>
    obtain ⟨hfits,hother⟩ := hcommands command List.mem_cons_self
    have hrest := ih (writeAt memory 0 command.packet.encode)
      (fun k hk => hcommands k (List.mem_cons_of_mem _ hk))
    rw [List.map_cons,List.cons_append,mysqlQueries,recv_encode hfits]
    dsimp only
    rw [audits_append,audits_append,extract_command memory hother,audits_deny,List.nil_append,
      List.map_append,audits_recorded,hrest,←List.map_append]
    congr 1
    cases hrecorded : command.recorded with
    | none => rw [List.filterMap_cons_none hrecorded]; rfl
    | some q => rw [List.filterMap_cons_some hrecorded]; rfl

/-- The actions of a session with a client. -/
theorem run_client (s : Session) (connId : ℕ) (salt : MysqlSalt) {sent : ℤ} (hsent : 0<sent)
    (memory : Bytes) {c : Client} (hc : c.Fits) (later : List RecvResult) :
    let filled := writeAt memory 0 c.login.encode
    let username := mysqlUsername filled c.login.encode.length
    runMysqlService s connId salt sent memory (c.received++later)=
      s.recordConnection .mysql::.send (mysqlBuildGreetingPacket connId salt)::
        s.recordAuth .mysql c.name (some []) false::
          (mysqlDeny s filled username 2++
            (mysqlQueries s username filled
              (c.commands.map (fun command => .data command.packet.encode)++later)++
              [.close,s.recordDisconnect .mysql])) := by
  intro filled username
  have hlogin := recv_encode hc.login
  have hname : mysqlUsernameText filled username=c.name := name_of_login hc memory
  rw [Client.received,List.cons_append]
  unfold runMysqlService
  dsimp only
  rw [if_neg (mysqlBuildGreetingPacket_ne_nil connId salt),if_neg (by omega),hlogin]
  dsimp only
  rw [hname]

/-- The errors that a client gets. -/
theorem turnedAway_client (memory : Bytes) {c : Client} (hc : c.Fits) {later : List RecvResult}
    (hlater : laterPackets later=[]) :
    ∃ behind,turnedAway memory (c.received++later)=(2,c.name)::behind ∧
      behind.map Prod.fst=c.commands.map (fun command => command.packet.sequence+1) := by
  have hfits : ∀ command∈c.commands,command.packet.encode.length ≤ 4096 :=
    fun command hk => (hc.commands command hk).1
  have hpackets : c.commands.map (fun command => command.packet.encode)=
      (c.commands.map Command.packet).map Packet.encode := by
    rw [List.map_map]
    rfl
  rw [Client.received,List.cons_append,turnedAway,recv_encode hc.login]
  dsimp only
  rw [name_of_login hc,laterPackets_commands hfits hlater,hpackets]
  refine ⟨_,rfl,?_⟩
  have hsequences := sequences_laterBuffers (writeAt memory 0 c.login.encode)
    (c.commands.map Command.packet)
  have hcommands : (c.commands.map Command.packet).map (fun p => p.sequence+1)=
      c.commands.map (fun command => command.packet.sequence+1) := by
    rw [List.map_map]
    rfl
  rw [List.map_map,←hcommands]
  exact hsequences

end Clients

/-- A client that answers the greeting and then sends commands, each packet in one receive
call, leaves exactly its login and its queries in the trail, cut to the array, whatever the
buffer held. It is answered packet by packet, with the numbers that the protocol asks for:
its login is turned down by name, and every command with an error that denies access. -/
theorem mysql_records_client (s : Session) (connId : ℕ) (salt : MysqlSalt) {sent : ℤ} (hsent : 0<sent)
    (memory : Bytes) (c : Client) (hc : c.Fits) {later : List RecvResult}
    (hlater : laterPackets later=[]) :
    let acts := runMysqlService s connId salt sent memory (c.received++later)
    (audits acts).map Action.audit=
        [s.recordConnection .mysql,s.recordAuth .mysql c.name (some []) false]++
          (c.commands.filterMap Command.recorded).map (s.recordCommand .mysql)++
          [s.recordDisconnect .mysql] ∧
      ∃ answers,readStream (Service.sent acts)=
          some (⟨0,mysqlGreetingPayload connId salt⟩::errorOf 2 c.name s.remoteIp::answers) ∧
        answers.map (fun p =>
            (p.sequence,(readError p.payload).map (fun e => (e.code,e.state))))=
          c.commands.map (fun command => (command.packet.sequence+1,some (1045,text "28000"))) := by
  intro acts
  constructor
  · have hqueries := audits_queries (s := s)
      (mysqlUsername (writeAt memory 0 c.login.encode) c.login.encode.length)
      (writeAt memory 0 c.login.encode) hc.commands hlater
    have hend : (audits [.close,s.recordDisconnect .mysql]).map Action.audit=
        [s.recordDisconnect .mysql] := rfl
    dsimp only [acts]
    rw [run_client s connId salt hsent memory hc later]
    rw [Session.recordConnection,audits_audit,audits_send,Session.recordAuth,audits_audit,
      audits_append,audits_append,audits_deny,List.nil_append,List.map_cons,List.map_cons,
      List.map_append,hqueries,hend]
    rfl
  · obtain ⟨behind,hbehind,hsequences⟩ := turnedAway_client memory hc hlater
    refine ⟨behind.map (fun denied => errorOf denied.1 denied.2 s.remoteIp),?_,?_⟩
    · dsimp only [acts]
      rw [readStream_run,packetsOf,if_neg (by omega),hbehind,List.map_cons]
    · have hnumbers := congrArg (List.map (fun n => (n,some (1045,text "28000")))) hsequences
      rw [List.map_map,List.map_map] at hnumbers
      rw [List.map_map]
      refine Eq.trans (List.map_congr_left ?_) hnumbers
      intro denied _
      rw [Function.comp_apply,readError_errorOf]
      rfl

/-- A client that asks for the version, sends a ping and then an empty query. -/
def root : Client where
  header := List.replicate 32 1
  user := text "root"
  auth := [20]++List.replicate 20 7
  commands := [.query (text "SELECT VERSION()"),.other 14 [],.query []]

/-- The packets of that client fit. -/
theorem fits_root : root.Fits where
  header := by decide
  user := by decide
  login := by decide
  commands := by
    intro command hk
    simp only [root,List.mem_cons,List.not_mem_nil,or_false] at hk
    obtain rfl|rfl|rfl := hk
    · exact ⟨by decide,nofun⟩
    · refine ⟨by decide,?_⟩
      rintro code body hcommand
      cases hcommand
      decide
    · exact ⟨by decide,nofun⟩

/-- Only the query that says something is recorded, and all three commands are turned down. -/
theorem mysql_records_root :
    let s : Session := ⟨text "10.0.0.9",40000,text "mysql_7_1_2"⟩
    let acts := runMysqlService s 1 someSalt 95 [] (root.received++[])
    (audits acts).map Action.audit=
        [s.recordConnection .mysql,s.recordAuth .mysql (text "root") (some []) false,
          s.recordCommand .mysql (text "SELECT VERSION()"),s.recordDisconnect .mysql] ∧
      ∃ answers,readStream (Service.sent acts)=
          some (⟨0,mysqlGreetingPayload 1 someSalt⟩::errorOf 2 (text "root") (text "10.0.0.9")::answers) ∧
        answers.map (fun p => (p.sequence,(readError p.payload).map (fun e => (e.code,e.state))))=
          [(1,some (1045,text "28000")),(1,some (1045,text "28000")),(1,some (1045,text "28000"))] :=
  mysql_records_client ⟨text "10.0.0.9",40000,text "mysql_7_1_2"⟩ 1 someSalt (by decide) [] root
    fits_root rfl

end HoneyDew.MysqlStream
