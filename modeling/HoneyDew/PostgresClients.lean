import HoneyDew.PostgresParameters
import HoneyDew.PostgresStreams

/-!
# Clients of the PostgreSQL protocol

A client asks for encryption or not, names its parameters and answers the challenge. On
each such client both services come to the same record: the first user name and the answer,
each cut to its array. QuestDB then hears every later message in its order.
-/

namespace HoneyDew.PostgresClients

open CText CMemory AuditTrail Service PostgresWire PostgresServices PostgresMessages PostgresParameters

/-- What a client logs in with. -/
structure Client where
  /-- Whether it asks for encryption first. -/
  encrypted : Bool
  /-- The names and values of its start-up message. -/
  parameters : List (Bytes×Bytes)
  /-- Its answer to the challenge. -/
  password : Bytes
  deriving DecidableEq,Repr

/-- The request for encryption. -/
def sslRequest : Bytes := lengthBytes 8++lengthBytes 80877103

namespace Client

/-- The start-up message of the third protocol version. -/
def startupMessage (c : Client) : Bytes :=
  lengthBytes (8+(encodeParameters c.parameters true).length)++lengthBytes 196608++
    encodeParameters c.parameters true

/-- The message with the answer to the challenge. -/
def answerMessage (c : Client) : Bytes := frame 112 (c.password++[0])

/-- The first receive calls of a service that the client talks to. -/
def opening (c : Client) : List RecvResult :=
  if c.encrypted then [.data sslRequest,.data c.startupMessage] else [.data c.startupMessage]

/-- The receive calls up to the answer. -/
def login (c : Client) : List RecvResult := c.opening++[.data c.answerMessage]

/-- The user name that is recorded. -/
def user (c : Client) : Bytes := ((userOf c.parameters).getD []).take 255

/-- A client whose messages fit the receive buffer. -/
structure Fits (c : Client) : Prop where
  /-- Its parameters can be sent. -/
  sendable : ∀ parameter∈c.parameters,Sendable parameter
  /-- The start-up message fits. -/
  startup : c.startupMessage.length≤4096
  /-- The answer is a C string. -/
  password : (0 : Byte)∉c.password
  /-- The message with it fits. -/
  answer : c.answerMessage.length≤4096

/-- The act that declines encryption. -/
def declines (c : Client) : List Action := if c.encrypted then [.send (text "N")] else []

end Client

section Login

variable {c : Client} {memory : Bytes}

/-- A start-up message is longer than its header. -/
theorem length_startupMessage (c : Client) : 8<c.startupMessage.length := by
  unfold Client.startupMessage encodeParameters terminator
  simp [lengthBytes]

/-- The version of a start-up message. -/
theorem version_startupMessage (c : Client) : readBigEndian32 c.startupMessage 4=196608 := by
  have hversion : lengthBytes 196608=[0,3,0,0] := by decide
  unfold Client.startupMessage
  rw [hversion]
  generalize 8+(encodeParameters c.parameters true).length=n
  unfold lengthBytes readBigEndian32
  simp

/-- The test of the version takes the message. -/
theorem checkVersion_startupMessage (c : Client) (memory : Bytes) (n : ℕ) (later : List RecvResult) :
    checkVersion (writeAt memory 0 c.startupMessage) n later=
      ([],.accepted (writeAt memory 0 c.startupMessage) n later) := by
  have hlong := length_startupMessage c
  unfold checkVersion
  rw [readBigEndian32_writeAt memory (by omega),version_startupMessage,if_pos rfl]

/-- The start-up phase ends with the start-up message at the front of the buffer. -/
theorem startup_opening (hc : c.Fits) (memory : Bytes) (later : List RecvResult) :
    ∃ behind,startup memory (c.opening++later)=
      (c.declines,.accepted (c.startupMessage++behind) c.startupMessage.length later) := by
  have hlong := length_startupMessage c
  have hne : c.startupMessage≠[] := by
    intro hnil
    rw [hnil] at hlong
    exact absurd hlong (by decide)
  have hmessage := recv_data hne hc.startup
  have hversion := version_startupMessage c
  unfold Client.opening Client.declines
  cases c.encrypted with
  | false =>
    refine ⟨memory.drop c.startupMessage.length,?_⟩
    rw [← writeAt_zero,if_neg Bool.false_ne_true,if_neg Bool.false_ne_true,List.singleton_append,
      startup,recvInto_some hmessage]
    dsimp only
    rw [if_neg (by omega),readBigEndian32_writeAt memory (by omega),hversion,if_neg (by decide),
      checkVersion_startupMessage]
  | true =>
    have hrequest : recv 4096 (.data sslRequest)=some sslRequest := by decide
    have hcode : readBigEndian32 sslRequest 4=80877103 := by decide
    refine ⟨(writeAt memory 0 sslRequest).drop c.startupMessage.length,?_⟩
    rw [← writeAt_zero,if_pos rfl,if_pos rfl,List.cons_append,List.singleton_append,startup,
      recvInto_some hrequest]
    dsimp only
    rw [if_neg (by decide),readBigEndian32_writeAt memory (by decide),hcode,if_pos rfl,
      recvInto_some hmessage]
    dsimp only
    rw [if_neg (by omega),checkVersion_startupMessage]

/-- The parser finds the first user name of the client. -/
theorem parse_opening (hc : c.Fits) (behind : Bytes) :
    (parseStartupUsername (c.startupMessage++behind) c.startupMessage.length).getD []=c.user := by
  have hheader : (lengthBytes (8+(encodeParameters c.parameters true).length)++
      lengthBytes 196608).length=8 := rfl
  have hparse := parseStartupUsername_encode true behind hheader hc.sendable
  rw [Client.startupMessage,hparse,Client.user]
  cases userOf c.parameters with
  | none => rfl
  | some value => rfl

/-- The answer is taken up to the array. -/
theorem passwordMessage_answer (hc : c.Fits) (later : List RecvResult) :
    passwordMessage (.data c.answerMessage::later)=some (c.password.take 255,later) := by
  have hlong : 5<c.answerMessage.length := by
    rw [Client.answerMessage,length_frame,List.length_append,List.length_singleton]
    omega
  have hne : c.answerMessage≠[] := List.length_pos_iff.mp (by omega)
  have hbehind : c.answerMessage.drop 5=c.password++0::[] := rfl
  rw [passwordMessage,recv_data hne hc.answer,Option.bind_some,if_pos ⟨hlong,rfl⟩,hbehind,
    cstr_terminated hc.password]

end Login

/-- The error that turns a user away. -/
def deniedMessage (user : Bytes) : Bytes :=
  text "password authentication failed for user "++[34]++user++[34]

/-- A denial with a message of at most 297 bytes fits the array for the packet. -/
theorem length_errorResponse {message : Bytes} (h : message.length≤297) :
    (errorResponse "FATAL" "28P01" message).length≤512 := by
  have hfatal : (text "FATAL").length=5 := by decide
  have hcode : (text "28P01").length=5 := by decide
  have hbytes : (text "S").length=1 ∧ (text "V").length=1 ∧ (text "C").length=1 ∧
      (text "M").length=1 ∧ (text "E").length=1 := by decide
  have hlength : ∀ n,(bigEndian32 n).length=4 := fun n => rfl
  unfold errorResponse
  dsimp only
  simp only [List.length_append,List.length_singleton,hlength,hfatal,hcode,hbytes]
  omega

/-- The PostgreSQL service records every client that logs in: with the first user name
sent and the answer, each cut to its array, whatever stood in the buffer before. The
denial names that user in full and fits the 512 bytes of its packet. -/
theorem postgresql_records_client (s : Session) (salt memory : Bytes) (c : Client)
    (later : List RecvResult) (hc : c.Fits) :
    runPostgresqlService s salt memory (c.login++later)=
      s.recordConnection .postgresql::(c.declines++[.send (authMd5 salt),
        s.recordAuth .postgresql c.user (some (c.password.take 255)) false,
        .send (errorResponse "FATAL" "28P01" (deniedMessage c.user)),
        s.recordDisconnect .postgresql,.close]) ∧
      (errorResponse "FATAL" "28P01" (deniedMessage c.user)).length≤512 := by
  obtain ⟨behind,hstartup⟩ := startup_opening hc memory (.data c.answerMessage::later)
  have hlength : (deniedMessage c.user).length≤297 := by
    have huser : c.user.length≤255 := List.length_take_le _ _
    have htext : (text "password authentication failed for user ").length=40 := by decide
    unfold deniedMessage
    simp only [List.length_append,List.length_singleton,htext]
    omega
  have hdenied : (deniedMessage c.user).take 511=deniedMessage c.user :=
    List.take_of_length_le (by omega)
  refine ⟨?_,length_errorResponse hlength⟩
  rw [Client.login,List.append_assoc,List.singleton_append,runPostgresqlService,hstartup]
  dsimp only
  rw [passwordMessage_answer hc,pgParseStartupUsername,parse_opening hc]
  dsimp only
  rw [← deniedMessage,hdenied,List.append_assoc]
  rfl

/-- A client that asks for encryption and names its database before its user. -/
def amy : Client :=
  ⟨true,[(text "database",text "user"),(text "user",text "amy")],text "md5a1"⟩

/-- The messages of that client fit. -/
theorem fits_amy : amy.Fits := by
  have hparameters : ∀ parameter∈amy.parameters,Sendable parameter := by
    intro parameter hmem
    simp only [amy,List.mem_cons,List.not_mem_nil,or_false] at hmem
    rcases hmem with hdatabase|huser
    · rw [hdatabase]
      exact ⟨by decide,by decide,by decide⟩
    · rw [huser]
      exact ⟨by decide,by decide,by decide⟩
  exact ⟨hparameters,by decide,by decide,by decide⟩

/-- A database called user is not taken for the user. -/
theorem postgresql_records_amy :
    runPostgresqlService ⟨text "203.0.113.9",5432,text "pg_7_1_2"⟩ [1,2,3,4] [] (amy.login++[])=
      Session.recordConnection ⟨text "203.0.113.9",5432,text "pg_7_1_2"⟩ .postgresql::
        (amy.declines++[.send (authMd5 [1,2,3,4]),
          Session.recordAuth ⟨text "203.0.113.9",5432,text "pg_7_1_2"⟩ .postgresql amy.user
            (some (amy.password.take 255)) false,
          .send (errorResponse "FATAL" "28P01" (deniedMessage amy.user)),
          Session.recordDisconnect ⟨text "203.0.113.9",5432,text "pg_7_1_2"⟩ .postgresql,.close]) ∧
      amy.user=text "amy" :=
  ⟨(postgresql_records_client _ _ _ amy [] fits_amy).1,by decide⟩

/-! ## Requests to QuestDB -/

/-- A message behind the login. -/
inductive Request
  /-- A query. -/
  | query (sql : Bytes)
  /-- A statement to be parsed. -/
  | parse (body : Bytes)
  /-- A message of another type. -/
  | other (type : Byte) (body : Bytes)
  deriving DecidableEq,Repr

namespace Request

/-- The bytes of a request. -/
def encode : Request → Bytes
  | query sql => frame 81 (sql++[0])
  | parse body => frame 80 body
  | other type body => frame type body

/-- A request that fits the receive buffer. -/
structure Fits (r : Request) : Prop where
  /-- Its bytes fit. -/
  size : r.encode.length≤4096
  /-- A query is a C string. -/
  query : ∀ sql,r=.query sql → (0 : Byte)∉sql
  /-- The other types are none of those that the loop knows. -/
  other : ∀ type body,r=.other type body → type≠81 ∧ type≠88 ∧ type≠80

/-- What a request makes the service do. -/
def acts (s : Session) : Request → List Action
  | query sql =>
    s.recordCommand .questdb (stripCrlf sql)::(qdbAnswer (stripCrlf sql)++[.send qdbReadyForQuery])
  | parse _ => [.send (text "1"++bigEndian32 4)]
  | other _ _ => []

/-- The text of a request that is a query. -/
def sql? : Request → Option Bytes
  | query sql => some sql
  | _ => none

end Request

/-- The message that asks for the end of a session. -/
def terminate : Bytes := frame 88 []

/-- What follows the requests ends the session: a message that starts with `X`, a
`recv` call that fails, or the end of the stream. -/
def EndsSession (later : List RecvResult) : Prop :=
  ∀ r∈later.head?,∀ bytes∈recv 4096 r,bytes.head?=some 88

section Requests

variable (s : Session)

/-- The text of a query that fits. -/
theorem qdbSql_encode {sql : Bytes} (h : (Request.query sql).Fits) :
    qdbSql (Request.query sql).encode=stripCrlf sql := by
  have hsize := h.size
  have hnul : (0 : Byte)∉sql := h.query sql rfl
  have hlength : (Request.query sql).encode.length=6+sql.length := by
    rw [Request.encode,length_frame,List.length_append,List.length_singleton]
    omega
  have hbehind : (Request.query sql).encode.drop 5=sql++0::[] := rfl
  rw [qdbSql,if_pos (by omega),hbehind,cstr_terminated hnul,List.take_of_length_le (by omega)]
  rfl

/-- One round of the loop. -/
theorem qdbQueries_request {r : Request} (h : r.Fits) (later : List RecvResult) :
    qdbQueries s (.data r.encode::later)=r.acts s++qdbQueries s later := by
  have hne : r.encode≠[] := by cases r <;> exact List.cons_ne_nil _ _
  rw [qdbQueries,recv_data hne h.size]
  dsimp only
  cases r with
  | query sql =>
    have hhead : (Request.query sql).encode.head?=some 81 := rfl
    rw [if_pos hhead,qdbSql_encode h,Request.acts,List.cons_append,List.append_assoc]
    rfl
  | parse body => rfl
  | other type body =>
    obtain ⟨hquery,hend,hparse⟩ := h.other type body rfl
    have hhead : ∀ b : Byte,type≠b → (Request.other type body).encode.head?≠some b :=
      fun b hb heq => hb (Option.some.inj heq)
    rw [if_neg (hhead 81 hquery),if_neg (hhead 88 hend),if_neg (hhead 80 hparse)]
    rfl

/-- The loop does nothing with what ends a session. -/
theorem qdbQueries_ends {later : List RecvResult} (h : EndsSession later) : qdbQueries s later=[] := by
  cases later with
  | nil => rfl
  | cons r rs =>
    rw [qdbQueries]
    cases hrecv : recv 4096 r with
    | none => rfl
    | some bytes =>
      have hhead := h r rfl bytes hrecv
      dsimp only
      rw [hhead,if_neg (by decide),if_pos rfl]

/-- The loop up to what ends the session. -/
theorem qdbQueries_requests {requests : List Request} (h : ∀ r∈requests,r.Fits)
    {later : List RecvResult} (hend : EndsSession later) :
    qdbQueries s (requests.map (fun r => .data r.encode)++later)=
      requests.flatMap (Request.acts s) := by
  induction requests with
  | nil => exact qdbQueries_ends s hend
  | cons r requests ih =>
    rw [List.map_cons,List.cons_append,qdbQueries_request s (h r List.mem_cons_self),
      ih (fun r' hr' => h r' (List.mem_cons_of_mem _ hr')),List.flatMap_cons]

/-- The events of requests are those of the queries among them. -/
theorem audits_requests (requests : List Request) :
    (audits (requests.flatMap (Request.acts s))).map Action.audit=
      (requests.filterMap Request.sql?).map (fun sql => s.recordCommand .questdb (stripCrlf sql)) := by
  induction requests with
  | nil => rfl
  | cons r requests ih =>
    rw [List.flatMap_cons,audits_append,List.map_append,ih]
    cases r with
    | query sql =>
      have hanswer : audits (Request.acts s (.query sql))=
          [auditRecordCommand (protocolNumber .questdb) s.remoteIp s.remotePort s.sessionId
            (stripCrlf sql)] := by
        rw [Request.acts,Session.recordCommand,audits_audit,audits_append,audits_qdbAnswer]
        rfl
      rw [hanswer]
      rfl
    | parse body => rfl
    | other type body => rfl

end Requests

/-- The QuestDB service lets every client in that logs in. It records the first user
name and the answer, each cut to its array, and then all queries in order without the line
breaks at their ends, and answers every request before it hears the next, until the client
asks for the end, closes its side or is lost. -/
theorem questdb_records_client (s : Session) (salt memory : Bytes) (c : Client)
    (requests : List Request) (later : List RecvResult) (hc : c.Fits)
    (hrequests : ∀ r∈requests,r.Fits) (hend : EndsSession later) :
    let received := c.login++(requests.map (fun r => .data r.encode)++later)
    let acts := runQuestdbService s salt memory received
    acts=s.recordConnection .questdb::(c.declines++.send (authMd5 salt)::
        s.recordAuth .questdb c.user (some (c.password.take 255)) false::
        (qdbWelcome++requests.flatMap (Request.acts s)++[s.recordDisconnect .questdb,.close])) ∧
      (audits acts).map Action.audit=
        [s.recordConnection .questdb,s.recordAuth .questdb c.user (some (c.password.take 255)) false]++
          (requests.filterMap Request.sql?).map (fun sql => s.recordCommand .questdb (stripCrlf sql))++
          [s.recordDisconnect .questdb] := by
  intro received acts
  have hacts : acts=s.recordConnection .questdb::(c.declines++.send (authMd5 salt)::
      s.recordAuth .questdb c.user (some (c.password.take 255)) false::
      (qdbWelcome++requests.flatMap (Request.acts s)++[s.recordDisconnect .questdb,.close])) := by
    obtain ⟨behind,hstartup⟩ := startup_opening hc memory
      (.data c.answerMessage::(requests.map (fun r => .data r.encode)++later))
    dsimp only [acts,received]
    rw [Client.login,List.append_assoc,List.singleton_append,runQuestdbService,hstartup]
    dsimp only
    rw [passwordMessage_answer hc,qdbParseStartupUsername,parse_opening hc]
    dsimp only
    rw [qdbQueries_requests s hrequests hend,List.append_assoc]
    rfl
  have hdeclines : audits c.declines=[] := by
    unfold Client.declines
    split <;> rfl
  have hwelcome : audits qdbWelcome=[] := rfl
  refine ⟨hacts,?_⟩
  rw [hacts]
  dsimp only [Session.recordConnection,Session.recordAuth,Session.recordDisconnect]
  rw [audits_audit,audits_append,audits_send,audits_audit,audits_append,audits_append,hdeclines,
    hwelcome,List.nil_append,List.nil_append,List.map_cons,List.map_cons,List.map_append,
    audits_requests]
  rfl

/-- A query behind a statement to be parsed. -/
theorem questdb_records_amy :
    (audits (runQuestdbService ⟨text "203.0.113.9",8812,text "qdb_7_1_2"⟩ [1,2,3,4] []
        (amy.login++([Request.parse [0,0],.query (text "SELECT 1"++[13,10])].map
          (fun r => .data r.encode)++[.data terminate])))).map Action.audit=
      [Session.recordConnection ⟨text "203.0.113.9",8812,text "qdb_7_1_2"⟩ .questdb,
        Session.recordAuth ⟨text "203.0.113.9",8812,text "qdb_7_1_2"⟩ .questdb amy.user
          (some (amy.password.take 255)) false]++
        [Session.recordCommand ⟨text "203.0.113.9",8812,text "qdb_7_1_2"⟩ .questdb
          (stripCrlf (text "SELECT 1"++[13,10]))]++
        [Session.recordDisconnect ⟨text "203.0.113.9",8812,text "qdb_7_1_2"⟩ .questdb] := by
  have hrequests : ∀ r∈[Request.parse [0,0],.query (text "SELECT 1"++[13,10])],r.Fits := by
    intro r hmem
    simp only [List.mem_cons,List.not_mem_nil,or_false] at hmem
    rcases hmem with hparse|hquery
    · rw [hparse]
      exact ⟨by decide,nofun,nofun⟩
    · rw [hquery]
      refine ⟨by decide,?_,nofun⟩
      intro sql hsql
      rw [← Request.query.inj hsql]
      decide
  have hend : EndsSession [.data terminate] := by
    intro r hr bytes hbytes
    rw [← Option.some.inj hr] at hbytes
    rw [← Option.some.inj hbytes]
    rfl
  exact (questdb_records_client _ _ _ amy _ [.data terminate] fits_amy hrequests hend).2

end HoneyDew.PostgresClients
