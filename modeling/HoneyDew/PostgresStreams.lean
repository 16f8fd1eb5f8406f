import HoneyDew.PostgresServices
import HoneyDew.PostgresMessages

/-!
# What PostgreSQL clients read

Every packet of the two services is one complete backend message that fits the
array it is built in. Only the letter that declines encryption stands outside
of the messages. The query loop ends every answer to a query with one ready
message.
-/

namespace HoneyDew.PostgresStreams

open CText CMemory Service PostgresWire PostgresServices PostgresMessages

/-- The size of the array a packet is built in. -/
def packetSize (packet : Bytes) : ℕ := if packet.head?=some 69 then 512 else 256

/-- The sends of some acts are complete messages that fit their arrays. -/
structure Speaks (acts : List Action) (messages : List BackendMessage) : Prop where
  /-- The bytes sent are read as these messages. -/
  parses : Parses (sent acts) messages
  /-- No packet exceeds its array. -/
  fits : ∀ packet∈sends acts,packet.length ≤ packetSize packet

section Packets

/-- The length in front of a message. -/
theorem bigEndian32_eq (n : ℕ) : bigEndian32 n=lengthBytes n := by
  unfold bigEndian32 lengthBytes
  simp [littleEndian,Nat.div_div_eq_div_mul]

/-- A packet in front of other acts. -/
theorem Speaks.cons_frame {type : Byte} {body : Bytes} {m : BackendMessage} {acts : List Action}
    {messages : List BackendMessage} (hbody : parseBody type body=some m)
    (hsize : 5+body.length ≤ if type=69 then 512 else 256) (h : Speaks acts messages) :
    Speaks (.send (frame type body)::acts) (m::messages) := by
  have hsmall : 4+body.length<2^32 := by
    split at hsize <;> omega
  constructor
  · exact (Parses.frame hsmall hbody).append h.parses
  · intro packet hpacket
    obtain rfl|hlater := List.mem_cons.mp (show packet∈frame type body::sends acts from hpacket)
    · rw [length_frame,packetSize]
      simpa [frame] using hsize
    · exact h.fits packet hlater

/-- Acts that send nothing. -/
theorem Speaks.quiet {acts : List Action} (h : sends acts=[]) : Speaks acts [] :=
  ⟨by rw [sent_eq_flatten,h]; exact .nil,by rw [h]; exact nofun⟩

/-- Nothing sent is the empty stream. -/
theorem Speaks.nil : Speaks [] [] := .quiet rfl

/-- An audit event in front of other acts. -/
theorem Speaks.cons_audit {acts : List Action} {messages : List BackendMessage}
    (e : AuditTrail.AuditEvent) (h : Speaks acts messages) : Speaks (.audit e::acts) messages :=
  ⟨h.parses,h.fits⟩

/-- Acts one after the other. -/
theorem Speaks.append {xs ys : List Action} {ms ns : List BackendMessage} (hxs : Speaks xs ms)
    (hys : Speaks ys ns) : Speaks (xs++ys) (ms++ns) := by
  constructor
  · rw [sent_append]
    exact hxs.parses.append hys.parses
  · rw [sends_append]
    intro packet hpacket
    obtain hx|hy := List.mem_append.mp hpacket
    · exact hxs.fits packet hx
    · exact hys.fits packet hy

/-- The challenge. -/
theorem authMd5_eq (salt : Bytes) (hsalt : salt.length=4) :
    authMd5 salt=frame 82 ([0,0,0,5]++salt) ∧
      parseBody 82 ([0,0,0,5]++salt)=some (.authenticationMd5 salt) := by
  constructor
  · rw [authMd5,show text "R"=[82] by decide,bigEndian32_eq,bigEndian32_eq,frame,
      List.length_append,hsalt]
    rfl
  · have hlength : ([0,0,0,5]++salt).length=8 := by rw [List.length_append,hsalt]; rfl
    have hparse : ∀ body,parseBody 82 body=
        if body=[0,0,0,0] then some .authenticationOk
        else if body.take 4=[0,0,0,5] ∧ body.length=8 then
          some (.authenticationMd5 (body.drop 4))
        else none := fun _ => rfl
    rw [hparse,if_neg (by simp),if_pos ⟨by simp,hlength⟩]
    rfl

/-- The fields of an error. -/
theorem errorResponse_eq (severity code : String) (message : Bytes)
    (hseverity : (0 : Byte)∉text severity) (hcode : (0 : Byte)∉text code) (hmessage : (0 : Byte)∉message) :
    ∃ body,errorResponse severity code message=frame 69 body ∧
      parseBody 69 body=
        some (.errorResponse (text severity) (text severity) (text code) message) ∧
      body.length=2*(text severity).length+(text code).length+message.length+9 := by
  refine ⟨83::(text severity++0::(86::(text severity++0::(67::(text code++0::
    (77::(message++0::[0]))))))),?_,?_,?_⟩
  · unfold errorResponse frame
    dsimp only
    rw [bigEndian32_eq,show text "E"=[69] by decide,show text "S"=[83] by decide,
      show text "V"=[86] by decide,show text "C"=[67] by decide,
      show text "M"=[77] by decide]
    simp
  · have hparse : ∀ body,parseBody 69 body=parseError body := fun _ => rfl
    rw [hparse,parseError,takeField_terminated 83 hseverity,Option.bind_some,
      takeField_terminated 86 hseverity,Option.bind_some,takeField_terminated 67 hcode,
      Option.bind_some,takeField_terminated 77 hmessage,Option.bind_some,if_pos rfl]
  · simp
    omega

/-- A setting. -/
theorem qdbParameterStatus_eq (name value : String) (hname : (0 : Byte)∉text name)
    (hvalue : (0 : Byte)∉text value) :
    ∃ body,qdbParameterStatus name value=frame 83 body ∧
      parseBody 83 body=some (.parameterStatus (text name) (text value)) ∧
      body.length=(text name).length+(text value).length+2 := by
  refine ⟨text name++0::(text value++0::[]),?_,?_,?_⟩
  · unfold qdbParameterStatus frame
    rw [bigEndian32_eq,show text "S"=[83] by decide]
    simp
    congr 1
    omega
  · have hparse : ∀ body,parseBody 83 body=(takeString body).bind (fun found =>
        (takeString found.2).bind (fun found' =>
          if found'.2=[] then some (.parameterStatus found.1 found'.1) else none)) := fun _ => rfl
    rw [hparse,takeString_terminated hname,Option.bind_some,takeString_terminated hvalue,
      Option.bind_some,if_pos rfl]
  · simp
    omega

/-- The end of a result. -/
theorem commandComplete_eq (tag : String) (htag : (0 : Byte)∉text tag) :
    ∃ body,text "C"++bigEndian32 (4+((text tag).length+1))++text tag++[0]=frame 67 body ∧
      parseBody 67 body=some (.commandComplete (text tag)) ∧ body.length=(text tag).length+1 := by
  refine ⟨text tag++0::[],?_,?_,?_⟩
  · unfold frame
    rw [bigEndian32_eq,show text "C"=[67] by decide]
    simp
  · have hparse : ∀ body,parseBody 67 body=(takeString body).bind (fun found =>
        if found.2=[] then some (.commandComplete found.1) else none) := fun _ => rfl
    rw [hparse,takeString_terminated htag,Option.bind_some,if_pos rfl]
  · simp

/-- An error in front of other acts. -/
theorem Speaks.cons_error {severity code : String} {message : Bytes} {acts : List Action}
    {messages : List BackendMessage} (hseverity : (0 : Byte)∉text severity)
    (hcode : (0 : Byte)∉text code) (hmessage : (0 : Byte)∉message)
    (hsize : 2*(text severity).length+(text code).length+message.length+14 ≤ 512)
    (h : Speaks acts messages) :
    Speaks (.send (errorResponse severity code message)::acts)
      (.errorResponse (text severity) (text severity) (text code) message::messages) := by
  obtain ⟨body,hpacket,hbody,hlength⟩ := errorResponse_eq severity code message hseverity hcode hmessage
  rw [hpacket]
  exact h.cons_frame hbody (by rw [if_pos rfl]; omega)

/-- The challenge in front of other acts. -/
theorem Speaks.cons_authMd5 {salt : Bytes} {acts : List Action} {messages : List BackendMessage}
    (hsalt : salt.length=4) (h : Speaks acts messages) :
    Speaks (.send (authMd5 salt)::acts) (.authenticationMd5 salt::messages) := by
  obtain ⟨hpacket,hbody⟩ := authMd5_eq salt hsalt
  rw [hpacket]
  refine h.cons_frame hbody ?_
  rw [if_neg (by decide),List.length_append,hsalt]
  decide

/-- A setting in front of other acts. -/
theorem Speaks.cons_parameterStatus {name value : String} {acts : List Action}
    {messages : List BackendMessage} (hname : (0 : Byte)∉text name) (hvalue : (0 : Byte)∉text value)
    (hsize : (text name).length+(text value).length+7 ≤ 256) (h : Speaks acts messages) :
    Speaks (.send (qdbParameterStatus name value)::acts)
      (.parameterStatus (text name) (text value)::messages) := by
  obtain ⟨body,hpacket,hbody,hlength⟩ := qdbParameterStatus_eq name value hname hvalue
  rw [hpacket]
  exact h.cons_frame hbody (by rw [if_neg (by decide)]; omega)

/-- The ready message in front of other acts. -/
theorem Speaks.cons_ready {acts : List Action} {messages : List BackendMessage}
    (h : Speaks acts messages) :
    Speaks (.send qdbReadyForQuery::acts) (.readyForQuery 73::messages) := by
  rw [show qdbReadyForQuery=frame 90 [73] by decide]
  exact h.cons_frame rfl (by simp)

/-- An empty result. -/
theorem speaks_qdbEmptyQueryResult {tag : String} (htag : (0 : Byte)∉text tag)
    (hsize : (text tag).length+6 ≤ 256) :
    Speaks (qdbEmptyQueryResult tag) [.rowDescription [],.commandComplete (text tag)] := by
  obtain ⟨body,hpacket,hbody,hlength⟩ := commandComplete_eq tag htag
  unfold qdbEmptyQueryResult
  rw [hpacket,show text "T"++bigEndian32 6++[0,0]=frame 84 [0,0] by decide]
  have hcolumns : parseBody 84 [0,0]=some (.rowDescription []) := by decide
  refine Speaks.cons_frame hcolumns (by simp) ?_
  exact (Speaks.quiet rfl).cons_frame hbody (by rw [if_neg (by decide)]; omega)

/-- The answer that a message parsed gets. -/
theorem Speaks.cons_parseComplete {acts : List Action} {messages : List BackendMessage}
    (h : Speaks acts messages) :
    Speaks (.send (text "1"++bigEndian32 4)::acts) (.parseComplete::messages) := by
  rw [show text "1"++bigEndian32 4=frame 49 [] by decide]
  exact h.cons_frame rfl (by simp)

end Packets

section Queries

/-- No message announces readiness. -/
def NoReady (messages : List BackendMessage) : Prop := ∀ status,.readyForQuery status∉messages

/-- One ready message ends the messages. -/
def EndsReady (messages : List BackendMessage) : Prop :=
  ∃ front,messages=front++[.readyForQuery 73] ∧ NoReady front

/-- The answer to one segment: to a query with one ready message at its end, to
anything else without one. -/
def AnswerTo (segment : Bytes) (answer : List BackendMessage) : Prop :=
  if segment.head?=some 81 then EndsReady answer else NoReady answer

/-- The segments that the query loop receives. -/
def querySegments : List RecvResult → List Bytes
  | [] => []
  | r::rs =>
    match recv 4096 r with
    | none => []
    | some segment => segment::if segment.head?=some 88 then [] else querySegments rs

/-- The number of ready messages. -/
def readyCount (messages : List BackendMessage) : ℕ :=
  messages.countP (fun m => match m with | .readyForQuery _ => true | _ => false)

/-- Messages without a ready message have none to count. -/
theorem readyCount_of_noReady {messages : List BackendMessage} (h : NoReady messages) :
    readyCount messages=0 := by
  apply List.countP_eq_zero.mpr
  intro m hm
  cases m with
  | readyForQuery status => exact absurd hm (h status)
  | _ => simp

/-- Messages that end with their ready message have one. -/
theorem readyCount_of_endsReady {messages : List BackendMessage} (h : EndsReady messages) :
    readyCount messages=1 := by
  obtain ⟨front,rfl,hfront⟩ := h
  unfold readyCount
  rw [List.countP_append]
  exact congrArg (·+1) (readyCount_of_noReady hfront)

/-- The answers together have a ready message for every query. -/
theorem readyCount_answers {segments : List Bytes} {answers : List (List BackendMessage)}
    (h : List.Forall₂ AnswerTo segments answers) :
    readyCount answers.flatten=segments.countP (fun segment => segment.head?=some 81) := by
  induction h with
  | nil => rfl
  | @cons segment answer segments answers hanswer hrest ih =>
    unfold readyCount at ih ⊢
    rw [List.flatten_cons,List.countP_append,ih,List.countP_cons,Nat.add_comm]
    unfold AnswerTo at hanswer
    split at hanswer
    · rename_i hquery
      rw [if_pos (by simp [hquery])]
      exact congrArg (_+·) (readyCount_of_endsReady hanswer)
    · rename_i hquery
      rw [if_neg (by simp [hquery])]
      exact congrArg (_+·) (readyCount_of_noReady hanswer)

/-- The answer to a query before its ready message. -/
theorem speaks_qdbAnswer (sql : Bytes) : ∃ messages,Speaks (qdbAnswer sql) messages ∧
    NoReady messages := by
  have hempty : ∀ {tag : String},(0 : Byte)∉text tag → (text tag).length+6 ≤ 256 →
      ∃ messages,Speaks (qdbEmptyQueryResult tag) messages ∧ NoReady messages := by
    intro tag htag hsize
    exact ⟨_,speaks_qdbEmptyQueryResult htag hsize,by simp [NoReady]⟩
  have herror : ∀ {code : String} {message : Bytes},(0 : Byte)∉text code → (0 : Byte)∉message →
      2*(text "ERROR").length+(text code).length+message.length+14 ≤ 512 →
      ∃ messages,Speaks [.send (errorResponse "ERROR" code message)] messages ∧
        NoReady messages := by
    intro code message hcode hmessage hsize
    exact ⟨_,(Speaks.quiet rfl).cons_error (by decide) hcode hmessage hsize,by simp [NoReady]⟩
  unfold qdbAnswer
  split
  · exact hempty (by decide) (by decide)
  split
  · exact hempty (by decide) (by decide)
  split
  · exact hempty (by decide) (by decide)
  split
  · exact hempty (by decide) (by decide)
  split
  · exact herror (by decide) (by decide) (by decide)
  · exact herror (by decide) (by decide) (by decide)

/-- The query loop answers every segment it receives. -/
theorem speaks_qdbQueries (s : Session) (results : List RecvResult) :
    ∃ answers : List (List BackendMessage),Speaks (qdbQueries s results) answers.flatten ∧
      List.Forall₂ AnswerTo (querySegments results) answers := by
  induction results with
  | nil => exact ⟨[],.quiet rfl,.nil⟩
  | cons r rs ih =>
    unfold qdbQueries querySegments
    cases recv 4096 r with
    | none => exact ⟨[],.quiet rfl,.nil⟩
    | some segment =>
      obtain ⟨answers,hspeaks,hanswers⟩ := ih
      dsimp only
      by_cases hquery : segment.head?=some 81
      · obtain ⟨messages,hmessages,hnone⟩ := speaks_qdbAnswer (qdbSql segment)
        refine ⟨(messages++[.readyForQuery 73])::answers,?_,?_⟩
        · rw [if_pos hquery,List.flatten_cons,List.append_assoc]
          exact (hmessages.append hspeaks.cons_ready).cons_audit _
        · rw [if_neg (by simp [hquery])]
          exact .cons (by rw [AnswerTo,if_pos hquery]; exact ⟨messages,rfl,hnone⟩) hanswers
      · rw [if_neg hquery]
        have hquiet : AnswerTo segment [] := by
          rw [AnswerTo,if_neg hquery]
          simp [NoReady]
        by_cases hend : segment.head?=some 88
        · rw [if_pos hend,if_pos hend]
          exact ⟨[[]],.quiet rfl,.cons hquiet .nil⟩
        · rw [if_neg hend,if_neg hend]
          split
          · have hparsed : AnswerTo segment [.parseComplete] := by
              rw [AnswerTo,if_neg hquery]
              simp [NoReady]
            exact ⟨[.parseComplete]::answers,hspeaks.cons_parseComplete,.cons hparsed hanswers⟩
          · exact ⟨[]::answers,hspeaks,.cons hquiet hanswers⟩

/-- What the client reads when it is let in. -/
theorem speaks_qdbWelcome : ∃ messages,Speaks qdbWelcome (.authenticationOk::messages) ∧
    EndsReady messages ∧ .authenticationOk∉messages := by
  have hok : qdbAuthOk=frame 82 [0,0,0,0] := by decide
  have hstatus : ∀ {name value : String} {acts messages},(0 : Byte)∉text name →
      (0 : Byte)∉text value → (text name).length+(text value).length+7 ≤ 256 →
      Speaks acts messages → Speaks (.send (qdbParameterStatus name value)::acts)
        (.parameterStatus (text name) (text value)::messages) :=
    fun hname hvalue hsize h => h.cons_parameterStatus hname hvalue hsize
  refine ⟨[.parameterStatus (text "server_version") (text "QuestDB 7.3.10"),
    .parameterStatus (text "server_encoding") (text "UTF8"),
    .parameterStatus (text "client_encoding") (text "UTF8"),
    .parameterStatus (text "DateStyle") (text "ISO, MDY"),.readyForQuery 73],?_,?_,by simp⟩
  · unfold qdbWelcome
    rw [hok]
    refine Speaks.cons_frame rfl (by simp) ?_
    refine hstatus (by decide) (by decide) (by decide) ?_
    refine hstatus (by decide) (by decide) (by decide) ?_
    refine hstatus (by decide) (by decide) (by decide) ?_
    refine hstatus (by decide) (by decide) (by decide) ?_
    exact (Speaks.quiet rfl).cons_ready
  · exact ⟨[.parameterStatus (text "server_version") (text "QuestDB 7.3.10"),
      .parameterStatus (text "server_encoding") (text "UTF8"),
      .parameterStatus (text "client_encoding") (text "UTF8"),
      .parameterStatus (text "DateStyle") (text "ISO, MDY")],rfl,by simp [NoReady]⟩

end Queries

section Sessions

/-- Whether the first segment asks for encryption. -/
def asksEncryption : List RecvResult → Bool
  | [] => false
  | r::_ =>
    match recv 4096 r with
    | none => false
    | some segment => 8 ≤ segment.length && readBigEndian32 segment 4=80877103

/-- The letter that declines encryption, where it is asked for. -/
def declined (results : List RecvResult) : Bytes :=
  if asksEncryption results then text "N" else []

/-- Everything sent is a stream of messages behind the letter that declines
encryption, and no packet exceeds its array. -/
def SpeaksTo (results : List RecvResult) (acts : List Action) (messages : List BackendMessage) :
    Prop :=
  (∃ stream,sent acts=declined results++stream ∧ Parses stream messages) ∧
    ∀ packet∈sends acts,packet.length ≤ packetSize packet

/-- The results of the calls behind the password message of a client that is let
in. -/
def letIn (memory : Bytes) (results : List RecvResult) : Option (List RecvResult) :=
  match (startup memory results).2 with
  | .ended => none
  | .accepted _ _ later => (passwordMessage later).map Prod.snd

/-- Behind the message that lets the client in there is one ready message for
the login and one for every query, each at the end of its answer. -/
structure ReadyOnce (segments : List Bytes) (messages : List BackendMessage) : Prop where
  /-- The messages of the login and the answers to the segments. -/
  answers : ∃ login answers,messages=login++answers.flatten ∧ EndsReady login ∧
    List.Forall₂ AnswerTo segments answers
  /-- The number of ready messages. -/
  count : readyCount messages=1+segments.countP (fun segment => segment.head?=some 81)

/-- Acts that start with some acts and go on with messages that neither let the
client in nor announce readiness. -/
def OpensWith (first acts : List Action) : Prop :=
  ∃ rest messages,acts=first++rest ∧ Speaks rest messages ∧ NoReady messages ∧
    .authenticationOk∉messages

/-- Nothing need follow. -/
theorem opensWith_self (first : List Action) : OpensWith first first :=
  ⟨[],[],by simp,.quiet rfl,by simp [NoReady],by simp⟩

/-- An act in front. -/
theorem OpensWith.cons {acts : List Action} (a : Action) (h : OpensWith [] acts) :
    OpensWith [a] (a::acts) := by
  obtain ⟨rest,messages,hacts,hmessages⟩ := h
  exact ⟨rest,messages,by rw [hacts]; rfl,hmessages⟩

/-- The test of the version answers with an error or not at all. -/
theorem opensWith_checkVersion (memory : Bytes) (n : ℕ) (later : List RecvResult) :
    OpensWith [] (checkVersion memory n later).1 := by
  unfold checkVersion
  split
  · exact opensWith_self []
  · exact ⟨_,_,(List.nil_append _).symm,(Speaks.quiet rfl).cons_error (by decide)
      (by decide) (by decide) (by decide),by simp [NoReady],by simp⟩

/-- The start-up phase declines encryption where it is asked for and answers
with an error or not at all. -/
theorem opensWith_startup (memory : Bytes) (results : List RecvResult) :
    OpensWith (if asksEncryption results then [.send (text "N")] else [])
      (startup memory results).1 := by
  cases results with
  | nil => exact opensWith_self []
  | cons r rs =>
    unfold startup
    cases hr : recv 4096 r with
    | none =>
      rw [recvInto_none hr,show asksEncryption (r::rs)=false by simp [asksEncryption,hr]]
      exact opensWith_self []
    | some segment =>
      have hasks : asksEncryption (r::rs)=
          (decide (8 ≤ segment.length) && decide (readBigEndian32 segment 4=80877103)) := by
        simp [asksEncryption,hr]
      rw [recvInto_some hr,hasks]
      dsimp only
      by_cases hshort : segment.length<8
      · rw [if_pos hshort,if_neg (by simp; omega)]
        exact opensWith_self []
      have hlong : 8 ≤ segment.length := by omega
      rw [if_neg hshort,readBigEndian32_writeAt memory hlong]
      by_cases hcode : readBigEndian32 segment 4=80877103
      · rw [if_pos hcode,if_pos (by simp [hlong,hcode])]
        cases rs with
        | nil => exact opensWith_self _
        | cons r' rs' =>
          cases hr' : recv 4096 r' with
          | none =>
            rw [recvInto_none hr']
            exact opensWith_self _
          | some segment' =>
            rw [recvInto_some hr']
            dsimp only
            split
            · exact opensWith_self _
            · exact (opensWith_checkVersion _ _ _).cons _
      · rw [if_neg hcode,if_neg (by simp [hcode])]
        exact opensWith_checkVersion _ _ _

/-- A user name that is found fits its array and has no NUL. -/
theorem startupParams_username {fuel remaining : ℕ} {params username : Bytes}
    (h : startupParams fuel params remaining=some username) :
    (0 : Byte)∉username ∧ username.length ≤ 255 := by
  induction fuel generalizing params remaining with
  | zero => cases h
  | succ fuel ih =>
    unfold startupParams at h
    dsimp only at h
    split at h
    · cases h
    split at h
    · cases h
    split at h
    · cases h
    split at h
    · cases h
      exact ⟨fun hmem => zero_not_mem_cstr _ (List.mem_of_mem_take hmem),List.length_take_le _ _⟩
    · exact ih h

/-- The user name a handler goes on with fits its array and has no NUL. -/
theorem captured_username (buf : Bytes) (n : ℕ) :
    (0 : Byte)∉(parseStartupUsername buf n).getD [] ∧
      ((parseStartupUsername buf n).getD []).length ≤ 255 := by
  cases h : parseStartupUsername buf n with
  | none => simp
  | some username =>
    unfold parseStartupUsername at h
    split at h
    · cases h
    · exact startupParams_username h

/-- A session that opens and goes on with messages. -/
theorem speaksTo_session {results : List RecvResult} {opening rest : List Action}
    {messages : List BackendMessage} (e e' : AuditTrail.AuditEvent)
    (hopening : OpensWith (if asksEncryption results then [.send (text "N")] else []) opening)
    (hrest : Speaks rest messages) :
    ∃ front,SpeaksTo results (.audit e::(opening++rest++[.audit e',.close])) (front++messages) ∧
      NoReady front ∧ .authenticationOk∉front := by
  obtain ⟨more,front,rfl,hfront,hnone,hok⟩ := hopening
  refine ⟨front,?_,hnone,hok⟩
  have hspeaks : Speaks (more++rest++[.audit e',.close]) (front++messages) := by
    have hall := (hfront.append hrest).append (show Speaks [.audit e',.close] [] from .quiet rfl)
    rwa [List.append_nil] at hall
  have hletter : (text "N").length=1 := by decide
  have hsends : ∀ acts,sends (.audit e::((if asksEncryption results then [.send (text "N")] else [])++
      acts))=(if asksEncryption results then [text "N"] else [])++sends acts := by
    intro acts
    cases asksEncryption results <;> rfl
  rw [List.append_assoc,List.append_assoc,←List.append_assoc more]
  constructor
  · refine ⟨_,?_,hspeaks.parses⟩
    rw [sent_eq_flatten,hsends,List.flatten_append,←sent_eq_flatten]
    unfold declined
    cases asksEncryption results <;> simp
  · rw [hsends]
    intro packet hpacket
    obtain hfirst|hlater := List.mem_append.mp hpacket
    · cases hasks : asksEncryption results
      · simp [hasks] at hfirst
      · simp only [hasks,if_true,List.mem_singleton] at hfirst
        rw [hfirst,hletter,packetSize]
        split <;> decide
    · exact hspeaks.fits packet hlater

/-- The denial names the user in an error that fits its array. -/
theorem speaks_denial (username : Bytes) (e : AuditTrail.AuditEvent) (hnul : (0 : Byte)∉username)
    (hlength : username.length ≤ 255) :
    ∃ messages,Speaks [.audit e,.send (errorResponse "FATAL" "28P01"
      ((text "password authentication failed for user "++[34]++username++[34]).take 511))]
        messages := by
  have htext : (0 : Byte)∉text "password authentication failed for user " ∧
      (text "password authentication failed for user ").length=40 := by decide
  have hmessage : (0 : Byte)∉text "password authentication failed for user "++[34]++username++[34] := by
    simp [htext.1,hnul]
  have hsize : ((text "password authentication failed for user "++[34]++username++[34]).take
      511).length ≤ 297 := by
    simp only [List.length_take,List.length_append,List.length_singleton,htext.2]
    omega
  have hseverity : (text "FATAL").length=5 := by decide
  have hcode : (text "28P01").length=5 := by decide
  exact ⟨_,((Speaks.quiet rfl).cons_error (by decide) (by decide)
    (fun hmem => hmessage (List.mem_of_mem_take hmem)) (by rw [hseverity,hcode]; omega)).cons_audit e⟩

/-- What the PostgreSQL service sends is a stream of messages. -/
theorem speaksTo_runPostgresqlService (s : Session) {salt : Bytes} (memory : Bytes)
    (results : List RecvResult) (hsalt : salt.length=4) :
    ∃ messages,SpeaksTo results (runPostgresqlService s salt memory results) messages := by
  have hsession : ∀ {rest messages},Speaks rest messages → ∃ messages',SpeaksTo results
      (s.recordConnection .postgresql::((startup memory results).1++rest++
        [s.recordDisconnect .postgresql,.close])) messages' := by
    intro rest messages hrest
    obtain ⟨front,hspeaks,-,-⟩ := speaksTo_session _ _ (opensWith_startup memory results) hrest
    exact ⟨_,hspeaks⟩
  unfold runPostgresqlService
  dsimp only
  cases (startup memory results).2 with
  | ended => exact hsession .nil
  | accepted memory' n later =>
    dsimp only
    obtain ⟨hnul,hlength⟩ := captured_username memory' n
    cases passwordMessage later with
    | none => exact hsession (.cons_authMd5 hsalt .nil)
    | some password =>
      obtain ⟨messages,hmessages⟩ := speaks_denial ((parseStartupUsername memory' n).getD []) _ hnul
        hlength
      exact hsession (.cons_authMd5 hsalt hmessages)

/-- What the QuestDB service sends is a stream of messages, with one ready message
for the login and one for every query of a client that is let in. -/
theorem speaksTo_runQuestdbService (s : Session) {salt : Bytes} (memory : Bytes)
    (results : List RecvResult) (hsalt : salt.length=4) :
    ∃ messages,SpeaksTo results (runQuestdbService s salt memory results) messages ∧
      match letIn memory results with
      | none => NoReady messages ∧ .authenticationOk∉messages
      | some later => ∃ front behind,messages=front++.authenticationOk::behind ∧ NoReady front ∧
          .authenticationOk∉front ∧ ReadyOnce (querySegments later) behind := by
  have hsession : ∀ {rest messages},Speaks rest messages → ∃ front,SpeaksTo results
      (s.recordConnection .questdb::((startup memory results).1++rest++
        [s.recordDisconnect .questdb,.close])) (front++messages) ∧
      NoReady front ∧ .authenticationOk∉front :=
    fun hrest => speaksTo_session _ _ (opensWith_startup memory results) hrest
  unfold runQuestdbService letIn
  dsimp only
  cases (startup memory results).2 with
  | ended =>
    obtain ⟨front,hspeaks,hnone,hok⟩ := hsession .nil
    rw [List.append_nil front] at hspeaks
    exact ⟨front,hspeaks,hnone,hok⟩
  | accepted memory' n later =>
    dsimp only
    cases passwordMessage later with
    | none =>
      obtain ⟨front,hspeaks,hnone,hok⟩ := hsession (.cons_authMd5 hsalt .nil)
      refine ⟨_,hspeaks,?_,by simp [hok]⟩
      intro status
      simp [hnone status]
    | some password =>
      obtain ⟨login,hlogin,hready,-⟩ := speaks_qdbWelcome
      obtain ⟨answers,hqueries,hanswers⟩ := speaks_qdbQueries s password.2
      obtain ⟨front,hspeaks,hnone,hok⟩ := hsession
        (.cons_authMd5 hsalt ((hlogin.append hqueries).cons_audit _))
      refine ⟨_,hspeaks,front++[.authenticationMd5 salt],login++answers.flatten,by simp,?_,
        by simp [hok],⟨login,answers,rfl,hready,hanswers⟩,?_⟩
      · intro status
        simp [hnone status]
      · rw [←readyCount_answers hanswers,←readyCount_of_endsReady hready]
        exact List.countP_append

end Sessions

/-- Both services send streams of complete backend messages that fit their
arrays, behind the letter that declines encryption, and the QuestDB service ends
the login and every answer to a query with its one ready message. -/
theorem server_streams_well_formed (s : Session) (salt memory : Bytes) (results : List RecvResult)
    (hsalt : salt.length=4) :
    (∃ messages,SpeaksTo results (runPostgresqlService s salt memory results) messages) ∧
    ∃ messages,SpeaksTo results (runQuestdbService s salt memory results) messages ∧
      match letIn memory results with
      | none => NoReady messages ∧ .authenticationOk∉messages
      | some later => ∃ front behind,messages=front++.authenticationOk::behind ∧ NoReady front ∧
          .authenticationOk∉front ∧ ReadyOnce (querySegments later) behind :=
  ⟨speaksTo_runPostgresqlService s memory results hsalt,
    speaksTo_runQuestdbService s memory results hsalt⟩

/-- A client that logs in and sends one query. -/
def oneQuery : List RecvResult :=
  [.data ([0,0,0,16,0,3,0,0]++text "user"++[0,97,0,0]),.data [112,0,0,0,6,120,0],
    .data ([81,0,0,0,13]++text "SELECT 1"++[0])]

/-- The query of this client is answered with one ready message. -/
theorem server_streams_one_query :
    (∃ messages,SpeaksTo oneQuery
      (runPostgresqlService ⟨text "10.0.0.9",40000,text "id"⟩ [1,2,3,4] [] oneQuery) messages) ∧
    ∃ messages,SpeaksTo oneQuery
        (runQuestdbService ⟨text "10.0.0.9",40000,text "id"⟩ [1,2,3,4] [] oneQuery) messages ∧
      ∃ front behind,messages=front++.authenticationOk::behind ∧ NoReady front ∧
        .authenticationOk∉front ∧
        ReadyOnce (querySegments [.data ([81,0,0,0,13]++text "SELECT 1"++[0])]) behind := by
  have hstreams := server_streams_well_formed ⟨text "10.0.0.9",40000,text "id"⟩ [1,2,3,4] []
    oneQuery (by decide)
  rwa [show letIn [] oneQuery=some [.data ([81,0,0,0,13]++text "SELECT 1"++[0])]
    by decide] at hstreams

end HoneyDew.PostgresStreams
