import HoneyDew.DnsFraming

/-!
# How a query is decoded and answered

A legal question is read without a loss: the name ends where its labels end, the
text has room for all of them, and no size test of a builder turns the query
away. The type alone decides which events and which code follow.
-/

namespace HoneyDew.DnsQueries

open CText CMemory Service DnsService DnsReplies DnsWire DnsWellFormed DnsFraming

/-- A query: a header, one legal question and anything behind it. -/
structure Query where
  /-- The header. -/
  header : Bytes
  /-- The labels of the name, none for the root. -/
  labels : List Bytes
  /-- The type. -/
  qtype : ℕ
  /-- The class. -/
  qclass : ℕ
  /-- What stands behind the question. -/
  rest : Bytes
  /-- The header has twelve bytes. -/
  length_header : header.length=12
  /-- A label has 1 to 63 bytes. -/
  length_label : ∀ l∈labels,0<l.length ∧ l.length≤63
  /-- There are at most 127 labels. -/
  length_labels : labels.length≤127
  /-- The name takes at most 255 bytes on the wire. -/
  length_name : (labelBytes labels).length+1≤255
  /-- The type has two bytes. -/
  qtype_lt : qtype<2^16
  /-- The class has two bytes. -/
  qclass_lt : qclass<2^16

namespace Query

variable (q : Query)

/-- The name on the wire. -/
def name : Bytes := labelBytes q.labels++[0]

/-- The name as a text. -/
def domain : Bytes := List.intercalate [46] q.labels

/-- The question on the wire. -/
def question : Bytes := q.name++(bigEndian16 q.qtype++bigEndian16 q.qclass)

/-- The query on the wire. -/
def message : Bytes := q.header++(q.question++q.rest)

/-- The query behind its length, with some bytes that came with it. -/
def segment (behind : Bytes) : Bytes := bigEndian16 q.message.length++(q.message++behind)

/-- The code of the reply: refused for a zone transfer, none for an A record and
a failure of the server for everything else. -/
def rcode : ℕ := if q.qtype=252 then 5 else if q.qtype=1 then 0 else 2

/-- The length of a name. -/
theorem length_name_eq : q.name.length=(labelBytes q.labels).length+1 := List.length_append

/-- The length of a question. -/
theorem length_question : q.question.length=q.name.length+4 := List.length_append

/-- The length of a query. -/
theorem length_message : q.message.length=12+(q.question.length+q.rest.length) := by
  rw [message,List.length_append,List.length_append,q.length_header]

/-- What stands behind the header. -/
theorem drop_header (more : Bytes) :
    (q.message++more).drop dnsHeaderSize=q.question++(q.rest++more) := by
  rw [message,List.append_assoc,List.append_assoc]
  exact List.drop_left' q.length_header

/-- What stands behind the name. -/
theorem drop_name (more : Bytes) : (q.message++more).drop (dnsHeaderSize+q.name.length)=
    bigEndian16 q.qtype++(bigEndian16 q.qclass++(q.rest++more)) := by
  rw [←List.drop_drop,q.drop_header,question,List.append_assoc,List.drop_left,List.append_assoc]

/-- The identifier of a query stands in its header. -/
theorem take_message : q.message.take 2=q.header.take 2 := by
  rw [message,List.take_append_of_le_length (by rw [q.length_header]; omega)]

end Query

section Labels

variable {msg : Bytes} {len dsize : ℕ}

/-- The labels behind the first are collected with a dot in front of each. -/
theorem dnsParseLabels_dotted {labels : List Bytes} {back : Bytes} {allowed pos : ℕ} (domain : Bytes)
    (hallowed : labels.length<allowed) (hlater : allowed≤128)
    (hlabels : ∀ l∈labels,0<l.length ∧ l.length≤63)
    (hmsg : msg.drop pos=labelBytes labels++0::back) (hlen : pos+(labelBytes labels).length<len)
    (hroom : domain.length+(labelBytes labels).length≤dsize-1) :
    dnsParseLabels msg len dsize allowed pos domain=
      some (pos+(labelBytes labels).length+1,domain++labels.flatMap (fun x => 46::x)) := by
  induction labels generalizing allowed pos domain with
  | nil =>
    obtain ⟨allowed,rfl⟩ := Nat.exists_eq_add_one_of_ne_zero (Nat.ne_of_gt hallowed)
    have hbyte : msg.getD pos 0=0 := getD_of_drop hmsg
    rw [List.flatMap_nil,List.append_nil]
    exact dnsParseLabels_zero hlen (by rw [hbyte]; rfl)
  | cons l labels ih =>
    obtain ⟨allowed,rfl⟩ := Nat.exists_eq_add_one_of_ne_zero (Nat.ne_of_gt (Nat.zero_lt_of_lt hallowed))
    obtain ⟨hpositive,hshort⟩ := hlabels l List.mem_cons_self
    have hwire : labelBytes (l::labels)=UInt8.ofNat l.length::(l++labelBytes labels) := rfl
    rw [hwire] at hmsg hlen hroom ⊢
    simp only [List.cons_append,List.append_assoc] at hmsg
    simp only [List.length_append,List.length_cons] at hlen hroom hallowed
    obtain ⟨hstep,hnext⟩ := dnsParseLabels_wire dsize allowed domain hpositive (by omega) hmsg
      (show pos+1+l.length≤len by omega)
    have hcollected : (domain++[46]++l).length=domain.length+1+l.length := by
      rw [List.length_append,List.length_append,List.length_singleton]
    rw [hstep,if_neg (by omega),List.take_of_length_le (by omega),
      ih (domain++[46]++l) (by omega) (by omega) (fun x hx => hlabels x (List.mem_cons_of_mem _ hx))
        hnext (by omega) (by omega)]
    simp only [List.length_append,List.length_cons,List.flatMap_cons,List.append_assoc,
      List.cons_append,List.nil_append]
    congr 2
    omega

/-- A name is read to its end and its labels are joined by dots. -/
theorem dnsParseLabels_joined {labels : List Bytes} {back : Bytes} {pos : ℕ}
    (hcount : labels.length≤127) (hlabels : ∀ l∈labels,0<l.length ∧ l.length≤63)
    (hmsg : msg.drop pos=labelBytes labels++0::back) (hlen : pos+(labelBytes labels).length<len)
    (hroom : (labelBytes labels).length≤dsize-1) :
    dnsParseLabels msg len dsize 129 pos []=
      some (pos+(labelBytes labels).length+1,List.intercalate [46] labels) := by
  cases labels with
  | nil =>
    have hbyte : msg.getD pos 0=0 := getD_of_drop hmsg
    exact dnsParseLabels_zero hlen (by rw [hbyte]; rfl)
  | cons l labels =>
    obtain ⟨hpositive,hshort⟩ := hlabels l List.mem_cons_self
    have hwire : labelBytes (l::labels)=UInt8.ofNat l.length::(l++labelBytes labels) := rfl
    rw [hwire] at hmsg hlen hroom ⊢
    simp only [List.cons_append,List.append_assoc] at hmsg
    simp only [List.length_append,List.length_cons] at hlen hroom hcount
    obtain ⟨hstep,hnext⟩ := dnsParseLabels_wire dsize 128 [] hpositive (by omega) hmsg
      (show pos+1+l.length≤len by omega)
    rw [hstep,if_pos rfl,List.nil_append,List.nil_append,List.take_of_length_le (by omega),
      dnsParseLabels_dotted l (by omega) (Nat.le_refl _)
        (fun x hx => hlabels x (List.mem_cons_of_mem _ hx)) hnext (by omega) (by omega),
      intercalate_cons]
    simp only [List.length_append,List.length_cons]
    congr 2
    omega

end Labels

/-- A reply to a query: its identifier, the bit of responses, the code for its
type, and for an A record nothing behind the question but the record. -/
structure Replied (q : Query) (reply : Bytes) : Prop where
  /-- The identifier of the query. -/
  identifier : reply.take 2=q.header.take 2
  /-- The bit of responses. -/
  response : 128≤(reply.getD 2 0).toNat
  /-- The code. -/
  rcode : (reply.getD 3 0).toNat%16=q.rcode
  /-- One answer with the address 10.0.2.15. -/
  address : q.qtype=1 → ∃ header,header.length=12 ∧ number16 header 6=1 ∧ number16 header 8=0 ∧
    number16 header 10=0 ∧ reply=header++(q.question++answerRecord)

section Replies

variable (q : Query)

/-- The parser finds the whole name, whatever stands behind the query. -/
theorem dnsParseDomainName_query (more : Bytes) :
    dnsParseDomainName (q.message++more) q.message.length dnsHeaderSize 512=
      some (q.name.length,q.domain) := by
  have hname := q.length_name_eq
  have hquestion := q.length_question
  have hmessage := q.length_message
  have hshort := q.length_name
  have hdrop : (q.message++more).drop dnsHeaderSize=
      labelBytes q.labels++0::(bigEndian16 q.qtype++bigEndian16 q.qclass++(q.rest++more)) := by
    rw [q.drop_header,Query.question,Query.name]
    simp only [List.append_assoc,List.cons_append,List.nil_append]
  have hinside : dnsHeaderSize+(labelBytes q.labels).length<q.message.length := by
    unfold dnsHeaderSize
    omega
  rw [dnsParseDomainName,dnsParseLabels_joined q.length_labels q.length_label hdrop hinside (by omega),
    Option.map_some,hname,Query.domain]
  congr 2
  omega

/-- The type is read behind the name, whatever stands behind the query. -/
theorem dnsParseQtype_query (more : Bytes) :
    dnsParseQtype (q.message++more) q.message.length (dnsHeaderSize+q.name.length)=q.qtype := by
  have hquestion := q.length_question
  have hmessage := q.length_message
  have hbytes := readBigEndian16_bigEndian16 q.qtype_lt (bigEndian16 q.qclass++(q.rest++more))
  rw [dnsParseQtype,if_neg (by unfold dnsHeaderSize; omega)]
  rw [←q.drop_name] at hbytes
  simpa only [readBigEndian16,List.getD_eq_getElem?_getD,List.getElem?_drop,Nat.add_zero,
    Nat.zero_add,Nat.add_assoc] using hbytes

/-- The question of a query is not cut off. -/
theorem not_cutQuestion_query : ¬CutQuestion q.message := by
  intro hcut
  obtain ⟨parsed,-,hshort,-,hparsed⟩ := hcut.parsed
  obtain ⟨domain,hdomain,-⟩ := hparsed []
  have hsame := (show _=some (parsed+1,domain) from hdomain).symm.trans (dnsParseDomainName_query q [])
  rw [Option.some_inj,Prod.mk.injEq] at hsame
  have hquestion := q.length_question
  have hmessage := q.length_message
  omega

/-- The low half of the flags is the code that was put there. -/
theorem low_half (flags : Byte) (code : ℕ) (hcode : code<16) :
    ((flags &&& 0xF0) ||| UInt8.ofNat code).toNat%16=code := by
  have hzero : (flags.toNat &&& 240)%2^4=0 := by
    rw [Nat.and_mod_two_pow]
    exact Nat.and_zero _
  rw [UInt8.toNat_or,UInt8.toNat_and,UInt8.toNat_ofNat',show (16 : ℕ)=2^4 from rfl,
    Nat.or_mod_two_pow,show (0xF0 : UInt8).toNat=240 from rfl,hzero,Nat.zero_or]
  omega

/-- A refusal with the code for the type is a reply. -/
theorem replied_refusal {flags : Byte} (htype : q.qtype≠1) (hcode : flags.toNat%16=q.rcode) :
    Replied q (refusal q.message flags) := by
  have hm : 12≤q.message.length := by rw [q.length_message]; omega
  obtain ⟨hid,hresponse,-⟩ := replyWith_header hm flags 0 0 0 0 0 0 (q.message.drop 12)
  have hflags := getD_replyWith_flags hm flags [0,0,0,0,0,0] (q.message.drop 12)
  exact
    { identifier := hid.trans q.take_message
      response := by rw [refusal,hresponse]; decide
      rcode := by rw [refusal,hflags,hcode]
      address := fun h => absurd h htype }

/-- An A answer is a reply where an A record is asked for. -/
theorem replied_answer (htype : q.qtype=1) :
    Replied q (answer q.message (dnsHeaderSize+q.name.length)) := by
  have hm : 12≤q.message.length := by rw [q.length_message]; omega
  have hcopied : readAt q.message 12 (dnsHeaderSize+q.name.length+4-12)=q.question := by
    have hlength : dnsHeaderSize+q.name.length+4-12=q.question.length := by
      rw [q.length_question]
      unfold dnsHeaderSize
      omega
    have hdrop := q.drop_header []
    rw [List.append_nil,List.append_nil] at hdrop
    rw [readAt,hlength,show q.message.drop 12=_ from hdrop,List.take_left]
  have hanswer : answer q.message (dnsHeaderSize+q.name.length)=
      replyHeader q.message 0x80 [0,1,0,0,0,0]++(q.question++answerRecord) := by
    rw [answer,hcopied]
    rfl
  obtain ⟨hid,hresponse,-⟩ := replyWith_header hm 0x80 0 1 0 0 0 0 (q.question++answerRecord)
  have hflags := getD_replyWith_flags hm 0x80 [0,1,0,0,0,0] (q.question++answerRecord)
  obtain ⟨-,-,-,han,hns,har⟩ := replyWith_header hm 0x80 0 1 0 0 0 0 []
  rw [replyWith,List.append_nil] at han hns har
  rw [replyWith,←hanswer] at hid hresponse hflags
  exact
    { identifier := hid.trans q.take_message
      response := by rw [hresponse]; decide
      rcode := by rw [hflags,Query.rcode,if_neg (by omega),if_pos htype]; rfl
      address := fun _ => ⟨_,length_replyHeader 0x80 hm rfl,han,hns,har,hanswer⟩ }

/-- A reply is not empty. -/
theorem Replied.ne_nil {reply : Bytes} (h : Replied q reply) : reply≠[] := by
  intro hnil
  have hresponse := h.response
  rw [hnil] at hresponse
  exact absurd hresponse (by decide)

/-- A query is recorded and answered by its type. -/
theorem dnsAnswer_query (s : Session) (hsize : q.message.length≤4094) :
    ∃ reply,Replied q reply ∧ dnsAnswer s q.message q.message.length true=
      decodedEvents s (some (q.domain,q.qtype))++dnsSend true reply := by
  have hshort := q.length_name
  have hname := q.length_name_eq
  have hquestion := q.length_question
  have hmessage := q.length_message
  have hm : 12≤q.message.length := by omega
  have hparse := dnsParseDomainName_query q []
  have htype := dnsParseQtype_query q []
  rw [List.append_nil] at hparse htype
  have hrefuse : ∀ flags : Byte,∀ code,code<16 → q.qtype≠1 → q.rcode=code →
      Replied q (refusal q.message ((flags &&& 0xF0) ||| UInt8.ofNat code)) := by
    intro flags code hcode hother hrcode
    exact replied_refusal q hother (by rw [low_half flags code hcode,hrcode])
  unfold dnsAnswer
  rw [if_neg (by unfold dnsHeaderSize; omega),hparse,hname]
  dsimp only [decodedEvents]
  rw [←hname,htype,dnsBuildServfail_eq hm (by omega)]
  by_cases hzone : q.qtype=252
  · refine ⟨_,hrefuse ((refusal q.message ((q.message.getD 3 0 &&& 0xF0) ||| 2)).getD 3 0) 5
      (by omega) (by omega) (if_pos hzone),?_⟩
    rw [if_pos hzone,if_pos hzone,refusal_set hm]
    rfl
  · rw [if_neg hzone,if_neg hzone]
    by_cases haddress : q.qtype=1
    · refine ⟨_,replied_answer q haddress,?_⟩
      rw [if_pos haddress,dnsBuildFakeAResponse_answer (by unfold dnsHeaderSize; omega)
        (by unfold dnsHeaderSize; omega) (by unfold dnsHeaderSize; omega)]
      rfl
    · refine ⟨_,hrefuse (q.message.getD 3 0) 2 (by omega) haddress
        (by rw [Query.rcode,if_neg hzone,if_neg haddress]),?_⟩
      rw [if_neg haddress]
      rfl

/-- A session with a query in one segment. -/
theorem runDnsService_query (s : Session) (memory behind : Bytes) (later : List RecvResult)
    (hsize : (q.segment behind).length≤4096) :
    ∃ reply,Replied q reply ∧ runDnsService s memory (.data (q.segment behind)::later)=
      s.recordConnection .dns::(decodedEvents s (some (q.domain,q.qtype))++dnsSend true reply++
        [s.recordDisconnect .dns,.close]) := by
  have hmessage := q.length_message
  have hlength : (q.segment behind).length=2+(q.message.length+behind.length) := by
    rw [Query.segment,List.length_append,List.length_append]
    rfl
  have hreceived : received (q.segment behind)=(q.message,true) :=
    received_bigEndian16 (by omega) (by omega) behind
  obtain ⟨reply,hreplied,hanswer⟩ := dnsAnswer_query q s (by omega)
  refine ⟨reply,hreplied,?_⟩
  rw [runDnsService_received s memory later (List.ne_nil_of_length_pos (by omega)) hsize,hreceived,
    dnsAnswer_take s true (by rw [List.length_append]; omega)
      (by rw [List.take_left]; exact not_cutQuestion_query q),List.take_left,hanswer]

end Replies

/-- A legal query is decoded without a loss, recorded under its name and
answered by its type. -/
theorem query_decoded_and_answered (q : Query) (s : Session) (memory behind : Bytes)
    (later : List RecvResult) (hsize : (q.segment behind).length≤4096) :
    (∀ more,dnsParseDomainName (q.message++more) q.message.length dnsHeaderSize 512=
          some (q.name.length,q.domain) ∧
        dnsParseQtype (q.message++more) q.message.length (dnsHeaderSize+q.name.length)=q.qtype) ∧
      audits (runDnsService s memory (.data (q.segment behind)::later))=
        audits (s.recordConnection .dns::(decodedEvents s (some (q.domain,q.qtype))++
          [s.recordDisconnect .dns])) ∧
      ∃ reply,Replied q reply ∧
        sends (runDnsService s memory (.data (q.segment behind)::later))=
          [bigEndian16 reply.length,reply] := by
  obtain ⟨reply,hreplied,hrun⟩ := runDnsService_query q s memory behind later hsize
  obtain ⟨haudits,hsends⟩ := audits_sends_answer s (some (q.domain,q.qtype)) true hreplied.ne_nil
  rw [←hrun] at haudits hsends
  exact ⟨fun more => ⟨dnsParseDomainName_query q more,dnsParseQtype_query q more⟩,haudits,reply,
    hreplied,hsends⟩

/-- The transfer of a zone whose name has a label with a dot and a zero in it. -/
def zoneQuery : Query where
  header := [0,7,1,0,0,1,0,0,0,0,0,0]
  labels := [[97,46,0],[98]]
  qtype := 252
  qclass := 1
  rest := [9]
  length_header := rfl
  length_label := by simp
  length_labels := by simp
  length_name := by simp [labelBytes]
  qtype_lt := by simp
  qclass_lt := by simp

/-- The query is decoded and refused. -/
theorem zone_query_decoded_and_answered :
    (zoneQuery.segment [5]).length≤4096 ∧ ∃ reply,Replied zoneQuery reply ∧
      sends (runDnsService ⟨text "10.0.0.9",40000,text "id"⟩ []
        [.data (zoneQuery.segment [5])])=[bigEndian16 reply.length,reply] :=
  have hsize : (zoneQuery.segment [5]).length≤4096 := by decide
  ⟨hsize,(query_decoded_and_answered zoneQuery ⟨text "10.0.0.9",40000,text "id"⟩ [] [5] []
    hsize).2.2⟩

end HoneyDew.DnsQueries
