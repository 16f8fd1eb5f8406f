import HoneyDew.DnsReplies
import HoneyDew.DnsWire

/-!
# Whether DNS replies are messages

Every reply keeps the number of questions of the query. A refusal keeps all
bytes behind the header and announces no records; an A answer keeps the first
question only and appends one record.
-/

namespace HoneyDew.DnsWellFormed

open CText CMemory Service DnsService DnsReplies DnsWire

/-- A reply to a framed query: a message behind its length, with the identifier
of the query and the bit that makes it a response. -/
def WellAnswered (m : Bytes) (actions : List Action) : Prop :=
  ∃ reply,sent actions=bigEndian16 reply.length++reply ∧ reply.take 2=m.take 2 ∧
    128 ≤ (reply.getD 2 0).toNat ∧ WellFormed reply

/-- The first entry of a message, a question or a record, is of a type. -/
def FirstType (m : Bytes) (qtype : ℕ) : Prop :=
  ∃ behind size,NameAt m headerSize behind size ∧ size ≤ 255 ∧ behind+4 ≤ m.length ∧
    number16 m behind=qtype

section Parsing

variable {m : Bytes} {pos next size : ℕ}

/-- The byte of a message at a position it holds. -/
theorem getD_of_getElem? {i : ℕ} {b : Byte} (h : m[i]?=some b) : m.getD i 0=b := by
  rw [List.getD_eq_getElem?_getD,h,Option.getD_some]

/-- The label loop ends behind a name, whatever it has collected. -/
theorem dnsParseLabels_nameAt (h : NameAt m pos next size) {dsize allowed : ℕ} (domain : Bytes)
    (hallowed : size<2*allowed) :
    ∃ found,dnsParseLabels m m.length dsize allowed pos domain=some (next,found) := by
  induction h generalizing allowed domain with
  | root hbyte =>
    obtain ⟨allowed,rfl⟩ := Nat.exists_eq_add_one_of_ne_zero (show allowed≠0 by omega)
    have hpos := (List.getElem?_eq_some_iff.mp hbyte).1
    exact ⟨domain,dnsParseLabels_zero hpos (by rw [getD_of_getElem? hbyte]; rfl)⟩
  | @label pos next size l hbyte hpositive hshort hrest ih =>
    obtain ⟨allowed,rfl⟩ := Nat.exists_eq_add_one_of_ne_zero (show allowed≠0 by omega)
    have hpos := (List.getElem?_eq_some_iff.mp hbyte).1
    have hl := getD_of_getElem? hbyte
    have hlt := hrest.lt
    have hinside := hrest.le_length
    obtain ⟨found,hfound⟩ := ih ((domain++(if allowed=128 then [] else [46])++
      readAt m (pos+1) l.toNat).take (dsize-1)) (show size<2*allowed by omega)
    refine ⟨found,?_⟩
    rw [dnsParseLabels_label hpos (by rw [hl]; omega) (by rw [hl]; omega) (by rw [hl]; omega),hl]
    exact hfound
  | pointer hbyte hlow hpointer hheader hname hprior ih =>
    have hsize := hname.size_pos
    obtain ⟨allowed,rfl⟩ := Nat.exists_eq_add_one_of_ne_zero (show allowed≠0 by omega)
    have hpos := (List.getElem?_eq_some_iff.mp hbyte).1
    exact ⟨domain,dnsParseLabels_pointer hpos (by rwa [getD_of_getElem? hbyte])⟩

/-- The parser finds the end of the first name of a message. -/
theorem dnsParseDomainName_nameAt (h : NameAt m headerSize next size) (hsize : size ≤ 255) :
    ∃ parsed found,next=12+(parsed+1) ∧
      dnsParseDomainName m m.length dnsHeaderSize 512=some (parsed+1,found) := by
  have hlt : 12<next := h.lt
  have hwalk : ∃ found,dnsParseLabels m m.length 512 129 dnsHeaderSize []=some (next,found) :=
    dnsParseLabels_nameAt h [] (by omega)
  obtain ⟨found,hfound⟩ := hwalk
  refine ⟨next-13,found,by omega,?_⟩
  rw [dnsParseDomainName,hfound,Option.map_some]
  congr 2
  unfold dnsHeaderSize
  omega

/-- The first entry of a message is not cut off. -/
theorem not_cutQuestion (h : WellFormed m) : ¬CutQuestion m := by
  intro hcut
  obtain ⟨parsed,hinside,hshort,-,hparsed⟩ := hcut.parsed
  rcases h.first_name with ⟨hlength,-⟩|⟨behind,size,hname,hsize,hbehind⟩
  · unfold headerSize at hlength
    omega
  · obtain ⟨parsed',found',hend,hfound'⟩ := dnsParseDomainName_nameAt hname hsize
    obtain ⟨domain,hdomain,-⟩ := hparsed []
    rw [List.append_nil] at hdomain
    have hsame := (show _=some (parsed'+1,found') from hfound').symm.trans hdomain
    rw [Option.some_inj,Prod.mk.injEq] at hsame
    omega

end Parsing

section Replies

variable {m : Bytes}

/-- A reply with the header of the builders and some bytes behind it. -/
def replyWith (m : Bytes) (flags : Byte) (counts rest : Bytes) : Bytes :=
  replyHeader m flags counts++rest

/-- A message starts with the bytes the builders keep. -/
theorem exists_header (hm : 12 ≤ m.length) : ∃ a b c d e f rest,m=a::b::c::d::e::f::rest := by
  match m,hm with
  | a::b::c::d::e::f::rest,_ => exact ⟨a,b,c,d,e,f,rest,rfl⟩

/-- The identifier, the response bit and the counts of a reply. -/
theorem replyWith_header (hm : 12 ≤ m.length) (flags c₀ c₁ c₂ c₃ c₄ c₅ : Byte) (rest : Bytes) :
    (replyWith m flags [c₀,c₁,c₂,c₃,c₄,c₅] rest).take 2=m.take 2 ∧
      (replyWith m flags [c₀,c₁,c₂,c₃,c₄,c₅] rest).getD 2 0=0x81 ∧
      number16 (replyWith m flags [c₀,c₁,c₂,c₃,c₄,c₅] rest) 4=number16 m 4 ∧
      number16 (replyWith m flags [c₀,c₁,c₂,c₃,c₄,c₅] rest) 6=c₀.toNat*2^8+c₁.toNat ∧
      number16 (replyWith m flags [c₀,c₁,c₂,c₃,c₄,c₅] rest) 8=c₂.toNat*2^8+c₃.toNat ∧
      number16 (replyWith m flags [c₀,c₁,c₂,c₃,c₄,c₅] rest) 10=c₄.toNat*2^8+c₅.toNat := by
  obtain ⟨a,b,c,d,e,f,tail,rfl⟩ := exists_header hm
  exact ⟨rfl,rfl,rfl,rfl,rfl,rfl⟩

/-- The flags of a reply. -/
theorem getD_replyWith_flags (hm : 12 ≤ m.length) (flags : Byte) (counts rest : Bytes) :
    (replyWith m flags counts rest).getD 3 0=flags := by
  obtain ⟨a,b,c,d,e,f,tail,rfl⟩ := exists_header hm
  rfl

/-- The length of a reply. -/
theorem length_replyWith (hm : 12 ≤ m.length) (flags : Byte) {counts : Bytes}
    (hcounts : counts.length=6) (rest : Bytes) :
    (replyWith m flags counts rest).length=12+rest.length := by
  rw [replyWith,List.length_append,length_replyHeader flags hm hcounts]

/-- A reply agrees with the query as far as it copies it. -/
theorem agree_replyWith (hm : 12 ≤ m.length) (flags : Byte) {counts : Bytes}
    (hcounts : counts.length=6) (more : Bytes) {stop : ℕ} (hstop : stop ≤ m.length) :
    Agree m (replyWith m flags counts (readAt m 12 (stop-12)++more)) stop := by
  intro i hi hlt
  unfold headerSize at hi
  have hread : (readAt m 12 (stop-12)).length=stop-12 := length_readAt (by omega)
  rw [replyWith,List.getElem?_append_right (by rw [length_replyHeader flags hm hcounts]; omega),
    length_replyHeader flags hm hcounts,List.getElem?_append_left (by omega),readAt,
    List.getElem?_take_of_lt (by omega),List.getElem?_drop,Nat.add_sub_cancel' hi]

/-- What stands in a reply behind the copied bytes. -/
theorem getElem?_replyWith (hm : 12 ≤ m.length) (flags : Byte) {counts : Bytes}
    (hcounts : counts.length=6) (more : Bytes) {stop : ℕ} (hheader : 12 ≤ stop)
    (hstop : stop ≤ m.length) (i : ℕ) :
    (replyWith m flags counts (readAt m 12 (stop-12)++more))[stop+i]?=more[i]? := by
  have hread : (readAt m 12 (stop-12)).length=stop-12 := length_readAt (by omega)
  rw [replyWith,List.getElem?_append_right (by rw [length_replyHeader flags hm hcounts]; omega),
    length_replyHeader flags hm hcounts,List.getElem?_append_right (by omega),hread]
  congr 1
  omega

/-- A refusal: the counts of records are zero and everything behind the header
is kept. -/
def refusal (m : Bytes) (flags : Byte) : Bytes := replyWith m flags [0,0,0,0,0,0] (m.drop 12)

/-- The builder of refusals. -/
theorem dnsBuildServfail_eq (hm : 12 ≤ m.length) (hsize : m.length ≤ 4096) :
    dnsBuildServfail m m.length 4096=refusal m ((m.getD 3 0 &&& 0xF0) ||| 2) := by
  have hcopied : readAt m 0 m.length=m := by simp [readAt]
  unfold dnsBuildServfail
  rw [if_neg (by unfold dnsHeaderSize; omega),hcopied]
  exact overwrite_header _ hm rfl

/-- Other flags in a refusal. -/
theorem refusal_set (hm : 12 ≤ m.length) (flags flags' : Byte) :
    (refusal m flags).set 3 flags'=refusal m flags' := by
  obtain ⟨a,b,c,d,e,f,tail,rfl⟩ := exists_header hm
  rfl

/-- A refusal as a reply that copies everything. -/
theorem refusal_eq (m : Bytes) (flags : Byte) :
    refusal m flags=replyWith m flags [0,0,0,0,0,0] (readAt m 12 (m.length-12)++[]) := by
  unfold refusal readAt
  rw [List.append_nil,List.take_of_length_le (by simp)]

/-- A refusal is a message exactly when the query has no records. -/
theorem wellFormed_refusal_iff (h : WellFormed m) (flags : Byte) :
    WellFormed (refusal m flags) ↔ number16 m 6=0 ∧ number16 m 8=0 ∧ number16 m 10=0 := by
  have hm : 12 ≤ m.length := h.1
  have hagree : Agree m (refusal m flags) m.length := by
    rw [refusal_eq]
    exact agree_replyWith hm flags rfl [] (Nat.le_refl _)
  have hlength : (refusal m flags).length=m.length := by
    rw [refusal,length_replyWith hm flags rfl,List.length_drop]
    omega
  obtain ⟨-,-,hqd,han,hns,har⟩ := replyWith_header hm flags 0 0 0 0 0 0 (m.drop 12)
  constructor
  · intro hreply
    have hquestions := hreply.questions han hns har
    rw [hlength,show number16 (refusal m flags) 4=number16 m 4 from hqd] at hquestions
    refine h.no_records (hquestions.mono (fun _ _ => QuestionAt.lt) ?_ (Nat.le_refl _))
    intro p n hp hn hentry
    exact hentry.agree (fun i hi hlt => (hagree i hi hlt).symm) (Nat.le_refl _) hp hn
  · rintro ⟨hanswers,hauthorities,hadditional⟩
    have hquestions := h.questions hanswers hauthorities hadditional
    refine ⟨by rw [hlength]; exact hm,m.length,m.length,m.length,?_,?_,?_,?_⟩
    · rw [show number16 (refusal m flags) 4=number16 m 4 from hqd]
      exact hquestions.mono (fun _ _ => QuestionAt.lt)
        (fun p n hp hn hentry => hentry.agree hagree (Nat.le_of_eq hlength.symm) hp hn) (Nat.le_refl _)
    · rw [show number16 (refusal m flags) 6=0 from han]
      rfl
    · rw [show number16 (refusal m flags) 8=0 from hns]
      rfl
    · rw [show number16 (refusal m flags) 10=0 from har]
      exact hlength.symm

end Replies

section Answers

variable {m : Bytes} {behind size : ℕ}

/-- An A answer to a message whose first name ends at a position. -/
def answer (m : Bytes) (behind : ℕ) : Bytes :=
  replyWith m 0x80 [0,1,0,0,0,0] (readAt m 12 (behind+4-12)++answerRecord)

/-- The builder of A answers. -/
theorem dnsBuildFakeAResponse_answer (hbehind : 12 ≤ behind) (hinside : behind+4 ≤ m.length)
    (hsize : behind+20 ≤ 4096) :
    dnsBuildFakeAResponse m m.length behind 4096=answer m behind := by
  rw [dnsBuildFakeAResponse_eq (by omega) hbehind hsize hinside,answer,replyWith,
    show behind+4-12=behind-8 by omega,List.append_assoc]

/-- The length of an A answer. -/
theorem length_answer (hbehind : 12 ≤ behind) (hinside : behind+4 ≤ m.length) :
    (answer m behind).length=behind+20 := by
  rw [answer,length_replyWith (by omega) _ rfl,List.length_append,length_readAt (by omega)]
  show 12+(behind+4-12+16)=behind+20
  omega

/-- The bytes of the record of an A answer. -/
theorem getElem?_answer (hbehind : 12 ≤ behind) (hinside : behind+4 ≤ m.length) (i : ℕ) :
    (answer m behind)[behind+4+i]?=answerRecord[i]? :=
  getElem?_replyWith (by omega) _ rfl _ (by omega) hinside i

/-- The numbers in the record of an A answer. -/
theorem number16_answer (hbehind : 12 ≤ behind) (hinside : behind+4 ≤ m.length) (i : ℕ) :
    number16 (answer m behind) (behind+4+i)=number16 answerRecord i := by
  unfold number16
  simp only [List.getD_eq_getElem?_getD,Nat.add_assoc (behind+4) i 1,
    getElem?_answer hbehind hinside]

variable (hname : NameAt m headerSize behind size) (hinside : behind+4 ≤ m.length)

include hname hinside

/-- The name of the first entry is kept. -/
theorem nameAt_answer : NameAt (answer m behind) headerSize behind size := by
  have hlt : 12<behind := hname.lt
  exact hname.agree (agree_replyWith (by omega) _ rfl _ hinside) (Nat.le_refl _) (by omega)

/-- The record points to the name of the first entry. -/
theorem nameAt_answer_pointer :
    NameAt (answer m behind) (behind+4) (behind+6) size := by
  have hlt : 12<behind := hname.lt
  have hbytes := getElem?_answer (Nat.le_of_lt hlt) hinside
  exact .pointer (hbytes 0) (hbytes 1) (by decide) (by decide) (nameAt_answer hname hinside)
    (by omega)

/-- Behind the pointer, type and class of the record a root name can be read. -/
theorem nameAt_answer_root : NameAt (answer m behind) (behind+10) (behind+11) 1 :=
  .root (getElem?_answer (Nat.le_of_lt hname.lt) hinside 6)

/-- No name starts at the length of the data in the record. -/
theorem not_nameAt_answer (next size' : ℕ) : ¬NameAt (answer m behind) (behind+15) next size' := by
  have hlt : 12<behind := hname.lt
  have hbyte : (answer m behind)[behind+15]?=some 4 := getElem?_answer (Nat.le_of_lt hlt) hinside 11
  intro h
  cases h with
  | root hbyte' => exact absurd (hbyte.symm.trans hbyte') (by decide)
  | label hbyte' hpositive hshort hrest =>
    rw [hbyte,Option.some_inj] at hbyte'
    subst hbyte'
    have hend : behind+15+1+4<next := hrest.lt
    have hbound := hrest.le_length
    rw [length_answer (by omega) hinside] at hbound
    omega
  | pointer hbyte' hlow hpointer hheader hname' hprior =>
    rw [hbyte,Option.some_inj] at hbyte'
    subst hbyte'
    exact absurd hpointer (by decide)

/-- An A answer to one question is a message. -/
theorem wellFormed_answer (hsize : size ≤ 255) (hone : number16 m 4=1) :
    WellFormed (answer m behind) := by
  have hlt : 12<behind := hname.lt
  have hlength := length_answer (Nat.le_of_lt hlt) hinside
  obtain ⟨-,-,hqd,han,hns,har⟩ := replyWith_header (show 12 ≤ m.length by omega) 0x80 0 1 0 0 0 0
    (readAt m 12 (behind+4-12)++answerRecord)
  have hfour : number16 (answer m behind) (behind+4+10)=4 :=
    number16_answer (Nat.le_of_lt hlt) hinside 10
  have hquestion : QuestionAt (answer m behind) headerSize (behind+4) :=
    ⟨behind,size,nameAt_answer hname hinside,hsize,rfl,by omega⟩
  have hrecord : RecordAt (answer m behind) (behind+4) (behind+20) :=
    ⟨behind+6,size,nameAt_answer_pointer hname hinside,hsize,by omega,by
      rw [show behind+6+8=behind+4+10 by omega,hfour],by omega⟩
  refine ⟨by unfold headerSize; omega,behind+4,behind+20,behind+20,?_,?_,?_,?_⟩
  · rw [show number16 (answer m behind) 4=1 from hqd.trans hone]
    exact ⟨behind+4,hquestion,rfl⟩
  · rw [show number16 (answer m behind) 6=1 from han]
    exact ⟨behind+20,hrecord,rfl⟩
  · rw [show number16 (answer m behind) 8=0 from hns]
    rfl
  · rw [show number16 (answer m behind) 10=0 from har]
    exact hlength.symm

/-- An A answer to anything but one question is not a message. -/
theorem not_wellFormed_answer (hmany : number16 m 4≠1) : ¬WellFormed (answer m behind) := by
  have hlt : 12<behind := hname.lt
  have hlength := length_answer (Nat.le_of_lt hlt) hinside
  obtain ⟨-,-,hqd,han,hns,har⟩ := replyWith_header (show 12 ≤ m.length by omega) 0x80 0 1 0 0 0 0
    (readAt m 12 (behind+4-12)++answerRecord)
  rintro ⟨-,a,n,d,hquestions,ha,hn,hd⟩
  rw [show number16 (answer m behind) 4=number16 m 4 from hqd] at hquestions
  rw [show number16 (answer m behind) 6=1 from han] at ha
  rw [show number16 (answer m behind) 8=0 from hns] at hn
  rw [show number16 (answer m behind) 10=0 from har] at hd
  obtain rfl : n=d := hn
  obtain rfl : n=(answer m behind).length := hd
  obtain ⟨mid,hrecord,hend⟩ := ha
  obtain rfl : mid=(answer m behind).length := hend
  obtain ⟨e,z,hrecordName,-,hroom,hrecordEnd,-⟩ := hrecord
  match hcount : number16 m 4 with
  | 0 =>
    -- the record of the query is read again, with a data length of one
    rw [hcount] at hquestions
    obtain rfl : headerSize=a := hquestions
    obtain ⟨rfl,-⟩ := hrecordName.unique (nameAt_answer hname hinside)
    have hone : number16 (answer m e) (e+4+4)=1 := number16_answer (Nat.le_of_lt hlt) hinside 4
    rw [show e+8=e+4+4 by omega,hone,hlength] at hrecordEnd
    omega
  | 1 => exact hmany hcount
  | count+2 =>
    rw [hcount] at hquestions
    obtain ⟨p,⟨e₁,z₁,hfirst,-,rfl,-⟩,hquestions⟩ := hquestions
    obtain ⟨rfl,-⟩ := hfirst.unique (nameAt_answer hname hinside)
    obtain ⟨p,⟨e₂,z₂,hsecond,-,rfl,-⟩,hquestions⟩ := hquestions
    obtain ⟨rfl,-⟩ := hsecond.unique (nameAt_answer_pointer hname hinside)
    match count with
    | 0 =>
      -- the record is read behind the second question, nine bytes from the end
      obtain rfl : e₁+6+4=a := hquestions
      obtain ⟨rfl,-⟩ := hrecordName.unique (nameAt_answer_root hname hinside)
      omega
    | 1 =>
      obtain ⟨p,⟨e₃,z₃,hthird,-,rfl,-⟩,hquestions⟩ := hquestions
      obtain ⟨rfl,-⟩ := hthird.unique (nameAt_answer_root hname hinside)
      obtain rfl : e₁+11+4=a := hquestions
      exact not_nameAt_answer hname hinside _ _ hrecordName
    | count+2 =>
      obtain ⟨p,⟨e₃,z₃,hthird,-,rfl,-⟩,hquestions⟩ := hquestions
      obtain ⟨rfl,-⟩ := hthird.unique (nameAt_answer_root hname hinside)
      obtain ⟨p,⟨e₄,z₄,hfourth,-⟩,-⟩ := hquestions
      exact not_nameAt_answer hname hinside _ _ hfourth

end Answers

section Framing

variable {m : Bytes}

/-- A number of two bytes is read back. -/
theorem readBigEndian16_bigEndian16 {n : ℕ} (hn : n<2^16) (rest : Bytes) :
    readBigEndian16 (bigEndian16 n++rest) 0=n := by
  have hbytes : bigEndian16 n++rest=UInt8.ofNat (n/256%256)::UInt8.ofNat (n%256)::rest := rfl
  rw [hbytes,readBigEndian16]
  simp only [List.getD_cons_zero,List.getD_cons_succ,Nat.zero_add,UInt8.toNat_ofNat']
  omega

/-- A message behind its length is received as such, whatever follows it. -/
theorem received_bigEndian16 (hm : 12 ≤ m.length) (hsize : m.length<2^16) (behind : Bytes) :
    received (bigEndian16 m.length++(m++behind))=(m,true) := by
  have hnumber : readBigEndian16 (bigEndian16 m.length++(m++behind)) 0=m.length :=
    readBigEndian16_bigEndian16 hsize (m++behind)
  have hlength : (bigEndian16 m.length++(m++behind)).length=2+(m.length+behind.length) := by
    rw [List.length_append,List.length_append]
    rfl
  have hframed : Framed (bigEndian16 m.length++(m++behind))
      (bigEndian16 m.length++(m++behind)).length := by
    unfold Framed dnsHeaderSize
    omega
  rw [received_framed hframed,hnumber]
  exact congrArg (·,true) List.take_left

/-- What a session sends for a framed message that is well formed. -/
theorem sent_runDnsService_framed (s : Session) (memory : Bytes) (later : List RecvResult)
    (h : WellFormed m) (hsize : m.length ≤ 4094) :
    sent (runDnsService s memory (.data (bigEndian16 m.length++m)::later))=
      sent (dnsAnswer s m m.length true) := by
  have hm : 12 ≤ m.length := h.1
  have hlength : (bigEndian16 m.length++m).length=m.length+2 := rfl
  have hreceived := received_bigEndian16 hm (by omega) []
  rw [List.append_nil] at hreceived
  rw [sent_runDnsService s memory later (List.ne_nil_of_length_pos (by omega)) (by omega),
    hreceived,dnsAnswer_take s true (by simp) (by simpa using not_cutQuestion h)]
  simp

/-- A session that sends one reply answers well exactly when the reply is a
message. -/
theorem wellAnswered_reply {actions : List Action} {reply : Bytes}
    (hsent : sent actions=sent (dnsSend true reply)) (hne : reply≠[])
    (hid : reply.take 2=m.take 2) (hresponse : reply.getD 2 0=0x81) :
    WellAnswered m actions ↔ WellFormed reply := by
  rw [sent_dnsSend true hne,if_pos rfl] at hsent
  constructor
  · rintro ⟨reply',hsent',-,-,hwell⟩
    have hsame := List.append_inj_right (hsent'.symm.trans hsent) rfl
    rwa [hsame] at hwell
  · intro hwell
    exact ⟨reply,hsent,hid,by rw [hresponse]; decide,hwell⟩

end Framing

section Answering

variable {m : Bytes} {behind size : ℕ}

/-- The kind of a reply is decided by the first type. -/
theorem firstType_iff (hname : NameAt m headerSize behind size) (hsize : size ≤ 255)
    (hinside : behind+4 ≤ m.length) (qtype : ℕ) : FirstType m qtype ↔ number16 m behind=qtype := by
  constructor
  · rintro ⟨behind',size',hname',-,-,htype⟩
    rw [←htype,(hname.unique hname').1]
  · intro htype
    exact ⟨behind,size,hname,hsize,hinside,htype⟩

/-- A session that refuses answers well exactly when the query has no records. -/
theorem wellAnswered_refusal_iff {actions : List Action} (h : WellFormed m) (flags : Byte)
    (hsent : sent actions=sent (dnsSend true (refusal m flags))) :
    WellAnswered m actions ↔ number16 m 6=0 ∧ number16 m 8=0 ∧ number16 m 10=0 := by
  have hm : 12 ≤ m.length := h.1
  obtain ⟨hid,hresponse,-⟩ := replyWith_header hm flags 0 0 0 0 0 0 (m.drop 12)
  have hlength : (refusal m flags).length=12+(m.drop 12).length := length_replyWith hm flags rfl _
  rw [wellAnswered_reply hsent (List.ne_nil_of_length_pos (by omega)) hid hresponse]
  exact wellFormed_refusal_iff h flags

/-- A session that answers with an A record answers well exactly when there is
one question. -/
theorem wellAnswered_answer_iff {actions : List Action}
    (hname : NameAt m headerSize behind size) (hsize : size ≤ 255) (hinside : behind+4 ≤ m.length)
    (hsent : sent actions=sent (dnsSend true (answer m behind))) :
    WellAnswered m actions ↔ number16 m 4=1 := by
  have hlt : 12<behind := hname.lt
  obtain ⟨hid,hresponse,-⟩ := replyWith_header (show 12 ≤ m.length by omega) 0x80 0 1 0 0 0 0
    (readAt m 12 (behind+4-12)++answerRecord)
  have hlength := length_answer (Nat.le_of_lt hlt) hinside
  rw [wellAnswered_reply hsent (List.ne_nil_of_length_pos (by omega)) hid hresponse]
  constructor
  · intro hwell
    by_contra hmany
    exact not_wellFormed_answer hname hinside hmany hwell
  · exact wellFormed_answer hname hinside hsize

/-- What is sent for a header alone. -/
theorem sent_dnsAnswer_header (s : Session) (hlength : m.length=headerSize) :
    ∃ flags,sent (dnsAnswer s m m.length true)=sent (dnsSend true (refusal m flags)) := by
  have hm : m.length=12 := hlength
  have hparse : dnsParseDomainName m m.length dnsHeaderSize 512=some (0,[]) := by
    unfold dnsParseDomainName
    rw [dnsParseLabels_end (show m.length ≤ dnsHeaderSize from Nat.le_of_eq hm)]
    rfl
  refine ⟨(m.getD 3 0 &&& 0xF0) ||| 2,?_⟩
  unfold dnsAnswer
  rw [if_neg (by unfold dnsHeaderSize; omega),hparse]
  dsimp only
  rw [dnsBuildServfail_eq (by omega) (by omega)]

/-- What is sent for a message with a first entry. -/
theorem sent_dnsAnswer_entry (s : Session) (hm : m.length ≤ 4094)
    (hname : NameAt m headerSize behind size) (hsize : size ≤ 255) (hinside : behind+4 ≤ m.length) :
    (number16 m behind=1 ∧
      sent (dnsAnswer s m m.length true)=sent (dnsSend true (answer m behind))) ∨
    (number16 m behind≠1 ∧ ∃ flags,
      sent (dnsAnswer s m m.length true)=sent (dnsSend true (refusal m flags))) := by
  have hlt : 12<behind := hname.lt
  have hnext : behind ≤ 12+size+1 := hname.next_le
  obtain ⟨parsed,found,hend,hparse⟩ := dnsParseDomainName_nameAt hname hsize
  have htype : dnsParseQtype m m.length behind=number16 m behind := if_neg (by omega)
  have hbehind : dnsHeaderSize+(parsed+1)=behind := hend.symm
  unfold dnsAnswer
  rw [if_neg (by unfold dnsHeaderSize; omega),hparse]
  dsimp only
  rw [hbehind,htype,dnsBuildServfail_eq (by omega) (by omega)]
  by_cases hzone : number16 m behind=252
  · refine .inr ⟨by omega,
      ((refusal m ((m.getD 3 0 &&& 0xF0) ||| 2)).getD 3 0 &&& 0xF0) ||| 5,?_⟩
    rw [if_pos hzone,refusal_set (by omega)]
    rfl
  · rw [if_neg hzone]
    by_cases haddress : number16 m behind=1
    · refine .inl ⟨haddress,?_⟩
      rw [if_pos haddress,dnsBuildFakeAResponse_answer (by omega) hinside (by omega)]
      rfl
    · refine .inr ⟨haddress,(m.getD 3 0 &&& 0xF0) ||| 2,?_⟩
      rw [if_neg haddress]
      rfl

end Answering

/-- A well-formed query is answered by a well-formed reply exactly when its
first entry asks for an A record and is its only question, or when it asks for
something else and the query has no records. -/
theorem wellAnswered_iff (s : Session) (memory m : Bytes) (later : List RecvResult)
    (h : WellFormed m) (hsize : m.length ≤ 4094) :
    WellAnswered m (runDnsService s memory (.data (bigEndian16 m.length++m)::later)) ↔
      FirstType m 1 ∧ number16 m 4=1 ∨
      ¬FirstType m 1 ∧ number16 m 6=0 ∧ number16 m 8=0 ∧ number16 m 10=0 := by
  have hsent := sent_runDnsService_framed s memory later h hsize
  rcases h.first_name with ⟨hlength,-⟩|⟨behind,size,hname,hname255,hinside⟩
  · obtain ⟨flags,hflags⟩ := sent_dnsAnswer_header s hlength
    have hnone : ¬FirstType m 1 := by
      rintro ⟨behind,size,hname,-,hinside,-⟩
      have hlt := hname.lt
      omega
    rw [wellAnswered_refusal_iff h flags (hsent.trans hflags)]
    simp [hnone]
  · rw [firstType_iff hname hname255 hinside]
    rcases sent_dnsAnswer_entry s hsize hname hname255 hinside with ⟨htype,hanswer⟩|⟨htype,flags,hflags⟩
    · rw [wellAnswered_answer_iff hname hname255 hinside (hsent.trans hanswer)]
      simp [htype]
    · rw [wellAnswered_refusal_iff h flags (hsent.trans hflags)]
      simp [htype]

/-- A query with one question and an EDNS record behind it. -/
def ednsQuery (qtype : Byte) : Bytes :=
  [0,7,1,0,0,1,0,0,0,0,0,1]++([1,97,0,0,qtype,0,1]++[0,0,41,16,0,0,0,0,0,0,0])

/-- The name of the question. -/
theorem nameAt_ednsQuery (qtype : Byte) : NameAt (ednsQuery qtype) headerSize 15 3 :=
  .label (l := 1) rfl (by decide) (by decide) (.root rfl)

/-- The counts of the query describe it. -/
theorem wellFormed_ednsQuery (qtype : Byte) : WellFormed (ednsQuery qtype) := by
  have hlength : (ednsQuery qtype).length=30 := rfl
  have hdata : number16 (ednsQuery qtype) (20+8)=0 := by simp [number16,ednsQuery]
  have hquestion : QuestionAt (ednsQuery qtype) headerSize 19 :=
    ⟨15,3,nameAt_ednsQuery qtype,by decide,rfl,by omega⟩
  have hrecord : RecordAt (ednsQuery qtype) 19 30 :=
    ⟨20,1,.root (by simp [ednsQuery]),by decide,by omega,by omega,by omega⟩
  refine ⟨by rw [hlength]; decide,19,19,19,?_,?_,?_,?_⟩
  · rw [show number16 (ednsQuery qtype) 4=1 by simp [number16,ednsQuery]]
    exact ⟨19,hquestion,rfl⟩
  · rw [show number16 (ednsQuery qtype) 6=0 by simp [number16,ednsQuery]]
    rfl
  · rw [show number16 (ednsQuery qtype) 8=0 by simp [number16,ednsQuery]]
    rfl
  · rw [show number16 (ednsQuery qtype) 10=1 by simp [number16,ednsQuery]]
    exact ⟨30,hrecord,rfl⟩

/-- The record is dropped where the query is answered. -/
theorem edns_address_query_well_answered :
    WellAnswered (ednsQuery 1) (runDnsService ⟨text "10.0.0.9",40000,text "id"⟩ []
      [.data (bigEndian16 (ednsQuery 1).length++ednsQuery 1)]) :=
  (wellAnswered_iff _ [] (ednsQuery 1) [] (wellFormed_ednsQuery 1) (by decide)).mpr
    (.inl ⟨⟨15,3,nameAt_ednsQuery 1,by decide,by decide,rfl⟩,rfl⟩)

/-- The refusal of a query for an AAAA record keeps the EDNS record and announces
none. -/
theorem edns_refusal_not_well_answered :
    ∃ m,WellFormed m ∧ m.length ≤ 4094 ∧ ∀ memory,
      ¬WellAnswered m (runDnsService ⟨text "10.0.0.9",40000,text "id"⟩ memory
        [.data (bigEndian16 m.length++m)]) := by
  refine ⟨ednsQuery 28,wellFormed_ednsQuery 28,by decide,?_⟩
  intro memory hanswered
  have hsent := sent_runDnsService_framed ⟨text "10.0.0.9",40000,text "id"⟩ memory []
    (wellFormed_ednsQuery 28) (by decide)
  obtain ⟨htype,-⟩|⟨-,flags,hflags⟩ := sent_dnsAnswer_entry ⟨text "10.0.0.9",40000,text "id"⟩
    (show (ednsQuery 28).length ≤ 4094 by decide) (nameAt_ednsQuery 28) (by decide) (by decide)
  · exact absurd htype (by decide)
  · have hnone := (wellAnswered_refusal_iff (wellFormed_ednsQuery 28) flags
      (hsent.trans hflags)).mp hanswered
    exact absurd hnone.2.2 (by decide)

end HoneyDew.DnsWellFormed
