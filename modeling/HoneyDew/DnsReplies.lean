import HoneyDew.DnsService

/-!
# What a DNS reply is made of

The parser of names and the builder of refusals stay inside the message. The
builder of A answers copies four bytes behind the name without asking for the
length of the message, and a question that is cut off inside these four bytes
is completed with what the buffer holds behind the message.
-/

namespace HoneyDew.DnsReplies

open CText CMemory Service DnsService

/-- The labels of a name on the wire, each behind its length. -/
def labelBytes (labels : List Bytes) : Bytes := labels.flatMap (fun l => UInt8.ofNat l.length::l)

/-- A name as the service walks over it: at most 128 labels of 1 to 191 bytes,
behind them a zero or the two bytes of a compression pointer. -/
structure QuestionName (labels : List Bytes) (ending : Bytes) : Prop where
  /-- The loop gives up behind this number of labels. -/
  length_labels : labels.length ≤ 128
  /-- Every length byte is positive and below those of the pointers. -/
  length_label : ∀ l∈labels,0<l.length ∧ l.length<192
  /-- The loop stops at a zero or behind a pointer. -/
  ending : ending=[0] ∨ ∃ c d,192 ≤ c.toNat ∧ ending=[c,d]

/-- A message that asks for an A record and ends right behind the type or one
byte behind it, short enough for the answer to fit the reply buffer. -/
def CutQuestion (m : Bytes) : Prop :=
  ∃ header labels ending tail,header.length=12 ∧ QuestionName labels ending ∧ tail.length<2 ∧
    (labelBytes labels++ending).length ≤ 4064 ∧
    m=header++(labelBytes labels++ending++([0,1]++tail))

section Steps

variable {msg : Bytes} {len dsize allowed pos : ℕ} {domain : Bytes}

/-- The loop ends where the message ends. -/
theorem dnsParseLabels_end (hpos : len ≤ pos) :
    dnsParseLabels msg len dsize (allowed+1) pos domain=some (pos,domain) := if_pos hpos

/-- The loop ends behind a zero. -/
theorem dnsParseLabels_zero (hpos : pos<len) (hlabel : (msg.getD pos 0).toNat=0) :
    dnsParseLabels msg len dsize (allowed+1) pos domain=some (pos+1,domain) := by
  rw [dnsParseLabels,if_neg (by omega)]
  exact if_pos hlabel

/-- The loop ends behind a compression pointer. -/
theorem dnsParseLabels_pointer (hpos : pos<len) (hlabel : 192 ≤ (msg.getD pos 0).toNat) :
    dnsParseLabels msg len dsize (allowed+1) pos domain=some (pos+2,domain) := by
  rw [dnsParseLabels,if_neg (by omega)]
  dsimp only
  rw [if_neg (by omega),if_pos hlabel]

/-- The loop fails at a label that the message does not hold. -/
theorem dnsParseLabels_cut (hpos : pos<len) (hzero : (msg.getD pos 0).toNat≠0)
    (hlabel : (msg.getD pos 0).toNat<192) (hcut : len<pos+1+(msg.getD pos 0).toNat) :
    dnsParseLabels msg len dsize (allowed+1) pos domain=none := by
  rw [dnsParseLabels,if_neg (by omega)]
  dsimp only
  rw [if_neg hzero,if_neg (by omega),if_pos hcut]

/-- The loop goes on behind a label. -/
theorem dnsParseLabels_label (hpos : pos<len) (hzero : (msg.getD pos 0).toNat≠0)
    (hlabel : (msg.getD pos 0).toNat<192) (hinside : pos+1+(msg.getD pos 0).toNat ≤ len) :
    dnsParseLabels msg len dsize (allowed+1) pos domain=
      dnsParseLabels msg len dsize allowed (pos+1+(msg.getD pos 0).toNat)
        ((domain++(if allowed=128 then [] else [46])++
          readAt msg (pos+1) (msg.getD pos 0).toNat).take (dsize-1)) := by
  rw [dnsParseLabels,if_neg (by omega)]
  dsimp only
  rw [if_neg hzero,if_neg (by omega),if_neg (by omega)]

end Steps

section Reads

variable {msg : Bytes} {len : ℕ}

/-- A byte of the message is read in its initial part. -/
theorem getD_take {i : ℕ} (h : i<len) : (msg.take len).getD i 0=msg.getD i 0 := by
  rw [List.getD_eq_getElem?_getD,List.getD_eq_getElem?_getD,List.getElem?_take_of_lt h]

/-- A read inside the message is a read of its initial part. -/
theorem readAt_take {offset n : ℕ} (h : offset+n ≤ len) :
    readAt (msg.take len) offset n=readAt msg offset n := by
  unfold readAt
  rw [List.drop_take,List.take_take,Nat.min_eq_left (by omega)]

/-- A number inside the message is read in its initial part. -/
theorem readBigEndian16_take {offset : ℕ} (h : offset+2 ≤ len) :
    readBigEndian16 (msg.take len) offset=readBigEndian16 msg offset := by
  unfold readBigEndian16
  rw [getD_take (by omega),getD_take (by omega)]

/-- The label loop reads inside the message only. -/
theorem dnsParseLabels_take (dsize allowed pos : ℕ) (domain : Bytes) :
    dnsParseLabels (msg.take len) len dsize allowed pos domain=
      dnsParseLabels msg len dsize allowed pos domain := by
  induction allowed generalizing pos domain with
  | zero => rfl
  | succ allowed ih =>
    rcases Nat.lt_or_ge pos len with hpos|hpos
    · have hbyte : (msg.take len).getD pos 0=msg.getD pos 0 := getD_take hpos
      by_cases hzero : (msg.getD pos 0).toNat=0
      · rw [dnsParseLabels_zero hpos hzero,dnsParseLabels_zero hpos (by rw [hbyte,hzero])]
      · rcases Nat.lt_or_ge (msg.getD pos 0).toNat 192 with hlabel|hpointer
        · rcases Nat.lt_or_ge len (pos+1+(msg.getD pos 0).toNat) with hcut|hinside
          · rw [dnsParseLabels_cut hpos hzero hlabel hcut]
            exact dnsParseLabels_cut hpos (by rwa [hbyte]) (by rwa [hbyte]) (by rwa [hbyte])
          · rw [dnsParseLabels_label hpos hzero hlabel hinside,
              dnsParseLabels_label hpos (by rwa [hbyte]) (by rwa [hbyte]) (by rwa [hbyte]),
              hbyte,readAt_take (by omega),ih]
        · rw [dnsParseLabels_pointer hpos hpointer,
            dnsParseLabels_pointer hpos (by rwa [hbyte])]
    · rw [dnsParseLabels_end hpos,dnsParseLabels_end hpos]

/-- The type is read inside the message only. -/
theorem dnsParseQtype_take (qnameEnd : ℕ) :
    dnsParseQtype (msg.take len) len qnameEnd=dnsParseQtype msg len qnameEnd := by
  unfold dnsParseQtype
  split
  · rfl
  · exact readBigEndian16_take (by omega)

/-- A refusal copies the message only. -/
theorem dnsBuildServfail_take (rsize : ℕ) :
    dnsBuildServfail (msg.take len) len rsize=dnsBuildServfail msg len rsize := by
  unfold dnsBuildServfail
  rw [readAt_take (by omega)]

/-- The A answer copies the message only when the question is complete. -/
theorem dnsBuildFakeAResponse_take {qnameEnd rsize : ℕ}
    (h : qnameEnd+4 ≤ len ∨ rsize<qnameEnd+20) :
    dnsBuildFakeAResponse (msg.take len) len qnameEnd rsize=
      dnsBuildFakeAResponse msg len qnameEnd rsize := by
  unfold dnsBuildFakeAResponse
  dsimp only
  rw [dnsBuildServfail_take]
  split
  · rfl
  · rename_i hbuilt
    rw [readAt_take (by omega)]

end Reads

section Names

variable {msg : Bytes} {len dsize : ℕ}

/-- The byte at the start of what is left. -/
theorem getD_of_drop {pos : ℕ} {b : Byte} {rest : Bytes} (h : msg.drop pos=b::rest) :
    msg.getD pos 0=b := by
  have hget := congrArg (fun l => l.getD 0 0) h
  simpa only [List.getD_eq_getElem?_getD,List.getElem?_drop,Nat.add_zero,List.getElem?_cons_zero,
    Option.getD_some] using hget

/-- What is left inside a list starts with its byte there. -/
theorem drop_eq_getD_cons {pos : ℕ} (h : pos < msg.length) :
    msg.drop pos=msg.getD pos 0::msg.drop (pos+1) := by
  rw [List.drop_eq_getElem_cons h,List.getD_eq_getElem?_getD,List.getElem?_eq_getElem h,
    Option.getD_some]

/-- The loop goes on behind a label on the wire, with its bytes behind the text. -/
theorem dnsParseLabels_wire {l rest : Bytes} {pos : ℕ} (dsize allowed : ℕ) (domain : Bytes)
    (hpositive : 0<l.length) (hshort : l.length<192)
    (hmsg : msg.drop pos=UInt8.ofNat l.length::(l++rest)) (hlen : pos+1+l.length ≤ len) :
    dnsParseLabels msg len dsize (allowed+1) pos domain=
      dnsParseLabels msg len dsize allowed (pos+1+l.length)
        ((domain++(if allowed=128 then [] else [46])++l).take (dsize-1)) ∧
      msg.drop (pos+1+l.length)=rest := by
  have hbyte : (msg.getD pos 0).toNat=l.length := by
    rw [getD_of_drop hmsg,UInt8.toNat_ofNat']
    omega
  have hread : readAt msg (pos+1) l.length=l := by
    rw [readAt,←List.drop_drop,hmsg,List.drop_succ_cons,List.drop_zero,List.take_left]
  constructor
  · rw [dnsParseLabels_label (by omega) (by omega) (by omega) (by omega),hbyte,hread]
  · rw [←List.drop_drop,←List.drop_drop,hmsg,List.drop_succ_cons,List.drop_zero,List.drop_left]

/-- The loop walks over a whole name. -/
theorem dnsParseLabels_name {labels : List Bytes} {ending back : Bytes} {allowed pos : ℕ}
    (domain : Bytes) (hallowed : labels.length<allowed) (hname : ∀ l∈labels,0<l.length ∧ l.length<192)
    (hending : ending=[0] ∨ ∃ c d,192 ≤ c.toNat ∧ ending=[c,d])
    (hmsg : msg.drop pos=labelBytes labels++ending++back)
    (hlen : pos+(labelBytes labels++ending).length ≤ len) :
    ∃ found,dnsParseLabels msg len dsize allowed pos domain=
      some (pos+(labelBytes labels++ending).length,found) := by
  induction labels generalizing allowed pos domain with
  | nil =>
    obtain ⟨allowed,rfl⟩ := Nat.exists_eq_add_one_of_ne_zero (Nat.ne_of_gt hallowed)
    rcases hending with rfl|⟨c,d,hc,rfl⟩
    · have hbyte : msg.getD pos 0=0 := getD_of_drop hmsg
      exact ⟨domain,dnsParseLabels_zero hlen (by rw [hbyte]; rfl)⟩
    · have hbyte : msg.getD pos 0=c := getD_of_drop hmsg
      have hpos : pos<len := Nat.lt_of_lt_of_le (Nat.lt_add_of_pos_right Nat.zero_lt_two) hlen
      exact ⟨domain,dnsParseLabels_pointer hpos (by rwa [hbyte])⟩
  | cons l labels ih =>
    obtain ⟨allowed,rfl⟩ := Nat.exists_eq_add_one_of_ne_zero (Nat.ne_of_gt (Nat.zero_lt_of_lt hallowed))
    obtain ⟨hpositive,hshort⟩ := hname l List.mem_cons_self
    have hwire : labelBytes (l::labels)=UInt8.ofNat l.length::(l++labelBytes labels) := rfl
    rw [hwire] at hmsg hlen ⊢
    simp only [List.cons_append,List.append_assoc] at hmsg
    simp only [List.length_append,List.length_cons] at hlen hallowed
    have hcount : labels.length<allowed := by omega
    obtain ⟨hstep,hnext⟩ := dnsParseLabels_wire dsize allowed domain hpositive hshort hmsg
      (show pos+1+l.length ≤ len by omega)
    rw [←List.append_assoc] at hnext
    obtain ⟨found,hfound⟩ := ih ((domain++(if allowed=128 then [] else [46])++l).take (dsize-1)) hcount
      (fun x hx => hname x (List.mem_cons_of_mem _ hx)) hnext (by rw [List.length_append]; omega)
    refine ⟨found,?_⟩
    rw [hstep,hfound]
    simp only [List.length_append,List.length_cons]
    congr 2
    omega

/-- Where the loop ends inside the message it has walked over a name. -/
theorem name_of_dnsParseLabels {allowed pos next : ℕ} {domain found : Bytes}
    (hlen : len ≤ msg.length) (hnext : next<len)
    (hparse : dnsParseLabels msg len dsize allowed pos domain=some (next,found)) :
    ∃ labels ending,labels.length<allowed ∧ (∀ l∈labels,0<l.length ∧ l.length<192) ∧
      (ending=[0] ∨ ∃ c d,192 ≤ c.toNat ∧ ending=[c,d]) ∧
      msg.drop pos=labelBytes labels++ending++msg.drop next ∧
      next=pos+(labelBytes labels++ending).length := by
  induction allowed generalizing pos domain with
  | zero => exact absurd hparse (by rw [dnsParseLabels]; exact nofun)
  | succ allowed ih =>
    rcases Nat.lt_or_ge pos len with hpos|hpos
    · have hdrop := drop_eq_getD_cons (Nat.lt_of_lt_of_le hpos hlen)
      by_cases hzero : (msg.getD pos 0).toNat=0
      · rw [dnsParseLabels_zero hpos hzero,Option.some_inj,Prod.mk.injEq] at hparse
        refine ⟨[],[0],by simp only [List.length_nil,Nat.zero_lt_succ],nofun,.inl rfl,?_,hparse.1.symm⟩
        rw [hdrop,←hparse.1,show msg.getD pos 0=0 from UInt8.toNat_inj.mp hzero]
        rfl
      · rcases Nat.lt_or_ge (msg.getD pos 0).toNat 192 with hlabel|hpointer
        · rcases Nat.lt_or_ge len (pos+1+(msg.getD pos 0).toNat) with hcut|hinside
          · rw [dnsParseLabels_cut hpos hzero hlabel hcut] at hparse
            exact absurd hparse nofun
          · rw [dnsParseLabels_label hpos hzero hlabel hinside] at hparse
            obtain ⟨labels,ending,hcount,hlabels,hending,hmsg,hend⟩ := ih hparse
            have hsize : (readAt msg (pos+1) (msg.getD pos 0).toNat).length=(msg.getD pos 0).toNat :=
              length_readAt (by omega)
            refine ⟨readAt msg (pos+1) (msg.getD pos 0).toNat::labels,ending,
              Nat.succ_lt_succ hcount,?_,hending,?_,?_⟩
            · intro l hl
              rcases List.mem_cons.mp hl with rfl|hl
              · omega
              · exact hlabels l hl
            · rw [hdrop,←readAt_append_drop msg (pos+1) (msg.getD pos 0).toNat,hmsg]
              unfold labelBytes
              rw [List.flatMap_cons,hsize,UInt8.ofNat_toNat]
              simp only [List.cons_append,List.append_assoc]
            · unfold labelBytes at hend ⊢
              rw [List.flatMap_cons]
              simp only [List.length_append,List.length_cons] at hend ⊢
              omega
        · rw [dnsParseLabels_pointer hpos hpointer,Option.some_inj,Prod.mk.injEq] at hparse
          have hsecond : pos+1 < msg.length := by omega
          refine ⟨[],[msg.getD pos 0,msg.getD (pos+1) 0],
            by simp only [List.length_nil,Nat.zero_lt_succ],nofun,
            .inr ⟨_,_,hpointer,rfl⟩,?_,hparse.1.symm⟩
          rw [hdrop,drop_eq_getD_cons hsecond,←hparse.1]
          rfl
    · rw [dnsParseLabels_end hpos,Option.some_inj,Prod.mk.injEq] at hparse
      omega

end Names

section Answers

variable {m : Bytes}

/-- The parser and the type reader find the end of a question cut off, whatever
stands behind the message. -/
theorem CutQuestion.parsed (h : CutQuestion m) :
    ∃ parsed,12+(parsed+1)+2 ≤ m.length ∧ m.length<12+(parsed+1)+4 ∧ 12+(parsed+1)+20 ≤ 4096 ∧
      ∀ more,∃ domain,dnsParseDomainName (m++more) m.length 12 512=some (parsed+1,domain) ∧
        dnsParseQtype (m++more) m.length (12+(parsed+1))=1 := by
  obtain ⟨header,labels,ending,tail,hheader,hname,htail,hsize,hm⟩ := h
  have hpositive : 0<ending.length := by
    rcases hname.ending with rfl|⟨c,d,-,rfl⟩ <;> exact Nat.zero_lt_succ _
  have hlength : m.length=12+(labelBytes labels++ending).length+2+tail.length := by
    rw [hm]
    simp only [List.length_append,List.length_cons,List.length_nil,hheader]
    omega
  obtain ⟨parsed,hparsed⟩ : ∃ k,(labelBytes labels++ending).length=k+1 :=
    ⟨(labelBytes labels++ending).length-1,by rw [List.length_append]; omega⟩
  refine ⟨parsed,by omega,by omega,by omega,?_⟩
  intro more
  have hdrop : (m++more).drop 12=labelBytes labels++ending++([0,1]++tail++more) := by
    rw [hm,List.append_assoc,←hheader,List.drop_left]
    simp only [List.append_assoc]
  have hend : (m++more).drop (12+(labelBytes labels++ending).length)=[0,1]++tail++more := by
    rw [←List.drop_drop,hdrop,List.drop_left]
  have hwalk : ∃ found,dnsParseLabels (m++more) m.length 512 129 12 []=
      some (12+(labelBytes labels++ending).length,found) :=
    dnsParseLabels_name [] (Nat.lt_succ_of_le hname.length_labels) hname.length_label hname.ending
      hdrop (by omega)
  obtain ⟨found,hfound⟩ := hwalk
  rw [hparsed] at hfound hend hlength
  refine ⟨found,?_,?_⟩
  · rw [dnsParseDomainName,hfound,Option.map_some,Nat.add_sub_cancel_left]
  · have hfirst : (m++more).getD (12+(parsed+1)) 0=0 := getD_of_drop hend
    have hsecond : (m++more).getD (12+(parsed+1)+1) 0=1 :=
      getD_of_drop (show _=1::(tail++more) by rw [←List.drop_drop,hend]; rfl)
    rw [dnsParseQtype,if_neg (by omega),readBigEndian16,hfirst,hsecond]
    rfl

/-- A question the parser and the type reader find complete up to the type,
but not up to the class, is cut off. -/
theorem cutQuestion_of_parsed {msg : Bytes} {len parsed : ℕ} {domain : Bytes}
    (hlen : len ≤ msg.length) (hheader : 12 ≤ len)
    (hparse : dnsParseDomainName msg len 12 512=some (parsed+1,domain))
    (htype : dnsParseQtype msg len (12+(parsed+1))=1) (hcut : len<12+(parsed+1)+4)
    (hfits : 12+(parsed+1)+20 ≤ 4096) : CutQuestion (msg.take len) := by
  rw [dnsParseDomainName,Option.map_eq_some_iff] at hparse
  obtain ⟨⟨next,found⟩,hlabels,hpair⟩ := hparse
  rw [Prod.mk.injEq] at hpair
  obtain rfl : next=12+(parsed+1) := by omega
  have hinside : 12+(parsed+1)+2 ≤ len := by
    by_contra hshort
    rw [dnsParseQtype,if_pos (by omega)] at htype
    exact absurd htype (by decide)
  rw [dnsParseQtype,if_neg (by omega),readBigEndian16] at htype
  obtain ⟨labels,ending,hcount,hlabel,hending,hmsg,hend⟩ :=
    name_of_dnsParseLabels hlen (by omega) hlabels
  have hbytes : msg.drop (12+(parsed+1))=
      [0,1]++msg.drop (12+(parsed+1)+2) := by
    rw [drop_eq_getD_cons (by omega),drop_eq_getD_cons (by omega)]
    have hfirst := UInt8.toNat_lt (msg.getD (12+(parsed+1)) 0)
    have hsecond := UInt8.toNat_lt (msg.getD (12+(parsed+1)+1) 0)
    rw [show msg.getD (12+(parsed+1)) 0=0 from UInt8.toNat_inj.mp (by rw [UInt8.toNat_zero]; omega),
      show msg.getD (12+(parsed+1)+1) 0=1 from UInt8.toNat_inj.mp (by rw [UInt8.toNat_one]; omega)]
    rfl
  refine ⟨msg.take 12,labels,ending,(msg.drop (12+(parsed+1)+2)).take (len-(12+(parsed+1)+2)),
    by rw [List.length_take]; omega,⟨by omega,hlabel,hending⟩,
    by rw [List.length_take]; omega,by omega,?_⟩
  have hfront : (msg.take 12).length=12 := by rw [List.length_take]; omega
  have hname : (labelBytes labels++ending).length=parsed+1 := by omega
  have hsplit : msg=(msg.take 12++(labelBytes labels++ending++[0,1]))++
      msg.drop (12+(parsed+1)+2) := by
    rw [List.append_assoc,List.append_assoc,←hbytes,←hmsg,List.take_append_drop]
  have hlength : (msg.take 12++(labelBytes labels++ending++[0,1])).length=12+(parsed+1)+2 := by
    rw [List.length_append,List.length_append,hfront,hname]
    rfl
  calc msg.take len
      =msg.take (12+(parsed+1)+2+(len-(12+(parsed+1)+2))) := by congr 1; omega
    _=(msg.take 12++(labelBytes labels++ending++[0,1]))++
        (msg.drop (12+(parsed+1)+2)).take (len-(12+(parsed+1)+2)) := by
      rw [List.take_add]
      congr 1
      conv_lhs => rw [hsplit]
      rw [←hlength,List.take_left]
    _=_ := by simp only [List.append_assoc]

/-- A message whose question is not cut off decides what the service does,
whatever the buffer holds behind it. -/
theorem dnsAnswer_take (s : Session) {msg : Bytes} {len : ℕ} (framed : Bool) (hlen : len ≤ msg.length)
    (hwhole : ¬CutQuestion (msg.take len)) :
    dnsAnswer s msg len framed=dnsAnswer s (msg.take len) len framed := by
  unfold dnsAnswer
  split
  · rfl
  rename_i hheader
  have hparse : dnsParseDomainName (msg.take len) len dnsHeaderSize 512=
      dnsParseDomainName msg len dnsHeaderSize 512 := by
    unfold dnsParseDomainName
    rw [dnsParseLabels_take]
  rw [hparse,dnsBuildServfail_take]
  split
  · rfl
  · rfl
  rename_i parsed domain hfound
  dsimp only
  rw [dnsParseQtype_take]
  by_cases htype : dnsParseQtype msg len (dnsHeaderSize+(parsed+1))=1
  · rw [dnsBuildFakeAResponse_take]
    by_contra hcut
    exact hwhole (cutQuestion_of_parsed hlen (by unfold dnsHeaderSize at hheader; omega) hfound htype
      (by unfold dnsHeaderSize at hcut; omega) (by unfold dnsHeaderSize at hcut; omega))
  · rw [if_neg htype,if_neg htype]

/-- The bytes a reply is sent as. -/
theorem sent_dnsSend (framed : Bool) {reply : Bytes} (h : reply≠[]) :
    sent (dnsSend framed reply)=(if framed then bigEndian16 reply.length else [])++reply := by
  unfold dnsSend
  rw [if_neg h]
  cases framed <;> simp only [sent,List.flatMap_cons,List.flatMap_nil,List.append_nil,List.nil_append,
    Bool.false_eq_true,if_true,if_false]

/-- The header of a reply: the identifier and the number of questions of the
query, the flags and the counts of the reply. -/
def replyHeader (query : Bytes) (flags : Byte) (counts : Bytes) : Bytes :=
  query.take 2++[0x81,flags]++readAt query 4 2++counts

/-- The stores of the builders put a new header in front of the query's rest. -/
theorem overwrite_header {copied counts : Bytes} (flags : Byte) (hcopied : 12 ≤ copied.length)
    (hcounts : counts.length=6) :
    writeAt ((copied.set 2 0x81).set 3 flags) 6 counts=
      replyHeader copied flags counts++copied.drop 12 := by
  obtain ⟨a,b,c,d,e,f,rest,rfl⟩ : ∃ a b c d e f rest,copied=a::b::c::d::e::f::rest := by
    match copied,hcopied with
    | a::b::c::d::e::f::rest,_ => exact ⟨a,b,c,d,e,f,rest,rfl⟩
  unfold writeAt replyHeader readAt
  rw [hcounts]
  rfl

/-- The header of a reply is as long as the header it replaces. -/
theorem length_replyHeader {query counts : Bytes} (flags : Byte) (hquery : 12 ≤ query.length)
    (hcounts : counts.length=6) : (replyHeader query flags counts).length=12 := by
  simp only [replyHeader,List.length_append,List.length_take,List.length_cons,List.length_nil,
    length_readAt (show 4+2 ≤ query.length by omega),hcounts]
  omega

/-- The answer record: a pointer to the name of the question, type, class, time
to live, and the address 10.0.2.15. -/
def answerRecord : Bytes :=
  [0xC0,0x0C,0x00,0x01,0x00,0x01,0x00,0x00,0x01,0x2C,0x00,0x04,10,0,2,15]

/-- An A answer is a header, the copied question and the record. -/
theorem dnsBuildFakeAResponse_eq {query : Bytes} {qlen qnameEnd rsize : ℕ} (hqlen : 12 ≤ qlen)
    (hend : 12 ≤ qnameEnd) (hrsize : qnameEnd+20 ≤ rsize) (hquery : qnameEnd+4 ≤ query.length) :
    dnsBuildFakeAResponse query qlen qnameEnd rsize=
      replyHeader query 0x80 [0,1,0,0,0,0]++readAt query 12 (qnameEnd-8)++answerRecord := by
  have hcopied : (readAt query 0 (qnameEnd+4)).length=qnameEnd+4 := length_readAt (by omega)
  unfold dnsBuildFakeAResponse
  dsimp only
  rw [if_neg (by unfold dnsHeaderSize; omega),overwrite_header _ (by omega) rfl]
  congr 2
  · unfold replyHeader readAt
    rw [List.drop_zero,List.take_take,List.drop_take,List.take_take,Nat.min_eq_left (by omega),
      Nat.min_eq_left (by omega)]
  · unfold readAt
    rw [List.drop_zero,List.drop_take]
    congr 1

/-- The reply to a question cut off contains the byte behind the message. -/
theorem getD_reply_cut {m more : Bytes} {qnameEnd : ℕ} (hend : 12 ≤ qnameEnd)
    (hrsize : qnameEnd+20 ≤ 4096) (hm : 12 ≤ m.length) (hcut : m.length<qnameEnd+4)
    (hmore : qnameEnd+4 ≤ m.length+more.length) :
    (dnsBuildFakeAResponse (m++more) m.length qnameEnd 4096).getD m.length 0=more.getD 0 0 := by
  have hquery : qnameEnd+4 ≤ (m++more).length := by rw [List.length_append]; exact hmore
  have hheader : (replyHeader (m++more) 0x80 [0,1,0,0,0,0]).length=12 :=
    length_replyHeader _ (by omega) rfl
  have hread : (readAt (m++more) 12 (qnameEnd-8)).length=qnameEnd-8 := length_readAt (by omega)
  simp only [List.getD_eq_getElem?_getD]
  rw [dnsBuildFakeAResponse_eq hm hend hrsize hquery,List.append_assoc,
    List.getElem?_append_right (by omega),hheader,List.getElem?_append_left (by omega),readAt,
    List.getElem?_take_of_lt (by omega),List.getElem?_drop,Nat.add_sub_cancel' hm,
    List.getElem?_append_right (Nat.le_refl _),Nat.sub_self]

end Answers

/-- The message in the bytes of a receive call, and whether it stands behind a
length. -/
def received (b : Bytes) : Bytes×Bool :=
  ((dnsFrame b b.length).1.take (dnsFrame b b.length).2.1,(dnsFrame b b.length).2.2)

/-- Where the message starts in the bytes of a receive call. -/
def messageStart (b : Bytes) : ℕ := if (received b).2 then 2 else 0

/-- The bytes sent for one receive call depend on the message alone: neither on
what the buffer held before nor on bytes received behind the message. -/
def LeaksNothing (s : Session) (b : Bytes) (later : List RecvResult) : Prop :=
  ∀ (memory memory' b' : Bytes) (later' : List RecvResult),memory.length=4096 →
    memory'.length=4096 → b'≠[] → b'.length ≤ 4096 → received b'=received b →
      sent (runDnsService s memory (.data b::later))=
        sent (runDnsService s memory' (.data b'::later'))

section Runs

variable {b memory : Bytes}

/-- The test of `run_dns_service` for a length in front of the message. -/
def Framed (raw : Bytes) (n : ℕ) : Prop :=
  2 ≤ n ∧ 0<readBigEndian16 raw 0 ∧ readBigEndian16 raw 0 ≤ n-2 ∧
    dnsHeaderSize+2 ≤ readBigEndian16 raw 0+2

/-- The frame of a message behind a length. -/
theorem dnsFrame_framed {raw : Bytes} {n : ℕ} (h : Framed raw n) :
    dnsFrame raw n=(raw.drop 2,readBigEndian16 raw 0,true) := if_pos h

/-- The frame of a message on its own. -/
theorem dnsFrame_plain {raw : Bytes} {n : ℕ} (h : ¬Framed raw n) : dnsFrame raw n=(raw,n,false) :=
  if_neg h

/-- The message behind a length. -/
theorem received_framed (h : Framed b b.length) :
    received b=((b.drop 2).take (readBigEndian16 b 0),true) := by
  rw [received,dnsFrame_framed h]

/-- Without a length all bytes are the message. -/
theorem received_plain (h : ¬Framed b b.length) : received b=(b,false) := by
  rw [received,dnsFrame_plain h,List.take_length]

/-- The message stands in the bytes received. -/
theorem received_eq_readAt (b : Bytes) :
    (received b).1=readAt b (messageStart b) (received b).1.length ∧
      messageStart b+(received b).1.length ≤ b.length := by
  unfold messageStart
  by_cases h : Framed b b.length
  · have hfits := h.2.2.1
    have htwo := h.1
    rw [received_framed h]
    simp only [if_true,List.length_take,List.length_drop,readAt]
    rw [Nat.min_eq_left (by omega)]
    exact ⟨rfl,by omega⟩
  · rw [received_plain h]
    simp only [Bool.false_eq_true,if_false,readAt,List.drop_zero,List.take_length,true_and]
    omega

/-- The bytes behind the message do not belong to the frame. -/
theorem received_take (b : Bytes) :
    received (b.take (messageStart b+(received b).1.length))=received b := by
  by_cases h : Framed b b.length
  · have hfits := h.2.2.1
    have htwo := h.1
    have hlength : messageStart b+(received b).1.length=2+readBigEndian16 b 0 := by
      unfold messageStart
      rw [received_framed h]
      simp only [if_true,List.length_take,List.length_drop]
      omega
    have hnumber : readBigEndian16 (b.take (2+readBigEndian16 b 0)) 0=readBigEndian16 b 0 :=
      readBigEndian16_take (by omega)
    have hcut : Framed (b.take (2+readBigEndian16 b 0)) (b.take (2+readBigEndian16 b 0)).length := by
      rw [Framed,hnumber,List.length_take]
      exact ⟨by omega,h.2.1,by omega,h.2.2.2⟩
    rw [hlength,received_framed hcut,received_framed h,hnumber,List.drop_take,List.take_take]
    congr 2
    omega
  · have hall : messageStart b+(received b).1.length=b.length := by
      unfold messageStart
      rw [received_plain h]
      exact Nat.zero_add _
    rw [hall,List.take_length]

/-- The handler finds the frame of the bytes received in its buffer. -/
theorem dnsFrame_writeAt (memory b : Bytes) :
    dnsFrame (writeAt memory 0 b) b.length=
      ((writeAt memory 0 b).drop (messageStart b),(received b).1.length,(received b).2) := by
  have hnumber : 2 ≤ b.length → readBigEndian16 (writeAt memory 0 b) 0=readBigEndian16 b 0 := by
    intro htwo
    rw [←readBigEndian16_take htwo,writeAt_zero,List.take_left]
  have hframed : Framed (writeAt memory 0 b) b.length ↔ Framed b b.length := by
    unfold Framed
    constructor <;> intro h
    · rwa [hnumber h.1] at h
    · rwa [hnumber h.1]
  unfold messageStart
  by_cases h : Framed b b.length
  · have hfits := h.2.2.1
    rw [dnsFrame_framed (hframed.mpr h),hnumber h.1,received_framed h]
    simp only [if_true,List.length_take,List.length_drop]
    rw [Nat.min_eq_left (by omega)]
  · rw [dnsFrame_plain (mt hframed.mp h),received_plain h]
    rfl

/-- The handler finds the message of its receive call, with the rest of the buffer
behind it. -/
theorem dnsFrame_received (memory b : Bytes) :
    dnsFrame (writeAt memory 0 b) b.length=
      ((received b).1++(writeAt memory 0 b).drop (messageStart b+(received b).1.length),
        (received b).1.length,(received b).2) := by
  obtain ⟨hmessage,hinside⟩ := received_eq_readAt b
  have hbuffer : (writeAt memory 0 b).drop (messageStart b)=(received b).1++
      (writeAt memory 0 b).drop (messageStart b+(received b).1.length) := by
    rw [←readAt_append_drop (writeAt memory 0 b) (messageStart b) (received b).1.length]
    congr 1
    conv_rhs => rw [hmessage]
    unfold readAt
    rw [writeAt_zero,List.drop_append_of_le_length (by omega),
      List.take_append_of_le_length (by rw [List.length_drop]; omega)]
  rw [dnsFrame_writeAt,hbuffer]

/-- A session answers the message of its receive call, with the rest of the
buffer behind it. -/
theorem runDnsService_received (s : Session) (memory : Bytes) (later : List RecvResult) (hb : b≠[])
    (hsize : b.length ≤ 4096) :
    runDnsService s memory (.data b::later)=
      s.recordConnection .dns::(dnsAnswer s ((received b).1++
        (writeAt memory 0 b).drop (messageStart b+(received b).1.length))
        (received b).1.length (received b).2++[s.recordDisconnect .dns,.close]) := by
  have hrecv := recv_data hb hsize
  unfold runDnsService
  dsimp only
  rw [hrecv]
  dsimp only
  rw [dnsFrame_received]

/-- What a session sends is what it sends for the message, with the rest of the
buffer behind it. -/
theorem sent_runDnsService (s : Session) (memory : Bytes) (later : List RecvResult) (hb : b≠[])
    (hsize : b.length ≤ 4096) :
    sent (runDnsService s memory (.data b::later))=
      sent (dnsAnswer s ((received b).1++
        (writeAt memory 0 b).drop (messageStart b+(received b).1.length))
        (received b).1.length (received b).2) := by
  rw [runDnsService_received s memory later hb hsize]
  unfold Session.recordConnection Session.recordDisconnect
  simp only [sent,List.flatMap_cons,List.flatMap_append,List.flatMap_nil,List.append_nil,
    List.nil_append]

/-- A question cut off is answered with an A record built at the end of its type. -/
theorem sent_dnsAnswer_cut (s : Session) (framed : Bool) {m : Bytes} (h : CutQuestion m) :
    ∃ qnameEnd,12 ≤ qnameEnd ∧ qnameEnd+2 ≤ m.length ∧ m.length<qnameEnd+4 ∧ qnameEnd+20 ≤ 4096 ∧
      ∀ more,sent (dnsAnswer s (m++more) m.length framed)=
        sent (dnsSend framed (dnsBuildFakeAResponse (m++more) m.length qnameEnd 4096)) := by
  obtain ⟨parsed,hinside,hcut,hfits,hparsed⟩ := h.parsed
  refine ⟨12+(parsed+1),by omega,hinside,hcut,hfits,?_⟩
  intro more
  obtain ⟨domain,hparse,htype⟩ := hparsed more
  unfold dnsAnswer
  rw [if_neg (by unfold dnsHeaderSize; omega),show dnsHeaderSize=12 from rfl,hparse]
  dsimp only
  rw [htype,if_neg (by decide),if_pos rfl]
  unfold Session.recordCommand
  simp only [sent,List.flatMap_cons,List.nil_append]

/-- Two contents of the buffer behind a question cut off are told apart by the
bytes sent. -/
theorem sent_dnsAnswer_cut_ne (s : Session) (framed : Bool) {m more more' : Bytes}
    (h : CutQuestion m) (hmore : 2 ≤ more.length) (hmore' : 2 ≤ more'.length)
    (hdiffer : more.getD 0 0≠more'.getD 0 0) :
    sent (dnsAnswer s (m++more) m.length framed)≠sent (dnsAnswer s (m++more') m.length framed) := by
  obtain ⟨qnameEnd,hend,hinside,hcut,hfits,hanswer⟩ := sent_dnsAnswer_cut s framed h
  intro hsame
  have hm : 12 ≤ m.length := by omega
  have hlength : ∀ {rest : Bytes},2 ≤ rest.length →
      (dnsBuildFakeAResponse (m++rest) m.length qnameEnd 4096).length=qnameEnd+20 := by
    intro rest hrest
    have hquery : qnameEnd+4 ≤ (m++rest).length := by rw [List.length_append]; omega
    rw [dnsBuildFakeAResponse_eq hm hend hfits hquery,List.length_append,List.length_append,
      length_replyHeader _ (by omega) rfl,length_readAt (by omega)]
    show 12+(qnameEnd-8)+16=_
    omega
  have hne : ∀ {rest : Bytes},2 ≤ rest.length →
      dnsBuildFakeAResponse (m++rest) m.length qnameEnd 4096≠[] :=
    fun hrest => List.ne_nil_of_length_pos (by rw [hlength hrest]; omega)
  rw [hanswer,hanswer,sent_dnsSend framed (hne hmore),sent_dnsSend framed (hne hmore'),hlength hmore,
    hlength hmore'] at hsame
  have hreply := List.append_cancel_left hsame
  refine hdiffer ?_
  rw [←getD_reply_cut hend hfits hm hcut (by omega),hreply,
    getD_reply_cut hend hfits hm hcut (by omega)]

/-- A session sends for the message of its receive call, whatever is behind it,
what it sends for a receive call of that message with its frame. -/
theorem sent_runDnsService_take (s : Session) (memory : Bytes) (later : List RecvResult)
    (hsize : b.length ≤ 4096) (hmessage : 0<(received b).1.length) :
    sent (runDnsService s memory
        (.data (b.take (messageStart b+(received b).1.length))::later))=
      sent (dnsAnswer s ((received b).1++memory.drop (messageStart b+(received b).1.length))
        (received b).1.length (received b).2) := by
  have hbound := (received_eq_readAt b).2
  have hlength : (b.take (messageStart b+(received b).1.length)).length=
      messageStart b+(received b).1.length := by
    rw [List.length_take]
    omega
  have hstart : messageStart (b.take (messageStart b+(received b).1.length))=messageStart b := by
    rw [messageStart,received_take]
    rfl
  have hbehind : (b.take (messageStart b+(received b).1.length)++
      memory.drop (messageStart b+(received b).1.length)).drop
        (messageStart b+(received b).1.length)=
      memory.drop (messageStart b+(received b).1.length) :=
    List.drop_left' hlength
  rw [sent_runDnsService s memory later (List.ne_nil_of_length_pos (by omega)) (by omega),
    received_take,hstart,writeAt_zero,hlength,hbehind]

/-- A message cut off in its question shows the buffer. -/
theorem not_leaksNothing (s : Session) (later : List RecvResult) (hsize : b.length ≤ 4096)
    (hcut : CutQuestion (received b).1) : ¬LeaksNothing s b later := by
  intro hleaks
  obtain ⟨qnameEnd,hend,hinside,hshort,hfits,-⟩ := sent_dnsAnswer_cut s (received b).2 hcut
  have hbound := (received_eq_readAt b).2
  have hskip : messageStart b ≤ 2 := by
    unfold messageStart
    split <;> omega
  have hlength : (b.take (messageStart b+(received b).1.length)).length=
      messageStart b+(received b).1.length := by
    rw [List.length_take]
    omega
  have hequal : ∀ x : Byte,sent (runDnsService s (List.replicate 4096 0) (.data b::later))=
      sent (dnsAnswer s ((received b).1++
        List.replicate (4096-(messageStart b+(received b).1.length)) x)
        (received b).1.length (received b).2) := by
    intro x
    rw [hleaks _ (List.replicate 4096 x) _ later List.length_replicate List.length_replicate
      (List.ne_nil_of_length_pos (by omega)) (by omega) (received_take b),
      sent_runDnsService_take s _ later hsize (by omega),List.drop_replicate]
  have hsame := (hequal 0).symm.trans (hequal 1)
  obtain ⟨k,hk⟩ : ∃ k,4096-(messageStart b+(received b).1.length)=k+2 :=
    ⟨4096-(messageStart b+(received b).1.length)-2,by omega⟩
  rw [hk] at hsame
  refine sent_dnsAnswer_cut_ne s (received b).2 hcut ?_ ?_ ?_ hsame
  · rw [List.length_replicate]; omega
  · rw [List.length_replicate]; omega
  · exact (by decide : (0 : Byte)≠1)

/-- A message whose question is not cut off decides the bytes sent. -/
theorem leaksNothing_of_whole (s : Session) (later : List RecvResult) (hb : b≠[])
    (hsize : b.length ≤ 4096) (hwhole : ¬CutQuestion (received b).1) : LeaksNothing s b later := by
  intro memory memory' b' later' _ _ hb' hsize' hsame
  have hanswer : ∀ rest : Bytes,dnsAnswer s ((received b).1++rest) (received b).1.length
      (received b).2=dnsAnswer s (received b).1 (received b).1.length (received b).2 := by
    intro rest
    rw [dnsAnswer_take s (received b).2 (by rw [List.length_append]; omega)
      (by rwa [List.take_left]),List.take_left]
  rw [sent_runDnsService s memory later hb hsize,sent_runDnsService s memory' later' hb' hsize',
    hsame,hanswer,hanswer]

end Runs

/-- The bytes sent depend on the message alone exactly when the message is not an
A question cut off behind its type or inside its class. -/
theorem leaksNothing_iff (s : Session) (b : Bytes) (later : List RecvResult) (hb : b≠[])
    (hsize : b.length ≤ 4096) : LeaksNothing s b later ↔ ¬CutQuestion (received b).1 :=
  ⟨fun hleaks hcut => not_leaksNothing s later hsize hcut hleaks,
    leaksNothing_of_whole s later hb hsize⟩

/-- A query for the A record of a name of one letter, without its class. -/
def queryWithoutClass : Bytes := [0,7,1,0,0,1,0,0,0,0,0,0,1,97,0,0,1]

/-- The whole query is answered from its own bytes. -/
theorem leaksNothing_whole_query :
    LeaksNothing ⟨text "10.0.0.9",40000,text "id"⟩ (queryWithoutClass++[0,1]) [] := by
  refine (leaksNothing_iff _ _ [] (by decide) (by decide)).mpr ?_
  intro hcut
  obtain ⟨parsed,-,hshort,-,hparsed⟩ := hcut.parsed
  obtain ⟨domain,hparse,-⟩ := hparsed []
  rw [show dnsParseDomainName ((received (queryWithoutClass++[0,1])).1++[])
    (received (queryWithoutClass++[0,1])).1.length 12 512=some (3,[97]) by decide,
    Option.some_inj,Prod.mk.injEq] at hparse
  rw [show (received (queryWithoutClass++[0,1])).1.length=19 by decide] at hshort
  omega

/-- The query without its class is answered with two bytes of the buffer. -/
theorem query_without_class_leaks :
    ¬LeaksNothing ⟨text "10.0.0.9",40000,text "id"⟩ queryWithoutClass [] := by
  intro hleaks
  have hsame := hleaks (List.replicate 4096 0) (List.replicate 4096 1) queryWithoutClass []
    List.length_replicate List.length_replicate (by decide) (by decide) rfl
  revert hsame
  decide

end HoneyDew.DnsReplies
