import HoneyDew.DnsWellFormed

/-!
# Messages with and without a length

The handler guesses from the first two bytes whether a length stands in front of
the message. A message with its length is always found. A message on its own is
found exactly when its identifier cannot be taken for a length, and is then
decoded, recorded and answered as the same message behind its length.
-/

namespace HoneyDew.DnsFraming

open CText CMemory Service DnsService DnsReplies DnsWellFormed

/-- The name and the type that the handler decodes from a message, where it finds
a name. -/
def dnsDecode (msg : Bytes) (len : ℕ) : Option (Bytes×ℕ) :=
  match dnsParseDomainName msg len dnsHeaderSize 512 with
  | none | some (0,_) => none
  | some (parsed+1,domain) => some (domain,dnsParseQtype msg len (dnsHeaderSize+(parsed+1)))

/-- What the handler decodes after a receive call. -/
def decoded (memory b : Bytes) : Option (Bytes×ℕ) :=
  dnsDecode (dnsFrame (writeAt memory 0 b) b.length).1 (dnsFrame (writeAt memory 0 b) b.length).2.1

/-- The events for a name and a type: the name, and the attempt where a zone is
asked for. -/
def decodedEvents (s : Session) : Option (Bytes×ℕ) → List Action
  | none => []
  | some (domain,qtype) => s.recordCommand .dns domain::
      if qtype=252 then [s.recordEvent .exploitAttempt .critical .dns []
        (text "AXFR zone transfer attempt: "++cstr domain)] else []

/-- The first two bytes of a message are a length that the message has room for. -/
def LooksFramed (q : Bytes) : Prop :=
  dnsHeaderSize ≤ readBigEndian16 q 0 ∧ readBigEndian16 q 0 ≤ q.length-2

section Answers

variable {msg : Bytes} {len : ℕ}

/-- A name and a type are read inside the message only. -/
theorem dnsDecode_take : dnsDecode (msg.take len) len=dnsDecode msg len := by
  have hparse : dnsParseDomainName (msg.take len) len dnsHeaderSize 512=
      dnsParseDomainName msg len dnsHeaderSize 512 := by
    unfold dnsParseDomainName
    rw [dnsParseLabels_take]
  unfold dnsDecode
  rw [hparse]
  simp only [dnsParseQtype_take]

/-- A message decides the name and the type, whatever stands behind it. -/
theorem dnsDecode_append (q more : Bytes) : dnsDecode (q++more) q.length=dnsDecode q q.length := by
  rw [←dnsDecode_take,List.take_left]

/-- A refusal is as long as the message. -/
theorem length_dnsBuildServfail (hheader : dnsHeaderSize ≤ len) (hlen : len ≤ msg.length)
    (hsize : len ≤ 4096) : (dnsBuildServfail msg len 4096).length=len := by
  unfold dnsHeaderSize at hheader
  have hcopied : (readAt msg 0 len).length=len := length_readAt (by omega)
  unfold dnsBuildServfail
  rw [if_neg (by unfold dnsHeaderSize; omega)]
  dsimp only
  rw [length_writeAt]
  · rw [List.length_set,List.length_set,hcopied]
  · rw [List.length_set,List.length_set,hcopied]
    exact Nat.le_trans (by decide) hheader

/-- An answer is not empty. -/
theorem dnsBuildFakeAResponse_ne_nil (hheader : dnsHeaderSize ≤ len) (hlen : len ≤ msg.length)
    (hsize : len ≤ 4096) (qnameEnd : ℕ) : dnsBuildFakeAResponse msg len qnameEnd 4096≠[] := by
  have hrefused := length_dnsBuildServfail hheader hlen hsize
  unfold dnsHeaderSize at hheader
  unfold dnsBuildFakeAResponse
  dsimp only
  split
  · exact List.ne_nil_of_length_pos (by omega)
  · exact List.append_ne_nil_of_right_ne_nil _ (List.cons_ne_nil _ _)

/-- A message is answered by the events for its name and type and by one reply;
the length only decides how the reply is sent. -/
theorem dnsAnswer_eq (s : Session) (hheader : dnsHeaderSize ≤ len) (hlen : len ≤ msg.length)
    (hsize : len ≤ 4096) :
    ∃ reply,reply≠[] ∧ ∀ framed,dnsAnswer s msg len framed=
      decodedEvents s (dnsDecode msg len)++dnsSend framed reply := by
  have hrefused : dnsBuildServfail msg len 4096≠[] := by
    have hlength := length_dnsBuildServfail hheader hlen hsize
    unfold dnsHeaderSize at hheader
    exact List.ne_nil_of_length_pos (by omega)
  have hanswer := fun framed => show dnsAnswer s msg len framed=_ from if_neg (Nat.not_lt.mpr hheader)
  unfold dnsDecode
  match hparse : dnsParseDomainName msg len dnsHeaderSize 512 with
  | none =>
    refine ⟨_,hrefused,fun framed => ?_⟩
    rw [hanswer,hparse]
    rfl
  | some (0,domain) =>
    refine ⟨_,hrefused,fun framed => ?_⟩
    rw [hanswer,hparse]
    rfl
  | some (parsed+1,domain) =>
    by_cases hzone : dnsParseQtype msg len (dnsHeaderSize+(parsed+1))=252
    · refine ⟨(dnsBuildServfail msg len 4096).set 3
        (((dnsBuildServfail msg len 4096).getD 3 0 &&& 0xF0) ||| 5),?_,fun framed => ?_⟩
      · exact List.ne_nil_of_length_pos (by rw [List.length_set]; exact List.length_pos_iff.mpr hrefused)
      · rw [hanswer,hparse]
        dsimp only [decodedEvents]
        rw [if_pos hzone,if_pos hzone]
        rfl
    · by_cases haddress : dnsParseQtype msg len (dnsHeaderSize+(parsed+1))=1
      · refine ⟨_,dnsBuildFakeAResponse_ne_nil hheader hlen hsize (dnsHeaderSize+(parsed+1)),
          fun framed => ?_⟩
        rw [hanswer,hparse]
        dsimp only [decodedEvents]
        rw [if_neg hzone,if_neg hzone,if_pos haddress]
        rfl
      · refine ⟨_,hrefused,fun framed => ?_⟩
        rw [hanswer,hparse]
        dsimp only [decodedEvents]
        rw [if_neg hzone,if_neg hzone,if_neg haddress]
        rfl

end Answers

section Runs

variable {q : Bytes}

/-- The handler decodes the message of its receive call. -/
theorem decoded_eq (memory b : Bytes) :
    decoded memory b=dnsDecode (received b).1 (received b).1.length := by
  unfold decoded
  rw [dnsFrame_received]
  exact dnsDecode_append _ _

/-- A message on its own is found exactly when it does not look framed. -/
theorem received_plain_iff (hheader : dnsHeaderSize ≤ q.length) :
    received q=(q,false) ↔ ¬LooksFramed q := by
  unfold dnsHeaderSize at hheader
  have hframed : Framed q q.length ↔ LooksFramed q := by
    unfold Framed LooksFramed dnsHeaderSize
    omega
  rw [←hframed]
  constructor
  · intro hplain h
    rw [received_framed h,Prod.mk.injEq] at hplain
    exact Bool.noConfusion hplain.2
  · exact received_plain

/-- A message behind its length is found. -/
theorem received_framed_self (hheader : dnsHeaderSize ≤ q.length) (hsize : q.length ≤ 4094) :
    received (bigEndian16 q.length++q)=(q,true) := by
  have hreceived := received_bigEndian16 hheader (by omega) []
  rwa [List.append_nil] at hreceived

/-- The events of the handler and its sends, apart from each other. -/
theorem audits_sends_answer (s : Session) (found : Option (Bytes×ℕ)) (framed : Bool) {reply : Bytes}
    (hreply : reply≠[]) :
    audits (s.recordConnection .dns::(decodedEvents s found++dnsSend framed reply++
        [s.recordDisconnect .dns,.close]))=
      audits (s.recordConnection .dns::(decodedEvents s found++[s.recordDisconnect .dns])) ∧
    sends (s.recordConnection .dns::(decodedEvents s found++dnsSend framed reply++
        [s.recordDisconnect .dns,.close]))=
      (if framed then [bigEndian16 reply.length] else [])++[reply] := by
  have hevents : sends (decodedEvents s found)=[] := by
    match found with
    | none => rfl
    | some (domain,qtype) =>
      by_cases hzone : qtype=252
      · rw [decodedEvents,if_pos hzone]
        rfl
      · rw [decodedEvents,if_neg hzone]
        rfl
  have hsend : dnsSend framed reply=
      (if framed then [.send (bigEndian16 reply.length)] else [])++[.send reply] := by
    unfold dnsSend
    rw [if_neg hreply]
    cases framed <;> rfl
  rw [hsend]
  constructor
  · unfold Session.recordConnection Session.recordDisconnect
    cases framed <;>
    simp only [audits_audit,audits_append,audits_send,audits_close,audits_nil,List.append_nil,if_true,
      Bool.false_eq_true,if_false]
  · rw [show ∀ actions,sends (s.recordConnection .dns::actions)=sends actions from fun _ => rfl,
      sends_append,sends_append,hevents,sends_append]
    cases framed <;> rfl

/-- A session with one message records what it decodes from it. -/
theorem audits_runDnsService (s : Session) (memory b : Bytes) (later : List RecvResult)
    (hheader : dnsHeaderSize ≤ (received b).1.length) (hsize : b.length ≤ 4096) :
    audits (runDnsService s memory (.data b::later))=audits (s.recordConnection .dns::
      (decodedEvents s (dnsDecode (received b).1 (received b).1.length)++
        [s.recordDisconnect .dns])) := by
  have hinside := (received_eq_readAt b).2
  have hpositive : 0<dnsHeaderSize := by decide
  obtain ⟨reply,hreply,hanswer⟩ := dnsAnswer_eq s hheader
    (show _ ≤ ((received b).1++(writeAt memory 0 b).drop (messageStart b+(received b).1.length)).length
      by rw [List.length_append]; omega) (by omega)
  rw [runDnsService_received s memory later (List.ne_nil_of_length_pos (by omega)) hsize,hanswer,
    dnsDecode_append]
  exact (audits_sends_answer s _ _ hreply).1

/-- A session with one message whose question is not cut off sends one reply,
which does not depend on the length in front of the message. -/
theorem sends_runDnsService (s : Session) (hheader : dnsHeaderSize ≤ q.length) (hsize : q.length ≤ 4094)
    (hwhole : ¬CutQuestion q) :
    ∃ reply,∀ memory b later framed,b.length ≤ 4096 → received b=(q,framed) →
      sends (runDnsService s memory (.data b::later))=
        (if framed then [bigEndian16 reply.length] else [])++[reply] := by
  have hpositive : 0<dnsHeaderSize := by decide
  obtain ⟨reply,hreply,hanswer⟩ := dnsAnswer_eq s hheader (Nat.le_refl _) (by omega)
  refine ⟨reply,fun memory b later framed hb hreceived => ?_⟩
  have hinside : messageStart b+q.length ≤ b.length := by
    have hmessage := (received_eq_readAt b).2
    rw [hreceived] at hmessage
    exact hmessage
  rw [runDnsService_received s memory later (List.ne_nil_of_length_pos (by omega)) hb,hreceived,
    dnsAnswer_take s framed (by rw [List.length_append]; omega) (by rwa [List.take_left]),
    List.take_left,hanswer]
  exact (audits_sends_answer s _ framed hreply).2

end Runs

/-- A message behind its length is always found, on its own exactly when it does
not look framed. Then both deliveries decode and record the same, and their
replies to a question that is not cut off are the same but for the length. -/
theorem deliveries_agree (s : Session) (q memory memory' : Bytes) (later later' : List RecvResult)
    (hheader : dnsHeaderSize ≤ q.length) (hsize : q.length ≤ 4094) :
    received (bigEndian16 q.length++q)=(q,true) ∧
      (received q=(q,false) ↔ ¬LooksFramed q) ∧
      (¬LooksFramed q →
        decoded memory (bigEndian16 q.length++q)=decoded memory' q ∧
        audits (runDnsService s memory (.data (bigEndian16 q.length++q)::later))=
          audits (runDnsService s memory' (.data q::later')) ∧
        (¬CutQuestion q → ∃ reply,
          sends (runDnsService s memory (.data (bigEndian16 q.length++q)::later))=
            [bigEndian16 reply.length,reply] ∧
          sends (runDnsService s memory' (.data q::later'))=[reply])) := by
  have hframed := received_framed_self hheader hsize
  have hlength : (bigEndian16 q.length++q).length=2+q.length := List.length_append
  refine ⟨hframed,received_plain_iff hheader,fun hlooks => ?_⟩
  have hplain := (received_plain_iff hheader).mpr hlooks
  refine ⟨?_,?_,fun hwhole => ?_⟩
  · rw [decoded_eq,decoded_eq,hframed,hplain]
  · rw [audits_runDnsService s memory _ later (by rwa [hframed]) (by omega),
      audits_runDnsService s memory' q later' (by rwa [hplain]) (by omega),hframed,hplain]
  · obtain ⟨reply,hsends⟩ := sends_runDnsService s hheader hsize hwhole
    exact ⟨reply,hsends memory _ later true (by omega) hframed,
      hsends memory' q later' false (by omega) hplain⟩

/-- A query for the A record of a name of one letter, under an identifier. -/
def letterQuery (identifier : Byte) : Bytes := [0,identifier,1,0,0,1,0,0,0,0,0,0,1,97,0,0,1,0,1]

/-- An identifier below every length of a message is no length. -/
theorem deliveries_agree_small_identifier :
    audits (runDnsService ⟨text "10.0.0.9",40000,text "id"⟩ []
        [.data (bigEndian16 (letterQuery 7).length++letterQuery 7)])=
      audits (runDnsService ⟨text "10.0.0.9",40000,text "id"⟩ [] [.data (letterQuery 7)]) :=
  have hlooks : ¬LooksFramed (letterQuery 7) := fun h => absurd h.1 (by decide)
  ((deliveries_agree ⟨text "10.0.0.9",40000,text "id"⟩ (letterQuery 7) [] [] [] [] (by decide)
    (by decide)).2.2 hlooks).2.1

/-- The identifier 12 is taken for the length of the twelve bytes behind it, and
the name is lost. -/
theorem identifier_taken_for_a_length :
    dnsHeaderSize ≤ (letterQuery 12).length ∧ (letterQuery 12).length ≤ 4094 ∧
      decoded [] (bigEndian16 (letterQuery 12).length++letterQuery 12)=some ([97],1) ∧
      decoded [] (letterQuery 12)=none ∧
      audits (runDnsService ⟨text "10.0.0.9",40000,text "id"⟩ []
          [.data (bigEndian16 (letterQuery 12).length++letterQuery 12)])≠
        audits (runDnsService ⟨text "10.0.0.9",40000,text "id"⟩ [] [.data (letterQuery 12)]) := by
  decide

end HoneyDew.DnsFraming
