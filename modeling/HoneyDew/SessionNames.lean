import HoneyDew.ImapArguments
import HoneyDew.LogReader
import HoneyDew.LoggerAssembly
import HoneyDew.SessionIds
import HoneyDew.SessionLog
import HoneyDew.Wires

/-!
# When two sessions have one identifier

Six services name a session by its descriptor and the time, the others by random bytes.
The names always fit the fields of the records that carry them, and they tell these parts
apart. Sessions that are open at one time have different descriptors, so that a stamped
one is never taken for another, whatever the clock says. SSH sessions, whose sockets libssh
closes, are left out of that.
-/

namespace HoneyDew.SessionNames

open CText Connection Service StepSystem ConnectionLifecycle AuditBracket Attribution SessionIds
open ClosingActs SessionLog Wires
open ImapArguments (splitAtByte_append)
open LogReader (mem_decimalInt intOf_decimalInt)
open LoggerAssembly (zero_not_mem_decimalInt)

/-! ## The code -/

/-- `struct timespec`. -/
structure Timespec where
  /-- `tv_sec`. -/
  tvSec : ℤ
  /-- `tv_nsec`. -/
  tvNsec : ℤ
  deriving DecidableEq,Repr

/-- A name, the descriptor and the time, printed into a buffer of `len` bytes. -/
def stampedSessionId (name : String) (fd : ℤ) (ts : Timespec) (len : ℕ) : Bytes :=
  (text name++95::(decimalInt fd++95::(decimalInt ts.tvSec++95::decimalInt ts.tvNsec))).take (len-1)

/-- `dns_generate_session_id`. -/
def dnsGenerateSessionId : ℤ → Timespec → ℕ → Bytes := stampedSessionId "dns"

/-- `imap_generate_session_id`. -/
def imapGenerateSessionId : ℤ → Timespec → ℕ → Bytes := stampedSessionId "imap"

/-- `pop3_generate_session_id`. -/
def pop3GenerateSessionId : ℤ → Timespec → ℕ → Bytes := stampedSessionId "pop3"

/-- `pg_generate_session_id`. -/
def pgGenerateSessionId : ℤ → Timespec → ℕ → Bytes := stampedSessionId "pg"

/-- `qdb_generate_session_id`. -/
def qdbGenerateSessionId : ℤ → Timespec → ℕ → Bytes := stampedSessionId "qdb"

/-- `telnet_generate_session_id`. -/
def telnetGenerateSessionId : ℤ → Timespec → ℕ → Bytes := stampedSessionId "telnet"

/-- What a generator finds when a session begins. -/
structure Start where
  /-- The time of `clock_gettime`. -/
  now : Timespec
  /-- The bytes of `getrandom`, or of the loop that stands in for it. -/
  random : Bytes
  /-- What the array of the identifier holds. -/
  buf : Bytes
  deriving DecidableEq,Repr

/-- The identifier that the handler of a protocol makes in its array of
`AUDIT_MAX_SESSION_ID_LEN` bytes. -/
def generatedId (proto : ProtocolType) (fd : ℤ) (start : Start) : Bytes :=
  match proto with
  | .dns => dnsGenerateSessionId fd start.now 64
  | .imap => imapGenerateSessionId fd start.now 64
  | .pop3 => pop3GenerateSessionId fd start.now 64
  | .postgresql => pgGenerateSessionId fd start.now 64
  | .questdb => qdbGenerateSessionId fd start.now 64
  | .telnet => telnetGenerateSessionId fd start.now 64
  | _ => cstr (auditGenerateSessionId start.random start.buf 64).memory

/-! ## What an identifier tells -/

/-- The name that a protocol stamps its sessions with. -/
def stampName : ProtocolType → Option String
  | .dns => some "dns"
  | .imap => some "imap"
  | .pop3 => some "pop3"
  | .postgresql => some "pg"
  | .questdb => some "qdb"
  | .telnet => some "telnet"
  | _ => none

/-- The protocol that a stamp names. -/
def stampedProtocol (name : Bytes) : Option ProtocolType :=
  [ProtocolType.dns,.imap,.pop3,.postgresql,.questdb,.telnet].find?
    (fun proto => (stampName proto).any (fun s => text s=name))

/-- The values are ones of an `int`, of two `long`s and of sixteen bytes. -/
structure InRange (fd : ℤ) (start : Start) : Prop where
  /-- The descriptor. -/
  fd : fd.natAbs<10^10
  /-- The seconds. -/
  sec : start.now.tvSec.natAbs<10^19
  /-- The nanoseconds. -/
  nsec : start.now.tvNsec.natAbs<10^19
  /-- The random bytes. -/
  random : start.random.length=16

/-- The identifiers are made from the same parts. -/
def SameParts (proto proto' : ProtocolType) (fd fd' : ℤ) (start start' : Start) : Prop :=
  if (stampName proto).isSome=true then proto=proto' ∧ fd=fd' ∧ start.now=start'.now
  else stampName proto'=none ∧ SameKeptBits start.random start'.random

section Texts

/-- The underscore stands in no number. -/
theorem underscore_not_mem_decimalInt (z : ℤ) : (95 : Byte)∉decimalInt z := by
  intro h
  rcases mem_decimalInt h with h|h
  · exact absurd h (by decide)
  · exact absurd h (by decide)

/-- Numbers that are printed alike are equal. -/
theorem decimalInt_inj {x y : ℤ} (h : decimalInt x=decimalInt y) : x=y := by
  rw [←intOf_decimalInt x,h,intOf_decimalInt]

/-- A number takes its digits and a sign. -/
theorem length_decimalInt_le {z : ℤ} {k : ℕ} (hk : 0<k) (hz : z.natAbs<10^k) :
    (decimalInt z).length ≤ k+1 := by
  have hdigits := length_decimal_le hk hz
  unfold decimalInt
  split
  · rw [List.length_cons]
    omega
  · omega

/-- A name has neither an underscore nor a NUL, and it is short. -/
theorem stampName_text {proto : ProtocolType} {name : String} (h : stampName proto=some name) :
    (95 : Byte)∉text name ∧ (0 : Byte)∉text name ∧ (text name).length ≤ 6 ∧
      stampedProtocol (text name)=some proto := by
  cases proto with
  | dns | imap | pop3 | postgresql | questdb | telnet =>
    cases h
    decide
  | _ => cases h

/-- A stamped identifier fits its array. -/
theorem stampedSessionId_eq {name : String} {fd : ℤ} {start : Start} (h : InRange fd start)
    (hname : (text name).length ≤ 6) : stampedSessionId name fd start.now 64=
      text name++95::(decimalInt fd++95::(decimalInt start.now.tvSec++95::decimalInt start.now.tvNsec)) := by
  have hfd := length_decimalInt_le (by decide) h.fd
  have hsec := length_decimalInt_le (by decide) h.sec
  have hnsec := length_decimalInt_le (by decide) h.nsec
  refine List.take_of_length_le ?_
  simp only [List.length_append,List.length_cons]
  omega

/-- Texts in front of a separator that they do not contain. -/
theorem separated_inj {a b x y : Bytes} (ha : (95 : Byte)∉a) (hb : (95 : Byte)∉b) :
    a++95::x=b++95::y ↔ a=b ∧ x=y := by
  constructor
  · intro h
    have hsplit := splitAtByte_append ha x
    rw [h,splitAtByte_append hb] at hsplit
    have hparts := Prod.mk.inj (Option.some.inj hsplit)
    exact ⟨hparts.1.symm,hparts.2.symm⟩
  · rintro ⟨rfl,rfl⟩
    rfl

/-- The digits of an identifier are free of NULs. -/
theorem zero_not_mem_uuidText (uuid : Bytes) : (0 : Byte)∉uuidText uuid := by
  intro hzero
  rcases mem_uuidText hzero with heq|hdigit
  · exact absurd heq (by decide)
  · exact hdigit.2 rfl

end Texts

section Identifiers

variable {proto proto' : ProtocolType} {fd fd' : ℤ} {start start' : Start}

/-- The stamp of a service that has one. -/
theorem generatedId_stamped {name : String} (hname : stampName proto=some name) (h : InRange fd start) :
    generatedId proto fd start=
      text name++95::(decimalInt fd++95::(decimalInt start.now.tvSec++95::decimalInt start.now.tvNsec)) := by
  rw [←stampedSessionId_eq h (stampName_text hname).2.2.1]
  cases proto with
  | dns | imap | pop3 | postgresql | questdb | telnet =>
    cases hname
    rfl
  | _ => cases hname

/-- The digits of a service that has none. -/
theorem generatedId_random (hname : stampName proto=none) (h : InRange fd start) :
    generatedId proto fd start=uuidText (stampUuid start.random) := by
  have hstored := (auditGenerateSessionId_eq h.random (by decide : 37 ≤ 64) start.buf).1
  have hgenerated : generatedId proto fd start=
      cstr (auditGenerateSessionId start.random start.buf 64).memory := by
    cases proto with
    | dns | imap | pop3 | postgresql | questdb | telnet => cases hname
    | _ => rfl
  rw [hgenerated,hstored,cstr_terminated (zero_not_mem_uuidText _)]

/-- An underscore tells a stamped identifier. -/
theorem underscore_mem_generatedId (h : InRange fd start) :
    (95 : Byte)∈generatedId proto fd start ↔ (stampName proto).isSome=true := by
  cases hname : stampName proto with
  | some name =>
    rw [generatedId_stamped hname h]
    exact iff_of_true (List.mem_append_right _ List.mem_cons_self) rfl
  | none =>
    rw [generatedId_random hname h]
    refine iff_of_false ?_ Bool.false_ne_true
    intro hmem
    rcases mem_uuidText hmem with heq|hdigit
    · exact absurd heq (by decide)
    · exact absurd hdigit.1 (by decide)

/-- The field of a record keeps the whole identifier. -/
theorem kept_generatedId (h : InRange fd start) :
    (cstr (generatedId proto fd start)).take 63=generatedId proto fd start := by
  cases hname : stampName proto with
  | some name =>
    obtain ⟨_,hzero,hlength,_⟩ := stampName_text hname
    have hsec := length_decimalInt_le (by decide) h.sec
    have hnsec := length_decimalInt_le (by decide) h.nsec
    have hfd := length_decimalInt_le (by decide) h.fd
    have hclean : (0 : Byte)∉generatedId proto fd start := by
      rw [generatedId_stamped hname h]
      simp only [List.mem_append,List.mem_cons,not_or]
      exact ⟨hzero,by decide,zero_not_mem_decimalInt _,by decide,zero_not_mem_decimalInt _,by decide,
        zero_not_mem_decimalInt _⟩
    rw [cstr_self hclean]
    refine List.take_of_length_le ?_
    rw [generatedId_stamped hname h]
    simp only [List.length_append,List.length_cons]
    omega
  | none =>
    have hstamp : (stampUuid start.random).length=16 := by rw [length_stampUuid,h.random]
    rw [generatedId_random hname h,cstr_self (zero_not_mem_uuidText _)]
    refine List.take_of_length_le ?_
    rw [length_uuidText hstamp]
    decide

/-- Identifiers are equal when they are made from the same parts. -/
theorem generatedId_eq_iff (h : InRange fd start) (h' : InRange fd' start') :
    generatedId proto fd start=generatedId proto' fd' start' ↔
      SameParts proto proto' fd fd' start start' := by
  have hkind : generatedId proto fd start=generatedId proto' fd' start' →
      ((stampName proto).isSome=true ↔ (stampName proto').isSome=true) := by
    intro heq
    rw [←underscore_mem_generatedId h,←underscore_mem_generatedId h',heq]
  unfold SameParts
  cases hname : stampName proto with
  | none =>
    rw [if_neg (by decide)]
    cases hname' : stampName proto' with
    | some name' =>
      refine iff_of_false (fun heq => ?_) (fun hparts => Option.some_ne_none _ hparts.1)
      rw [hname,hname'] at hkind
      exact Bool.false_ne_true ((hkind heq).mpr rfl)
    | none =>
      have hstamp := stamped_stampUuid h.random
      have hstamp' := stamped_stampUuid h'.random
      rw [generatedId_random hname h,generatedId_random hname' h',and_iff_right rfl,
        ←stamped_eq_iff hstamp hstamp']
      constructor
      · intro htext
        have hread := readId_uuidText hstamp.length_eq
        rw [htext,readId_uuidText hstamp'.length_eq] at hread
        exact (Option.some.inj hread).symm
      · exact fun heq => by rw [heq]
  | some name =>
    rw [if_pos (Option.isSome_some (a := name))]
    cases hname' : stampName proto' with
    | none =>
      refine iff_of_false (fun heq => ?_) (fun hparts => ?_)
      · rw [hname,hname'] at hkind
        exact Bool.false_ne_true ((hkind heq).mp rfl)
      · rw [hparts.1,hname'] at hname
        cases hname
    | some name' =>
      obtain ⟨hfree,_,_,hproto⟩ := stampName_text hname
      obtain ⟨hfree',_,_,hproto'⟩ := stampName_text hname'
      have hnumber := underscore_not_mem_decimalInt
      rw [generatedId_stamped hname h,generatedId_stamped hname' h',separated_inj hfree hfree',
        separated_inj (hnumber _) (hnumber _),separated_inj (hnumber _) (hnumber _)]
      constructor
      · rintro ⟨htext,hfd,hsec,hnsec⟩
        rw [htext,hproto'] at hproto
        refine ⟨(Option.some.inj hproto).symm,decimalInt_inj hfd,?_⟩
        have hfirst := decimalInt_inj hsec
        have hsecond := decimalInt_inj hnsec
        cases hnow : start.now
        cases hnow' : start'.now
        rw [hnow,hnow'] at hfirst hsecond
        dsimp only at hfirst hsecond
        rw [hfirst,hsecond]
      · rintro ⟨heq,hfd,hnow⟩
        rw [heq,hname'] at hname
        rw [Option.some.inj hname,hfd,hnow]
        exact ⟨rfl,rfl,rfl,rfl⟩

end Identifiers

/-! ## Sessions that are open at one time -/

/-- A thread has its connection open and records under the identifier that its service
has made for its descriptor. -/
structure Records (runs : ℕ → SocketRun) (n : Net) (i : ℕ) (s : Session) (proto : ProtocolType)
    (start : Start) : Prop where
  /-- The thread and its descriptor. -/
  thread : ∃ g,n.handlers.threads[i]?=some g ∧ g.isOpen=true ∧ InRange g.clientFd start ∧
    s.sessionId=generatedId proto g.clientFd start
  /-- Its handler. -/
  run : ∃ run hrun,runs i=.recorded s run hrun ∧ protocolOf run=proto

/-- In every interleaving, the records of two sessions of services other than SSH that are
open at one time carry different identifiers, at any times of the clock, unless both services
name their sessions by random bytes and these agree on the bits that are kept. -/
theorem open_sessions_named_apart (runs : ℕ → SocketRun) (labels : List NetLabel) {n : Net}
    (hrun : execute netStep (.initial (fun i => (runs i).acts)) labels=some n) {i j : ℕ} (hij : i≠j)
    {s s' : Session} {proto proto' : ProtocolType} {start start' : Start}
    (hi : Records runs n i s proto start) (hj : Records runs n j s' proto' start') :
    keptId s=keptId s' ↔ stampName proto=none ∧ stampName proto'=none ∧
      SameKeptBits start.random start'.random := by
  have hn := wired_run (fun i => quietBehindClose_acts (runs i)) hrun
  obtain ⟨g,hg,hopen,hrange,hid⟩ := hi.thread
  obtain ⟨g',hg',hopen',hrange',hid'⟩ := hj.thread
  have hfd : g.clientFd≠g'.clientFd := by
    intro heq
    have hfirst := (hn.named g.clientFd i).mpr ⟨g,hg,rfl,hopen⟩
    rw [heq,(hn.named g'.clientFd j).mpr ⟨g',hg',rfl,hopen'⟩] at hfirst
    exact hij (Option.some.inj hfirst).symm
  rw [keptId,keptId,hid,hid',kept_generatedId hrange,kept_generatedId hrange',
    generatedId_eq_iff hrange hrange',SameParts]
  cases hname : stampName proto with
  | none =>
    rw [if_neg (by decide)]
    exact ⟨fun h => ⟨rfl,h⟩,And.right⟩
  | some name =>
    rw [if_pos (Option.isSome_some (a := name))]
    exact iff_of_false (fun h => hfd h.2.1) (fun h => Option.some_ne_none _ h.1)

/-- What two generators find at one instant of the clock. -/
def sameInstant : Start := ⟨⟨1700000000,5⟩,List.replicate 16 0,List.replicate 64 0⟩

/-- A POP3 session has a plain socket. -/
theorem pop3_ne_ssh : protocolOf (.pop3 [])≠.ssh := by decide

/-- POP3 sessions on different descriptors. -/
def twoRuns (i : ℕ) : SocketRun :=
  .recorded ⟨text "10.0.0.1",40001+i,generatedId .pop3 (5+i) sameInstant⟩ (.pop3 []) pop3_ne_ssh

/-- Two POP3 sessions are told apart, though they begin at one instant. -/
theorem open_sessions_named_apart_pop3 :
    keptId ⟨text "10.0.0.1",40001,generatedId .pop3 5 sameInstant⟩≠
      keptId ⟨text "10.0.0.1",40002,generatedId .pop3 6 sameInstant⟩ := by
  have hrange : ∀ fd : ℤ,fd.natAbs<10^10 → InRange fd sameInstant :=
    fun fd hfd => ⟨hfd,by decide,by decide,by decide⟩
  have hstamped := open_sessions_named_apart twoRuns [.accept 5,.accept 6,.add 1] rfl
    (by decide : (0 : ℕ)≠1) ⟨⟨_,rfl,rfl,hrange _ (by decide),rfl⟩,⟨_,_,rfl,rfl⟩⟩
    ⟨⟨_,rfl,rfl,hrange _ (by decide),rfl⟩,⟨_,_,rfl,rfl⟩⟩
  exact fun heq => Option.some_ne_none _ (hstamped.mp heq).1

end HoneyDew.SessionNames
