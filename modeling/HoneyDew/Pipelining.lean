import HoneyDew.MailServices
import HoneyDew.PostgresServices
import HoneyDew.TelnetService
import Mathlib.Data.List.Forall2

/-!
# How a client stream may be cut into receive calls

The POP3, IMAP, Telnet and QuestDB handlers take one receive call for one
command. What they record therefore depends on the cut of the stream. This
module compares the records of two cuts: they agree exactly when the results of
the calls, taken in order up to the end of the session, carry the same text.
-/

namespace HoneyDew.Pipelining

open CText AuditTrail Connection Service MailServices TelnetService PostgresServices

/-! ## Loops that record every line they read -/

section

variable {σ ℓ ε : Type*}

/-- The elements up to and including the first one with a property. -/
def upTo (ends : ℓ → Bool) : List ℓ → List ℓ
  | [] => []
  | x::xs => if ends x then [x] else x::upTo ends xs

/-- The events of a loop that records an event for each line, more events that
depend on its state, and goes on with its next state. -/
def recorded (event : ℓ → ε) (more : σ → ℓ → List ε) (next : σ → ℓ → σ) : σ → List ℓ → List ε
  | _,[] => []
  | state,line::lines => event line::(more state line++recorded event more next (next state line) lines)

/-- Two runs of such a loop record the same exactly when they read the same,
given that every event tells its line and the closing event is none of them. -/
theorem recorded_eq_iff {event : ℓ → ε} {more : σ → ℓ → List ε} {next : σ → ℓ → σ} {closing : ε}
    {lines others : List ℓ} (hclosing : ∀ line, event line≠closing)
    (hevent : ∀ line∈lines, ∀ other∈others, event line=event other → line=other) (state : σ) :
    recorded event more next state lines++[closing]=recorded event more next state others++[closing] ↔
      lines=others := by
  constructor
  · intro h
    induction lines generalizing state others with
    | nil =>
      cases others with
      | nil => rfl
      | cons other others => exact absurd (List.cons.inj h).1.symm (hclosing other)
    | cons line lines ih =>
      cases others with
      | nil => exact absurd (List.cons.inj h).1 (hclosing line)
      | cons other others =>
        simp only [recorded,List.cons_append,List.append_assoc,List.cons.injEq] at h
        obtain ⟨hfirst,hrest⟩ := h
        have hline := hevent line List.mem_cons_self other List.mem_cons_self hfirst
        rw [hline] at hrest
        have htail := ih (fun l hl o ho => hevent l (List.mem_cons_of_mem _ hl) o
          (List.mem_cons_of_mem _ ho)) _ (List.append_cancel_left hrest)
        rw [hline,htail]
  · intro h
    rw [h]

/-- Two lists have the same images exactly when their elements have, one by one. -/
theorem map_eq_map_iff {β : Type*} (f : ℓ → β) (xs ys : List ℓ) :
    xs.map f=ys.map f ↔ List.Forall₂ (fun x y => f x=f y) xs ys := by
  induction xs generalizing ys with
  | nil => cases ys <;> simp
  | cons x xs ih => cases ys <;> simp [ih]

end

/-! ## Texts with line breaks behind them -/

/-- Two memories hold the same C string, save for line breaks at its end. -/
def SameText (memory other : Bytes) : Prop :=
  ∃ line back front, cstr memory=line++back ∧ cstr other=line++front ∧
    (∀ b∈back, b=13 ∨ b=10) ∧ ∀ b∈front, b=13 ∨ b=10

/-- The handlers strip these line breaks. -/
theorem stripCrlf_eq_iff (memory other : Bytes) :
    stripCrlf memory=stripCrlf other ↔ SameText memory other := by
  constructor
  · intro h
    have hbreaks : ∀ text : Bytes, ∀ b∈text.rtakeWhile (fun b => b=13 || b=10), b=13 ∨ b=10 := by
      intro text b hb
      have hp := List.mem_rtakeWhile_imp (p := fun b : Byte => b=13 || b=10) hb
      simpa using hp
    have hmemory := List.rdropWhile_append_rtakeWhile (p := fun b : Byte => b=13 || b=10)
      (l := cstr memory)
    have hother := List.rdropWhile_append_rtakeWhile (p := fun b : Byte => b=13 || b=10)
      (l := cstr other)
    rw [stripCrlf,stripCrlf] at h
    rw [← h] at hother
    exact ⟨_,_,_,hmemory.symm,hother.symm,hbreaks _,hbreaks _⟩
  · intro h
    obtain ⟨line,back,front,hmemory,hother,hback,hfront⟩ := h
    rw [stripCrlf,stripCrlf,hmemory,hother,rdropWhile_append_breaks hback,
      rdropWhile_append_breaks hfront]

/-- A C string without the line breaks at its end. -/
def Stripped (memory line : Bytes) : Prop :=
  ∃ back, cstr memory=line++back ∧ (∀ b∈back, b=13 ∨ b=10) ∧ ∀ b∈line.getLast?, b≠13 ∧ b≠10

/-- The stripped line is the one that is left. -/
theorem stripCrlf_eq_iff_stripped (memory line : Bytes) :
    stripCrlf memory=line ↔ Stripped memory line := by
  constructor
  · rintro rfl
    refine ⟨(cstr memory).rtakeWhile (fun b => b=13 || b=10),
      (List.rdropWhile_append_rtakeWhile).symm,?_,?_⟩
    · intro b hb
      simpa using List.mem_rtakeWhile_imp hb
    · intro b hb
      obtain ⟨hne,hlast⟩ := List.mem_getLast?_eq_getLast hb
      have hnot := List.rdropWhile_last_not (fun b : Byte => b=13 || b=10) (cstr memory) hne
      rw [hlast]
      simpa [stripCrlf] using hnot
  · rintro ⟨back,hmemory,hback,hlast⟩
    rw [stripCrlf,hmemory,rdropWhile_append_breaks hback,List.rdropWhile_eq_self_iff]
    intro hne
    have hb := hlast (line.getLast hne) (List.getLast_mem_getLast? hne)
    simp [hb.1,hb.2]

/-- The texts of a chain are looked for in a line as in the memory it is stripped from. -/
theorem mentions_stripCrlf (memory : Bytes) {needle : String}
    (hneedle : ∀ b∈text needle, b≠13 ∧ b≠10) :
    mentions (stripCrlf memory) needle=mentions memory needle := by
  have hstripped := (stripCrlf_eq_iff_stripped memory _).mp rfl
  obtain ⟨back,hmemory,hback,_⟩ := hstripped
  have hnothing : ∀ part : Bytes, part⊆back → part⊆text needle → part=[] := by
    intro part hbreaks hwithin
    refine List.eq_nil_iff_forall_not_mem.mpr ?_
    intro b hb
    have hbyte := hneedle b (hwithin hb)
    exact (hback b (hbreaks hb)).elim hbyte.1 hbyte.2
  have hsame : text needle<:+:stripCrlf memory ↔ text needle<:+:cstr memory := by
    rw [hmemory,List.infix_append_iff]
    refine ⟨Or.inl,?_⟩
    rintro (h|h|⟨front,behind,hsplit,hfront,hbehind⟩)
    · exact h
    · rw [hnothing _ h.subset (List.Subset.refl _)]
      exact List.nil_infix
    · have hwithin : behind⊆text needle := fun b hb => hsplit ▸ List.mem_append_right front hb
      rw [hnothing behind hbehind.subset hwithin,List.append_nil] at hsplit
      rw [hsplit]
      exact hfront.isInfix
  have hzero : (0 : Byte)∉stripCrlf memory :=
    fun h => zero_not_mem_cstr memory ((List.rdropWhile_prefix _ (cstr memory)).subset h)
  rw [Bool.eq_iff_iff,mentions_iff hzero,hsame]
  exact (findSub_isSome_iff (text needle) (cstr memory)).symm

/-- A stripped line contains no NUL. -/
theorem zero_not_mem_stripCrlf (memory : Bytes) : (0 : Byte)∉stripCrlf memory := by
  intro h
  exact zero_not_mem_cstr memory ((List.rdropWhile_prefix _ (cstr memory)).subset h)

/-- A command event tells its command. -/
theorem recordCommand_inj {s : Session} {proto : ProtocolType} {line other : Bytes}
    (hline : (0 : Byte)∉line) (hother : (0 : Byte)∉other)
    (h : auditRecordCommand (protocolNumber proto) s.remoteIp s.remotePort s.sessionId line=
      auditRecordCommand (protocolNumber proto) s.remoteIp s.remotePort s.sessionId other) :
    line=other := by
  have hdetails := congrArg AuditEvent.details h
  simp only [auditRecordCommand,cstr_self hline,cstr_self hother] at hdetails
  exact List.append_cancel_left (List.append_cancel_right hdetails)

/-- The event of a command. -/
def commandEvent (s : Session) (proto : ProtocolType) (line : Bytes) : AuditEvent :=
  auditRecordCommand (protocolNumber proto) s.remoteIp s.remotePort s.sessionId line

/-- The event of the end of a session. -/
def closingEvent (s : Session) (proto : ProtocolType) : AuditEvent :=
  auditRecordDisconnect (protocolNumber proto) s.remoteIp s.remotePort s.sessionId

/-- Two loops that record stripped lines up to the end of the session record the
same exactly when the lines are the same texts one by one. -/
theorem recorded_strip_iff {σ : Type*} (s : Session) (proto : ProtocolType)
    (more : σ → Bytes → List AuditEvent) (next : σ → Bytes → σ) (state : σ) (xs ys : List Bytes) :
    recorded (commandEvent s proto) more next state (xs.map stripCrlf)++[closingEvent s proto]=
        recorded (commandEvent s proto) more next state (ys.map stripCrlf)++[closingEvent s proto] ↔
      List.Forall₂ SameText xs ys := by
  have hclosing : ∀ line, commandEvent s proto line≠closingEvent s proto := by
    intro line h
    have htype := congrArg AuditEvent.eventType h
    simp [commandEvent,closingEvent,auditRecordCommand,auditRecordDisconnect] at htype
  have hzero : ∀ zs : List Bytes, ∀ line∈zs.map stripCrlf, (0 : Byte)∉line := by
    intro zs line hline
    obtain ⟨z,_,hz⟩ := List.mem_map.mp hline
    rw [← hz]
    exact zero_not_mem_stripCrlf z
  have hevent : ∀ line∈xs.map stripCrlf, ∀ other∈ys.map stripCrlf,
      commandEvent s proto line=commandEvent s proto other → line=other :=
    fun line hl other ho => recordCommand_inj (hzero xs line hl) (hzero ys other ho)
  rw [recorded_eq_iff hclosing hevent state,map_eq_map_iff]
  simp only [stripCrlf_eq_iff]

/-! ## The results of receive calls -/

/-- Results of receive calls that offer so many bytes. -/
def Delivered (capacity : ℕ) (results : List Bytes) : Prop :=
  ∀ bytes∈results, bytes≠[] ∧ bytes.length ≤ capacity

instance (capacity : ℕ) (results : List Bytes) : Decidable (Delivered capacity results) :=
  inferInstanceAs (Decidable (∀ bytes∈results, bytes≠[] ∧ bytes.length ≤ capacity))

/-- Results with bytes as the handlers get them. -/
def received (results : List Bytes) : List RecvResult := results.map .data

/-- The first result and the later ones. -/
theorem delivered_cons {capacity : ℕ} {bytes : Bytes} {results : List Bytes}
    (h : Delivered capacity (bytes::results)) :
    recv capacity (.data bytes)=some bytes ∧ Delivered capacity results := by
  obtain ⟨hne,hlength⟩ := h bytes List.mem_cons_self
  exact ⟨recv_data hne hlength,fun other ho => h other (List.mem_cons_of_mem _ ho)⟩

/-! ## POP3 -/

/-- The command of a POP3 result ends the session. -/
def pop3Quits (bytes : Bytes) : Bool :=
  !startsNoCase (pop3StripCrlf bytes) "USER " && !startsNoCase (pop3StripCrlf bytes) "PASS " &&
    startsNoCase (pop3StripCrlf bytes) "QUIT"

/-- The event of a POP3 password, with the user name kept so far. -/
def pop3Login (s : Session) (username line : Bytes) : List AuditEvent :=
  if startsNoCase line "USER " then []
  else if startsNoCase line "PASS " then
    [auditRecordAuth (protocolNumber .pop3) s.remoteIp s.remotePort s.sessionId username
      (some (line.drop 5)) false]
  else []

/-- The user name kept after a POP3 command. -/
def pop3Username (username line : Bytes) : Bytes :=
  if startsNoCase line "USER " then (line.drop 5).take 255
  else if startsNoCase line "PASS " then []
  else username

/-- What the POP3 loop records. -/
theorem audits_pop3Commands (s : Session) (username : Bytes) {results : List Bytes}
    (h : Delivered 4095 results) :
    audits (pop3Commands s username (received results))=
      recorded (commandEvent s .pop3) (pop3Login s) pop3Username username
        ((upTo pop3Quits results).map pop3StripCrlf) := by
  induction results generalizing username with
  | nil => rfl
  | cons bytes results ih =>
    obtain ⟨hrecv,hrest⟩ := delivered_cons h
    have hcons : received (bytes::results)=.data bytes::received results := rfl
    rw [hcons,pop3Commands,hrecv,upTo]
    simp only
    by_cases huser : startsNoCase (pop3StripCrlf bytes) "USER "=true
    · have htail := ih (((pop3StripCrlf bytes).drop 5).take 255) hrest
      simp [pop3Quits,huser,recorded,commandEvent,pop3Login,pop3Username,Session.recordCommand,htail]
    · by_cases hpass : startsNoCase (pop3StripCrlf bytes) "PASS "=true
      · have htail := ih [] hrest
        simp [pop3Quits,huser,hpass,recorded,commandEvent,pop3Login,pop3Username,Session.recordCommand,
          Session.recordAuth,htail]
      · by_cases hquit : startsNoCase (pop3StripCrlf bytes) "QUIT"=true
        · simp [pop3Quits,huser,hpass,hquit,recorded,commandEvent,pop3Login,Session.recordCommand]
        · have htail := ih username hrest
          simp [pop3Quits,huser,hpass,hquit,recorded,commandEvent,pop3Login,pop3Username,
            Session.recordCommand,htail]

/-- What the POP3 service records for two cuts. -/
theorem pop3_audits_iff (s : Session) {results units : List Bytes} (h : Delivered 4095 results)
    (hunits : Delivered 4095 units) :
    audits (runPop3Service s (received results))=audits (runPop3Service s (received units)) ↔
      List.Forall₂ SameText (upTo pop3Quits results) (upTo pop3Quits units) := by
  have hrun : ∀ rs : List Bytes, Delivered 4095 rs → audits (runPop3Service s (received rs))=
      auditRecordConnection (protocolNumber .pop3) s.remoteIp s.remotePort s.sessionId::
        (recorded (commandEvent s .pop3) (pop3Login s) pop3Username []
          ((upTo pop3Quits rs).map stripCrlf)++[closingEvent s .pop3]) := by
    intro rs hrs
    have hloop := audits_pop3Commands s [] hrs
    have hstrip : (upTo pop3Quits rs).map pop3StripCrlf=(upTo pop3Quits rs).map stripCrlf := rfl
    simp [runPop3Service,Session.recordConnection,Session.recordDisconnect,hloop,hstrip,closingEvent]
  rw [hrun results h,hrun units hunits,List.cons_eq_cons]
  simp only [true_and]
  exact recorded_strip_iff s .pop3 (pop3Login s) pop3Username [] _ _

/-! ## IMAP -/

/-- The command of an IMAP result ends the session. -/
def imapQuits (bytes : Bytes) : Bool :=
  !startsNoCase (imapCommand (imapStripCrlf bytes)) "LOGIN " &&
    startsNoCase (imapCommand (imapStripCrlf bytes)) "LOGOUT"

/-- The event of an IMAP login. -/
def imapLogin (s : Session) (line : Bytes) : List AuditEvent :=
  if startsNoCase (imapCommand line) "LOGIN " then
    [auditRecordAuth (protocolNumber .imap) s.remoteIp s.remotePort s.sessionId
      (imapParseLoginArgs ((imapCommand line).drop 6)).1
      (some (imapParseLoginArgs ((imapCommand line).drop 6)).2) false]
  else []

/-- What the IMAP loop records. -/
theorem audits_imapCommands (s : Session) {results : List Bytes} (h : Delivered 4095 results) :
    audits (imapCommands s (received results))=
      recorded (commandEvent s .imap) (fun _ : Unit => imapLogin s) (fun _ _ => ()) ()
        ((upTo imapQuits results).map imapStripCrlf) := by
  induction results with
  | nil => rfl
  | cons bytes results ih =>
    obtain ⟨hrecv,hrest⟩ := delivered_cons h
    have hcons : received (bytes::results)=.data bytes::received results := rfl
    have htail := ih hrest
    rw [hcons,imapCommands,hrecv,upTo]
    simp only
    by_cases hlogin : startsNoCase (imapCommand (imapStripCrlf bytes)) "LOGIN "=true
    · simp [imapQuits,hlogin,recorded,commandEvent,imapLogin,Session.recordCommand,
        Session.recordAuth,htail]
    · by_cases hquit : startsNoCase (imapCommand (imapStripCrlf bytes)) "LOGOUT"=true
      · simp [imapQuits,hlogin,hquit,recorded,commandEvent,imapLogin,Session.recordCommand]
      · simp [imapQuits,hlogin,hquit,recorded,commandEvent,imapLogin,Session.recordCommand,htail]

/-- What the IMAP service records for two cuts. -/
theorem imap_audits_iff (s : Session) {results units : List Bytes} (h : Delivered 4095 results)
    (hunits : Delivered 4095 units) :
    audits (runImapService s (received results))=audits (runImapService s (received units)) ↔
      List.Forall₂ SameText (upTo imapQuits results) (upTo imapQuits units) := by
  have hrun : ∀ rs : List Bytes, Delivered 4095 rs → audits (runImapService s (received rs))=
      auditRecordConnection (protocolNumber .imap) s.remoteIp s.remotePort s.sessionId::
        (recorded (commandEvent s .imap) (fun _ : Unit => imapLogin s) (fun _ _ => ()) ()
          ((upTo imapQuits rs).map stripCrlf)++[closingEvent s .imap]) := by
    intro rs hrs
    have hloop := audits_imapCommands s hrs
    have hstrip : (upTo imapQuits rs).map imapStripCrlf=(upTo imapQuits rs).map stripCrlf := rfl
    simp [runImapService,Session.recordConnection,Session.recordDisconnect,hloop,hstrip,closingEvent]
  rw [hrun results h,hrun units hunits,List.cons_eq_cons]
  simp only [true_and]
  exact recorded_strip_iff s .imap (fun _ => imapLogin s) (fun _ _ => ()) () _ _

/-! ## Telnet -/

/-- The line a Telnet result is read as. -/
def telnetLine (bytes : Bytes) : Bytes := telnetStripCrlf (telnetStripIac bytes 1024)

/-- A Telnet result with some text in it: a byte other than a line break behind
the IAC commands and in front of the first NUL. -/
def telnetTyped (bytes : Bytes) : Bool :=
  (cstr (telnetStripIac bytes 1024)).any (fun b => b≠13 && b≠10)

/-- The texts with which a Telnet command has an answer. -/
def telnetAnswered : List String :=
  telnetAnswers.flatMap Prod.fst++["wget","curl"]++telnetLaterAnswers.flatMap Prod.fst

/-- A Telnet result ends the session: it contains `exit` or `logout` and none of
the texts that have an answer. -/
def telnetLeaves (bytes : Bytes) : Bool :=
  !telnetAnswered.any (mentions (telnetStripIac bytes 1024)) &&
    ["exit","logout"].any (mentions (telnetStripIac bytes 1024))

/-- The login fields of two results are the same, as far as they are kept. -/
def SameField (bytes other : Bytes) : Prop :=
  ∃ line line', Stripped (telnetStripIac bytes 1024) line ∧
    Stripped (telnetStripIac other 1024) line' ∧ line.take 255=line'.take 255

/-- Two cuts agree from the point on where so many login attempts are left: the
results of complete attempts have the same fields, and those of the shell that
carry text carry the same text. -/
def TelnetAlike : ℕ → List Bytes → List Bytes → Prop
  | 0,results,units =>
    List.Forall₂ (fun bytes other => SameText (telnetStripIac bytes 1024) (telnetStripIac other 1024))
      (upTo telnetLeaves (results.filter telnetTyped)) (upTo telnetLeaves (units.filter telnetTyped))
  | k+1,name::password::results,name'::password'::units =>
    SameField name name' ∧ SameField password password' ∧ TelnetAlike k results units
  | _+1,results,units => results.length<2 ∧ units.length<2

/-- A result has some text in it exactly when its line is not empty. -/
theorem telnetTyped_eq (bytes : Bytes) : telnetTyped bytes=decide (telnetLine bytes≠[]) := by
  have hempty : telnetLine bytes=[] ↔ ∀ b∈cstr (telnetStripIac bytes 1024), b=13 ∨ b=10 := by
    have hdrop := List.rdropWhile_eq_nil_iff (p := fun b : Byte => b=13 || b=10)
      (l := cstr (telnetStripIac bytes 1024))
    rw [telnetLine,telnetStripCrlf,stripCrlf,hdrop]
    simp only [Bool.or_eq_true,decide_eq_true_eq]
  rw [Bool.eq_iff_iff,telnetTyped,List.any_eq_true,decide_eq_true_eq,ne_eq,hempty]
  simp only [ne_eq,decide_not,Bool.and_eq_true,Bool.not_eq_true',decide_eq_false_iff_not,not_forall,
    not_or,exists_prop]

/-- A chain of tests gives no answer exactly when none of its texts is found. -/
theorem isNone_cannedAnswer (table : List (List String×Bytes)) (cmd : Bytes) :
    (cannedAnswer table cmd).isNone=!(table.flatMap Prod.fst).any (mentions cmd) := by
  rw [Bool.eq_iff_iff,Option.isNone_iff_eq_none,cannedAnswer,Option.map_eq_none_iff,
    List.find?_eq_none,List.any_flatMap,Bool.not_eq_true',List.any_eq_false]

/-- A command ends the session when it asks for that and nothing answers it. -/
theorem isNone_telnetFakeResponse (s : Session) (cmd : Bytes) :
    (telnetFakeResponse s cmd).2.isNone=
      (!telnetAnswered.any (mentions cmd) && ["exit","logout"].any (mentions cmd)) := by
  have hfirst := isNone_cannedAnswer telnetAnswers cmd
  have hlater := isNone_cannedAnswer telnetLaterAnswers cmd
  have hdownload : ["wget","curl"].any (mentions cmd)=(mentions cmd "wget" || mentions cmd "curl") := by
    simp only [List.any_cons,List.any_nil,Bool.or_false]
  have hleaving : ["exit","logout"].any (mentions cmd)=(mentions cmd "exit" || mentions cmd "logout") := by
    simp only [List.any_cons,List.any_nil,Bool.or_false]
  rw [telnetAnswered,List.any_append,List.any_append,hdownload,hleaving]
  unfold telnetFakeResponse
  cases hcanned : cannedAnswer telnetAnswers cmd with
  | some response =>
    rw [hcanned,Option.isNone_some,eq_comm,Bool.not_eq_false'] at hfirst
    rw [hfirst]
    rfl
  | none =>
    rw [hcanned,Option.isNone_none,eq_comm,Bool.not_eq_true'] at hfirst
    rw [hfirst,Bool.false_or]
    dsimp only
    by_cases hwget : (mentions cmd "wget" || mentions cmd "curl")=true
    · rw [if_pos hwget,hwget]
      rfl
    rw [if_neg hwget,Bool.eq_false_of_not_eq_true hwget,Bool.false_or,←hlater]
    cases cannedAnswer telnetLaterAnswers cmd with
    | some response => rfl
    | none =>
      dsimp only
      cases mentions cmd "exit" || mentions cmd "logout" <;> rfl

/-- The command of a result ends the session exactly when the result does. -/
theorem telnetLeaves_eq (s : Session) (bytes : Bytes) :
    telnetLeaves bytes=(telnetFakeResponse s (telnetLine bytes)).2.isNone := by
  have hwords : ∀ word∈telnetAnswered++["exit","logout"], ∀ b∈text word, b≠13 ∧ b≠10 := by
    decide +kernel
  have hsame : ∀ words⊆telnetAnswered++["exit","logout"],
      words.any (mentions (telnetLine bytes))=words.any (mentions (telnetStripIac bytes 1024)) := by
    intro words hwithin
    rw [Bool.eq_iff_iff,List.any_eq_true,List.any_eq_true]
    refine exists_congr (fun word => and_congr_right ?_)
    intro hword
    rw [telnetLine,telnetStripCrlf,mentions_stripCrlf _ (hwords word (hwithin hword))]
  rw [isNone_telnetFakeResponse,hsame _ (List.subset_append_left _ _),
    hsame _ (List.subset_append_right _ _),telnetLeaves]

/-- A shell command writes nothing but log lines beside its answer. -/
theorem audits_telnetFakeResponse (s : Session) (cmd : Bytes) :
    audits (telnetFakeResponse s cmd).1=[] := by
  rw [telnetFakeResponse]
  split
  · rfl
  · split
    · dsimp only
      split <;> rfl
    · split
      · rfl
      · split <;> rfl

/-- What the Telnet shell records. -/
theorem audits_telnetShell (s : Session) {results : List Bytes} (h : Delivered 4095 results) :
    audits (telnetShell s (received results))=
      ((upTo telnetLeaves (results.filter telnetTyped)).map telnetLine).map
        (commandEvent s .telnet) := by
  induction results with
  | nil => rfl
  | cons bytes results ih =>
    obtain ⟨hrecv,hrest⟩ := delivered_cons h
    have hcons : received (bytes::results)=.data bytes::received results := rfl
    have hread : telnetReadLine (.data bytes::received results)=
        (some (telnetLine bytes),received results) := by
      rw [telnetReadLine,hrecv]
      rfl
    have htail := ih hrest
    rw [hcons,telnetShell,hread]
    by_cases hempty : telnetLine bytes=[]
    · have htyped : telnetTyped bytes=false := by simp [telnetTyped_eq,hempty]
      simp [hempty,htyped,htail]
    · have htyped : telnetTyped bytes=true := by simp [telnetTyped_eq,hempty]
      cases hanswer : (telnetFakeResponse s (telnetLine bytes)).2 with
      | none =>
        have hleaves : telnetLeaves bytes=true := by rw [telnetLeaves_eq s,hanswer]; rfl
        simp [hempty,htyped,upTo,hleaves,hanswer,commandEvent,Session.recordCommand,
          audits_telnetFakeResponse]
      | some response =>
        have hleaves : telnetLeaves bytes=false := by rw [telnetLeaves_eq s,hanswer]; rfl
        have hresponse : audits (if response=[] then [] else [Action.send response])=[] := by
          split <;> rfl
        simp [hempty,htyped,upTo,hleaves,hanswer,commandEvent,Session.recordCommand,
          audits_telnetFakeResponse,hresponse,htail]

/-- The event of a Telnet login attempt. -/
def telnetAttempt (s : Session) (name password : Bytes) : AuditEvent :=
  auditRecordAuth (protocolNumber .telnet) s.remoteIp s.remotePort s.sessionId
    ((telnetLine name).take 255) (some ((telnetLine password).take 255)) false

/-- The front of a line contains no NUL. -/
theorem zero_not_mem_field (bytes : Bytes) : (0 : Byte)∉(telnetLine bytes).take 255 :=
  fun h => zero_not_mem_stripCrlf (telnetStripIac bytes 1024) (List.mem_of_mem_take h)

/-- The lines of two results have the same first 255 bytes. -/
theorem sameField_iff (bytes other : Bytes) :
    SameField bytes other ↔ (telnetLine bytes).take 255=(telnetLine other).take 255 := by
  constructor
  · rintro ⟨line,line',hline,hline',hsame⟩
    rw [telnetLine,telnetStripCrlf,(stripCrlf_eq_iff_stripped _ _).mpr hline,telnetLine,telnetStripCrlf,
      (stripCrlf_eq_iff_stripped _ _).mpr hline',hsame]
  · intro h
    exact ⟨_,_,(stripCrlf_eq_iff_stripped _ _).mp rfl,(stripCrlf_eq_iff_stripped _ _).mp rfl,h⟩

/-- The event of an attempt tells its fields. -/
theorem telnetAttempt_eq_iff (s : Session) (name name' password password' : Bytes) :
    telnetAttempt s name password=telnetAttempt s name' password' ↔
      SameField name name' ∧ SameField password password' := by
  have hpassword := cstr_self (zero_not_mem_field password)
  have hpassword' := cstr_self (zero_not_mem_field password')
  simp [telnetAttempt,auditRecordAuth,sameField_iff,hpassword,hpassword']

/-- A login that gets no complete attempt records nothing. -/
theorem audits_telnetLogin_short (s : Session) (k : ℕ) {results : List Bytes}
    (h : Delivered 4095 results) (hshort : results.length<2) :
    audits (telnetLogin s (k+1) (received results))=[] := by
  cases results with
  | nil =>
    simp only [telnetLogin,received,List.map_nil,telnetReadLine]
    split <;> simp
  | cons name results =>
    have hnil : results=[] := by
      rw [List.length_cons] at hshort
      exact List.length_eq_zero_iff.mp (by omega)
    obtain ⟨hrecv,_⟩ := delivered_cons h
    rw [hnil]
    simp only [telnetLogin,received,List.map_cons,List.map_nil,telnetReadLine,hrecv,Option.map_some]
    split <;> simp

/-- A complete attempt is recorded. -/
theorem audits_telnetLogin_attempt (s : Session) (k : ℕ) {name password : Bytes}
    {results : List Bytes} (h : Delivered 4095 (name::password::results)) :
    audits (telnetLogin s (k+1) (received (name::password::results)))=
      telnetAttempt s name password::audits (telnetLogin s k (received results)) := by
  obtain ⟨hname,hlater⟩ := delivered_cons h
  obtain ⟨hpassword,_⟩ := delivered_cons hlater
  simp only [telnetLogin,received,List.map_cons,telnetReadLine,hname,hpassword,Option.map_some]
  split <;> simp [Session.recordAuth,telnetAttempt,telnetLine]

/-- A loop that records nothing but its lines. -/
theorem recorded_map {ℓ ε : Type*} (event : ℓ → ε) (lines : List ℓ) :
    recorded event (fun (_ : Unit) _ => []) (fun _ _ => ()) () lines=lines.map event := by
  induction lines with
  | nil => rfl
  | cons line lines ih => rw [recorded,ih,List.nil_append,List.map_cons]

/-- What the Telnet shell records for two cuts. -/
theorem telnetShell_audits_iff (s : Session) {results units : List Bytes}
    (h : Delivered 4095 results) (hunits : Delivered 4095 units) :
    audits (telnetShell s (received results))++[closingEvent s .telnet]=
        audits (telnetShell s (received units))++[closingEvent s .telnet] ↔
      TelnetAlike 0 results units := by
  have hstrip : ∀ rs : List Bytes, rs.map telnetLine=
      (rs.map (fun bytes => telnetStripIac bytes 1024)).map stripCrlf := by
    intro rs
    rw [List.map_map]
    rfl
  rw [audits_telnetShell s h,audits_telnetShell s hunits,hstrip,hstrip,
    ← recorded_map (commandEvent s .telnet),← recorded_map (commandEvent s .telnet),
    recorded_strip_iff,List.forall₂_map_left_iff,List.forall₂_map_right_iff,TelnetAlike]

/-- Without a complete attempt in one cut there must be none in the other. -/
theorem telnetAlike_short (k : ℕ) {results units : List Bytes}
    (h : results.length<2 ∨ units.length<2) :
    TelnetAlike (k+1) results units ↔ results.length<2 ∧ units.length<2 := by
  rcases results with _|⟨name,_|⟨password,results⟩⟩ <;>
    rcases units with _|⟨name',_|⟨password',units⟩⟩ <;> simp [TelnetAlike] at h ⊢

/-- Results that hold a complete attempt. -/
theorem exists_attempt {results : List Bytes} (h : ¬results.length<2) :
    ∃ name password rest, results=name::password::rest := by
  match results with
  | [] => simp at h
  | [name] => simp at h
  | name::password::rest => exact ⟨name,password,rest,rfl⟩

/-- What the Telnet login records for two cuts, with the shell behind it. -/
theorem telnetLogin_audits_iff (s : Session) (k : ℕ) {results units : List Bytes}
    (h : Delivered 4095 results) (hunits : Delivered 4095 units) :
    audits (telnetLogin s k (received results))++[closingEvent s .telnet]=
        audits (telnetLogin s k (received units))++[closingEvent s .telnet] ↔
      TelnetAlike k results units := by
  induction k generalizing results units with
  | zero =>
    have hmotd : ∀ rs : List Bytes, audits (telnetLogin s 0 (received rs))=
        audits (telnetShell s (received rs)) := fun _ => rfl
    rw [hmotd,hmotd]
    exact telnetShell_audits_iff s h hunits
  | succ k ih =>
    have hclosing : ∀ name password, telnetAttempt s name password≠closingEvent s .telnet := by
      intro name password he
      have htype := congrArg AuditEvent.eventType he
      simp [telnetAttempt,closingEvent,auditRecordAuth,auditRecordDisconnect] at htype
    by_cases hresults : results.length<2
    · rw [telnetAlike_short k (Or.inl hresults),audits_telnetLogin_short s k h hresults]
      by_cases hshort : units.length<2
      · simp [audits_telnetLogin_short s k hunits hshort,hresults,hshort]
      · obtain ⟨name,password,rest,hcons⟩ := exists_attempt hshort
        rw [hcons] at hunits
        simp [hcons,audits_telnetLogin_attempt s k hunits,(hclosing name password).symm]
    · by_cases hshort : units.length<2
      · obtain ⟨name,password,rest,hcons⟩ := exists_attempt hresults
        rw [telnetAlike_short k (Or.inr hshort),audits_telnetLogin_short s k hunits hshort]
        rw [hcons] at h
        simp [hcons,audits_telnetLogin_attempt s k h,hclosing name password]
      · obtain ⟨name,password,rest,hcons⟩ := exists_attempt hresults
        obtain ⟨name',password',rest',hcons'⟩ := exists_attempt hshort
        rw [hcons] at h
        rw [hcons'] at hunits
        have hrest := (delivered_cons (delivered_cons h).2).2
        have hrest' := (delivered_cons (delivered_cons hunits).2).2
        rw [hcons,hcons',audits_telnetLogin_attempt s k h,audits_telnetLogin_attempt s k hunits,
          List.cons_append,List.cons_append,List.cons.injEq,telnetAttempt_eq_iff,ih hrest hrest',
          TelnetAlike,and_assoc]

/-- What the Telnet service records for two cuts. -/
theorem telnet_audits_iff (s : Session) {results units : List Bytes} (h : Delivered 4095 results)
    (hunits : Delivered 4095 units) :
    audits (runTelnetService s (received results))=audits (runTelnetService s (received units)) ↔
      TelnetAlike 2 results units := by
  rw [← telnetLogin_audits_iff s 2 h hunits]
  simp [runTelnetService,Session.recordConnection,Session.recordDisconnect,closingEvent]

/-! ## QuestDB -/

/-- The query messages among the results, up to the first terminate message. -/
def qdbQueryMessages (results : List Bytes) : List Bytes :=
  (results.takeWhile (fun bytes => bytes.head?≠some 88)).filter (fun bytes => bytes.head?=some 81)

/-- Two query messages have the same text behind the first five bytes. -/
def SameQuery (bytes other : Bytes) : Prop := SameText (bytes.drop 5) (other.drop 5)

/-- The text of a query message fits its array. -/
theorem qdbSql_eq {bytes : Bytes} (h : bytes.length ≤ 4096) : qdbSql bytes=stripCrlf (bytes.drop 5) := by
  have hlength := (cstr_front (bytes.drop 5)).length_le
  rw [List.length_drop] at hlength
  have hself : cstr ((cstr (bytes.drop 5)).take 4095)=cstr (bytes.drop 5) := by
    rw [List.take_of_length_le (by omega),cstr_self (zero_not_mem_cstr _)]
  unfold qdbSql qdbStripCrlf stripCrlf
  split
  · rw [hself]
  · rw [List.drop_eq_nil_of_le (by omega)]
    rfl

/-- What the QuestDB message loop records. -/
theorem audits_qdbQueries (s : Session) {results : List Bytes} (h : Delivered 4096 results) :
    audits (qdbQueries s (received results))=
      ((qdbQueryMessages results).map qdbSql).map (commandEvent s .questdb) := by
  induction results with
  | nil => rfl
  | cons bytes results ih =>
    obtain ⟨hrecv,hrest⟩ := delivered_cons h
    have hcons : received (bytes::results)=.data bytes::received results := rfl
    have htail := ih hrest
    rw [hcons,qdbQueries,hrecv]
    simp only
    by_cases hquery : bytes.head?=some 81
    · simp [qdbQueryMessages,hquery,commandEvent,Session.recordCommand,audits_qdbAnswer] at htail ⊢
      exact htail
    · by_cases hend : bytes.head?=some 88
      · simp [qdbQueryMessages,hend]
      · have hskip : qdbQueryMessages (bytes::results)=qdbQueryMessages results := by
          simp [qdbQueryMessages,hquery,hend]
        rw [if_neg hquery,if_neg hend,hskip]
        split
        · rw [audits_send]
          exact htail
        · exact htail

/-- What the QuestDB message loop records for two cuts. -/
theorem questdb_audits_iff (s : Session) {results units : List Bytes} (h : Delivered 4096 results)
    (hunits : Delivered 4096 units) :
    audits (qdbQueries s (received results))=audits (qdbQueries s (received units)) ↔
      List.Forall₂ SameQuery (qdbQueryMessages results) (qdbQueryMessages units) := by
  have hsql : ∀ {rs : List Bytes}, Delivered 4096 rs → (qdbQueryMessages rs).map qdbSql=
      (qdbQueryMessages rs).map (fun bytes => stripCrlf (bytes.drop 5)) := by
    intro rs hrs
    refine List.map_congr_left ?_
    intro bytes hbytes
    have hmem := (List.takeWhile_prefix _).subset (List.mem_of_mem_filter hbytes)
    exact qdbSql_eq (hrs bytes hmem).2
  rw [audits_qdbQueries s h,audits_qdbQueries s hunits,hsql h,hsql hunits,List.map_map,List.map_map,
    map_eq_map_iff]
  have hevent : ∀ bytes other : Bytes,
      (commandEvent s .questdb∘fun bytes => stripCrlf (bytes.drop 5)) bytes=
        (commandEvent s .questdb∘fun bytes => stripCrlf (bytes.drop 5)) other ↔
          SameQuery bytes other := by
    intro bytes other
    rw [SameQuery,←stripCrlf_eq_iff]
    constructor
    · intro he
      exact recordCommand_inj (zero_not_mem_stripCrlf _) (zero_not_mem_stripCrlf _) he
    · intro he
      exact congrArg (commandEvent s .questdb) he
  simp only [hevent]

/-! ## All four handlers -/

/-- What a handler records for a stream cut into receive results in one way and
in another: the POP3 and the IMAP service, the Telnet service and the QuestDB
message loop record the same exactly when the results carry the same texts in
the same order up to the end of the session. -/
theorem cuts_record_alike_iff (s : Session) (results units : List Bytes) :
    (Delivered 4095 results → Delivered 4095 units →
      (audits (runPop3Service s (received results))=audits (runPop3Service s (received units)) ↔
        List.Forall₂ SameText (upTo pop3Quits results) (upTo pop3Quits units)) ∧
      (audits (runImapService s (received results))=audits (runImapService s (received units)) ↔
        List.Forall₂ SameText (upTo imapQuits results) (upTo imapQuits units)) ∧
      (audits (runTelnetService s (received results))=
          audits (runTelnetService s (received units)) ↔ TelnetAlike 2 results units)) ∧
    (Delivered 4096 results → Delivered 4096 units →
      (audits (qdbQueries s (received results))=audits (qdbQueries s (received units)) ↔
        List.Forall₂ SameQuery (qdbQueryMessages results) (qdbQueryMessages units))) := by
  constructor
  · intro h hunits
    exact ⟨pop3_audits_iff s h hunits,imap_audits_iff s h hunits,telnet_audits_iff s h hunits⟩
  · intro h hunits
    exact questdb_audits_iff s h hunits

/-- A cut between the last command and its line break. -/
theorem cuts_record_alike_late_break :
    let s : Session := ⟨text "198.51.100.7",40000,[]⟩
    audits (runPop3Service s (received [text "NOOP"++crlf,text "QUIT",crlf]))=
      audits (runPop3Service s (received [text "NOOP"++crlf,text "QUIT"++crlf])) := by
  intro s
  have hcut : Delivered 4095 [text "NOOP"++crlf,text "QUIT",crlf] := by decide
  have hunits : Delivered 4095 [text "NOOP"++crlf,text "QUIT"++crlf] := by decide
  have hread : upTo pop3Quits [text "NOOP"++crlf,text "QUIT",crlf]=[text "NOOP"++crlf,text "QUIT"] := by
    decide
  have hunit : upTo pop3Quits [text "NOOP"++crlf,text "QUIT"++crlf]=
      [text "NOOP"++crlf,text "QUIT"++crlf] := by decide
  have hquit : SameText (text "QUIT") (text "QUIT"++crlf) :=
    (stripCrlf_eq_iff _ _).mp (by decide)
  apply ((cuts_record_alike_iff s _ _).1 hcut hunits).1.mpr
  rw [hread,hunit]
  exact .cons ((stripCrlf_eq_iff _ _).mp rfl) (.cons hquit .nil)

/-- Two commands in one segment: the POP3, IMAP and Telnet services and the
QuestDB message loop record other events than for a segment each. -/
theorem joined_commands_recorded_as_one :
    let s : Session := ⟨text "198.51.100.7",40000,[]⟩
    let pop3 := [text "USER root"++crlf,text "PASS toor"++crlf]
    let imap := [text "a LOGIN root toor"++crlf,text "b NOOP"++crlf]
    let telnet := [text "root"++crlf,text "toor"++crlf]
    let questdb := [text "Q"++[0,0,0,13]++text "SELECT 1"++[0],text "Q"++[0,0,0,13]++text "SELECT 2"++[0]]
    audits (runPop3Service s (received [pop3.flatten]))≠audits (runPop3Service s (received pop3)) ∧
      audits (runImapService s (received [imap.flatten]))≠
        audits (runImapService s (received imap)) ∧
      audits (runTelnetService s (received [telnet.flatten]))≠
        audits (runTelnetService s (received telnet)) ∧
      audits (qdbQueries s (received [questdb.flatten]))≠
        audits (qdbQueries s (received questdb)) := by
  decide

end HoneyDew.Pipelining
