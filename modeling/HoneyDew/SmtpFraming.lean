import HoneyDew.SmtpService

/-!
# Which bytes the SMTP service takes for a line

The lines of a client stream end with CR LF. A read also ends when its array is
full, and its callers cannot tell. This module compares the lines a session
reads with those of the stream.
-/

namespace HoneyDew.SmtpFraming

open CText Service SmtpService PairLines

/-- A line as a call of `smtp_recv_line` gives it, and the bytes it was read
from. -/
structure Received where
  /-- The text in the array. -/
  line : Bytes
  /-- The stretch of the stream the call has read. -/
  stretch : Bytes
  deriving DecidableEq,Repr

/-- A line of the stream and the stretch it ends with. -/
def wholeLine (line : Bytes) : Received := ⟨line,line++crlf⟩

/-- The lines of a client stream. -/
def crlfLines (stream : Bytes) : List Bytes := lines 13 10 stream

/-- The bytes behind the last CR LF of a client stream. -/
def partialLine (stream : Bytes) : Bytes := unfinished 13 10 stream

/-! ## One call -/

/-- The bytes of an unbroken front are stored one by one. -/
theorem smtpRecvLoop_append {bufSize : ℕ} {buf front : Bytes} (h : Unbroken 13 10 (buf++front))
    (hroom : (buf++front).length ≤ bufSize-1) (rest : Bytes) :
    smtpRecvLoop bufSize buf (front++rest)=smtpRecvLoop bufSize (buf++front) rest := by
  induction front generalizing buf with
  | nil => simp
  | cons b front ih =>
    have hsplit : buf++b::front=(buf++[b])++front := by simp
    rw [hsplit] at h hroom ⊢
    have hb : ¬Completes 13 10 buf b := not_completes (h.part (List.prefix_append _ front).isInfix)
    have hlength : buf.length<bufSize-1 := by
      simp only [List.length_append,List.length_singleton] at hroom
      omega
    rw [List.cons_append,smtpRecvLoop,if_pos hlength,if_neg hb]
    exact ih h hroom

/-- A line that fits the array is read up to its CR LF. -/
theorem smtpRecvLine_line {line : Bytes} (h : Unbroken 13 10 line) (hfit : line.length ≤ 4093)
    (rest : Bytes) : smtpRecvLine (line++crlf++rest)=some (line,rest) := by
  have hfront : Unbroken 13 10 ([]++(line++[13])) := by simpa using h.concat_cr (by decide)
  have hroom : ([]++(line++[13])).length ≤ 4096-1 := by
    simp only [List.nil_append,List.length_append,List.length_singleton]
    omega
  have hread := smtpRecvLoop_append hfront hroom (10::rest)
  have hsplit : line++crlf++rest=(line++[13])++10::rest := by simp [crlf]
  have hlength : (line++[13]).length<4096-1 := by
    simp only [List.length_append,List.length_singleton]
    omega
  rw [smtpRecvLine,hsplit,hread,List.nil_append,smtpRecvLoop,if_pos hlength,
    if_pos (completes_line line)]
  simp

/-- A stream that does not end a line in time fills the array, and what is read
is taken for a line. -/
theorem smtpRecvLine_full {front : Bytes} (h : Unbroken 13 10 front) (hfull : front.length=4095)
    (rest : Bytes) : smtpRecvLine (front++rest)=some (front,rest) := by
  have hfront : Unbroken 13 10 ([]++front) := h
  have hroom : ([]++front).length ≤ 4096-1 := by
    rw [List.nil_append]
    omega
  have hread := smtpRecvLoop_append hfront hroom rest
  have hend : ¬front.length<4096-1 := by omega
  rw [smtpRecvLine,hread,List.nil_append]
  cases rest with
  | nil => rw [smtpRecvLoop,if_neg hend]
  | cons b rest => rw [smtpRecvLoop,if_neg hend]

/-- A stream that ends early gives no line. -/
theorem smtpRecvLine_none {stream : Bytes} (h : Unbroken 13 10 stream)
    (hshort : stream.length ≤ 4094) : smtpRecvLine stream=none := by
  have hfront : Unbroken 13 10 ([]++stream) := h
  have hroom : ([]++stream).length ≤ 4096-1 := by
    rw [List.nil_append]
    omega
  have hread := smtpRecvLoop_append hfront hroom []
  have hend : stream.length<4096-1 := by omega
  rw [List.append_nil,List.nil_append] at hread
  rw [smtpRecvLine,hread,smtpRecvLoop,if_pos hend]

/-- A read takes at least one byte and at most 4095. -/
theorem smtpRecvLoop_stretch {bufSize : ℕ} {buf stream line rest : Bytes} (hbuf : buf.length<bufSize-1)
    (h : smtpRecvLoop bufSize buf stream=some (line,rest)) :
    ∃ stretch, stretch≠[] ∧ stream=stretch++rest ∧ (buf++stretch).length ≤ bufSize-1 := by
  induction stream generalizing buf with
  | nil =>
    rw [smtpRecvLoop,if_pos hbuf] at h
    exact absurd h (by simp)
  | cons c stream ih =>
    rw [smtpRecvLoop,if_pos hbuf] at h
    have hone : (buf++[c]).length ≤ bufSize-1 := by
      rw [List.length_append,List.length_singleton]
      omega
    by_cases hc : Completes 13 10 buf c
    · rw [if_pos hc] at h
      obtain ⟨_,hrest⟩ := Prod.mk.injEq .. ▸ Option.some.inj h
      exact ⟨[c],by simp,by rw [hrest]; rfl,hone⟩
    · rw [if_neg hc] at h
      by_cases hroom : (buf++[c]).length<bufSize-1
      · obtain ⟨stretch,_,hstream,hlength⟩ := ih hroom h
        refine ⟨c::stretch,by simp,by rw [hstream]; rfl,?_⟩
        rw [List.append_cons]
        exact hlength
      · have hrest : rest=stream := by
          cases stream with
          | nil =>
            rw [smtpRecvLoop,if_neg hroom] at h
            exact ((Prod.mk.injEq .. ▸ Option.some.inj h).2).symm
          | cons b stream =>
            rw [smtpRecvLoop,if_neg hroom] at h
            exact ((Prod.mk.injEq .. ▸ Option.some.inj h).2).symm
        exact ⟨[c],by simp,by rw [hrest]; rfl,hone⟩

/-- What a call of `smtp_recv_line` has read lies in front of the rest. -/
theorem smtpRecvLine_stretch {stream line rest : Bytes} (h : smtpRecvLine stream=some (line,rest)) :
    ∃ stretch, stretch≠[] ∧ stream=stretch++rest ∧ stretch.length ≤ 4095 := by
  have hempty : ([] : Bytes).length<4096-1 := by simp
  exact smtpRecvLoop_stretch hempty h

/-! ## All calls -/

/-- The results of the calls of `smtp_recv_line`, one after the other, until one
returns an error. -/
def smtpReceived (stream : Bytes) : List Received :=
  match _hread : smtpRecvLine stream with
  | none => []
  | some (line,rest) => ⟨line,stream.take (stream.length-rest.length)⟩::smtpReceived rest
termination_by stream.length
decreasing_by
  obtain ⟨stretch,hne,hstream,_⟩ := smtpRecvLine_stretch _hread
  have hpos := List.length_pos_iff.mpr hne
  rw [hstream,List.length_append]
  omega

/-- The first call reads a line. -/
theorem smtpReceived_cons {stream line rest : Bytes} (h : smtpRecvLine stream=some (line,rest)) :
    smtpReceived stream=⟨line,stream.take (stream.length-rest.length)⟩::smtpReceived rest := by
  rw [smtpReceived]
  split
  · rename_i hnone
    rw [h] at hnone
    exact absurd hnone (by simp)
  · rename_i line' rest' hsome
    rw [h] at hsome
    obtain ⟨hline,hrest⟩ := Prod.mk.injEq .. ▸ Option.some.inj hsome
    rw [hline,hrest]

/-- The first call fails. -/
theorem smtpReceived_none {stream : Bytes} (h : smtpRecvLine stream=none) :
    smtpReceived stream=[] := by
  rw [smtpReceived]
  split
  · rfl
  · rename_i line rest hsome
    rw [h] at hsome
    exact absurd hsome (by simp)

/-- The stretches of the calls lie one behind the other in the stream, and none
is longer than the array. -/
theorem smtpReceived_stretches (stream : Bytes) :
    (∃ rest, stream=(smtpReceived stream).flatMap Received.stretch++rest ∧
      smtpRecvLine rest=none) ∧ ∀ r∈smtpReceived stream, r.stretch.length ≤ 4095 := by
  generalize hn : stream.length=n
  induction n using Nat.strongRecOn generalizing stream with
  | ind n ih =>
    cases hread : smtpRecvLine stream with
    | none =>
      rw [smtpReceived_none hread]
      exact ⟨⟨stream,by simp,hread⟩,by simp⟩
    | some result =>
      obtain ⟨line,rest⟩ := result
      obtain ⟨stretch,hne,hstream,hlength⟩ := smtpRecvLine_stretch hread
      have hpos := List.length_pos_iff.mpr hne
      have hless : rest.length<n := by
        rw [← hn,hstream,List.length_append]
        omega
      obtain ⟨⟨last,hlast,hend⟩,hbound⟩ := ih rest.length hless rest rfl
      have htake : stream.take (stream.length-rest.length)=stretch := by
        rw [hstream,List.length_append,Nat.add_sub_cancel,List.take_left]
      rw [smtpReceived_cons hread,htake]
      refine ⟨⟨last,?_,hend⟩,?_⟩
      · rw [List.flatMap_cons,List.append_assoc,← hlast]
        exact hstream
      · intro r hr
        cases List.mem_cons.mp hr with
        | inl he =>
          rw [he]
          exact hlength
        | inr he => exact hbound r he

/-- Lines that fit the array are read as they are. -/
theorem smtpReceived_lines {front : List Bytes} (h : ∀ line∈front, Unbroken 13 10 line)
    (hfit : ∀ line∈front, line.length ≤ 4093) (rest : Bytes) :
    smtpReceived (front.flatMap (fun line => line++crlf)++rest)=
      front.map wholeLine++smtpReceived rest := by
  induction front with
  | nil => rfl
  | cons line front ih =>
    have hrest := ih (fun other ho => h other (List.mem_cons_of_mem _ ho))
      (fun other ho => hfit other (List.mem_cons_of_mem _ ho))
    have hread := smtpRecvLine_line (h line List.mem_cons_self) (hfit line List.mem_cons_self)
      (front.flatMap (fun line => line++crlf)++rest)
    have hsplit : (line::front).flatMap (fun line => line++crlf)++rest=
        line++crlf++(front.flatMap (fun line => line++crlf)++rest) := by
      rw [List.flatMap_cons,List.append_assoc]
    rw [hsplit,smtpReceived_cons hread,hrest,List.length_append,Nat.add_sub_cancel,List.take_left]
    rfl

/-- A call fails exactly when the stream ends before a line and before the array
is full. -/
theorem smtpRecvLine_eq_none_iff (stream : Bytes) :
    smtpRecvLine stream=none ↔ Unbroken 13 10 stream ∧ stream.length ≤ 4094 := by
  constructor
  · intro h
    have hfront : ∀ front rest : Bytes, Unbroken 13 10 front → stream=front++rest →
        front.length<4095 := by
      intro front rest hunbroken hstream
      by_contra hlong
      have hpart : Unbroken 13 10 (front.take 4095) :=
        hunbroken.part (List.take_prefix 4095 front).isInfix
      have hlength : (front.take 4095).length=4095 := by
        rw [List.length_take]
        omega
      have hread := smtpRecvLine_full hpart hlength (front.drop 4095++rest)
      rw [← List.append_assoc,List.take_append_drop,← hstream,h] at hread
      exact absurd hread (by simp)
    cases unbroken_or_line 13 10 stream with
    | inl hunbroken =>
      have hshort := hfront stream [] hunbroken (by simp)
      exact ⟨hunbroken,by omega⟩
    | inr hsplit =>
      obtain ⟨line,rest,hline,hstream⟩ := hsplit
      have hshort := hfront (line++[13]) (10::rest) (hline.concat_cr (by decide))
        (by rw [hstream]; simp)
      rw [List.length_append,List.length_singleton] at hshort
      have hread := smtpRecvLine_line hline (by omega) rest
      have hsame : line++crlf++rest=stream := by
        rw [hstream]
        simp [crlf]
      rw [hsame,h] at hread
      exact absurd hread (by simp)
  · intro h
    exact smtpRecvLine_none h.1 h.2

/-! ## What a session reads -/

/-- A reader that leaves a wire has read the lines it took from the front, and
does the same whatever follows them. -/
def ReadsAhead (handler : Wire → List Action×Option Wire) : Prop :=
  ∀ w t actions, handler w=(actions,some t) →
    ∃ used, w.lines=used++t.lines ∧
      ∀ later, handler {w with lines := used++later}=(actions,some {t with lines := later})

/-- A handler that only sends reads nothing. -/
theorem readsAhead_send (actions : List Action) :
    ReadsAhead (fun w => (actions,some (smtpSend w).2)) := by
  intro w t acts h
  obtain ⟨hacts,ht⟩ := Prod.mk.injEq .. ▸ h
  have hw := Option.some.inj ht
  refine ⟨[],?_,?_⟩
  · rw [← hw]
    rfl
  · intro later
    rw [← hacts,← hw]
    rfl

/-- Nothing is read when the send fails. -/
theorem readsAhead_sendOrReturn (start : List Action) {body : Wire → List Action×Option Wire}
    (hbody : ReadsAhead body) : ReadsAhead (sendOrReturn start body) := by
  intro w t actions h
  have hsame : ∀ later, (smtpSend {w with lines := later}).1=(smtpSend w).1 := fun _ => rfl
  by_cases hsent : (smtpSend w).1=true
  · rw [sendOrReturn,if_pos hsent] at h
    obtain ⟨used,hlines,hlater⟩ := hbody _ t actions h
    refine ⟨used,hlines,?_⟩
    intro later
    rw [sendOrReturn,if_pos (by rw [hsame]; exact hsent)]
    exact hlater later
  · rw [sendOrReturn,if_neg hsent] at h
    obtain ⟨used,hlines,hlater⟩ := readsAhead_send start w t actions h
    refine ⟨used,hlines,?_⟩
    intro later
    rw [sendOrReturn,if_neg (by rw [hsame]; exact hsent)]
    exact hlater later

/-- One line is read first. -/
theorem readsAhead_lineOrReturn (start : List Action)
    {body : Bytes → Wire → List Action×Option Wire} (hbody : ∀ line, ReadsAhead (body line)) :
    ReadsAhead (lineOrReturn start body) := by
  intro w t actions h
  obtain ⟨lines,delivers⟩ := w
  cases lines with
  | nil =>
    rw [lineOrReturn,nextLine] at h
    exact absurd (congrArg Prod.snd h) (by simp)
  | cons line lines =>
    obtain ⟨used,hlines,hlater⟩ := hbody line ⟨lines,delivers⟩ t actions h
    have hrest : lines=used++t.lines := hlines
    refine ⟨line::used,by rw [hrest]; rfl,?_⟩
    intro later
    exact hlater later

/-- `smtp_handle_auth_login`. -/
theorem smtpHandleAuthLogin_readsAhead (s : Session) : ReadsAhead (smtpHandleAuthLogin s) := by
  apply readsAhead_sendOrReturn
  apply readsAhead_lineOrReturn
  intro first
  apply readsAhead_sendOrReturn
  apply readsAhead_lineOrReturn
  intro second
  exact readsAhead_send _

/-- `smtp_handle_auth_plain`. -/
theorem smtpHandleAuthPlain_readsAhead (s : Session) (arg : Bytes) :
    ReadsAhead (smtpHandleAuthPlain s arg) := by
  by_cases harg : arg≠[]
  · have hfun : smtpHandleAuthPlain s arg=
        fun w => (smtpPlainCredentials s (arg.take 4095),some (smtpSend w).2) := by
      funext w
      rw [smtpHandleAuthPlain,if_pos harg]
    rw [hfun]
    exact readsAhead_send _
  · have hfun : smtpHandleAuthPlain s arg=
        sendOrReturn [.send (replyLine "334")] (lineOrReturn [.send (replyLine "334")] (fun line w =>
          ([.send (replyLine "334")]++smtpPlainCredentials s ((smtpStripCrlf line).take 4095),
            some (smtpSend w).2))) := by
      funext w
      rw [smtpHandleAuthPlain,if_neg harg]
    rw [hfun]
    apply readsAhead_sendOrReturn
    apply readsAhead_lineOrReturn
    intro line
    exact readsAhead_send _

/-- The mail text is read up to its end marker. -/
theorem smtpDataLoop_readsAhead {data result : Bytes} {lines rest : List Bytes}
    (h : smtpDataLoop data lines=(result,some rest)) :
    ∃ used, lines=used++rest ∧ ∀ later, smtpDataLoop data (used++later)=(result,some later) := by
  induction lines generalizing data with
  | nil =>
    rw [smtpDataLoop] at h
    by_cases hroom : data.length<65535
    · rw [if_pos hroom] at h
      exact absurd (congrArg Prod.snd h) (by simp)
    · rw [if_neg hroom] at h
      obtain ⟨hdata,hrest⟩ := Prod.mk.injEq .. ▸ h
      refine ⟨[],by rw [← Option.some.inj hrest]; rfl,?_⟩
      intro later
      rw [← hdata]
      cases later <;> simp [smtpDataLoop,hroom]
  | cons line lines ih =>
    rw [smtpDataLoop] at h
    by_cases hroom : data.length<65535
    · rw [if_pos hroom] at h
      by_cases hmarker : cstr line=text "."
      · rw [if_pos hmarker] at h
        obtain ⟨hdata,hrest⟩ := Prod.mk.injEq .. ▸ h
        refine ⟨[line],by rw [← Option.some.inj hrest]; rfl,?_⟩
        intro later
        rw [List.singleton_append,smtpDataLoop,if_pos hroom,if_pos hmarker,hdata]
      · rw [if_neg hmarker] at h
        obtain ⟨used,hlines,hlater⟩ := ih h
        refine ⟨line::used,by rw [hlines]; rfl,?_⟩
        intro later
        rw [List.cons_append,smtpDataLoop,if_pos hroom,if_neg hmarker]
        exact hlater later
    · rw [if_neg hroom] at h
      obtain ⟨hdata,hrest⟩ := Prod.mk.injEq .. ▸ h
      refine ⟨[],by rw [← Option.some.inj hrest]; rfl,?_⟩
      intro later
      rw [← hdata]
      cases later <;> simp [smtpDataLoop,hroom]

/-- `smtp_handle_data`. -/
theorem smtpHandleData_readsAhead (s : Session) : ReadsAhead (smtpHandleData s) := by
  apply readsAhead_sendOrReturn
  intro w t actions h
  rw [smtpCollectData] at h
  cases hloop : smtpDataLoop [] w.lines with
  | mk data left =>
    cases left with
    | none =>
      simp only [hloop] at h
      exact absurd (congrArg Prod.snd h) (by simp)
    | some rest =>
      simp only [hloop] at h
      obtain ⟨hactions,ht⟩ := Prod.mk.injEq .. ▸ h
      obtain ⟨used,hlines,hlater⟩ := smtpDataLoop_readsAhead hloop
      have hw := Option.some.inj ht
      refine ⟨used,by rw [hlines,← hw]; rfl,?_⟩
      intro later
      rw [smtpCollectData]
      simp only [hlater later]
      rw [← hactions,← hw]
      rfl

/-- The wire a command leaves. -/
def SmtpNext.wire : SmtpNext → Option Wire
  | .lost => none
  | .quit w => some w
  | .continues w => some w

/-- The way to go on behind a command, with other lines to come. -/
def SmtpNext.withLines (later : List Bytes) : SmtpNext → SmtpNext
  | .lost => .lost
  | .quit w => .quit {w with lines := later}
  | .continues w => .continues {w with lines := later}

/-- A command that leaves a wire has read the lines it took from the front, and
does the same whatever follows them. -/
def ExecutesAhead (command : Wire → List Action×SmtpNext) : Prop :=
  ∀ w t actions next, command w=(actions,next) → SmtpNext.wire next=some t →
    ∃ used, w.lines=used++t.lines ∧
      ∀ later, command {w with lines := used++later}=(actions,SmtpNext.withLines later next)

/-- A branch on the command line. -/
theorem executesAhead_ite (c : Prop) [Decidable c] {f g : Wire → List Action×SmtpNext}
    (hf : ExecutesAhead f) (hg : ExecutesAhead g) :
    ExecutesAhead (fun w => if c then f w else g w) := by
  by_cases hc : c
  · simpa only [hc,if_true] using hf
  · simpa only [hc,if_false] using hg

/-- A handler with its own reads. -/
theorem executesAhead_goesOn {handler : Wire → List Action×Option Wire} (h : ReadsAhead handler) :
    ExecutesAhead (fun w => ((handler w).1,goesOn (handler w).2)) := by
  intro w t actions next hrun hnext
  obtain ⟨hactions,hgoes⟩ := Prod.mk.injEq .. ▸ hrun
  cases hwire : (handler w).2 with
  | none =>
    rw [← hgoes,hwire] at hnext
    exact absurd hnext (by simp [goesOn,SmtpNext.wire])
  | some u =>
    rw [← hgoes,hwire] at hnext
    have hu : u=t := Option.some.inj hnext
    obtain ⟨used,hlines,hlater⟩ := h w u actions (by rw [← hactions,← hwire])
    refine ⟨used,by rw [hlines,hu],?_⟩
    intro later
    simp only [hlater later]
    rw [← hgoes,hwire]
    rfl

/-- A command that is answered at once. -/
theorem executesAhead_continues (actions : List Action) :
    ExecutesAhead (fun w => (actions,.continues (smtpSend w).2)) :=
  executesAhead_goesOn (readsAhead_send actions)

/-- The command that ends the session. -/
theorem executesAhead_quit (actions : List Action) :
    ExecutesAhead (fun w => (actions,.quit (smtpSend w).2)) := by
  intro w t acts next hrun hnext
  obtain ⟨hacts,hquit⟩ := Prod.mk.injEq .. ▸ hrun
  rw [← hquit] at hnext
  have ht : (smtpSend w).2=t := Option.some.inj hnext
  refine ⟨[],by rw [← ht]; rfl,?_⟩
  intro later
  rw [← hacts,← hquit]
  rfl

/-- Every command of the chain. -/
theorem smtpExecute_ahead (s : Session) (line : Bytes) : ExecutesAhead (smtpExecute s line) := by
  have hchain : smtpExecute s line=fun w => smtpExecute s line w := rfl
  rw [hchain]
  simp only [smtpExecute]
  refine executesAhead_ite _ (executesAhead_continues _) ?_
  refine executesAhead_ite _ (executesAhead_goesOn (smtpHandleAuthLogin_readsAhead s)) ?_
  refine executesAhead_ite _ (executesAhead_goesOn (smtpHandleAuthPlain_readsAhead s _)) ?_
  refine executesAhead_ite _ (executesAhead_continues _) ?_
  refine executesAhead_ite _ (executesAhead_continues _) ?_
  refine executesAhead_ite _ (executesAhead_goesOn (smtpHandleData_readsAhead s)) ?_
  refine executesAhead_ite _ (executesAhead_continues _) ?_
  refine executesAhead_ite _ (executesAhead_continues _) ?_
  exact executesAhead_ite _ (executesAhead_quit _) (executesAhead_continues _)

/-- The command loop, with enough rounds for the lines there are. -/
theorem smtpCommands_ahead {s : Session} {fuel : ℕ} {w t : Wire} {actions : List Action}
    (h : smtpCommands s fuel w=(actions,some t)) :
    ∃ used, w.lines=used++t.lines ∧ ∀ later fuel', (used++later).length<fuel' →
      smtpCommands s fuel' {w with lines := used++later}=(actions,some {t with lines := later}) := by
  induction fuel generalizing w actions with
  | zero => exact absurd (congrArg Prod.snd h) (by simp [smtpCommands])
  | succ fuel ih =>
    obtain ⟨lines,delivers⟩ := w
    cases lines with
    | nil => exact absurd (congrArg Prod.snd h) (by simp [smtpCommands,nextLine])
    | cons received lines =>
      simp only [smtpCommands,nextLine] at h
      by_cases hempty : smtpStripCrlf received=[]
      · rw [if_pos hempty] at h
        obtain ⟨used,hlines,hlater⟩ := ih h
        refine ⟨received::used,congrArg (received::·) hlines,?_⟩
        intro later fuel' hfuel
        obtain ⟨fuel',rfl⟩ := Nat.exists_eq_succ_of_ne_zero (Nat.ne_zero_of_lt hfuel)
        simp only [List.cons_append,smtpCommands,nextLine]
        rw [if_pos hempty]
        exact hlater later fuel' (Nat.lt_of_succ_lt_succ hfuel)
      · rw [if_neg hempty] at h
        cases hdone : smtpExecute s (smtpStripCrlf received) ⟨lines,delivers⟩ with
        | mk acts next =>
          rw [hdone] at h
          have hahead := smtpExecute_ahead s (smtpStripCrlf received) ⟨lines,delivers⟩
          cases next with
          | lost => exact absurd (congrArg Prod.snd h) (by simp)
          | quit u =>
            obtain ⟨hactions,hu⟩ := Prod.mk.injEq .. ▸ h
            obtain ⟨used,hlines,hlater⟩ := hahead t acts (.quit u) hdone hu
            refine ⟨received::used,congrArg (received::·) hlines,?_⟩
            intro later fuel' hfuel
            obtain ⟨fuel',rfl⟩ := Nat.exists_eq_succ_of_ne_zero (Nat.ne_zero_of_lt hfuel)
            simp only [List.cons_append,smtpCommands,nextLine]
            rw [if_neg hempty,hlater later]
            simp only [SmtpNext.withLines]
            rw [hactions,Option.some.inj hu]
          | continues u =>
            obtain ⟨hactions,hrest⟩ := Prod.mk.injEq .. ▸ h
            obtain ⟨used,hlines,hlater⟩ := hahead u acts (.continues u) hdone rfl
            have hsplit : smtpCommands s fuel u=((smtpCommands s fuel u).1,some t) := by
              rw [← hrest]
            obtain ⟨more,hmore,hmoreLater⟩ := ih hsplit
            have hwhole : lines=used++more++t.lines := by
              rw [List.append_assoc,← hmore]
              exact hlines
            refine ⟨received::(used++more),congrArg (received::·) hwhole,?_⟩
            intro later fuel' hfuel
            obtain ⟨fuel',rfl⟩ := Nat.exists_eq_succ_of_ne_zero (Nat.ne_zero_of_lt hfuel)
            have hshort : (more++later).length<fuel' := by
              simp only [List.length_cons,List.length_append] at hfuel ⊢
              omega
            have hnext := hmoreLater later fuel' hshort
            simp only [List.cons_append,smtpCommands,nextLine]
            rw [if_neg hempty,List.append_assoc,hlater (more++later)]
            simp only [SmtpNext.withLines]
            rw [hnext,← hactions]

/-- The session as a whole. -/
theorem smtpSession_readsAhead (s : Session) : ReadsAhead (smtpSession s) := by
  apply readsAhead_sendOrReturn
  intro w t actions h
  obtain ⟨used,hlines,hlater⟩ := smtpCommands_ahead h
  exact ⟨used,hlines,fun later => hlater later _ (Nat.lt_succ_self _)⟩

/-- Of the lines that calls of `smtp_recv_line` would give, those a session
reads. -/
def linesRead (s : Session) (delivers : List Bool) (received : List Received) : List Received :=
  match (smtpSession s ⟨received.map Received.line,delivers⟩).2 with
  | none => received
  | some w => received.take (received.length-w.lines.length)

/-- Every line the session acts on is a line of the stream, read to its end. -/
def ReadsWholeLines (s : Session) (delivers : List Bool) (stream : Bytes) : Prop :=
  linesRead s delivers (smtpReceived stream)<+:(crlfLines stream).map wholeLine

/-- The lines of the stream up to the one that ends the session fit the array,
and so do the bytes behind the last line when none ends it. -/
def LinesFit (s : Session) (delivers : List Bool) (stream : Bytes) : Prop :=
  (∀ r∈linesRead s delivers ((crlfLines stream).map wholeLine), r.line.length ≤ 4093) ∧
    ((smtpSession s ⟨crlfLines stream,delivers⟩).2=none → (partialLine stream).length ≤ 4094)

/-- The texts of whole lines. -/
@[simp] theorem map_line_wholeLine (texts : List Bytes) :
    (texts.map wholeLine).map Received.line=texts := by
  induction texts with
  | nil => rfl
  | cons line texts ih => exact congrArg (line::·) ih

/-- The stretches of whole lines. -/
theorem flatMap_stretch_wholeLine (texts : List Bytes) :
    (texts.map wholeLine).flatMap Received.stretch=texts.flatMap (fun line => line++crlf) := by
  rw [List.flatMap_map]
  rfl

/-- What a session that comes to its end has read. -/
theorem linesRead_of_some {s : Session} {delivers : List Bool} {w : Wire} {used later : List Received}
    (h : (smtpSession s ⟨(used++later).map Received.line,delivers⟩).2=some w)
    (hlater : w.lines=later.map Received.line) : linesRead s delivers (used++later)=used := by
  rw [linesRead,h]
  simp only
  rw [hlater,List.length_map,List.length_append,Nat.add_sub_cancel,List.take_left]

/-- A session does not depend on the lines it does not read. -/
theorem smtpSession_used {s : Session} {delivers : List Bool} {w : Wire} {lines : List Bytes}
    (h : (smtpSession s ⟨lines,delivers⟩).2=some w) :
    ∃ used, lines=used++w.lines ∧ ∀ later,
      smtpSession s ⟨used++later,delivers⟩=
        ((smtpSession s ⟨lines,delivers⟩).1,some {w with lines := later}) := by
  have hrun : smtpSession s ⟨lines,delivers⟩=((smtpSession s ⟨lines,delivers⟩).1,some w) := by
    rw [← h]
  exact smtpSession_readsAhead s ⟨lines,delivers⟩ w _ hrun

/-- A line read to its end fits the array. -/
theorem fits_of_received {stream line : Bytes} (h : wholeLine line∈smtpReceived stream) :
    line.length ≤ 4093 := by
  have hlength := (smtpReceived_stretches stream).2 _ h
  simp only [wholeLine,crlf,List.length_append,List.length_cons,List.length_nil] at hlength
  omega

/-- A stream whose calls all give lines of the stream consists of these lines and
a rest that does not fill the array. -/
theorem stream_of_received {stream : Bytes} {used : List Bytes}
    (h : smtpReceived stream=used.map wholeLine) (hused : used<+:crlfLines stream) :
    crlfLines stream=used ∧ (partialLine stream).length ≤ 4094 := by
  obtain ⟨⟨rest,hstream,hend⟩,_⟩ := smtpReceived_stretches stream
  obtain ⟨hrest,hshort⟩ := (smtpRecvLine_eq_none_iff rest).mp hend
  have hunbroken : ∀ line∈used, Unbroken 13 10 line :=
    fun line hl => (lines_spec (by decide) stream).2.1 line (hused.subset hl)
  rw [h,flatMap_stretch_wholeLine] at hstream
  have hlines := lines_append (by decide) hunbroken rest
  have hleft := unfinished_append (by decide) hunbroken rest
  have hnone : lines 13 10 rest=[] := by rw [lines,cutFrom_unbroken hrest]
  have hall : unfinished 13 10 rest=rest := by rw [unfinished,cutFrom_unbroken hrest]
  have hsame : used.flatMap (fun line => line++[13,10])++rest=stream := hstream.symm
  rw [hsame,hnone,List.append_nil] at hlines
  rw [hsame,hall] at hleft
  exact ⟨hlines,by rw [partialLine,hleft]; exact hshort⟩

/-- A prefix of whole lines consists of whole lines. -/
theorem exists_texts {received : List Received} {texts : List Bytes}
    (h : received<+:texts.map wholeLine) :
    ∃ used, used<+:texts ∧ received=used.map wholeLine := by
  refine ⟨texts.take received.length,List.take_prefix _ _,?_⟩
  rw [List.map_take]
  exact List.prefix_iff_eq_take.mp h

/-- Where the session reads whole lines they fit the array. -/
theorem linesFit_of_readsWholeLines {s : Session} {delivers : List Bool} {stream : Bytes}
    (h : ReadsWholeLines s delivers stream) : LinesFit s delivers stream := by
  rw [ReadsWholeLines] at h
  cases hsession : (smtpSession s ⟨(smtpReceived stream).map Received.line,delivers⟩).2 with
  | none =>
    have hall : linesRead s delivers (smtpReceived stream)=smtpReceived stream := by
      rw [linesRead,hsession]
    rw [hall] at h
    obtain ⟨used,hused,hreceived⟩ := exists_texts h
    obtain ⟨hlines,hshort⟩ := stream_of_received hreceived hused
    rw [hreceived,map_line_wholeLine] at hsession
    constructor
    · rw [hlines,linesRead,map_line_wholeLine,hsession]
      intro r hr
      obtain ⟨line,hline,he⟩ := List.mem_map.mp hr
      rw [← he]
      exact fits_of_received (by rw [hreceived]; exact List.mem_map.mpr ⟨line,hline,rfl⟩)
    · intro _
      exact hshort
  | some w =>
    obtain ⟨used,hsplit,hlater⟩ := smtpSession_used hsession
    have hlength : (smtpReceived stream).length-w.lines.length=used.length := by
      have hcount := congrArg List.length hsplit
      rw [List.length_map,List.length_append] at hcount
      omega
    have hread : linesRead s delivers (smtpReceived stream)=
        (smtpReceived stream).take used.length := by
      rw [linesRead,hsession]
      simp only
      rw [hlength]
    rw [hread] at h
    obtain ⟨texts,htexts,hreceived⟩ := exists_texts h
    have hsame : used=texts := by
      have hmap := congrArg (List.map Received.line) hreceived
      rw [map_line_wholeLine,List.map_take,hsplit,List.take_left] at hmap
      exact hmap
    obtain ⟨more,hmore⟩ := htexts
    have hideal := congrArg Prod.snd (hlater more)
    rw [hsame,hmore] at hideal
    constructor
    · have hideal' : (smtpSession s ⟨(texts.map wholeLine++more.map wholeLine).map Received.line,
          delivers⟩).2=some {w with lines := more} := by
        rw [← List.map_append,hmore,map_line_wholeLine]
        exact hideal
      rw [← hmore,List.map_append,linesRead_of_some hideal' (by rw [map_line_wholeLine])]
      intro r hr
      obtain ⟨line,hline,he⟩ := List.mem_map.mp hr
      rw [← he]
      have hin : wholeLine line∈(smtpReceived stream).take used.length := by
        rw [hreceived]
        exact List.mem_map.mpr ⟨line,hline,rfl⟩
      exact fits_of_received (List.mem_of_mem_take hin)
    · intro hnone
      rw [hideal] at hnone
      exact absurd hnone (by simp)

/-- Lines that fit the array are received as they stand: all of them when none
ends the session, and else those up to the one that does. -/
theorem received_of_linesFit {s : Session} {delivers : List Bool} {stream : Bytes}
    (h : LinesFit s delivers stream) :
    ((smtpSession s ⟨crlfLines stream,delivers⟩).2=none ∧
      smtpReceived stream=(crlfLines stream).map wholeLine) ∨
    ∃ (w : Wire) (used : List Bytes) (more : List Received),
      crlfLines stream=used++w.lines ∧ smtpReceived stream=used.map wholeLine++more ∧
      ∀ later, smtpSession s ⟨used++later,delivers⟩=
        ((smtpSession s ⟨crlfLines stream,delivers⟩).1,some {w with lines := later}) := by
  obtain ⟨hfit,hshort⟩ := h
  obtain ⟨hstream,hunbroken,hrest⟩ := lines_spec (by decide : (13 : Byte)≠10) stream
  cases hsession : (smtpSession s ⟨crlfLines stream,delivers⟩).2 with
  | none =>
    rw [linesRead,map_line_wholeLine,hsession] at hfit
    have hlengths : ∀ line∈lines 13 10 stream, line.length ≤ 4093 :=
      fun line hl => hfit (wholeLine line) (List.mem_map.mpr ⟨line,hl,rfl⟩)
    have hreceived := smtpReceived_lines hunbroken hlengths (unfinished 13 10 stream)
    have hend := smtpReceived_none (smtpRecvLine_none hrest (hshort hsession))
    have hsame : (lines 13 10 stream).flatMap (fun line => line++crlf)++unfinished 13 10 stream=
        stream := hstream.symm
    rw [hsame,hend,List.append_nil] at hreceived
    exact Or.inl ⟨rfl,hreceived⟩
  | some w =>
    obtain ⟨used,hsplit,hlater⟩ := smtpSession_used hsession
    have hideal : (smtpSession s ⟨(used.map wholeLine++w.lines.map wholeLine).map Received.line,
        delivers⟩).2=some w := by
      rw [← List.map_append,← hsplit,map_line_wholeLine]
      exact hsession
    rw [hsplit,List.map_append,linesRead_of_some hideal (by rw [map_line_wholeLine])] at hfit
    have hlengths : ∀ line∈used, line.length ≤ 4093 :=
      fun line hl => hfit (wholeLine line) (List.mem_map.mpr ⟨line,hl,rfl⟩)
    have hin : ∀ line∈used, Unbroken 13 10 line := by
      intro line hl
      apply hunbroken line
      have hmem : line∈crlfLines stream := by
        rw [hsplit]
        exact List.mem_append_left _ hl
      exact hmem
    have hwhole : stream=used.flatMap (fun line => line++crlf)++
        (w.lines.flatMap (fun line => line++crlf)++partialLine stream) := by
      have hlines : lines 13 10 stream=used++w.lines := hsplit
      rw [hlines,List.flatMap_append,List.append_assoc] at hstream
      exact hstream
    have hreceived := smtpReceived_lines hin hlengths
      (w.lines.flatMap (fun line => line++crlf)++partialLine stream)
    rw [← hwhole] at hreceived
    exact Or.inr ⟨w,used,_,hsplit,hreceived,hlater⟩

/-- Where the lines fit the array the session reads whole lines. -/
theorem readsWholeLines_of_linesFit {s : Session} {delivers : List Bool} {stream : Bytes}
    (h : LinesFit s delivers stream) : ReadsWholeLines s delivers stream := by
  rcases received_of_linesFit h with ⟨hsession,hreceived⟩|⟨w,used,more,hsplit,hreceived,hlater⟩
  · have hall : linesRead s delivers (smtpReceived stream)=smtpReceived stream := by
      rw [linesRead,hreceived,map_line_wholeLine,hsession]
    rw [ReadsWholeLines,hall,hreceived]
  · have hrun : (smtpSession s ⟨(used.map wholeLine++more).map Received.line,delivers⟩).2=
        some {w with lines := more.map Received.line} := by
      rw [List.map_append,map_line_wholeLine]
      exact congrArg Prod.snd (hlater (more.map Received.line))
    rw [ReadsWholeLines,hreceived,linesRead_of_some hrun rfl,hsplit,List.map_append]
    exact List.prefix_append _ _

/-- Where the lines fit the array the handler acts on the stream as it would act
on its lines. -/
theorem runSmtpService_lines {s : Session} {delivers : List Bool} {stream : Bytes}
    (h : LinesFit s delivers stream) :
    runSmtpService s ⟨(smtpReceived stream).map Received.line,delivers⟩=
      runSmtpService s ⟨crlfLines stream,delivers⟩ := by
  rcases received_of_linesFit h with ⟨_,hreceived⟩|⟨_,used,more,_,hreceived,hlater⟩
  · rw [hreceived,map_line_wholeLine]
  · rw [runSmtpService,runSmtpService,hreceived,List.map_append,map_line_wholeLine,hlater]

/-! ## The end of the mail text -/

/-- The mail text ends at the first line that is a single dot, however much text
there is. -/
theorem smtpDataLoop_marker {data : Bytes} (hdata : data.length<65535) {mail : List Bytes}
    (hmail : ∀ line∈mail, cstr line≠text ".") (later : List Bytes) :
    ∃ result, smtpDataLoop data (mail++text "."::later)=(result,some later) := by
  induction mail generalizing data with
  | nil =>
    have hdot : cstr (text ".")=text "." := by decide
    refine ⟨data,?_⟩
    rw [List.nil_append,smtpDataLoop,if_pos hdata,if_pos hdot]
  | cons line mail ih =>
    have hline := hmail line List.mem_cons_self
    have hrest : ∀ other∈mail, cstr other≠text "." :=
      fun other ho => hmail other (List.mem_cons_of_mem _ ho)
    rw [List.cons_append,smtpDataLoop,if_pos hdata,if_neg hline]
    apply ih _ hrest
    split
    · rename_i hroom
      simp only [List.length_append,List.length_singleton]
      omega
    · exact hdata

/-- `smtp_handle_data` reads up to the end marker when its reply is delivered. -/
theorem smtpHandleData_marker (s : Session) {mail : List Bytes} {delivers : List Bool}
    (hsent : delivers.headD true=true) (hmail : ∀ line∈mail, cstr line≠text ".")
    (later : List Bytes) :
    ∃ actions, smtpHandleData s ⟨mail++text "."::later,delivers⟩=
      (actions,some ⟨later,delivers.tail.tail⟩) := by
  obtain ⟨data,hloop⟩ := smtpDataLoop_marker (by decide : ([] : Bytes).length<65535) hmail later
  have hpos : (smtpSend ⟨mail++text "."::later,delivers⟩).1=true := hsent
  refine ⟨[.send smtpDataStart,reportData s data,.send (replyLine "250 2.0.0 Ok: queued")],?_⟩
  rw [smtpHandleData,sendOrReturn,if_pos hpos,smtpCollectData]
  simp only [smtpSend]
  rw [hloop]

/-- The command chain takes a line that starts with `DATA` to
`smtp_handle_data`. -/
theorem smtpExecute_data (s : Session) {line : Bytes} (h : startsNoCase line "DATA"=true)
    (w : Wire) : smtpExecute s line w=((smtpHandleData s w).1,goesOn (smtpHandleData s w).2) := by
  have hdata : text "DATA"=68::[65,84,65] := by decide
  have hehlo : startsNoCase line "EHLO"=false :=
    startsNoCase_excludes h hdata (by decide : text "EHLO"=69::[72,76,79]) (by decide)
  have hhelo : startsNoCase line "HELO"=false :=
    startsNoCase_excludes h hdata (by decide : text "HELO"=72::[69,76,79]) (by decide)
  have hlogin : startsNoCase line "AUTH LOGIN"=false := startsNoCase_excludes h hdata
    (by decide : text "AUTH LOGIN"=65::[85,84,72,32,76,79,71,73,78]) (by decide)
  have hplain : startsNoCase line "AUTH PLAIN"=false := startsNoCase_excludes h hdata
    (by decide : text "AUTH PLAIN"=65::[85,84,72,32,80,76,65,73,78]) (by decide)
  have hmail : startsNoCase line "MAIL FROM:"=false := startsNoCase_excludes h hdata
    (by decide : text "MAIL FROM:"=77::[65,73,76,32,70,82,79,77,58]) (by decide)
  have hrcpt : startsNoCase line "RCPT TO:"=false := startsNoCase_excludes h hdata
    (by decide : text "RCPT TO:"=82::[67,80,84,32,84,79,58]) (by decide)
  simp [smtpExecute,hehlo,hhelo,hlogin,hplain,hmail,hrcpt,h]

/-- The lines of a mail that fit the array, its end marker and the command line
behind it are read as they are. -/
theorem smtpReceived_mail {mail : List Bytes} {command : Bytes}
    (hmail : ∀ line∈mail, Unbroken 13 10 line ∧ line.length ≤ 4093)
    (hcommand : Unbroken 13 10 command ∧ command.length ≤ 4093) (rest : Bytes) :
    (smtpReceived (mail.flatMap (fun line => line++crlf)++text "."++crlf++command++crlf++rest)).map
      Received.line=mail++text "."::command::(smtpReceived rest).map Received.line := by
  have hdot : Unbroken 13 10 (text ".") ∧ (text ".").length ≤ 4093 :=
    ⟨unbroken_of_not_mem (by decide),by decide⟩
  have hall : ∀ line∈mail++[text ".",command], Unbroken 13 10 line ∧ line.length ≤ 4093 := by
    intro line hline
    simp only [List.mem_append,List.mem_cons,List.not_mem_nil,or_false] at hline
    rcases hline with hm|hd|hc
    · exact hmail line hm
    · rw [hd]
      exact hdot
    · rw [hc]
      exact hcommand
  have hread := smtpReceived_lines (fun line hl => (hall line hl).1) (fun line hl => (hall line hl).2) rest
  have hstream : (mail++[text ".",command]).flatMap (fun line => line++crlf)++rest=
      mail.flatMap (fun line => line++crlf)++text "."++crlf++command++crlf++rest := by
    simp
  rw [← hstream,hread,List.map_append,map_line_wholeLine]
  simp

/-- A mail behind a `DATA` command ends at its end marker, and the command loop
goes on with the line behind it. -/
theorem smtpCommands_mail (s : Session) {fuel : ℕ} {received command rest : Bytes}
    {mail : List Bytes} {delivers : List Bool}
    (hdata : startsNoCase (smtpStripCrlf received) "DATA"=true) (hsent : delivers.headD true=true)
    (hmail : ∀ line∈mail, Unbroken 13 10 line ∧ line.length ≤ 4093)
    (hlines : ∀ line∈mail, (0 : Byte)∉line ∧ line≠text ".")
    (hcommand : Unbroken 13 10 command ∧ command.length ≤ 4093) :
    ∃ actions, smtpCommands s (fuel+1) ⟨received::(smtpReceived (mail.flatMap
        (fun line => line++crlf)++text "."++crlf++command++crlf++rest)).map Received.line,delivers⟩=
      let later := smtpCommands s fuel
        ⟨command::(smtpReceived rest).map Received.line,delivers.tail.tail⟩
      (actions++later.1,later.2) := by
  have htexts : ∀ line∈mail, cstr line≠text "." := by
    intro line hline
    rw [cstr_self (hlines line hline).1]
    exact (hlines line hline).2
  obtain ⟨actions,hhandle⟩ := smtpHandleData_marker s hsent htexts
    (command::(smtpReceived rest).map Received.line)
  have hnonempty : smtpStripCrlf received≠[] := by
    intro hempty
    rw [hempty] at hdata
    exact absurd hdata (by decide)
  refine ⟨report s "[SMTP蜜罐] 收到命令: " (smtpStripCrlf received)::actions,?_⟩
  rw [smtpReceived_mail hmail hcommand rest]
  simp only [smtpCommands,nextLine]
  rw [if_neg hnonempty,smtpExecute_data s hdata,hhandle]
  rfl

/-- Every line the session acts on is a line of the stream, read to its end, if
and only if the lines up to the one that ends the session fit the array. Where
the lines of a mail fit, the mail ends at its end marker and the line behind it
is the next command. -/
theorem smtp_reads_lines_iff (s : Session) (delivers : List Bool) (stream : Bytes) :
    (ReadsWholeLines s delivers stream ↔ LinesFit s delivers stream) ∧
    ∀ (fuel : ℕ) (received command rest : Bytes) (mail : List Bytes) (sends : List Bool),
      startsNoCase (smtpStripCrlf received) "DATA"=true → sends.headD true=true →
      (∀ line∈mail, Unbroken 13 10 line ∧ line.length ≤ 4093) →
      (∀ line∈mail, (0 : Byte)∉line ∧ line≠text ".") →
      (Unbroken 13 10 command ∧ command.length ≤ 4093) →
      ∃ actions, smtpCommands s (fuel+1) ⟨received::(smtpReceived (mail.flatMap
          (fun line => line++crlf)++text "."++crlf++command++crlf++rest)).map Received.line,sends⟩=
        let later := smtpCommands s fuel
          ⟨command::(smtpReceived rest).map Received.line,sends.tail.tail⟩
        (actions++later.1,later.2) := by
  constructor
  · exact ⟨linesFit_of_readsWholeLines,readsWholeLines_of_linesFit⟩
  · intro fuel received command rest mail sends hdata hsent hmail hlines hcommand
    exact smtpCommands_mail s hdata hsent hmail hlines hcommand

/-- A mail of one line whose end marker is read, and the command behind it. -/
theorem smtp_reads_short_mail :
    let s : Session := ⟨text "198.51.100.7",40000,[]⟩
    ∃ actions, smtpCommands s 2 ⟨text "DATA"::(smtpReceived (([text "hello"].flatMap
        (fun line => line++crlf))++text "."++crlf++text "QUIT"++crlf++[])).map Received.line,[]⟩=
      let later := smtpCommands s 1 ⟨text "QUIT"::(smtpReceived []).map Received.line,[]⟩
      (actions++later.1,later.2) := by
  have hhello : ∀ line∈[text "hello"], Unbroken 13 10 line ∧ line.length ≤ 4093 := by
    intro line hline
    rw [List.mem_singleton.mp hline]
    exact ⟨unbroken_of_not_mem (by decide),by decide⟩
  have hquit : Unbroken 13 10 (text "QUIT") ∧ (text "QUIT").length ≤ 4093 :=
    ⟨unbroken_of_not_mem (by decide),by decide⟩
  have hplain : ∀ line∈[text "hello"], (0 : Byte)∉line ∧ line≠text "." := by
    intro line hline
    rw [List.mem_singleton.mp hline]
    exact ⟨by decide,by decide⟩
  exact (smtp_reads_lines_iff _ [] []).2 1 (text "DATA") (text "QUIT") [] [text "hello"] []
    (by decide) rfl hhello hplain hquit

/-- The lines that the two results below send behind a long line. -/
theorem mail_tail : ∀ line∈[text ".",text "RSET",text "."],
    Unbroken 13 10 line ∧ line.length ≤ 4093 := by
  intro line hline
  simp only [List.mem_cons,List.not_mem_nil,or_false] at hline
  rcases hline with hm|hr|hm
  · rw [hm]
    exact ⟨unbroken_of_not_mem (by decide),by decide⟩
  · rw [hr]
    exact ⟨unbroken_of_not_mem (by decide),by decide⟩
  · rw [hm]
    exact ⟨unbroken_of_not_mem (by decide),by decide⟩

/-- A line that fills the array does not look like the end marker. -/
theorem cstr_full_ne_dot {front : Bytes} (hzero : (0 : Byte)∉front) (hlength : front.length=4095)
    (rest : Bytes) : cstr (front++rest)≠text "." := by
  intro h
  have hcount := congrArg List.length h
  have hone : (text ".").length=1 := by decide
  rw [cstr_append hzero,List.length_append,hone] at hcount
  omega

/-- Behind a mail line that fills the array and goes on with a dot, the mail text
ends inside the line. -/
theorem full_line_ends_mail (s : Session) {front : Bytes} (hcr : (13 : Byte)∉front)
    (hzero : (0 : Byte)∉front) (hlength : front.length=4095) :
    (smtpHandleData s ⟨(smtpReceived ((front++text ".")++crlf++text "RSET"++crlf++text "."++
      crlf)).map Received.line,[]⟩).2=some ⟨[text "RSET",text "."],[]⟩ := by
  have hfull := smtpRecvLine_full (unbroken_of_not_mem hcr) hlength
    (text "."++crlf++text "RSET"++crlf++text "."++crlf)
  have hrest := smtpReceived_lines (fun line hl => (mail_tail line hl).1)
    (fun line hl => (mail_tail line hl).2) []
  have hnone : smtpReceived []=[] := smtpReceived_none (smtpRecvLine_none unbroken_nil (by decide))
  have htail : [text ".",text "RSET",text "."].flatMap (fun line => line++crlf)++[]=
      text "."++crlf++text "RSET"++crlf++text "."++crlf := by simp
  have hstream : (front++text ".")++crlf++text "RSET"++crlf++text "."++crlf=
      front++(text "."++crlf++text "RSET"++crlf++text "."++crlf) := by simp
  rw [htail,hnone,List.append_nil] at hrest
  have hlines : (smtpReceived ((front++text ".")++crlf++text "RSET"++crlf++text "."++crlf)).map
      Received.line=[front]++text "."::[text "RSET",text "."] := by
    rw [hstream,smtpReceived_cons hfull,hrest]
    rfl
  have htexts : ∀ line∈[front], cstr line≠text "." := by
    intro line hline
    rw [List.mem_singleton.mp hline,← List.append_nil front]
    exact cstr_full_ne_dot hzero hlength []
  have hsent : ([] : List Bool).headD true=true := rfl
  obtain ⟨actions,hhandle⟩ := smtpHandleData_marker s hsent htexts [text "RSET",text "."]
  rw [hlines,hhandle]
  rfl

/-- A line that fills the array is not read as a whole. -/
theorem full_line_not_whole (s : Session) {front : Bytes} (hcr : (13 : Byte)∉front)
    (hzero : (0 : Byte)∉front) (hlength : front.length=4095) :
    ¬ReadsWholeLines s [] (text "DATA"++crlf++((front++text ".")++crlf++text "RSET"++crlf++
      text "."++crlf)) := by
  intro h
  have hfit := (linesFit_of_readsWholeLines h).1
  have hdotcr : (13 : Byte)∉front++text "." := by
    intro hmem
    exact (List.mem_append.mp hmem).elim hcr (by decide)
  have hall : ∀ line∈[text "DATA",front++text ".",text "RSET",text "."], Unbroken 13 10 line := by
    intro line hline
    simp only [List.mem_cons,List.not_mem_nil,or_false] at hline
    rcases hline with hd|hl|hr|hm
    · rw [hd]
      exact unbroken_of_not_mem (by decide)
    · rw [hl]
      exact unbroken_of_not_mem hdotcr
    · exact (mail_tail line (by rw [hr]; simp)).1
    · exact (mail_tail line (by rw [hm]; simp)).1
  have hlines := lines_append (by decide) hall []
  have hstream : [text "DATA",front++text ".",text "RSET",text "."].flatMap
      (fun line => line++[13,10])++[]=text "DATA"++crlf++((front++text ".")++crlf++text "RSET"++
        crlf++text "."++crlf) := by simp
  have hcrlf : crlfLines (text "DATA"++crlf++((front++text ".")++crlf++text "RSET"++crlf++
      text "."++crlf))=[text "DATA",front++text ".",text "RSET",text "."] := by
    rw [← hstream]
    exact hlines
  have htexts : ∀ line∈[front++text ".",text "RSET"], cstr line≠text "." := by
    intro line hline
    simp only [List.mem_cons,List.not_mem_nil,or_false] at hline
    rcases hline with hl|hr
    · rw [hl]
      exact cstr_full_ne_dot hzero hlength _
    · rw [hr]
      decide
  have hsent : ([] : List Bool).headD true=true := rfl
  obtain ⟨actions,hhandle⟩ := smtpHandleData_marker s hsent htexts []
  have hsession : (smtpSession s ⟨[text "DATA",front++text ".",text "RSET",text "."],[]⟩).2=none := by
    have hstrip : smtpStripCrlf (text "DATA")=text "DATA" := by decide
    have hname : startsNoCase (text "DATA") "DATA"=true := by decide
    have hnonempty : text "DATA"≠[] := by decide
    have hfirst : smtpExecute s (text "DATA") ⟨[front++text ".",text "RSET",text "."],[]⟩=
        (actions,.continues ⟨[],[]⟩) := by
      rw [smtpExecute_data s hname]
      have hsplit : [front++text ".",text "RSET",text "."]=
          [front++text ".",text "RSET"]++text "."::[] := rfl
      rw [hsplit,hhandle]
      rfl
    simp only [smtpSession,sendOrReturn,smtpSend,List.headD_nil,if_true,List.tail_nil,
      List.length_cons,smtpCommands,nextLine]
    rw [hstrip,if_neg hnonempty,hfirst]
  rw [hcrlf,linesRead,map_line_wholeLine,hsession] at hfit
  have hlong := hfit (wholeLine (front++text ".")) (by simp)
  simp only [wholeLine,List.length_append,hlength] at hlong
  omega

/-- A mail line of 4096 characters that ends with a dot: its last character is
read as the end marker, and the next mail line is executed as a command. -/
theorem long_line_ends_mail :
    let s : Session := ⟨text "198.51.100.7",40000,[]⟩
    let mail := (List.replicate 4095 97++text ".")++crlf++text "RSET"++crlf++text "."++crlf
    ¬ReadsWholeLines s [] (text "DATA"++crlf++mail) ∧
      (smtpHandleData s ⟨(smtpReceived mail).map Received.line,[]⟩).2=
        some ⟨[text "RSET",text "."],[]⟩ := by
  intro s mail
  have hcr : (13 : Byte)∉List.replicate 4095 97 :=
    fun hmem => absurd (List.eq_of_mem_replicate hmem) (by decide)
  have hzero : (0 : Byte)∉List.replicate 4095 97 :=
    fun hmem => absurd (List.eq_of_mem_replicate hmem) (by decide)
  exact ⟨full_line_not_whole s hcr hzero List.length_replicate,
    full_line_ends_mail s hcr hzero List.length_replicate⟩

end HoneyDew.SmtpFraming
