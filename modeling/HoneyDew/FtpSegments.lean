import HoneyDew.FtpService

/-!
# How FTP sessions depend on TCP segments

The line buffer carries over from one segment to the next, so the lines of a
session are the lines of the stream. The receive loop looks at its flag between
segments only, so that a segment that holds the end of the session is executed
to its own end.
-/

namespace HoneyDew.FtpSegments

open CText CMemory Service FtpService

/-- The bytes behind the last line feed. -/
def lastLine (bytes : Bytes) : Bytes := bytes.rtakeWhile (fun b => b≠10)

/-- A line feed behind these bytes ends a line that starts with `QUIT`. -/
def QuitLine (bytes : Bytes) : Prop := startsNoCase (lastLine bytes) "QUIT"=true

instance (bytes : Bytes) : Decidable (QuitLine bytes) :=
  decidable_of_iff (startsNoCase (lastLine bytes) "QUIT"=true) Iff.rfl

/-- No line that ends in these bytes starts with `QUIT`. -/
def NoQuit (bytes : Bytes) : Prop := ∀ front back,bytes=front++10::back → ¬QuitLine front

/-- The part of a stream up to the end of its first `QUIT` line, behind some
bytes that have been received. -/
def upToQuit (seen : Bytes) : Bytes → Bytes
  | [] => []
  | c::cs => if c=10 ∧ QuitLine seen then [c] else c::upToQuit (seen++[c]) cs

/-- What a session executes that stops at the end of its first `QUIT` line. -/
def sessionActs (s : Session) (stream : Bytes) : List Action :=
  s.recordConnection .ftp::.send ftpBanner::
    ((ftpSegment s .start (upToQuit [] stream)).2++[s.recordDisconnect .ftp,.close])

/-- The segments of a stream as results of the `recv` calls. -/
def runSegments (s : Session) (segments : List Bytes) : List Action :=
  runFtpService s (segments.map .data)

/-- Behind some bytes that have been received, the segment in which the first
`QUIT` line ends completes no other line behind it but empty ones. -/
def CleanCut (seen : Bytes) (segments : List Bytes) : Prop :=
  ∀ front segment back x y,segments=front++segment::back → segment=x++10::y →
    NoQuit (seen++(front.flatten++x)) → QuitLine (seen++(front.flatten++x)) →
      (10 : Byte)∉y.dropWhile (fun b => b=10)

section Lines

variable (s : Session)

/-- Segments executed one after the other. -/
theorem ftpSegment_append (loop : FtpLoop) (xs ys : Bytes) :
    ftpSegment s loop (xs++ys)=
      ((ftpSegment s (ftpSegment s loop xs).1 ys).1,
        (ftpSegment s loop xs).2++(ftpSegment s (ftpSegment s loop xs).1 ys).2) := by
  induction xs generalizing loop with
  | nil => simp [ftpSegment]
  | cons c cs ih => simp [ftpSegment,ih]

/-- One more byte of a segment. -/
theorem ftpSegment_concat (loop : FtpLoop) (xs : Bytes) (c : Byte) :
    ftpSegment s loop (xs++[c])=
      ((ftpByte s (ftpSegment s loop xs).1 c).1,
        (ftpSegment s loop xs).2++(ftpByte s (ftpSegment s loop xs).1 c).2) := by
  rw [ftpSegment_append]
  simp [ftpSegment]

/-- The line buffer holds the bytes behind the last line feed as far as they fit. -/
theorem line_ftpSegment (bytes : Bytes) :
    (ftpSegment s .start bytes).1.line=(lastLine bytes).take 4095 := by
  induction bytes using List.reverseRecOn with
  | nil => rfl
  | append_singleton bytes c ih =>
    rw [ftpSegment_concat]
    unfold ftpByte
    by_cases hc : c=10
    · have hlast : lastLine (bytes++[c])=[] := by simp [lastLine,hc]
      rw [if_pos hc,hlast]
      split
      · assumption
      · rfl
    · have hlast : lastLine (bytes++[c])=lastLine bytes++[c] := by
        simp [lastLine,hc]
      rw [if_neg hc,hlast]
      have hlength := congrArg List.length ih
      rw [List.length_take] at hlength
      split
      · rename_i hroom
        rw [List.take_of_length_le (show (lastLine bytes++[c]).length ≤ 4095 by
          rw [List.length_append,List.length_singleton]
          omega)]
        dsimp only
        rw [ih,List.take_of_length_le (by omega)]
      · rename_i hfull
        rw [List.take_append_of_le_length (by omega)]
        exact ih

/-- A line executed does something. -/
theorem acts_ftpExecute_ne_nil (sess : FtpSession) (line : Bytes) :
    (ftpExecute s sess line).acts≠[] := by
  unfold ftpExecute
  cases ftpVerb line <;> simp [ftpHandleUser,ftpHandlePass] <;> split <;> simp [ftpHandleCommand]

/-- A password never ends the session: the attempt limit lies behind the attempt
that lets the client in. -/
theorem running_ftpHandlePass (sess : FtpSession) (line : Bytes) :
    (ftpHandlePass s sess line).running=true := by
  unfold ftpHandlePass
  by_cases h : 2 ≤ sess.authAttempts+1
  · simp [h]
  · have hfew : ¬6 ≤ sess.authAttempts+1 := by omega
    simp [hfew]

/-- The session ends at the lines that the chain takes for `QUIT`. -/
theorem running_ftpExecute (sess : FtpSession) (line : Bytes) :
    (ftpExecute s sess line).running=false ↔ ftpVerb line=.quit := by
  unfold ftpExecute
  cases ftpVerb line
  case pass => simp [running_ftpHandlePass]
  case quit => simp
  case user => simp [ftpHandleUser]
  all_goals
    simp only [reduceCtorEq,iff_false,Bool.not_eq_false]
    split <;> rfl

/-- A branch of the chain that is not the end of the session. -/
theorem ite_ne_quit {p : Prop} [Decidable p] {x y : FtpVerb} (hx : x≠.quit) (hy : y≠.quit) :
    (if p then x else y)≠.quit := by
  split <;> assumption

/-- The chain takes exactly the lines that start with `QUIT` for the end. -/
theorem ftpVerb_quit_iff (line : Bytes) : ftpVerb line=.quit ↔ startsNoCase line "QUIT"=true := by
  constructor
  · intro h
    by_contra hquit
    refine absurd h ?_
    unfold ftpVerb
    refine ite_ne_quit (by decide) (ite_ne_quit (by decide) ?_)
    rw [if_neg hquit]
    repeat refine ite_ne_quit (by decide) ?_
    decide
  · intro hquit
    have hname : text "QUIT"=81::[85,73,84] := by decide
    have huser : startsNoCase line "USER "=false :=
      startsNoCase_excludes hquit hname (by decide : text "USER "=85::[83,69,82,32]) (by decide)
    have hpass : startsNoCase line "PASS "=false :=
      startsNoCase_excludes hquit hname (by decide : text "PASS "=80::[65,83,83,32]) (by decide)
    unfold ftpVerb
    rw [huser,hpass,hquit]
    rfl

end Lines

section Names

variable {line front : Bytes}

/-- The start of a text is not touched by what is dropped at its end. -/
theorem prefix_rdropWhile {p : Byte → Bool} {last : Byte} (hlast : p last=false)
    (h : front++[last]<+:line) : front++[last]<+:line.rdropWhile p := by
  induction line using List.reverseRecOn with
  | nil => exact absurd (List.prefix_nil.mp h) (by simp)
  | append_singleton line c ih =>
    by_cases hc : p c=true
    · rw [List.rdropWhile_concat_pos p line c hc]
      obtain hall|hinside := List.prefix_concat_iff.mp h
      · have hsame : last=c := by simpa using (List.append_inj' hall rfl).2
        rw [←hsame,hlast] at hc
        cases hc
      · exact ih hinside
    · rwa [List.rdropWhile_concat_neg p line c hc]

/-- The start of a line without NUL that ends before its line break is kept. -/
theorem prefix_stripCrlf {last : Byte} (hnul : (0 : Byte)∉front++[last])
    (hlast : last≠13 ∧ last≠10) (h : front++[last]<+:line) : front++[last]<+:stripCrlf line := by
  obtain ⟨rest,rfl⟩ := h
  apply prefix_rdropWhile (by simp [hlast])
  rw [cstr_append hnul]
  exact List.prefix_append _ _

/-- A text that starts with a name still does with more bytes behind it. -/
theorem startsNoCase_of_prefix {name : String} (hfront : front<+:line)
    (h : startsNoCase front name=true) : startsNoCase line name=true := by
  obtain ⟨rest,rfl⟩ := hfront
  unfold startsNoCase at h ⊢
  rw [decide_eq_true_eq] at h ⊢
  have hlength := congrArg List.length h
  rw [List.length_map,List.length_map,List.length_take] at hlength
  rwa [List.take_append_of_le_length (by omega)]

/-- The bytes of a line that starts with `QUIT`. -/
theorem quit_bytes (h : startsNoCase line "QUIT"=true) :
    ∃ q u i t rest,line=q::u::i::t::rest ∧ toUpper q=81 ∧ toUpper u=85 ∧ toUpper i=73 ∧
      toUpper t=84 := by
  unfold startsNoCase at h
  rw [show text "QUIT"=[81,85,73,84] by decide,decide_eq_true_eq] at h
  have hlength := congrArg List.length h
  simp only [List.length_map,List.length_take,List.length_cons,List.length_nil] at hlength
  match line with
  | q::u::i::t::rest =>
    simp only [List.length_cons,List.take_succ_cons,List.map_cons,List.cons.injEq] at h
    exact ⟨q,u,i,t,rest,rfl,h.1,h.2.1,h.2.2.1,h.2.2.2.1⟩
  | [] | [_] | [_,_] | [_,_,_] => simp at hlength

/-- Stripping a line does not change whether it starts with `QUIT`. -/
theorem startsNoCase_ftpStripCrlf (line : Bytes) :
    startsNoCase (ftpStripCrlf line) "QUIT"=true ↔ startsNoCase line "QUIT"=true := by
  constructor
  · exact startsNoCase_of_prefix ((List.rdropWhile_prefix _ _).trans (cstr_front line))
  · intro h
    obtain ⟨q,u,i,t,rest,rfl,hq,hu,hi,ht⟩ := quit_bytes h
    have hne : ∀ {b : Byte} {upper : Byte},toUpper b=upper → toUpper 0≠upper → b≠0 := by
      intro b upper hb hzero hb0
      exact hzero (hb0 ▸ hb)
    have hnul : (0 : Byte)∉[q,u,i]++[t] := by
      simp [(hne hq (by decide)).symm,(hne hu (by decide)).symm,(hne hi (by decide)).symm,
        (hne ht (by decide)).symm]
    have hlast : t≠13 ∧ t≠10 := by
      constructor
      · rintro rfl
        exact absurd ht (by decide)
      · rintro rfl
        exact absurd ht (by decide)
    have hkept : [q,u,i]++[t]<+:ftpStripCrlf (q::u::i::t::rest) :=
      prefix_stripCrlf hnul hlast ⟨rest,rfl⟩
    refine startsNoCase_of_prefix hkept ?_
    unfold startsNoCase at h ⊢
    exact h

/-- A line is taken for the end of the session by its first four bytes, however
much of it fits the buffer. -/
theorem startsNoCase_take (line : Bytes) :
    startsNoCase (line.take 4095) "QUIT"=startsNoCase line "QUIT" := by
  unfold startsNoCase
  rw [List.take_take,show min (text "QUIT").length 4095=(text "QUIT").length by decide]

end Names

section Ends

variable (s : Session)

/-- The lines of a stream with one more byte. -/
theorem noQuit_concat (bytes : Bytes) (c : Byte) :
    NoQuit (bytes++[c]) ↔ NoQuit bytes ∧ (c=10 → ¬QuitLine bytes) := by
  constructor
  · intro h
    constructor
    · rintro front back rfl
      exact h front (back++[c]) (by simp)
    · rintro rfl
      exact h bytes [] rfl
  · rintro ⟨hbytes,hlast⟩ front back hsplit
    obtain rfl|⟨back,d,rfl⟩ := List.eq_nil_or_concat' back
    · obtain ⟨rfl,hc⟩ := List.append_inj' hsplit rfl
      exact hlast (by simpa using hc)
    · refine hbytes front back ?_
      rw [←List.cons_append,←List.append_assoc] at hsplit
      exact (List.append_inj' hsplit rfl).1

/-- The receive loop goes on as long as no line has started with `QUIT`. -/
theorem running_ftpSegment (bytes : Bytes) :
    (ftpSegment s .start bytes).1.running=true ↔ NoQuit bytes := by
  induction bytes using List.reverseRecOn with
  | nil => exact iff_of_true rfl (by rintro front back h; simp at h)
  | append_singleton bytes c ih =>
    rw [ftpSegment_concat,noQuit_concat]
    unfold ftpByte
    by_cases hc : c=10
    · rw [if_pos hc]
      have hline := line_ftpSegment s bytes
      split
      · rename_i hempty
        have hlast : lastLine bytes=[] := by
          rw [hempty] at hline
          have hlength := congrArg List.length hline
          rw [List.length_take,List.length_nil] at hlength
          exact List.length_eq_zero_iff.mp (by omega)
        have hquit : ¬QuitLine bytes := by
          unfold QuitLine
          rw [hlast]
          decide
        rw [ih]
        simp [hquit]
      · have hanswer : (ftpExecute s (ftpSegment s .start bytes).1.sess
            (ftpStripCrlf (ftpSegment s .start bytes).1.line)).running=true ↔ ¬QuitLine bytes := by
          rw [←not_iff_not,Bool.not_eq_true,running_ftpExecute,ftpVerb_quit_iff,
            startsNoCase_ftpStripCrlf,hline,startsNoCase_take,not_not]
          rfl
        dsimp only
        rw [Bool.and_eq_true,ih,hanswer]
        simp [hc]
    · rw [if_neg hc]
      simp only [hc,false_implies,and_true]
      split <;> exact ih

/-- A line that has begun is executed at the next line feed. -/
theorem acts_of_begun {loop : FtpLoop} (hline : loop.line≠[]) (bytes : Bytes) :
    (ftpSegment s loop bytes).2=[] ↔ (10 : Byte)∉bytes := by
  induction bytes generalizing loop with
  | nil => simp [ftpSegment]
  | cons c cs ih =>
    unfold ftpSegment ftpByte
    by_cases hc : c=10
    · simp [hc,hline,acts_ftpExecute_ne_nil]
    · have hc' : (10 : Byte)≠c := fun h => hc h.symm
      rw [if_neg hc]
      split <;> simp [ih,hline,hc']

/-- Bytes at the start of a line execute nothing exactly when they end no line
but empty ones. -/
theorem acts_of_start {loop : FtpLoop} (hline : loop.line=[]) (bytes : Bytes) :
    (ftpSegment s loop bytes).2=[] ↔ (10 : Byte)∉bytes.dropWhile (fun b => b=10) := by
  induction bytes with
  | nil => simp [ftpSegment]
  | cons c cs ih =>
    by_cases hc : c=10
    · have hstep : ftpByte s loop c=(loop,[]) := by simp [ftpByte,hc,hline]
      rw [ftpSegment,hstep,List.dropWhile_cons_of_pos (by simp [hc])]
      exact ih
    · have hc' : (10 : Byte)≠c := fun h => hc h.symm
      have hbegun : (ftpByte s loop c).1.line≠[] ∧ (ftpByte s loop c).2=[] := by
        simp [ftpByte,hc,hline]
      rw [ftpSegment,List.dropWhile_cons_of_neg (by simp [hc])]
      dsimp only
      rw [hbegun.2,List.nil_append,acts_of_begun s hbegun.1]
      simp [hc']

/-- The session part of a stream goes on behind bytes without `QUIT`. -/
theorem upToQuit_append {seen xs : Bytes} (h : NoQuit (seen++xs)) (ys : Bytes) :
    upToQuit seen (xs++ys)=xs++upToQuit (seen++xs) ys := by
  induction xs generalizing seen with
  | nil => simp
  | cons c cs ih =>
    have hgoes : ¬(c=10 ∧ QuitLine seen) := by
      rintro ⟨rfl,hquit⟩
      exact h seen cs rfl hquit
    rw [List.cons_append,upToQuit,if_neg hgoes,ih (by simpa using h)]
    simp

/-- The session part of a stream ends behind its first `QUIT` line. -/
theorem upToQuit_quit {seen x : Bytes} (hnone : NoQuit (seen++x)) (hquit : QuitLine (seen++x))
    (y : Bytes) : upToQuit seen (x++10::y)=x++[10] := by
  rw [upToQuit_append hnone,upToQuit,if_pos ⟨rfl,hquit⟩]

/-- Bytes in which a `QUIT` line ends hold the end of the first one. -/
theorem exists_first_quit {seen xs : Bytes} (hseen : NoQuit seen) (h : ¬NoQuit (seen++xs)) :
    ∃ x y,xs=x++10::y ∧ NoQuit (seen++x) ∧ QuitLine (seen++x) := by
  induction xs using List.reverseRecOn with
  | nil => exact absurd (by simpa using hseen) h
  | append_singleton xs c ih =>
    by_cases hxs : NoQuit (seen++xs)
    · rw [←List.append_assoc,noQuit_concat] at h
      by_cases hlast : c=10 ∧ QuitLine (seen++xs)
      · exact ⟨xs,[],by rw [hlast.1],hxs,hlast.2⟩
      · exact absurd ⟨hxs,fun hc hquit => hlast ⟨hc,hquit⟩⟩ h
    · obtain ⟨x,y,rfl,hnone,hquit⟩ := ih hxs
      exact ⟨x,y++[c],by simp,hnone,hquit⟩

/-- The end of the first `QUIT` line is one position. -/
theorem first_quit_unique {seen x y x' y' : Bytes} (h : x++10::y=x'++10::y')
    (hnone : NoQuit (seen++x)) (hquit : QuitLine (seen++x)) (hnone' : NoQuit (seen++x'))
    (hquit' : QuitLine (seen++x')) : x=x' ∧ y=y' := by
  obtain ⟨more,rfl,hmore⟩|⟨more,rfl,hmore⟩ := List.append_eq_append_iff.mp h
  · cases more with
    | nil => simpa using hmore
    | cons c cs =>
      obtain ⟨rfl,-⟩ := List.cons.inj hmore
      exact absurd hquit (hnone' (seen++x) cs (by simp))
  · cases more with
    | nil => simpa using hmore.symm
    | cons c cs =>
      obtain ⟨rfl,-⟩ := List.cons.inj hmore
      exact absurd hquit' (hnone (seen++x') cs (by simp))

/-- A segment without the end of the session moves the cut on. -/
theorem cleanCut_cons {seen segment : Bytes} {segments : List Bytes} (h : NoQuit (seen++segment)) :
    CleanCut seen (segment::segments) ↔ CleanCut (seen++segment) segments := by
  constructor
  · rintro hclean front found back x y rfl hfound hnone hquit
    refine hclean (segment::front) found back x y rfl hfound ?_ ?_
    · simpa using hnone
    · simpa using hquit
  · intro hclean front found back x y hsplit hfound hnone hquit
    cases front with
    | nil =>
      obtain ⟨rfl,-⟩ := List.cons.inj hsplit
      exact absurd hquit (h _ y (by simp [hfound]))
    | cons first front =>
      obtain ⟨rfl,rfl⟩ := List.cons.inj hsplit
      refine hclean front found back x y rfl hfound ?_ ?_
      · simpa using hnone
      · simpa using hquit

/-- In a segment with the end of the session only what stands behind it counts. -/
theorem cleanCut_quit {seen x y : Bytes} (hnone : NoQuit (seen++x)) (hquit : QuitLine (seen++x))
    (segments : List Bytes) :
    CleanCut seen ((x++10::y)::segments) ↔ (10 : Byte)∉y.dropWhile (fun b => b=10) := by
  constructor
  · intro hclean
    exact hclean [] (x++10::y) segments x y rfl rfl hnone hquit
  · intro hempty front found back x' y' hsplit hfound hnone' hquit'
    cases front with
    | nil =>
      obtain ⟨rfl,-⟩ := List.cons.inj hsplit
      obtain ⟨-,rfl⟩ := first_quit_unique hfound hnone hquit hnone' hquit'
      exact hempty
    | cons first front =>
      obtain ⟨rfl,-⟩ := List.cons.inj hsplit
      exact absurd hquit (hnone' _ (y++(front.flatten++x')) (by simp))

/-- A loop that does not go on does nothing. -/
theorem ftpReceive_stopped {loop : FtpLoop} (h : loop.running=false) (results : List RecvResult) :
    ftpReceive s loop results=[] := by
  cases results with
  | nil => rfl
  | cons r rs => simp [ftpReceive,h]

/-- The receive loop executes the session part of what is still to come exactly
when the cut is clean. -/
theorem ftpReceive_iff {seen : Bytes} {segments : List Bytes} (hseen : NoQuit seen)
    (hsizes : ∀ segment∈segments,segment≠[] ∧ segment.length ≤ 4095) :
    ftpReceive s (ftpSegment s .start seen).1 (segments.map .data)=
        (ftpSegment s (ftpSegment s .start seen).1 (upToQuit seen segments.flatten)).2 ↔
      CleanCut seen segments := by
  induction segments generalizing seen with
  | nil => simp [ftpReceive,upToQuit,ftpSegment,CleanCut]
  | cons segment segments ih =>
    have hrest := fun x hx => hsizes x (List.mem_cons_of_mem segment hx)
    rw [List.map_cons,ftpReceive,if_pos ((running_ftpSegment s seen).mpr hseen),
      recv_data (hsizes segment List.mem_cons_self).1 (hsizes segment List.mem_cons_self).2]
    dsimp only
    by_cases hsegment : NoQuit (seen++segment)
    · have hstate : (ftpSegment s (ftpSegment s .start seen).1 segment).1=
          (ftpSegment s .start (seen++segment)).1 := by rw [ftpSegment_append]
      rw [List.flatten_cons,upToQuit_append hsegment,ftpSegment_append,List.append_cancel_left_eq,
        hstate,cleanCut_cons hsegment]
      exact ih hsegment hrest
    · obtain ⟨x,y,rfl,hnone,hquit⟩ := exists_first_quit hseen hsegment
      have hstopped : (ftpSegment s (ftpSegment s .start seen).1 (x++10::y)).1.running=false := by
        rw [show (ftpSegment s (ftpSegment s .start seen).1 (x++10::y)).1=
          (ftpSegment s .start (seen++(x++10::y))).1 by rw [ftpSegment_append s .start seen],
          ←Bool.not_eq_true,running_ftpSegment]
        exact hsegment
      have hempty : (ftpSegment s (ftpSegment s .start seen).1 (x++[10])).1.line=[] := by
        rw [show (ftpSegment s (ftpSegment s .start seen).1 (x++[10])).1=
          (ftpSegment s .start (seen++(x++[10]))).1 by rw [ftpSegment_append s .start seen],
          line_ftpSegment]
        simp [lastLine,←List.append_assoc]
      rw [ftpReceive_stopped s hstopped,List.append_nil,List.flatten_cons,List.append_assoc,
        List.cons_append,upToQuit_quit hnone hquit,cleanCut_quit hnone hquit,
        ←acts_of_start s hempty,show x++10::y=(x++[10])++y by simp,ftpSegment_append]
      exact List.append_right_eq_self

end Ends

/-- One cut of a stream executes the session part of the stream exactly when it
is clean. -/
theorem runSegments_iff (s : Session) {segments : List Bytes}
    (hsizes : ∀ segment∈segments,segment≠[] ∧ segment.length ≤ 4095) :
    runSegments s segments=sessionActs s segments.flatten ↔ CleanCut [] segments := by
  rw [←ftpReceive_iff s (by rintro front back h; simp at h) hsizes]
  unfold runSegments runFtpService sessionActs
  rw [List.cons.injEq,List.cons.injEq]
  simp [ftpSegment]

/-- Two cuts of a stream do the same, and nothing behind the first `QUIT` line,
exactly when both are clean. -/
theorem segments_independent_iff (s : Session) (segments segments' : List Bytes)
    (hsizes : ∀ segment∈segments,segment≠[] ∧ segment.length ≤ 4095)
    (hsizes' : ∀ segment∈segments',segment≠[] ∧ segment.length ≤ 4095)
    (hstream : segments.flatten=segments'.flatten) :
    runSegments s segments=runSegments s segments' ∧
        runSegments s segments=sessionActs s segments.flatten ↔
      CleanCut [] segments ∧ CleanCut [] segments' := by
  rw [←runSegments_iff s hsizes,←runSegments_iff s hsizes',←hstream]
  constructor
  · rintro ⟨hsame,hsession⟩
    exact ⟨hsession,hsame.symm.trans hsession⟩
  · rintro ⟨hsession,hsession'⟩
    exact ⟨hsession.trans hsession'.symm,hsession⟩

/-- A `QUIT` line cut in two ends the session as one in its own segment does. -/
theorem segments_independent_split_quit :
    runSegments ⟨text "10.0.0.9",40000,text "id"⟩ [text "NOOP"++crlf++text "QU",text "IT"++crlf]=
        runSegments ⟨text "10.0.0.9",40000,text "id"⟩ [text "NOOP"++crlf,text "QUIT"++crlf] ∧
      runSegments ⟨text "10.0.0.9",40000,text "id"⟩ [text "NOOP"++crlf++text "QU",text "IT"++crlf]=
        sessionActs ⟨text "10.0.0.9",40000,text "id"⟩
          [text "NOOP"++crlf++text "QU",text "IT"++crlf].flatten :=
  (segments_independent_iff _ _ [text "NOOP"++crlf,text "QUIT"++crlf] (by decide)
    (by decide) (by decide)).mpr
      ⟨(runSegments_iff ⟨text "10.0.0.9",40000,text "id"⟩ (by decide)).mp (by decide),
        (runSegments_iff ⟨text "10.0.0.9",40000,text "id"⟩ (by decide)).mp (by decide)⟩

/-- A command behind `QUIT` is answered when it comes in the same segment. -/
theorem command_behind_quit_answered :
    runSegments ⟨text "10.0.0.9",40000,text "id"⟩ [text "QUIT"++crlf++text "NOOP"++crlf]≠
      runSegments ⟨text "10.0.0.9",40000,text "id"⟩ [text "QUIT"++crlf,text "NOOP"++crlf] := by
  decide

end HoneyDew.FtpSegments
