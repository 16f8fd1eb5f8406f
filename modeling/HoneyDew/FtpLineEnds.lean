import HoneyDew.FtpSegments

/-!
# FTP lines that end with a line feed or with both line breaks

The same lines are sent twice, once with a line feed behind each of them and once
with a carriage return in front of it, cut into segments at the same places. The
carriage return is stripped, but only after an empty line has been told by the fill
of the buffer, which counts it.
-/

namespace HoneyDew.FtpLineEnds

open CText CMemory Service FtpService FtpSegments

/-! ## Marked streams -/

/-- A stream with its line ends marked. -/
abbrev Marks := List (Option Byte)

/-- Every line with a mark behind it. -/
def marksOf (lines : List Bytes) : Marks := lines.flatMap (fun line => line.map some++[none])

/-- The bytes with line feeds for the marks. -/
def renderLf (marks : Marks) : Bytes := marks.flatMap (fun mark => mark.elim [10] (fun b => [b]))

/-- The bytes with both line breaks for the marks. -/
def renderCrlf (marks : Marks) : Bytes :=
  marks.flatMap (fun mark => mark.elim [13,10] (fun b => [b]))

/-- The lines that end in a piece of the stream, behind the start of a line. -/
def endedLines (line : Bytes) : Marks → List Bytes
  | [] => []
  | some b::marks => endedLines (line++[b]) marks
  | none::marks => line::endedLines [] marks

/-- The line that is open behind a piece of the stream. -/
def openLine (line : Bytes) : Marks → Bytes
  | [] => line
  | some b::marks => openLine (line++[b]) marks
  | none::marks => openLine [] marks

/-- The lines that arrive up to the end of the segment in which the first line that
starts with `QUIT` ends. -/
def heardLines (line : Bytes) : List Marks → List Bytes
  | [] => []
  | segment::segments =>
    endedLines line segment++
      if (endedLines line segment).any (fun ended => startsNoCase ended "QUIT") then []
      else heardLines (openLine line segment) segments

/-- Bytes that may stand in a line. -/
def Clean (b : Byte) : Prop := b≠0 ∧ b≠13 ∧ b≠10

/-! ## Runs with more acts -/

/-- Parts of two lists agree when the lists do. -/
theorem append_eq_append_iff_of_sublist {α : Type*} {xs ys xs' ys' : List α}
    (h : xs.Sublist ys) (h' : xs'.Sublist ys') : xs++xs'=ys++ys' ↔ xs=ys ∧ xs'=ys' := by
  constructor
  · intro heq
    have hlength := congrArg List.length heq
    rw [List.length_append,List.length_append] at hlength
    have hle := h.length_le
    have hle' := h'.length_le
    exact ⟨h.eq_of_length (by omega),h'.eq_of_length (by omega)⟩
  · intro hboth
    rw [hboth.1,hboth.2]

section Marks

variable (s : Session)

/-- An empty command is recorded and refused, and changes nothing. -/
theorem ftpExecute_nil (sess : FtpSession) :
    (ftpExecute s sess []).sess=sess ∧ (ftpExecute s sess []).running=true := by
  have hverb : ftpVerb []=.unknown := by decide
  unfold ftpExecute
  rw [hverb]
  dsimp only
  split
  · exact ⟨rfl,rfl⟩
  · exact ⟨rfl,rfl⟩

/-- The loop behind a line it has executed. -/
def afterLine (loop : FtpLoop) (line : Bytes) : FtpLoop :=
  ⟨(ftpExecute s loop.sess (line.take 4095)).sess,[],FtpLoop.start.line_le,
    loop.running && (ftpExecute s loop.sess (line.take 4095)).running⟩

/-- Behind an empty line it is as before. -/
theorem afterLine_nil {loop : FtpLoop} (hline : loop.line=[]) : afterLine s loop []=loop := by
  have hempty := ftpExecute_nil s loop.sess
  obtain ⟨sess,line,hle,running⟩ := loop
  dsimp only at hline
  simp only [afterLine,List.take_nil,hempty,Bool.and_true,hline]

/-- Any other byte is stored if there is room. -/
theorem ftpSegment_byte (loop : FtpLoop) {line : Bytes} (hline : loop.line=line.take 4095) {b : Byte}
    (hb : b≠10) :
    (ftpSegment s loop [b]).2=[] ∧ (ftpSegment s loop [b]).1.line=(line++[b]).take 4095 ∧
      (ftpSegment s loop [b]).1.sess=loop.sess ∧ (ftpSegment s loop [b]).1.running=loop.running := by
  have hbyte : ftpSegment s loop [b]=((ftpByte s loop b).1,(ftpByte s loop b).2++[]) := rfl
  have hlength := congrArg List.length hline
  rw [List.length_take] at hlength
  rw [hbyte,List.append_nil,ftpByte,if_neg hb]
  by_cases hroom : loop.line.length<4095
  · rw [dif_pos hroom]
    refine ⟨rfl,?_,rfl,rfl⟩
    rw [List.take_of_length_le (by rw [List.length_append,List.length_singleton]; omega)]
    dsimp only
    rw [hline,List.take_of_length_le (by omega)]
  · rw [dif_neg hroom]
    refine ⟨rfl,?_,rfl,rfl⟩
    rw [List.take_append_of_le_length (by omega)]
    exact hline

/-- A line feed executes what the buffer holds, if it holds anything. -/
theorem ftpSegment_feed (loop : FtpLoop) {line : Bytes} (hne : loop.line≠[])
    (hstrip : ftpStripCrlf loop.line=line.take 4095) :
    ftpSegment s loop [10]=
      (afterLine s loop line,(ftpExecute s loop.sess (line.take 4095)).acts) := by
  have hbyte : ftpSegment s loop [10]=((ftpByte s loop 10).1,(ftpByte s loop 10).2++[]) := rfl
  rw [hbyte,List.append_nil,ftpByte,if_pos rfl,if_neg hne]
  dsimp only
  rw [hstrip]
  rfl

/-- The start of a clean line is stripped of the carriage return behind it, if that is
there. -/
theorem ftpStripCrlf_take {line : Bytes} (hclean : ∀ b∈line,Clean b) :
    ftpStripCrlf (line.take 4095)=line.take 4095 ∧
      ftpStripCrlf ((line++[13]).take 4095)=line.take 4095 := by
  have hfront : ∀ b∈line.take 4095,b≠0 ∧ b≠13 ∧ b≠10 :=
    fun b hb => hclean b (List.mem_of_mem_take hb)
  refine ⟨stripCrlf_self hfront,?_⟩
  rw [List.take_append]
  refine stripCrlf_line hfront (fun b hb => ?_)
  exact Or.inl (List.mem_singleton.mp (List.mem_of_mem_take hb))

/-- A line feed alone executes the line in front of it if it is not empty. -/
theorem ftpSegment_lf (loop : FtpLoop) {line : Bytes} (hline : loop.line=line.take 4095)
    (hclean : ∀ b∈line,Clean b) :
    ftpSegment s loop [10]=(afterLine s loop line,
      if line=[] then [] else (ftpExecute s loop.sess (line.take 4095)).acts) := by
  by_cases hempty : line=[]
  · have hnone : loop.line=[] := by rw [hline,hempty,List.take_nil]
    have hbyte : ftpSegment s loop [10]=((ftpByte s loop 10).1,(ftpByte s loop 10).2++[]) := rfl
    rw [hbyte,List.append_nil,ftpByte,if_pos rfl,if_pos hnone,if_pos hempty,hempty,afterLine_nil s hnone]
  · have hsome : loop.line≠[] := by
      rw [hline]
      intro htake
      exact hempty ((List.take_eq_nil_iff.mp htake).resolve_left (by decide))
    rw [if_neg hempty]
    exact ftpSegment_feed s loop hsome (by rw [hline]; exact (ftpStripCrlf_take hclean).1)

/-- A line with CR LF behind it is executed once, be it empty or not. -/
theorem ftpSegment_crlf (loop : FtpLoop) {line : Bytes} (hline : loop.line=line.take 4095)
    (hclean : ∀ b∈line,Clean b) :
    ftpSegment s loop [13,10]=
      (afterLine s loop line,(ftpExecute s loop.sess (line.take 4095)).acts) := by
  obtain ⟨hacts,hstored,hsess,hrunning⟩ := ftpSegment_byte s loop hline (by decide : (13 : Byte)≠10)
  have hsome : (ftpSegment s loop [13]).1.line≠[] := by
    rw [hstored]
    intro htake
    have hnone := (List.take_eq_nil_iff.mp htake).resolve_left (by decide)
    exact absurd hnone (by simp)
  have hfeed := ftpSegment_feed s (ftpSegment s loop [13]).1 hsome
    (by rw [hstored]; exact (ftpStripCrlf_take hclean).2)
  have hsplit : ftpSegment s loop [13,10]=_ := ftpSegment_append s loop [13] [10]
  rw [hsplit,hacts,hfeed,List.nil_append,hsess,afterLine,hsess,hrunning]
  rfl

/-- The session goes on behind a line exactly when it does not start with `QUIT`. -/
theorem running_afterLine (loop : FtpLoop) {line : Bytes} :
    (afterLine s loop line).running=true ↔
      loop.running=true ∧ startsNoCase line "QUIT"=false := by
  have hends := running_ftpExecute s loop.sess (line.take 4095)
  rw [ftpVerb_quit_iff,startsNoCase_take] at hends
  rw [afterLine,Bool.and_eq_true,← Bool.not_eq_true,← hends,Bool.not_eq_false]

/-- An executed line acts. -/
theorem nil_sublist_acts (sess : FtpSession) (line : Bytes) (p : Prop) [Decidable p] :
    (if p then [] else (ftpExecute s sess line).acts).Sublist (ftpExecute s sess line).acts ∧
      ((if p then [] else (ftpExecute s sess line).acts)=(ftpExecute s sess line).acts ↔ ¬p) := by
  by_cases hp : p
  · rw [if_pos hp]
    refine ⟨List.nil_sublist _,?_⟩
    exact iff_of_false (fun h => acts_ftpExecute_ne_nil s sess line h.symm) (fun h => h hp)
  · rw [if_neg hp]
    exact ⟨List.Sublist.refl _,iff_of_true rfl hp⟩

/-- Two loops that have read the same marks. -/
structure InStep (loop : FtpLoop) (line : Bytes) (marks : Marks) : Prop where
  /-- Both loops are in the same state. -/
  same_loop : (ftpSegment s loop (renderLf marks)).1=(ftpSegment s loop (renderCrlf marks)).1
  /-- The buffer holds the open line as far as it fits. -/
  line_eq : (ftpSegment s loop (renderLf marks)).1.line=(openLine line marks).take 4095
  /-- The carriage returns take no act away. -/
  sublist : (ftpSegment s loop (renderLf marks)).2.Sublist (ftpSegment s loop (renderCrlf marks)).2
  /-- The carriage returns add acts exactly where an empty line has ended. -/
  acts_eq_iff : (ftpSegment s loop (renderLf marks)).2=(ftpSegment s loop (renderCrlf marks)).2 ↔
    []∉endedLines line marks
  /-- The session goes on exactly as long as no line has started with `QUIT`. -/
  running_iff : (ftpSegment s loop (renderLf marks)).1.running=true ↔
    loop.running=true ∧ ∀ ended∈endedLines line marks,startsNoCase ended "QUIT"=false

/-- One more clean byte on a clean line. -/
theorem clean_concat {line : Bytes} (hclean : ∀ b∈line,Clean b) {c : Byte} (hc : Clean c) :
    ∀ b∈line++[c],Clean b := by
  intro b hb
  cases List.mem_append.mp hb with
  | inl hfront => exact hclean b hfront
  | inr hlast => rwa [List.mem_singleton.mp hlast]

/-- Loops that are in step behind a byte of a line are in step in front of it. -/
theorem InStep.byte {loop : FtpLoop} {line : Bytes} {b : Byte} {marks : Marks}
    (hline : loop.line=line.take 4095) (hb : Clean b)
    (hrest : InStep s (ftpSegment s loop [b]).1 (line++[b]) marks) :
    InStep s loop line (some b::marks) := by
  obtain ⟨hacts,_,_,hrunning⟩ := ftpSegment_byte s loop hline hb.2.2
  have hlf : ftpSegment s loop (renderLf (some b::marks))=_ :=
    ftpSegment_append s loop [b] (renderLf marks)
  have hcrlf : ftpSegment s loop (renderCrlf (some b::marks))=_ :=
    ftpSegment_append s loop [b] (renderCrlf marks)
  rw [hacts,List.nil_append] at hlf hcrlf
  refine ⟨?_,?_,?_,?_,?_⟩
  · rw [hlf,hcrlf]
    exact hrest.same_loop
  · rw [hlf]
    exact hrest.line_eq
  · rw [hlf,hcrlf]
    exact hrest.sublist
  · rw [hlf,hcrlf]
    exact hrest.acts_eq_iff
  · rw [hlf]
    have hiff := hrest.running_iff
    rw [hrunning] at hiff
    exact hiff

/-- Loops that are in step behind a line end are in step in front of it. -/
theorem InStep.feed {loop : FtpLoop} {line : Bytes} {marks : Marks}
    (hline : loop.line=line.take 4095) (hclean : ∀ b∈line,Clean b)
    (hrest : InStep s (afterLine s loop line) [] marks) : InStep s loop line (none::marks) := by
  have hacts := nil_sublist_acts s loop.sess (line.take 4095) (line=[])
  have hlf : ftpSegment s loop (renderLf (none::marks))=_ :=
    ftpSegment_append s loop [10] (renderLf marks)
  have hcrlf : ftpSegment s loop (renderCrlf (none::marks))=_ :=
    ftpSegment_append s loop [13,10] (renderCrlf marks)
  rw [ftpSegment_lf s loop hline hclean] at hlf
  rw [ftpSegment_crlf s loop hline hclean] at hcrlf
  refine ⟨?_,?_,?_,?_,?_⟩
  · rw [hlf,hcrlf]
    exact hrest.same_loop
  · rw [hlf]
    exact hrest.line_eq
  · rw [hlf,hcrlf]
    exact hacts.1.append hrest.sublist
  · rw [hlf,hcrlf]
    dsimp only
    rw [append_eq_append_iff_of_sublist hacts.1 hrest.sublist,hacts.2,hrest.acts_eq_iff,endedLines,
      List.mem_cons,not_or]
    exact and_congr_left' ⟨fun h heq => h heq.symm,fun h heq => h heq.symm⟩
  · rw [hlf]
    dsimp only
    rw [hrest.running_iff,running_afterLine,endedLines,List.forall_mem_cons,and_assoc]

/-- Loops in the same state stay in step over any marks. -/
theorem inStep_marks {loop : FtpLoop} {line : Bytes} {marks : Marks}
    (hline : loop.line=line.take 4095) (hclean : ∀ b∈line,Clean b)
    (hmarks : ∀ b,some b∈marks → Clean b) : InStep s loop line marks := by
  induction marks generalizing loop line with
  | nil =>
    exact ⟨rfl,hline,List.Sublist.refl _,iff_of_true rfl List.not_mem_nil,
      by simp [renderLf,ftpSegment,endedLines]⟩
  | cons mark marks ih =>
    have hlater : ∀ b,some b∈marks → Clean b := fun b hb => hmarks b (List.mem_cons_of_mem _ hb)
    cases mark with
    | some b =>
      have hb := hmarks b List.mem_cons_self
      have hstored := (ftpSegment_byte s loop hline hb.2.2).2.1
      exact InStep.byte s hline hb (ih hstored (clean_concat hclean hb) hlater)
    | none =>
      exact InStep.feed s hline hclean (ih rfl (fun b hb => absurd hb List.not_mem_nil) hlater)

/-- The open line is clean. -/
theorem clean_openLine {line : Bytes} {marks : Marks} (hclean : ∀ b∈line,Clean b)
    (hmarks : ∀ b,some b∈marks → Clean b) : ∀ b∈openLine line marks,Clean b := by
  induction marks generalizing line with
  | nil => exact hclean
  | cons mark marks ih =>
    have hlater : ∀ b,some b∈marks → Clean b := fun b hb => hmarks b (List.mem_cons_of_mem _ hb)
    cases mark with
    | none => exact ih (fun b hb => absurd hb List.not_mem_nil) hlater
    | some c => exact ih (clean_concat hclean (hmarks c List.mem_cons_self)) hlater

/-- A piece with line feeds is not longer than with both line breaks, and not empty
unless there is nothing in it. -/
theorem length_renderLf_le (marks : Marks) : (renderLf marks).length≤(renderCrlf marks).length := by
  induction marks with
  | nil => exact Nat.le_refl _
  | cons mark marks ih =>
    have hlf : renderLf (mark::marks)=mark.elim [10] (fun b => [b])++renderLf marks := rfl
    have hcrlf : renderCrlf (mark::marks)=mark.elim [13,10] (fun b => [b])++renderCrlf marks := rfl
    rw [hlf,hcrlf,List.length_append,List.length_append]
    cases mark with
    | none =>
      simp only [Option.elim_none,List.length_cons,List.length_nil]
      omega
    | some b =>
      simp only [Option.elim_some,List.length_singleton]
      omega

/-- Marks are rendered by bytes. -/
theorem render_ne_nil {marks : Marks} (h : marks≠[]) : renderLf marks≠[] ∧ renderCrlf marks≠[] := by
  cases marks with
  | nil => exact absurd rfl h
  | cons mark marks =>
    cases mark with
    | none => exact ⟨List.cons_ne_nil _ _,List.cons_ne_nil _ _⟩
    | some b => exact ⟨List.cons_ne_nil _ _,List.cons_ne_nil _ _⟩

/-- A segment that is received is executed before the later ones. -/
theorem ftpReceive_cons {loop : FtpLoop} (hrunning : loop.running=true) {bytes : Bytes}
    (hne : bytes≠[]) (hsize : bytes.length≤4095) (rs : List RecvResult) :
    ftpReceive s loop (.data bytes::rs)=
      (ftpSegment s loop bytes).2++ftpReceive s (ftpSegment s loop bytes).1 rs := by
  rw [ftpReceive,if_pos hrunning,recv_data hne hsize]

/-- The receive loop over the same segments with both kinds of line ends. -/
theorem ftpReceive_lineEnds {loop : FtpLoop} {line : Bytes} {segments : List Marks}
    (hline : loop.line=line.take 4095) (hclean : ∀ b∈line,Clean b) (hrunning : loop.running=true)
    (hmarks : ∀ segment∈segments,∀ b,some b∈segment → Clean b)
    (hsizes : ∀ segment∈segments,segment≠[] ∧ (renderCrlf segment).length≤4095) :
    (ftpReceive s loop (segments.map (fun segment => .data (renderLf segment)))).Sublist
        (ftpReceive s loop (segments.map (fun segment => .data (renderCrlf segment)))) ∧
      (ftpReceive s loop (segments.map (fun segment => .data (renderLf segment)))=
          ftpReceive s loop (segments.map (fun segment => .data (renderCrlf segment))) ↔
        []∉heardLines line segments) := by
  induction segments generalizing loop line with
  | nil => exact ⟨List.Sublist.refl _,iff_of_true rfl List.not_mem_nil⟩
  | cons segment segments ih =>
    have hstep := inStep_marks s hline hclean (hmarks segment List.mem_cons_self)
    obtain ⟨hne,hsize⟩ := hsizes segment List.mem_cons_self
    have hbytes := render_ne_nil hne
    have hlfSize := (length_renderLf_le segment).trans hsize
    rw [List.map_cons,List.map_cons,ftpReceive_cons s hrunning hbytes.1 hlfSize,
      ftpReceive_cons s hrunning hbytes.2 hsize,← hstep.same_loop,heardLines]
    by_cases hquit : (endedLines line segment).any (fun ended => startsNoCase ended "QUIT")=true
    · have hstopped : (ftpSegment s loop (renderLf segment)).1.running=false := by
        obtain ⟨ended,hended,hstarts⟩ := List.any_eq_true.mp hquit
        rw [← Bool.not_eq_true,hstep.running_iff]
        intro hgoes
        rw [hgoes.2 ended hended] at hstarts
        cases hstarts
      rw [if_pos hquit,ftpReceive_stopped s hstopped,ftpReceive_stopped s hstopped,List.append_nil,
        List.append_nil,List.append_nil]
      exact ⟨hstep.sublist,hstep.acts_eq_iff⟩
    · have hgoes : (ftpSegment s loop (renderLf segment)).1.running=true := by
        refine hstep.running_iff.mpr ⟨hrunning,fun ended hended => ?_⟩
        by_contra hstarts
        exact hquit (List.any_eq_true.mpr ⟨ended,hended,Bool.eq_true_of_not_eq_false hstarts⟩)
      have hrest := ih hstep.line_eq (clean_openLine hclean (hmarks segment List.mem_cons_self)) hgoes
        (fun other ho => hmarks other (List.mem_cons_of_mem _ ho))
        (fun other ho => hsizes other (List.mem_cons_of_mem _ ho))
      rw [if_neg hquit,List.mem_append,not_or]
      refine ⟨hstep.sublist.append hrest.1,?_⟩
      rw [append_eq_append_iff_of_sublist hstep.sublist hrest.1,hstep.acts_eq_iff,hrest.2]

end Marks

/-! ## Whole sessions -/

/-- The lines that end in two pieces, one behind the other. -/
theorem endedLines_append (line : Bytes) (front back : Marks) :
    endedLines line (front++back)=endedLines line front++endedLines (openLine line front) back := by
  induction front generalizing line with
  | nil => rfl
  | cons mark front ih =>
    cases mark with
    | some b => exact ih (line++[b])
    | none => exact congrArg (line::·) (ih [])

/-- A line behind its start. -/
theorem endedLines_line (front line : Bytes) (marks : Marks) :
    endedLines front (line.map some++none::marks)=(front++line)::endedLines [] marks := by
  induction line generalizing front with
  | nil => rw [List.append_nil]; rfl
  | cons b line ih =>
    rw [List.append_cons front b line]
    exact ih (front++[b])

/-- The lines that end in a marked stream are those it is made of. -/
theorem endedLines_marksOf (lines : List Bytes) : endedLines [] (marksOf lines)=lines := by
  induction lines with
  | nil => rfl
  | cons line lines ih =>
    have hsplit : marksOf (line::lines)=line.map some++none::marksOf lines := by
      rw [marksOf,List.flatMap_cons,List.append_assoc]
      rfl
    rw [hsplit,endedLines_line,ih,List.nil_append]

/-- The lines heard are the first ones of the stream. -/
theorem heardLines_front (line : Bytes) (segments : List Marks) :
    heardLines line segments<+:endedLines line segments.flatten := by
  induction segments generalizing line with
  | nil => exact List.nil_prefix
  | cons segment segments ih =>
    rw [heardLines,List.flatten_cons,endedLines_append,List.prefix_append_right_inj]
    split
    · exact List.nil_prefix
    · exact ih _

/-- Lines sent with line feeds and with both line breaks, cut into segments at the
same places, are executed, answered and recorded alike exactly when none of the first
lines, up to the end of the session, is empty. -/
theorem lineEnds_iff (s : Session) (lines : List Bytes) (segments : List Marks)
    (hlines : ∀ line∈lines,∀ b∈line,Clean b) (hcut : segments.flatten=marksOf lines)
    (hsizes : ∀ segment∈segments,segment≠[] ∧ (renderCrlf segment).length≤4095) :
    heardLines [] segments<+:lines ∧
      (runSegments s (segments.map renderLf)=runSegments s (segments.map renderCrlf) ↔
        []∉heardLines [] segments) := by
  have hheard := heardLines_front [] segments
  rw [hcut,endedLines_marksOf] at hheard
  have hmarks : ∀ segment∈segments,∀ b,some b∈segment → Clean b := by
    intro segment hsegment b hb
    have hwhole : some b∈marksOf lines := by
      rw [← hcut]
      exact List.mem_flatten_of_mem hsegment hb
    obtain ⟨line,hline,hmem⟩ := List.mem_flatMap.mp hwhole
    cases List.mem_append.mp hmem with
    | inr hend => exact absurd (List.mem_singleton.mp hend) (by simp)
    | inl hbyte =>
      obtain ⟨c,hc,heq⟩ := List.mem_map.mp hbyte
      rw [← Option.some.inj heq]
      exact hlines line hline c hc
  have hstart : FtpLoop.start.line=([] : Bytes).take 4095 := rfl
  have hreceive := ftpReceive_lineEnds s hstart (fun b hb => absurd hb List.not_mem_nil) rfl hmarks hsizes
  refine ⟨hheard,?_⟩
  rw [← hreceive.2]
  unfold runSegments runFtpService
  rw [List.map_map,List.map_map,List.cons.injEq,List.cons.injEq,List.append_cancel_right_eq]
  simp only [true_and]
  exact Iff.rfl

/-- A session of two lines, cut inside the first. -/
theorem lineEnds_noop_quit :
    heardLines [] [[some 78,some 79],[some 79,some 80,none],(text "QUIT").map some++[none]]<+:
        [text "NOOP",text "QUIT"] ∧
      (runSegments ⟨[],0,[]⟩
          ([[some 78,some 79],[some 79,some 80,none],(text "QUIT").map some++[none]].map renderLf)=
        runSegments ⟨[],0,[]⟩
          ([[some 78,some 79],[some 79,some 80,none],(text "QUIT").map some++[none]].map renderCrlf) ↔
        []∉heardLines [] [[some 78,some 79],[some 79,some 80,none],(text "QUIT").map some++[none]]) :=
  lineEnds_iff ⟨[],0,[]⟩ [text "NOOP",text "QUIT"] _
    (by simp only [Clean]; decide +kernel) (by decide) (by decide)

/-- An empty line with a carriage return is taken for a command. -/
theorem empty_line_answered : ¬∀ (s : Session) (lines : List Bytes) (segments : List Marks),
    (∀ line∈lines,∀ b∈line,Clean b) → segments.flatten=marksOf lines →
      (∀ segment∈segments,segment≠[] ∧ (renderCrlf segment).length≤4095) →
      runSegments s (segments.map renderLf)=runSegments s (segments.map renderCrlf) := by
  intro hall
  have hempty := hall ⟨[],0,[]⟩ [[]] [[none]] (by simp) rfl (by simp [renderCrlf])
  exact absurd hempty (by decide)

end HoneyDew.FtpLineEnds
