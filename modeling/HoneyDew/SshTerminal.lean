import HoneyDew.SshService
import HoneyDew.StepSystem
import HoneyDew.Terminal

/-!
# What stands on the screen of an SSH client

The shell loop as a step system over the reads and the bytes of each read, and a
terminal that shows what the handler writes. In every state the terminal shows the
edit buffer behind the prompt, and the commands recorded are the texts that stood
there when the line was ended.
-/

namespace HoneyDew.SshTerminal

open CText Service SshService StepSystem Terminal

/-! ## The loop step by step -/

/-- What happens in the shell. -/
inductive ShellEvent
  /-- The loop takes up a byte of the client. -/
  | got (c : Byte)
  /-- The handler acts. -/
  | did (a : SshAction)
  deriving DecidableEq,Repr

/-- A state of the shell loop. -/
structure ShellState where
  /-- The first `cmd_len` bytes of `cmd_buf`; nothing once the loop is left. -/
  line : SshLine
  /-- The bytes of `buf` from `i` on. -/
  pending : Bytes
  /-- What has happened since the shell was opened. -/
  history : List ShellEvent
  deriving DecidableEq,Repr

/-- What the loop does next. -/
inductive ShellLabel
  /-- `ssh_channel_read` returns. -/
  | read (r : RecvResult)
  /-- One round of the inner loop. -/
  | byte
  deriving DecidableEq,Repr

/-- The writes in front of the loop. -/
def shellGreeting : List SshAction := [.channelWrite sshMotd,.channelWrite sshShellPrompt]

/-- The state in front of the loop. -/
def shellStart : ShellState := ⟨some [],[],shellGreeting.map .did⟩

section Steps

variable (s : Session)

/-- One step of the loop: a read once the bytes are used up, otherwise a byte. -/
def shellStep : ShellState → ShellLabel → Option ShellState
  | ⟨some line,[],history⟩,.read r =>
    match recv 255 r with
    | none => some ⟨none,[],history⟩
    | some bytes => some ⟨some line,bytes,history⟩
  | ⟨some line,c::cs,history⟩,.byte =>
    some ⟨(sshByte s line c).1,cs,history++.got c::(sshByte s line c).2.map .did⟩
  | _,_ => none

/-- The results of the reads among the steps. -/
def taken (labels : List ShellLabel) : List RecvResult :=
  labels.filterMap (fun | .read r => some r | .byte => none)

/-- The bytes that the loop has taken up. -/
def handled (history : List ShellEvent) : Bytes :=
  history.filterMap (fun | .got c => some c | .did _ => none)

/-- The acts of the handler. -/
def acts (history : List ShellEvent) : List SshAction :=
  history.filterMap (fun | .got _ => none | .did a => some a)

/-- The stream of bytes that reads deliver, up to the first that gives none. -/
def delivered : List RecvResult → Bytes
  | [] => []
  | r::rs =>
    match recv 255 r with
    | none => []
    | some bytes => bytes++delivered rs

/-- The kinds of steps. -/
theorem shellStep_cases {st st' : ShellState} {label : ShellLabel}
    (h : shellStep s st label=some st') :
    (∃ line r,st=⟨some line,[],st.history⟩ ∧ label=.read r ∧ recv 255 r=none ∧
      st'=⟨none,[],st.history⟩) ∨
    (∃ line r bytes,st=⟨some line,[],st.history⟩ ∧ label=.read r ∧ recv 255 r=some bytes ∧
      st'=⟨some line,bytes,st.history⟩) ∨
    (∃ line c cs,st=⟨some line,c::cs,st.history⟩ ∧ label=.byte ∧
      st'=⟨(sshByte s line c).1,cs,st.history++.got c::(sshByte s line c).2.map .did⟩) := by
  cases st with
  | mk line pending history =>
    cases line with
    | none =>
      rw [shellStep] at h
      · cases h
      · intro _ _ _ hst
        cases hst
      · intro _ _ _ _ hst
        cases hst
    | some line =>
      cases pending with
      | nil =>
        cases label with
        | byte => cases h
        | read r =>
          rw [shellStep] at h
          cases hr : recv 255 r with
          | none =>
            rw [hr] at h
            exact Or.inl ⟨line,r,rfl,rfl,hr,(Option.some.inj h).symm⟩
          | some bytes =>
            rw [hr] at h
            exact Or.inr (Or.inl ⟨line,r,bytes,rfl,rfl,hr,(Option.some.inj h).symm⟩)
      | cons c cs =>
        cases label with
        | read r => cases h
        | byte => exact Or.inr (Or.inr ⟨line,c,cs,rfl,rfl,(Option.some.inj h).symm⟩)

/-- Acts alone take up no byte. -/
theorem handled_round (history : List ShellEvent) (c : Byte) (as : List SshAction) :
    handled (history++.got c::as.map .did)=handled history++[c] := by
  have hacts : handled (as.map .did)=[] := by
    rw [handled,List.filterMap_map]
    exact List.filterMap_eq_nil_iff.mpr (fun _ _ => rfl)
  have hround : handled (.got c::as.map .did)=c::handled (as.map .did) := rfl
  have hsplit : handled (history++.got c::as.map .did)=
      handled history++handled (.got c::as.map .did) := List.filterMap_append
  rw [hsplit,hround,hacts]

/-- The acts of a round stand behind those in front of it. -/
theorem acts_round (history : List ShellEvent) (c : Byte) (as : List SshAction) :
    acts (history++.got c::as.map .did)=acts history++as := by
  have hacts : acts (as.map .did)=as := by
    rw [acts,List.filterMap_map]
    exact List.filterMap_some
  have hsplit : acts (history++.got c::as.map .did)=acts history++acts (as.map .did) :=
    List.filterMap_append
  rw [hsplit,hacts]

/-- One read more among the steps. -/
theorem taken_read (labels : List ShellLabel) (r : RecvResult) (rs : List RecvResult) :
    taken (labels++[.read r])++rs=taken labels++r::rs := by
  have hsplit : taken (labels++[.read r])=taken labels++[r] := List.filterMap_append
  rw [hsplit,List.append_assoc,List.singleton_append]

/-- A byte is no read. -/
theorem taken_byte (labels : List ShellLabel) : taken (labels++[.byte])=taken labels := by
  have hsplit : taken (labels++[.byte])=taken labels++[] := List.filterMap_append
  rw [hsplit,List.append_nil]

/-- What a state says of the stream: the bytes taken up are its front, and inside the
loop the others of the present read come next. -/
def Follows (labels : List ShellLabel) (st : ShellState) : Prop :=
  (∀ rs,handled st.history<+:delivered (taken labels++rs)) ∧
    (st.line≠none → ∀ rs,
      delivered (taken labels++rs)=handled st.history++st.pending++delivered rs)

/-- A step follows the stream. -/
theorem follows_step (labels : List ShellLabel) (st : ShellState) (label : ShellLabel)
    (st' : ShellState) (hst : Follows labels st) (h : shellStep s st label=some st') :
    Follows (labels++[label]) st' := by
  cases shellStep_cases s h with
  | inl hend =>
    obtain ⟨line,r,hline,hlabel,hr,hst'⟩ := hend
    rw [hlabel,hst']
    constructor
    · intro rs
      rw [taken_read]
      exact hst.1 (r::rs)
    · intro hne
      exact absurd rfl hne
  | inr hmore =>
    cases hmore with
    | inl hread =>
      obtain ⟨line,r,bytes,hline,hlabel,hr,hst'⟩ := hread
      rw [hlabel,hst']
      constructor
      · intro rs
        rw [taken_read]
        exact hst.1 (r::rs)
      · intro _ rs
        have hstream := hst.2 (by rw [hline]; exact Option.some_ne_none _) (r::rs)
        have hpending : st.pending=[] := by rw [hline]
        rw [taken_read,hstream,hpending,List.append_nil,delivered,hr]
        exact (List.append_assoc _ _ _).symm
    | inr hbyte =>
      obtain ⟨line,c,cs,hline,hlabel,hst'⟩ := hbyte
      have hpending : st.pending=c::cs := by rw [hline]
      have hstream : ∀ rs,delivered (taken labels++rs)=
          handled st.history++[c]++cs++delivered rs := by
        intro rs
        have hrs := hst.2 (by rw [hline]; exact Option.some_ne_none _) rs
        rw [hpending] at hrs
        rw [hrs,List.append_assoc (handled st.history) [c] cs]
        rfl
      rw [hlabel,hst']
      constructor
      · intro rs
        rw [taken_byte,hstream rs,handled_round,List.append_assoc]
        exact List.prefix_append _ _
      · intro _ rs
        rw [taken_byte,hstream rs,handled_round]

/-- Every run follows the stream. -/
theorem follows_run {labels : List ShellLabel} {st : ShellState}
    (hrun : execute (shellStep s) shellStart labels=some st) : Follows labels st := by
  have hstart : Follows [] shellStart := by
    constructor
    · intro rs
      exact List.nil_prefix
    · intro _ rs
      rfl
  exact execute_trace_invariant (follows_step s) hstart hrun

/-! ## The whole handler -/

/-- The bytes of one read are taken up one by one. -/
theorem run_bytes (line bytes : Bytes) (history : List ShellEvent) :
    ∃ labels st,execute (shellStep s) ⟨some line,bytes,history⟩ labels=some st ∧
      taken labels=[] ∧ acts st.history=acts history++(sshBytes s line bytes).2 ∧
      st.line=(sshBytes s line bytes).1 ∧ (st.line≠none → st.pending=[]) := by
  induction bytes generalizing line history with
  | nil => exact ⟨[],_,rfl,rfl,(List.append_nil _).symm,rfl,fun _ => rfl⟩
  | cons c cs ih =>
    let next : ShellState :=
      ⟨(sshByte s line c).1,cs,history++.got c::(sshByte s line c).2.map .did⟩
    have hstep : shellStep s ⟨some line,c::cs,history⟩ .byte=some next := rfl
    have hacts : acts next.history=acts history++(sshByte s line c).2 := acts_round _ _ _
    rw [sshBytes]
    cases hline : (sshByte s line c).1 with
    | none =>
      refine ⟨[.byte],next,?_,rfl,hacts,hline,fun hne => absurd hline hne⟩
      rw [execute,hstep]
      rfl
    | some line' =>
      have hnext : next=⟨some line',cs,next.history⟩ := by rw [← hline]
      obtain ⟨labels,st,hrun,htaken,hdone,hleft⟩ := ih line' next.history
      refine ⟨.byte::labels,st,?_,htaken,?_,hleft⟩
      · rw [execute,hstep,hnext]
        exact hrun
      · rw [hdone,hacts,List.append_assoc]

/-- The reads of the shell loop are taken one by one. -/
theorem run_reads (line : Bytes) (history : List ShellEvent) (reads : List RecvResult) :
    ∃ labels st,execute (shellStep s) ⟨some line,[],history⟩ labels=some st ∧
      taken labels<+:reads ∧ acts st.history=acts history++sshShell s line reads := by
  induction reads generalizing line history with
  | nil => exact ⟨[],_,rfl,List.nil_prefix,(List.append_nil _).symm⟩
  | cons r rs ih =>
    rw [sshShell]
    cases hr : recv 255 r with
    | none =>
      have hstep : shellStep s ⟨some line,[],history⟩ (.read r)=some ⟨none,[],history⟩ := by
        rw [shellStep,hr]
      refine ⟨[.read r],⟨none,[],history⟩,?_,?_,(List.append_nil _).symm⟩
      · rw [execute,hstep]
        rfl
      · exact List.prefix_append [r] rs
    | some bytes =>
      have hstep : shellStep s ⟨some line,[],history⟩ (.read r)=some ⟨some line,bytes,history⟩ := by
        rw [shellStep,hr]
      obtain ⟨labels,st,hrun,htaken,hacts,hline,hpending⟩ := run_bytes s line bytes history
      have hfirst : execute (shellStep s) ⟨some line,[],history⟩ (.read r::labels)=some st := by
        rw [execute,hstep]
        exact hrun
      have hfront : taken (.read r::labels)=r::taken labels := rfl
      dsimp only
      cases hchunk : (sshBytes s line bytes).1 with
      | none =>
        refine ⟨.read r::labels,st,hfirst,?_,hacts⟩
        rw [hfront,htaken]
        exact List.prefix_append [r] rs
      | some line' =>
        rw [hchunk] at hline
        have hst : st=⟨some line',[],st.history⟩ := by
          rw [← hline,← hpending (by rw [hline]; exact Option.some_ne_none _)]
        obtain ⟨later,st',hrest,htaken',hacts'⟩ := ih line' st.history
        refine ⟨.read r::labels++later,st',?_,?_,?_⟩
        · rw [execute_append hfirst,hst]
          exact hrest
        · have hsplit : taken (.read r::labels++later)=r::taken labels++taken later :=
            List.filterMap_append
          rw [hsplit,htaken]
          exact List.cons_prefix_cons.mpr ⟨rfl,htaken'⟩
        · rw [hacts',hacts,List.append_assoc]

/-- Bytes one behind the other. -/
theorem sshBytes_append (line xs ys : Bytes) :
    sshBytes s line (xs++ys)=match (sshBytes s line xs).1 with
      | none => (none,(sshBytes s line xs).2)
      | some line' => ((sshBytes s line' ys).1,(sshBytes s line xs).2++(sshBytes s line' ys).2) := by
  induction xs generalizing line with
  | nil => rfl
  | cons c xs ih =>
    rw [List.cons_append,sshBytes,sshBytes]
    cases (sshByte s line c).1 with
    | none => rfl
    | some line' =>
      dsimp only
      rw [ih line']
      cases (sshBytes s line' xs).1 with
      | none => rfl
      | some line'' => simp only [List.append_assoc]

/-- The shell acts on the stream, however it is cut into reads. -/
theorem sshShell_delivered (line : Bytes) (reads : List RecvResult) :
    sshShell s line reads=(sshBytes s line (delivered reads)).2 := by
  induction reads generalizing line with
  | nil => rfl
  | cons r rs ih =>
    rw [sshShell,delivered]
    cases recv 255 r with
    | none => rfl
    | some bytes =>
      dsimp only
      rw [sshBytes_append]
      cases (sshBytes s line bytes).1 with
      | none => rfl
      | some line' =>
        dsimp only
        rw [ih line']

end Steps

/-! ## The client's screen -/

/-- The client's terminal. -/
def sshDisplay : Display Byte where
  effect b :=
    if b=8 then .back else if b=13 then .home else if b=10 then .feed
    else if 32≤b ∧ b≠127 then .glyph else .silent
  blank := 32
  prompt := sshShellPrompt

/-- What the client has seen. -/
structure Watch where
  /-- The row of the cursor. -/
  row : Row Byte
  /-- The texts that stood behind the prompt when a line was ended. -/
  entered : List Bytes
  deriving DecidableEq,Repr

/-- What is to be seen of one event: the keys that end a line are noted with the text
in front of the cursor, and every write goes to the screen. -/
def see (w : Watch) : ShellEvent → Watch
  | .got c =>
    if c=13 ∨ c=10 then
      ⟨w.row,w.entered++((sshDisplay.typed w.row).filter (fun line => line≠[])).toList⟩
    else w
  | .did (.channelWrite bytes) => ⟨sshDisplay.write w.row bytes,w.entered⟩
  | .did _ => w

/-- What the client has seen of a history. -/
def watch (history : List ShellEvent) : Watch := history.foldl see ⟨.empty,[]⟩

/-- The bytes of a client: printable ones, line ends, the two erasing keys and Ctrl-C. -/
def ChannelByte (c : Byte) : Prop := (32≤c ∧ c≠127) ∨ c=13 ∨ c=10 ∨ c=8 ∨ c=127 ∨ c=3

instance (c : Byte) : Decidable (ChannelByte c) :=
  inferInstanceAs (Decidable ((32≤c ∧ c≠127) ∨ c=13 ∨ c=10 ∨ c=8 ∨ c=127 ∨ c=3))

/-- The bytes written by some acts. -/
def written (as : List SshAction) : Bytes :=
  as.flatMap (fun | .channelWrite bytes => bytes | _ => [])

/-- Acts change the screen by what they write. -/
theorem see_acts (w : Watch) (as : List SshAction) :
    (as.map .did).foldl see w=⟨sshDisplay.write w.row (written as),w.entered⟩ := by
  induction as generalizing w with
  | nil => rfl
  | cons a as ih =>
    rw [List.map_cons,List.foldl_cons,ih]
    cases a with
    | channelWrite bytes =>
      have hwritten : written (.channelWrite bytes::as)=bytes++written as := rfl
      rw [hwritten,Display.write_append]
      rfl
    | _ => rfl

/-- A round is seen behind its history. -/
theorem watch_round (history : List ShellEvent) (c : Byte) (as : List SshAction) :
    watch (history++.got c::as.map .did)=
      ⟨sshDisplay.write (watch history).row (written as),(see (watch history) (.got c)).entered⟩ := by
  have hrow : (see (watch history) (.got c)).row=(watch history).row := by
    unfold see
    dsimp only
    split
    · rfl
    · rfl
  rw [watch,List.foldl_append,List.foldl_cons,see_acts]
  rw [watch] at hrow
  rw [hrow]
  rfl

/-- A printable byte is none of the others. -/
theorem printable_ne {c d : Byte} (hc : 32≤c ∧ c≠127) (hd : ¬(32≤d ∧ d≠127)) : c≠d :=
  fun h => hd (h ▸ hc)

/-- Printable bytes are glyphs. -/
theorem effect_printable {c : Byte} (hc : 32≤c ∧ c≠127) : sshDisplay.effect c=.glyph := by
  have hback : c≠8 := printable_ne hc (by decide)
  have hcr : c≠13 := printable_ne hc (by decide)
  have hlf : c≠10 := printable_ne hc (by decide)
  unfold sshDisplay
  dsimp only
  rw [if_neg hback,if_neg hcr,if_neg hlf,if_pos hc]

/-- The prompt consists of glyphs. -/
theorem effect_prompt : ∀ b∈sshDisplay.prompt,sshDisplay.effect b=.glyph := by
  have hprompt : sshShellPrompt.all (fun b => 32≤b ∧ b≠127)=true := by decide
  intro b hb
  exact effect_printable (of_decide_eq_true (List.all_eq_true.mp hprompt b hb))

/-- Lines end with a line break. -/
theorem lines_break {lines : List String} (h : lines≠[]) :
    ∃ body,lines.flatMap replyLine=body++crlf := by
  have hlast := List.dropLast_append_getLast h
  refine ⟨lines.dropLast.flatMap replyLine++text (lines.getLast h),?_⟩
  rw [← congrArg (List.flatMap replyLine) hlast,List.flatMap_append,List.flatMap_singleton,
    replyLine,List.append_assoc]

/-- Every answer ends its line. -/
theorem fakeCommandResponse_break {cmd response : Bytes}
    (h : fakeCommandResponse cmd=some response) : ∃ body,response=body++crlf := by
  have hanswers : ∀ entry∈sshAnswers,crlf<:+entry.2 := by decide
  unfold fakeCommandResponse at h
  cases hcanned : cannedAnswer sshAnswers cmd with
  | some answer =>
    rw [hcanned] at h
    rw [cannedAnswer] at hcanned
    obtain ⟨entry,hfind,hentry⟩ := Option.map_eq_some_iff.mp hcanned
    obtain ⟨body,hbody⟩ := hanswers entry (List.mem_of_find?_eq_some hfind)
    refine ⟨body,?_⟩
    rw [hbody,hentry]
    exact (Option.some.inj h).symm
  | none =>
    rw [hcanned] at h
    dsimp only at h
    split at h
    · cases h
    · exact ⟨_,(Option.some.inj h).symm⟩

/-- Behind an ended line the prompt stands alone. -/
theorem typed_break_prompt (row : Row Byte) (body : Bytes) :
    sshDisplay.typed (sshDisplay.write row (body++crlf++sshShellPrompt))=some [] := by
  rw [Display.write_append]
  exact Display.typed_prompt sshDisplay row body rfl rfl effect_prompt

/-- The screen shows the edit buffer, which fits its array. -/
def Shows (row : Row Byte) (line : Bytes) : Prop :=
  line.length≤1023 ∧ (0 : Byte)∉line ∧ sshDisplay.typed row=some line

/-- A screen with the prompt alone shows the empty buffer. -/
theorem shows_prompt (row : Row Byte) (body : Bytes) :
    Shows (sshDisplay.write row (body++crlf++sshShellPrompt)) [] :=
  ⟨Nat.zero_le _,List.not_mem_nil,typed_break_prompt row body⟩

section Rounds

variable (s : Session) {w : Watch} {line : Bytes} {c : Byte}

/-- What one round has to do: the screen shows the buffer it leaves, and it records
the text that was entered, if one was. -/
def RoundSeen (w : Watch) (line : Bytes) (c : Byte) : Prop :=
  (∀ line',(sshByte s line c).1=some line' →
    Shows (sshDisplay.write w.row (written (sshByte s line c).2)) line') ∧
  ∃ texts,(see w (.got c)).entered=w.entered++texts ∧
    plainActs (sshByte s line c).2=texts.map (s.recordCommand .ssh)

/-- A byte that ends no line enters nothing. -/
theorem entered_other (hend : ¬(c=13 ∨ c=10)) : (see w (.got c)).entered=w.entered++[] := by
  unfold see
  dsimp only
  rw [if_neg hend,List.append_nil]

/-- A line end enters the text behind the prompt. -/
theorem round_break (h : Shows w.row line) (hend : c=13 ∨ c=10) : RoundSeen s w line c := by
  have hentered : (see w (.got c)).entered=
      w.entered++((some line).filter (fun line => line≠[])).toList := by
    unfold see
    dsimp only
    rw [if_pos hend,h.2.2]
  unfold RoundSeen
  rw [hentered]
  by_cases hline : line=[]
  · have hbyte : sshByte s line c=(some [],[.channelWrite crlf,.channelWrite sshShellPrompt]) := by
      rw [sshByte,if_pos hend,if_pos hline]
    rw [hbyte,hline]
    constructor
    · intro line' hline'
      rw [← Option.some.inj hline']
      exact shows_prompt w.row []
    · exact ⟨[],rfl,rfl⟩
  · have htext : ((some line).filter (fun line => line≠[])).toList=[line] := by
      rw [Option.filter_some,if_pos (decide_eq_true hline)]
      rfl
    rw [htext,sshByte,if_pos hend,if_neg hline,cstr_self h.2.1]
    dsimp only
    cases hresponse : fakeCommandResponse line with
    | none =>
      constructor
      · intro line' hline'
        cases hline'
      · exact ⟨[line],rfl,rfl⟩
    | some response =>
      obtain ⟨body,hbody⟩ := fakeCommandResponse_break hresponse
      constructor
      · intro line' hline'
        have hwritten : written [.channelWrite crlf,.act (s.recordCommand .ssh line),
            .channelWrite response,.channelWrite sshShellPrompt]=(crlf++body)++crlf++sshShellPrompt := by
          rw [hbody,List.append_assoc,List.append_assoc,← List.append_assoc body]
          rfl
        rw [← Option.some.inj hline',hwritten]
        exact shows_prompt w.row (crlf++body)
      · exact ⟨[line],rfl,rfl⟩

/-- An erasing key takes the last cell away. -/
theorem round_erase (h : Shows w.row line) (herase : c=127 ∨ c=8) : RoundSeen s w line c := by
  have hend : ¬(c=13 ∨ c=10) := by
    intro hend
    cases herase with
    | inl hdel => rw [hdel] at hend; exact absurd hend (by decide)
    | inr hback => rw [hback] at hend; exact absurd hend (by decide)
  unfold RoundSeen
  rw [entered_other hend,sshByte,if_neg hend,if_pos herase]
  by_cases hline : line=[]
  · rw [if_pos hline]
    constructor
    · intro line' hline'
      rw [← Option.some.inj hline']
      rw [hline] at h
      exact h
    · exact ⟨[],rfl,rfl⟩
  · rw [if_neg hline]
    constructor
    · intro line' hline'
      rw [← Option.some.inj hline']
      refine ⟨?_,?_,?_⟩
      · rw [List.length_dropLast]
        exact le_trans (Nat.sub_le _ _) h.1
      · intro hzero
        exact h.2.1 (List.mem_of_mem_dropLast hzero)
      · exact Display.typed_erase sshDisplay rfl rfl h.2.2 hline
    · exact ⟨[],rfl,rfl⟩

/-- Ctrl-C leaves the line as it is and starts a new one. -/
theorem round_interrupt (h : c=3) : RoundSeen s w line c := by
  have hend : ¬(c=13 ∨ c=10) := by
    rw [h]
    decide
  have herase : ¬(c=127 ∨ c=8) := by
    rw [h]
    decide
  unfold RoundSeen
  rw [entered_other hend,sshByte,if_neg hend,if_neg herase,if_pos h]
  constructor
  · intro line' hline'
    rw [← Option.some.inj hline']
    exact shows_prompt w.row (text "^C")
  · exact ⟨[],rfl,rfl⟩

/-- A printable byte is echoed if there is room for it. -/
theorem round_glyph (h : Shows w.row line) (hc : 32≤c ∧ c≠127) : RoundSeen s w line c := by
  have hend : ¬(c=13 ∨ c=10) :=
    not_or.mpr ⟨printable_ne hc (by decide),printable_ne hc (by decide)⟩
  have herase : ¬(c=127 ∨ c=8) := not_or.mpr ⟨hc.2,printable_ne hc (by decide)⟩
  have hinterrupt : c≠3 := printable_ne hc (by decide)
  unfold RoundSeen
  rw [entered_other hend,sshByte,if_neg hend,if_neg herase,if_neg hinterrupt]
  by_cases hroom : line.length<1023
  · rw [if_pos hroom]
    constructor
    · intro line' hline'
      rw [← Option.some.inj hline']
      refine ⟨?_,?_,?_⟩
      · rw [List.length_append,List.length_singleton]
        omega
      · intro hzero
        cases List.mem_append.mp hzero with
        | inl hmem => exact h.2.1 hmem
        | inr hmem => exact printable_ne hc (by decide) (List.mem_singleton.mp hmem).symm
      · exact Display.typed_glyph sshDisplay (effect_printable hc) h.2.2
    · exact ⟨[],rfl,rfl⟩
  · rw [if_neg hroom]
    constructor
    · intro line' hline'
      rw [← Option.some.inj hline']
      exact h
    · exact ⟨[],rfl,rfl⟩

/-- Every round on a byte of the client does what it has to. -/
theorem round_seen (h : Shows w.row line) (hc : ChannelByte c) : RoundSeen s w line c := by
  rcases hc with hc | hc | hc | hc | hc | hc
  · exact round_glyph s h hc
  · exact round_break s h (Or.inl hc)
  · exact round_break s h (Or.inr hc)
  · exact round_erase s h (Or.inr hc)
  · exact round_erase s h (Or.inl hc)
  · exact round_interrupt s hc

/-- What a state says of the screen. -/
def Seen (st : ShellState) : Prop :=
  (∀ line,st.line=some line → Shows (watch st.history).row line) ∧
    plainActs (acts st.history)=(watch st.history).entered.map (s.recordCommand .ssh)

/-- A step on bytes of the client keeps what is seen. -/
theorem seen_step (st : ShellState) (label : ShellLabel) (st' : ShellState)
    (hst : (∀ c∈handled st.history,ChannelByte c) → Seen s st)
    (h : shellStep s st label=some st') :
    (∀ c∈handled st'.history,ChannelByte c) → Seen s st' := by
  intro hbytes
  cases shellStep_cases s h with
  | inl hend =>
    obtain ⟨line,r,hline,hlabel,hr,hst'⟩ := hend
    rw [hst'] at hbytes ⊢
    constructor
    · intro line' hline'
      cases hline'
    · exact (hst hbytes).2
  | inr hmore =>
    cases hmore with
    | inl hread =>
      obtain ⟨line,r,bytes,hline,hlabel,hr,hst'⟩ := hread
      rw [hst'] at hbytes ⊢
      constructor
      · intro line' hline'
        exact (hst hbytes).1 line' (by rw [hline]; exact hline')
      · exact (hst hbytes).2
    | inr hbyte =>
      obtain ⟨line,c,cs,hline,hlabel,hst'⟩ := hbyte
      rw [hst'] at hbytes ⊢
      dsimp only at hbytes
      rw [handled_round] at hbytes
      have hseen := hst (fun b hb => hbytes b (List.mem_append_left _ hb))
      have hc := hbytes c (List.mem_append_right _ (List.mem_singleton_self c))
      have hround := round_seen s (hseen.1 line (by rw [hline])) hc
      obtain ⟨texts,hentered,hplain⟩ := hround.2
      unfold Seen
      dsimp only
      rw [watch_round,acts_round]
      constructor
      · exact hround.1
      · have hsplit : plainActs (acts st.history++(sshByte s line c).2)=
            plainActs (acts st.history)++plainActs (sshByte s line c).2 := List.filterMap_append
        dsimp only
        rw [hsplit,hseen.2,hplain,hentered,List.map_append]

/-- Every state reached on bytes of the client shows its buffer. -/
theorem seen_run {labels : List ShellLabel} {st : ShellState}
    (hrun : execute (shellStep s) shellStart labels=some st)
    (hbytes : ∀ c∈handled st.history,ChannelByte c) : Seen s st := by
  have hstart : Seen s shellStart := by
    have hwatch : watch shellStart.history=
        ⟨sshDisplay.write .empty (written shellGreeting),[]⟩ := see_acts ⟨.empty,[]⟩ shellGreeting
    obtain ⟨body,hbody⟩ : ∃ body,sshMotd=body++crlf := lines_break (List.cons_ne_nil _ _)
    constructor
    · intro line hline
      have hwritten : written shellGreeting=body++crlf++sshShellPrompt := by
        rw [← hbody]
        exact congrArg (sshMotd++·) (List.append_nil sshShellPrompt)
      rw [← Option.some.inj hline,hwatch,hwritten]
      exact shows_prompt .empty body
    · rw [hwatch]
      rfl
  exact execute_invariant (seen_step s) (fun _ => hstart) hrun hbytes

/-- The shell shows its client the buffer behind the prompt in every state, and the
commands it records are the texts entered there, however the stream is cut. -/
theorem sshShell_shown (reads : List RecvResult)
    (hstream : ∀ c∈delivered reads,ChannelByte c) :
    (∀ labels st,execute (shellStep s) shellStart labels=some st → taken labels<+:reads →
      (∀ line,st.line=some line →
        line.length≤1023 ∧ sshDisplay.typed (watch st.history).row=some line) ∧
      plainActs (acts st.history)=(watch st.history).entered.map (s.recordCommand .ssh)) ∧
    (∃ labels st,execute (shellStep s) shellStart labels=some st ∧ taken labels<+:reads ∧
      acts st.history=shellGreeting++sshShell s [] reads) ∧
    ∀ reads',delivered reads'=delivered reads → sshShell s [] reads'=sshShell s [] reads := by
  refine ⟨?_,?_,?_⟩
  · intro labels st hrun htaken
    obtain ⟨rs,hrs⟩ := htaken
    have hfront := (follows_run s hrun).1 rs
    rw [hrs] at hfront
    have hseen := seen_run s hrun (fun c hc => hstream c (hfront.subset hc))
    constructor
    · intro line hline
      have hshows := hseen.1 line hline
      exact ⟨hshows.1,hshows.2.2⟩
    · exact hseen.2
  · exact run_reads s [] (shellGreeting.map .did) reads
  · intro reads' hreads'
    rw [sshShell_delivered,sshShell_delivered,hreads']

/-- A command is mistyped, corrected and sent in two reads. -/
theorem sshShell_shown_id :
    ∃ st : ShellState,
      acts st.history=shellGreeting++sshShell ⟨[],0,[]⟩ [] [.data (text "ie"),.data [127,100,13]] ∧
      plainActs (acts st.history)=
        (watch st.history).entered.map (Session.recordCommand ⟨[],0,[]⟩ .ssh) := by
  have hshown := sshShell_shown ⟨[],0,[]⟩ [.data (text "ie"),.data [127,100,13]]
    (List.forall_iff_forall_mem.mp (by decide))
  obtain ⟨labels,st,hrun,htaken,hacts⟩ := hshown.2.1
  exact ⟨st,hacts,(hshown.1 labels st hrun htaken).2⟩

end Rounds

end HoneyDew.SshTerminal
