import HoneyDew.FtpRuns

/-!
# Where an FTP client stands

The directory of a session lives in an array of 512 bytes and is changed by string
calls that cut off what does not fit. Against it stands a place with a directory of
any length, moved by the same lines. In every run, as long as the `int` counts the
`PASS` lines, the array holds the front of the directory of that place, and what `PWD`
reports is this front on a line of its own.
-/

namespace HoneyDew.FtpDirectory

open CText CMemory Service FtpService FtpSegments FtpRuns

/-! ## Places -/

/-- Go to a directory: an absolute one replaces the old one, any other one is joined
to it by a slash. -/
def moveTo (dir target : Bytes) : Bytes :=
  if target.head?=some 47 then target
  else if dir.getLast?≠some 47 then dir++47::target
  else dir++target

/-- What the lines of a session tell of it when nothing is cut off. -/
structure Place where
  /-- The number of passwords tried. -/
  passwords : ℕ
  /-- Whether the client is logged in. -/
  loggedIn : Bool
  /-- The directory, in full length. -/
  dir : Bytes

/-- Where every session starts. -/
def Place.start : Place := ⟨0,false,text "/"⟩

/-- What a line makes of a place. -/
def Place.after (p : Place) (line : Bytes) : Place :=
  match ftpVerb line with
  | .user => {p with loggedIn := false}
  | .pass =>
    if 2≤p.passwords+1 then ⟨p.passwords+1,true,text "/var/www/html"⟩
    else {p with passwords := p.passwords+1}
  | .cwd => if p.loggedIn then {p with dir := moveTo p.dir (ftpExtractArgument line 3)} else p
  | .cdup => if p.loggedIn then {p with dir := text "/var/www"} else p
  | _ => p

/-- The place behind some lines. -/
def placeAfter (lines : List Bytes) : Place := lines.foldl Place.after .start

/-- An absolute directory stays absolute. -/
theorem head?_moveTo {dir : Bytes} (h : dir.head?=some 47) (target : Bytes) :
    (moveTo dir target).head?=some 47 := by
  unfold moveTo
  split
  · assumption
  · split
    · rw [List.head?_append,h,Option.some_or]
    · rw [List.head?_append,h,Option.some_or]

/-- A byte of the new directory comes from one of the two or is the slash. -/
theorem mem_moveTo {dir target : Bytes} {b : Byte} (h : b∈moveTo dir target) :
    b∈dir ∨ b∈target ∨ b=47 := by
  unfold moveTo at h
  split at h
  · exact .inr (.inl h)
  · split at h
    · rcases List.mem_append.mp h with hdir|hrest
      · exact .inl hdir
      · rcases List.mem_cons.mp hrest with hslash|htarget
        · exact .inr (.inr hslash)
        · exact .inr (.inl htarget)
    · rcases List.mem_append.mp h with hdir|htarget
      · exact .inl hdir
      · exact .inr (.inl htarget)

/-- What a directory that holds something is moved to relatively extends it. -/
theorem front_moveTo {dir target : Bytes} (h : target.head?≠some 47) :
    dir<+:moveTo dir target := by
  unfold moveTo
  rw [if_neg h]
  split
  · exact List.prefix_append dir _
  · exact List.prefix_append dir _

/-! ## The array and the place -/

/-- The front of a text as long as the array depends on its front only. -/
theorem take_take_append (n : ℕ) (xs ys : Bytes) : (xs.take n++ys).take n=(xs++ys).take n := by
  rcases Nat.le_total xs.length n with hshort|hlong
  · rw [List.take_of_length_le hshort]
  · have hlength : (xs.take n).length=n := by rw [List.length_take,Nat.min_eq_left hlong]
    rw [List.take_append_of_le_length hlong,List.take_append_of_le_length (by omega),
      List.take_of_length_le (by omega)]

/-- `ftp_handle_cwd` goes where the place goes, as far as that fits. -/
theorem cstring_ftpChangeDirectory (cwd : CharArray 511) {dir target : Bytes}
    (htarget : (0 : Byte)∉target) (habsolute : dir.head?=some 47) (h : cwd.cstring=dir.take 511) :
    (ftpChangeDirectory cwd target).cstring=(moveTo dir target).take 511 := by
  have hnul : (0 : Byte)∉cwd.cstring := zero_not_mem_cstr _
  have hne : cwd.cstring≠[] := by
    intro hnil
    rw [h] at hnil
    cases dir with
    | nil => cases habsolute
    | cons b bs => exact absurd hnil (List.cons_ne_nil _ _)
  unfold ftpChangeDirectory
  by_cases hroot : target.head?=some 47
  · rw [if_pos hroot,moveTo,if_pos hroot,CharArray.cstring_strncpyInto,cstr_self htarget]
  · rw [if_neg hroot]
    have hbased : (if cwd.cstring≠[] ∧ cwd.cstring.getLast?≠some 47 then
        cwd.snprintfInto (cwd.cstring++[47]) else cwd).cstring=
          (cwd.cstring++(if cwd.cstring.getLast?≠some 47 then [47] else [])).take 511 := by
      by_cases hlast : cwd.cstring.getLast?≠some 47
      · rw [if_pos ⟨hne,hlast⟩,if_pos hlast,CharArray.cstring_snprintfInto]
        intro hzero
        rcases List.mem_append.mp hzero with hold|hslash
        · exact hnul hold
        · exact absurd hslash (by decide)
      · rw [if_neg (fun hboth => hlast hboth.2),if_neg hlast,List.append_nil,
          List.take_of_length_le (length_cstring cwd).1]
    have hstored := hbased
    generalize (if cwd.cstring≠[] ∧ cwd.cstring.getLast?≠some 47 then
      cwd.snprintfInto (cwd.cstring++[47]) else cwd)=based at hstored ⊢
    have hzero : (0 : Byte)∉based.cstring++target := by
      intro hmem
      rcases List.mem_append.mp hmem with hold|hnew
      · exact zero_not_mem_cstr _ hold
      · exact htarget hnew
    rw [CharArray.cstring_snprintfInto _ hzero,hstored,take_take_append]
    rcases Nat.le_total dir.length 511 with hshort|hlong
    · have hwhole : cwd.cstring=dir := by rw [h,List.take_of_length_le hshort]
      rw [hwhole,moveTo,if_neg hroot]
      split
      · rw [List.append_assoc,List.singleton_append]
      · rw [List.append_nil]
    · have hextends : dir<+:moveTo dir target := front_moveTo hroot
      obtain ⟨more,hmore⟩ := hextends
      have hfull : cwd.cstring.length=511 := by rw [h,List.length_take,Nat.min_eq_left hlong]
      rw [←hmore,List.take_append_of_le_length hlong,List.append_assoc,
        List.take_append_of_le_length (by omega),List.take_of_length_le (by omega),h]

/-- The session stands where the place is. -/
structure StandsAt (p : Place) (sess : FtpSession) : Prop where
  /-- The passwords are counted. -/
  passwords : sess.authAttempts=p.passwords
  /-- The login is the same. -/
  loggedIn : sess.authenticated=p.loggedIn
  /-- The array holds the front of the directory. -/
  cwd : sess.cwd.cstring=p.dir.take 511
  /-- The directory is absolute. -/
  absolute : p.dir.head?=some 47
  /-- The directory has no NUL and no line feed. -/
  clean : ∀ b∈p.dir,b≠0 ∧ b≠10

/-- The directories that the service names itself are absolute and clean. -/
theorem clean_named {dir : Bytes}
    (h : dir=text "/" ∨ dir=text "/var/www/html" ∨ dir=text "/var/www") :
    dir.head?=some 47 ∧ ∀ b∈dir,b≠0 ∧ b≠10 := by
  have hchecked : dir.head?=some 47 ∧ dir.all (fun b => b≠0 && b≠10)=true := by
    rcases h with rfl|rfl|rfl
    · exact ⟨rfl,rfl⟩
    · exact ⟨rfl,rfl⟩
    · exact ⟨rfl,rfl⟩
  refine ⟨hchecked.1,?_⟩
  intro b hb
  have hclean := List.all_eq_true.mp hchecked.2 b hb
  rw [Bool.and_eq_true,decide_eq_true_eq,decide_eq_true_eq] at hclean
  exact hclean

/-- A session starts where its place starts. -/
theorem standsAt_start : StandsAt .start .start where
  passwords := rfl
  loggedIn := rfl
  cwd := by
    have hcopy := CharArray.cstring_strncpyInto (CharArray.zeroed 511) (text "/")
    exact hcopy
  absolute := (clean_named (.inl rfl)).1
  clean := (clean_named (.inl rfl)).2

/-- The argument of a line has bytes of the line only. -/
theorem mem_ftpExtractArgument {line : Bytes} {n : ℕ} {b : Byte}
    (h : b∈ftpExtractArgument line n) : b∈line := by
  unfold ftpExtractArgument at h
  split at h
  · exact absurd h List.not_mem_nil
  · exact List.mem_of_mem_drop ((List.dropWhile_sublist _).subset h)

section Lines

variable (s : Session) {p : Place} {sess : FtpSession} {line : Bytes}

/-- A `CWD` line moves both alike. -/
theorem StandsAt.changed (h : StandsAt p sess) (hline : ∀ b∈line,b≠0 ∧ b≠10)
    (hverb : ftpVerb line=.cwd) : StandsAt (p.after line) (ftpExecute s sess line).sess := by
  have hargument : ∀ b∈ftpExtractArgument line 3,b≠0 ∧ b≠10 :=
    fun b hb => hline b (mem_ftpExtractArgument hb)
  unfold Place.after ftpExecute
  rw [hverb]
  dsimp only
  rw [h.loggedIn]
  cases hlogin : p.loggedIn with
  | false =>
    rw [if_neg Bool.false_ne_true,if_neg Bool.false_ne_true]
    exact h
  | true =>
    rw [if_pos rfl,if_pos rfl]
    refine ⟨h.passwords,h.loggedIn.trans hlogin,?_,head?_moveTo h.absolute _,?_⟩
    · exact cstring_ftpChangeDirectory sess.cwd (fun hzero => (hargument 0 hzero).1 rfl) h.absolute
        h.cwd
    · intro b hb
      rcases mem_moveTo hb with hdir|hnew|hslash
      · exact h.clean b hdir
      · exact hargument b hnew
      · rw [hslash]
        decide

/-- A session that stands at a place stands behind any line at the place behind it. -/
theorem StandsAt.executed (h : StandsAt p sess) (hline : ∀ b∈line,b≠0 ∧ b≠10) :
    StandsAt (p.after line) (ftpExecute s sess line).sess := by
  have hsame : p.after line=p → SameLogin sess (ftpExecute s sess line).sess →
      (ftpExecute s sess line).sess.cwd=sess.cwd →
      StandsAt (p.after line) (ftpExecute s sess line).sess := by
    intro hplace hlogin hcwd
    rw [hplace]
    exact ⟨hlogin.2.1.trans h.passwords,hlogin.1.trans h.loggedIn,hcwd ▸ h.cwd,h.absolute,h.clean⟩
  cases hverb : ftpVerb line with
  | cwd => exact h.changed s hline hverb
  | user =>
    unfold Place.after ftpExecute
    rw [hverb]
    exact ⟨h.passwords,rfl,h.cwd,h.absolute,h.clean⟩
  | pass =>
    unfold Place.after ftpExecute
    rw [hverb]
    dsimp only [ftpHandlePass]
    rw [h.passwords]
    by_cases htwo : 2≤p.passwords+1
    · rw [if_pos htwo,decide_eq_true htwo]
      have hnamed := clean_named (.inr (.inl rfl))
      exact ⟨rfl,rfl,CharArray.cstring_strncpyInto sess.cwd _,hnamed.1,hnamed.2⟩
    · rw [if_neg htwo,decide_eq_false htwo]
      exact ⟨rfl,h.loggedIn,h.cwd,h.absolute,h.clean⟩
  | cdup =>
    unfold Place.after ftpExecute
    rw [hverb]
    dsimp only
    rw [h.loggedIn]
    cases hlogin : p.loggedIn with
    | false =>
      rw [if_neg Bool.false_ne_true,if_neg Bool.false_ne_true]
      exact h
    | true =>
      rw [if_pos rfl,if_pos rfl]
      have hnamed := clean_named (.inr (.inr rfl))
      exact ⟨h.passwords,h.loggedIn.trans hlogin,CharArray.cstring_strncpyInto sess.cwd _,hnamed.1,
        hnamed.2⟩
  | quit =>
    refine hsame (by rw [Place.after,hverb]) ?_ ?_
    · exact sameLogin_ftpExecute s sess (by rw [hverb]; decide) (by rw [hverb]; decide)
    · rw [ftpExecute,hverb]
  | _ =>
    refine hsame (by rw [Place.after,hverb]) ?_ ?_
    · exact sameLogin_ftpExecute s sess (by rw [hverb]; decide) (by rw [hverb]; decide)
    · rw [ftpExecute,hverb]
      dsimp only
      split <;> rfl

/-- Behind its lines a session stands at the place that these lines lead to. -/
theorem standsAt_lines {lines : List Bytes} (h : ∀ line∈lines,∀ b∈line,b≠0 ∧ b≠10) :
    StandsAt (placeAfter lines) (sessionAfter s .start lines) := by
  induction lines using List.reverseRecOn with
  | nil => exact standsAt_start
  | append_singleton lines line ih =>
    have hfront := ih (fun l hl => h l (List.mem_append_left _ hl))
    have hline := h line (List.mem_append_right _ (List.mem_singleton_self line))
    rw [sessionAfter_append,placeAfter,List.foldl_append]
    exact hfront.executed s hline

end Lines

/-! ## The lines of a run -/

section Runs

variable (s : Session)

/-- A stripped line has bytes of the line only, and no NUL. -/
theorem mem_ftpStripCrlf {line : Bytes} {b : Byte} (h : b∈ftpStripCrlf line) : b∈line ∧ b≠0 := by
  have hstring : b∈cstr line := (List.rdropWhile_prefix _ _).subset h
  refine ⟨(cstr_front line).subset hstring,?_⟩
  intro hzero
  rw [hzero] at hstring
  exact zero_not_mem_cstr line hstring

/-- No line feed ever gets into the line buffer. -/
theorem lineFeed_not_mem_ftpByte {loop : FtpLoop} (h : (10 : Byte)∉loop.line) (c : Byte) :
    (10 : Byte)∉(ftpByte s loop c).1.line := by
  unfold ftpByte
  by_cases hc : c=10
  · rw [if_pos hc]
    split
    · exact h
    · exact List.not_mem_nil
  · rw [if_neg hc]
    split
    · rw [List.mem_append,List.mem_singleton,not_or]
      exact ⟨h,fun heq => hc heq.symm⟩
    · exact h

/-- The lines of a segment are free of NUL and line feeds, and the buffer stays so. -/
theorem clean_segmentLines {loop : FtpLoop} (h : (10 : Byte)∉loop.line) (bytes : Bytes) :
    (∀ line∈segmentLines s loop bytes,∀ b∈line,b≠0 ∧ b≠10) ∧
      (10 : Byte)∉(ftpSegment s loop bytes).1.line := by
  induction bytes generalizing loop with
  | nil => exact ⟨fun line hline => absurd hline List.not_mem_nil,h⟩
  | cons c cs ih =>
    have hrest := ih (lineFeed_not_mem_ftpByte s h c)
    refine ⟨?_,hrest.2⟩
    rw [segmentLines]
    split
    · intro line hline
      rcases List.mem_cons.mp hline with hfirst|hlater
      · intro b hb
        rw [hfirst] at hb
        obtain ⟨hmem,hne⟩ := mem_ftpStripCrlf hb
        exact ⟨hne,fun hfeed => h (hfeed ▸ hmem)⟩
      · exact hrest.1 line hlater
    · exact hrest.1

/-- The lines that the receive loop executes are free of NUL and line feeds. -/
theorem clean_executedLines {loop : FtpLoop} (h : (10 : Byte)∉loop.line)
    (results : List RecvResult) : ∀ line∈executedLines s loop results,∀ b∈line,b≠0 ∧ b≠10 := by
  induction results generalizing loop with
  | nil => exact fun line hline => absurd hline List.not_mem_nil
  | cons r rs ih =>
    rw [executedLines]
    split
    · split
      · exact fun line hline => absurd hline List.not_mem_nil
      · rename_i bytes _
        have hsegment := clean_segmentLines s h bytes
        intro line hline
        rcases List.mem_append.mp hline with hfront|hback
        · exact hsegment.1 line hfront
        · exact ih hsegment.2 line hback
    · exact fun line hline => absurd hline List.not_mem_nil

/-- Behind every line that a run executes, while fewer than 2^31 `PASS` lines have
been counted in the `int`, the directory is the front of that of the place which the
lines lead to; it is absolute and has no line feed. A client that is logged in there
and asks for it is told this front on one line. -/
theorem directory_of_lines (results : List RecvResult) (lines later : List Bytes)
    (h : executedLines s .start results=lines++later) (hcount : passes lines<2^31) :
    let sess := sessionAfter s .start lines
    let p := placeAfter lines
    toInt32 sess.authAttempts=passes lines ∧
      sess.cwd.cstring=p.dir.take 511 ∧ sess.authenticated=p.loggedIn ∧ p.dir.head?=some 47 ∧
      (10 : Byte)∉p.dir ∧
      ∀ (line : Bytes) (more : List Bytes),later=line::more → ftpVerb line=.pwd → p.loggedIn=true →
        sends (ftpExecute s sess line).acts=
          [text "257 "++[34]++p.dir.take 511++[34]++text " is the current directory"++crlf] := by
  intro sess p
  have hstart : (10 : Byte)∉FtpLoop.start.line := List.not_mem_nil
  have hclean := clean_executedLines s hstart results
  rw [h] at hclean
  have hstands := standsAt_lines s (fun line hline => hclean line (List.mem_append_left _ hline))
  have hattempts : sess.authAttempts=passes lines := (loginAfter_lines s lines).attempts
  refine ⟨?_,hstands.cwd,hstands.loggedIn,hstands.absolute,
    fun hfeed => (hstands.clean 10 hfeed).2 rfl,?_⟩
  · rw [hattempts]
    exact Int.bmod_eq_of_le (by omega) (by omega)
  intro line more _ hverb hlogin
  have hreply := sends_ftpExecute_pwd s hverb (hstands.loggedIn.trans hlogin)
  rw [hreply,hstands.cwd,pwdReply,replyLine,←List.append_assoc]

end Runs

/-- A client that logs in, goes to a directory below and asks where it is. -/
theorem directory_of_lines_uploads :
    sends (ftpExecute ⟨[],0,[]⟩ (sessionAfter ⟨[],0,[]⟩ .start
        [text "PASS a",text "PASS b",text "CWD uploads"]) (text "PWD")).acts=
      [text "257 "++[34]++text "/var/www/html/uploads"++[34]++text " is the current directory"++
        crlf] := by
  have hrun := directory_of_lines ⟨[],0,[]⟩ [.data (text "PASS a"++[10]++text "PASS b"++[13,10]),
    .data (text "CWD uploads"++[10]++text "PWD"++[10])]
    [text "PASS a",text "PASS b",text "CWD uploads"] [text "PWD"] (by decide) (by decide)
  exact hrun.2.2.2.2.2 (text "PWD") [] rfl (by decide) (by decide)

end HoneyDew.FtpDirectory
