import HoneyDew.RedisFraming

/-!
# The Redis service behind a segment that ends inside a command

A command that is cut is dispatched at once, as a piece of its own framing.
From there on the service has always dispatched more than the stream it has
read accounts for, so what it dispatches is never the list of commands.
-/

namespace HoneyDew.RedisOutOfStep

open CText CMemory Service RedisCommands StepSystem RedisParser RedisBuffer RedisLengths RedisUnread
  RedisStream RedisFraming

/-- Bytes that start with a star are no array when no dollar stands behind
their first CR LF. -/
theorem redisParseRespArray_broken {unread later w more : Bytes} (rest : Bytes)
    (hstream : unread++later=42::w++crlf++more) (hzero : (0 : Byte)∉w) (hw : ¬crlf<:+:w)
    (hmore : more.getD 0 0≠36) : redisParseRespArray (unread++rest) unread.length=none := by
  by_cases hgo : unread.length<4 ∨ (unread++rest).getD 0 0≠42
  · rw [redisParseRespArray,if_pos hgo]
  · rw [redisParseRespArray_eq hgo]
    rw [not_or] at hgo
    rw [headerAt_inside unread rest (by omega)]
    cases hfound : strstr (unread.drop 1) crlf with
    | none => rfl
    | some i =>
      have hwhole := strstr_append hfound later
      have htail : unread.drop 1++later=w++crlf++more := by
        have hdrop := congrArg (List.drop 1) hstream
        rw [List.drop_append_of_le_length (by omega)] at hdrop
        exact hdrop
      rw [htail,strstr_unbroken hzero hw] at hwhole
      have hi : i=w.length := (Option.some.inj hwhole).symm
      rw [Option.map_some,Option.bind_some]
      dsimp only
      split
      · rfl
      · rename_i hnumber
        obtain ⟨k,hk⟩ : ∃ k,(atoi (unread.drop 1++rest)).toNat=k+1 :=
          ⟨(atoi (unread.drop 1++rest)).toNat-1,by omega⟩
        rw [hk]
        by_cases hend : unread.length ≤ 1+i+2
        · exact redisParseArgs_end _ (Nat.succ_pos k) hend
        · have hskip : (42::w++crlf).length=1+i+2 := by
            rw [List.length_append,List.length_cons,hi,show crlf.length=2 from rfl]
            omega
          have hother : (unread++rest).getD (1+i+2) 0≠36 := by
            rw [List.getD_append _ _ _ _ (by omega),←List.getD_append unread later 0 _ (by omega),
              hstream,List.getD_append_right _ _ _ _ hskip.le,hskip,Nat.sub_self]
            exact hmore
          rw [redisParseArgs,if_pos (Or.inr hother)]

/-- A command of one argument as an array. -/
theorem encodeCommand_single (t : Bytes) :
    encodeCommand [t]=42::49::13::10::36::(decimal t.length++crlf++(t++crlf)) := by
  have hone : decimal 1=[49] := by decide
  rw [encodeCommand,List.length_singleton,hone,List.flatMap_singleton,encodeArg]
  rfl

/-- A piece of framing as a command is framing throughout, has a dollar as its
fifth byte, and ends with CR LF. -/
theorem encodeCommand_framing {argv : List Bytes} (h : FramingCommand argv) :
    (∀ b∈encodeCommand argv,isFraming b=true) ∧ 10 ≤ (encodeCommand argv).length ∧
      (encodeCommand argv).take 5=[42,49,13,10,36] ∧ crlf<:+encodeCommand argv := by
  rcases h with ⟨t,rfl,hpiece⟩
  have hdigits := List.length_pos_iff.mpr (decimal_ne_nil t.length)
  rw [encodeCommand_single]
  refine ⟨?_,?_,rfl,?_⟩
  · intro b hb
    have hstart : ∀ c∈([42,49,13,10,36] : Bytes),isFraming c=true := List.all_eq_true.mp rfl
    change b∈[42,49,13,10,36]++(decimal t.length++crlf++(t++crlf)) at hb
    simp only [List.mem_append] at hb
    rcases hb with hb|(hb|hb)|hb|hb
    · exact hstart b hb
    · exact isFraming_of_isDigit (isDigit_of_mem_decimal hb)
    · exact isFraming_crlf b hb
    · exact hpiece.framing b hb
    · exact isFraming_crlf b hb
  · simp only [List.length_cons,List.length_append,List.length_nil]
    omega
  · refine ⟨42::49::13::10::36::(decimal t.length++crlf++t),?_⟩
    simp only [List.cons_append,List.append_assoc]

/-- A star inside the encoding of one piece of framing stands in the piece. -/
theorem star_inside {t : Bytes} {o : ℕ} (hpos : 0<o) (hlt : o<(encodeCommand [t]).length)
    (hstar : (encodeCommand [t]).getD o 0=42) :
    ∃ w,(encodeCommand [t]).drop o=42::w++crlf ∧ 42::w<:+:t := by
  obtain ⟨k,rfl⟩ : ∃ k,o=k+1 := ⟨o-1,by omega⟩
  have hshape : encodeCommand [t]=42::((49::13::10::36::(decimal t.length++crlf))++(t++crlf)) := by
    rw [encodeCommand_single]
    simp only [List.cons_append,List.append_assoc]
  have hheader : (42 : Byte)∉49::13::10::36::(decimal t.length++crlf) := by
    intro hmem
    change (42 : Byte)∈[49,13,10,36]++(decimal t.length++crlf) at hmem
    rw [List.mem_append,List.mem_append] at hmem
    rcases hmem with hmem|hmem|hmem
    · exact absurd hmem (by decide)
    · exact absurd (isDigit_of_mem_decimal hmem) (by decide)
    · exact absurd hmem (by decide)
  rw [hshape,List.length_cons,List.length_append,List.length_append] at hlt
  rw [hshape,List.getD_cons_succ] at hstar
  rw [hshape,List.drop_succ_cons]
  rcases Nat.lt_or_ge k (49::13::10::36::(decimal t.length++crlf) : Bytes).length with hin|hout
  · rw [List.getD_append _ _ _ _ hin,List.getD_eq_getElem _ _ hin] at hstar
    exact absurd (hstar ▸ List.getElem_mem hin) hheader
  · rw [List.getD_append_right _ _ _ _ hout] at hstar
    rw [List.drop_append,List.drop_eq_nil_of_le hout,List.nil_append]
    have htwo : crlf.length=2 := rfl
    rcases Nat.lt_or_ge (k-(49::13::10::36::(decimal t.length++crlf) : Bytes).length) t.length with hpiece|hline
    · rw [List.getD_append _ _ _ _ hpiece,List.getD_eq_getElem _ _ hpiece] at hstar
      rw [List.drop_append_of_le_length hpiece.le,List.drop_eq_getElem_cons hpiece,hstar]
      refine ⟨_,rfl,?_⟩
      have hsuffix := List.drop_suffix (k-(49::13::10::36::(decimal t.length++crlf) : Bytes).length) t
      rw [List.drop_eq_getElem_cons hpiece,hstar] at hsuffix
      exact hsuffix.isInfix
    · rw [List.getD_append_right _ _ _ _ hline] at hstar
      have hshort : k-(49::13::10::36::(decimal t.length++crlf) : Bytes).length-t.length<crlf.length := by
        omega
      rw [List.getD_eq_getElem _ _ hshort] at hstar
      exact absurd (hstar ▸ List.getElem_mem hshort) (by decide)

/-- A place in the encodings of commands: inside an encoding or at its end. -/
structure Position (commands : List RedisCommand) where
  /-- The commands in front of the current one. -/
  done : List RedisCommand
  /-- The command of which bytes have been consumed. -/
  current : RedisCommand
  /-- The commands of which no bytes have been consumed. -/
  todo : List RedisCommand
  /-- The bytes of the current command that have been consumed. -/
  offset : ℕ
  /-- Together these are all commands. -/
  commands_eq : commands=done++current::todo
  /-- Something has been consumed. -/
  offset_pos : 0<offset
  /-- No more than the current command has been consumed of it. -/
  offset_le : offset ≤ (encodeCommand current.argv).length

namespace Position

variable {commands : List RedisCommand}

/-- What is left of the stream. -/
def left (p : Position commands) : Bytes :=
  (encodeCommand p.current.argv).drop p.offset++encodings p.todo

/-- The dispatches to be expected out of step: one for the header of the
current command, and one more behind it. -/
def owed (p : Position commands) : ℕ := p.done.length+(if p.offset ≤ 4 then 1 else 2)

/-- Further on in the current command. -/
theorem advance (p : Position commands) {e : ℕ}
    (h : p.offset+e ≤ (encodeCommand p.current.argv).length) :
    ∃ q : Position commands,q.left=p.left.drop e ∧ q.done=p.done ∧ q.offset=p.offset+e := by
  have hpos := p.offset_pos
  refine ⟨⟨p.done,p.current,p.todo,p.offset+e,p.commands_eq,by omega,h⟩,?_,rfl,rfl⟩
  unfold left
  rw [List.drop_append_of_le_length,List.drop_drop]
  rw [List.length_drop]
  omega

/-- Inside a piece of framing a parser keeps up with what is owed by one
dispatch, and by none where it only skips a line break. -/
theorem lands_inside (p : Position commands) (hcurrent : FramingCommand p.current.argv) {e : ℕ}
    (h : p.offset+e ≤ (encodeCommand p.current.argv).length) :
    ∃ q : Position commands,q.left=p.left.drop e ∧ q.owed ≤ p.owed+1 ∧
      ((∀ b∈p.left.take e,b=13 ∨ b=10) → q.owed ≤ p.owed) := by
  have hnext := p.advance h
  rcases hnext with ⟨q,hleft,hdone,hoffset⟩
  refine ⟨q,hleft,?_,?_⟩
  · unfold owed
    rw [hdone,hoffset]
    split <;> split <;> omega
  · intro hbreak
    unfold owed
    rw [hdone,hoffset]
    by_cases hfront : p.offset ≤ 4
    · by_cases hbehind : p.offset+e ≤ 4
      · rw [if_pos hfront,if_pos hbehind]
      · exfalso
        -- the dollar behind the header would have been skipped
        have hshape := encodeCommand_framing hcurrent
        have hdollar : (encodeCommand p.current.argv)[4]?=some 36 := by
          have hfive := congrArg (fun bs : Bytes => bs[4]?) hshape.2.2.1
          rw [List.getElem?_take_of_lt (by decide)] at hfive
          exact hfive
        have hmem : (36 : Byte)∈p.left.take e := by
          have hindex : p.left[4-p.offset]?=some 36 := by
            unfold left
            rw [List.getElem?_append_left,List.getElem?_drop,
              show p.offset+(4-p.offset)=4 by omega]
            · exact hdollar
            · rw [List.length_drop]
              omega
          rw [←List.getElem?_take_of_lt (by omega : 4-p.offset<e)] at hindex
          exact List.mem_of_getElem? hindex
        exact absurd (hbreak 36 hmem) (by decide)
    · rw [if_neg hfront,if_neg (by omega)]

/-- Where another command follows, its encoding is what comes next. -/
theorem left_cons (p : Position commands) {c : RedisCommand} {todo : List RedisCommand}
    (htodo : p.todo=c::todo) :
    p.left=(encodeCommand p.current.argv).drop p.offset++(encodeCommand c.argv++encodings todo) := by
  unfold left
  rw [htodo]
  rfl

/-- Into the header of the next command nothing more is owed. -/
theorem cross (p : Position commands) {c : RedisCommand} {todo : List RedisCommand} {e : ℕ}
    (htodo : p.todo=c::todo) (hbehind : 4<p.offset) (hc : 4 ≤ (encodeCommand c.argv).length)
    (hlow : (encodeCommand p.current.argv).length<p.offset+e)
    (hhigh : p.offset+e ≤ (encodeCommand p.current.argv).length+4) :
    ∃ q : Position commands,q.left=p.left.drop e ∧ q.owed=p.owed := by
  have hle := p.offset_le
  refine ⟨⟨p.done++[p.current],c,todo,p.offset+e-(encodeCommand p.current.argv).length,?_,
    by omega,by omega⟩,?_,?_⟩
  · rw [List.append_assoc,List.singleton_append,←htodo]
    exact p.commands_eq
  · have hshort : ((encodeCommand p.current.argv).drop p.offset).length ≤ e := by
      rw [List.length_drop]
      omega
    rw [p.left_cons htodo,List.drop_append,List.drop_eq_nil_of_le hshort,List.nil_append,
      List.drop_append_of_le_length (by rw [List.length_drop]; omega),List.length_drop]
    unfold left
    dsimp only
    congr 2
    omega
  · unfold owed
    dsimp only
    rw [List.length_append,List.length_singleton,if_pos (by omega),if_neg (by omega)]

/-- A stretch of framing: it ends with the stream or with CR LF, and what is
consumed of it lands where the dispatches keep up. -/
structure Stretch (p : Position commands) (m : ℕ) : Prop where
  /-- Only framing stands in the stretch. -/
  framing : ∀ b∈p.left.take m,isFraming b=true
  /-- A line does not go on behind the stretch. -/
  ends : p.left.length ≤ m ∨ 2 ≤ m ∧ crlf<+:p.left.drop (m-2)
  /-- One dispatch keeps up with what is owed, and a line break owes none. -/
  lands : ∀ e ≤ m,e ≤ p.left.length → ∃ q : Position commands,q.left=p.left.drop e ∧
    q.owed ≤ p.owed+1 ∧ ((∀ b∈p.left.take e,b=13 ∨ b=10) → q.owed ≤ p.owed)

/-- Inside a piece of framing, and at its end in front of another one, there is
a stretch of framing. -/
theorem stretch_exists (p : Position commands) (hcurrent : FramingCommand p.current.argv)
    (hnext : 4<p.offset → ∀ c∈p.todo.head?,FramingCommand c.argv) : ∃ m,p.Stretch m := by
  have hshape := encodeCommand_framing hcurrent
  have hle := p.offset_le
  have hrest : ((encodeCommand p.current.argv).drop p.offset).length=
      (encodeCommand p.current.argv).length-p.offset := List.length_drop
  have hbytes : ∀ b∈(encodeCommand p.current.argv).drop p.offset,isFraming b=true :=
    fun b hb => hshape.1 b (List.mem_of_mem_drop hb)
  rcases Nat.lt_or_ge (p.offset+1) (encodeCommand p.current.argv).length with hinside|hlast
  · refine ⟨(encodeCommand p.current.argv).length-p.offset,?_,Or.inr ⟨by omega,?_⟩,?_⟩
    · unfold left
      rw [←hrest,List.take_left]
      exact hbytes
    · rcases hshape.2.2.2 with ⟨front,hfront⟩
      have hlength := congrArg List.length hfront
      rw [List.length_append,show crlf.length=2 from rfl] at hlength
      unfold left
      rw [List.drop_append_of_le_length (by omega),List.drop_drop,
        show p.offset+((encodeCommand p.current.argv).length-p.offset-2)=front.length by omega,
        ←hfront,List.drop_left]
      exact List.prefix_append _ _
    · exact fun e he _ => p.lands_inside hcurrent (by omega)
  · cases htodo : p.todo with
    | nil =>
      have hleft : p.left=(encodeCommand p.current.argv).drop p.offset := by
        unfold left
        rw [htodo]
        exact List.append_nil _
      refine ⟨p.left.length,?_,Or.inl (Nat.le_refl _),?_⟩
      · rw [List.take_length,hleft]
        exact hbytes
      · intro e he _
        rw [hleft,hrest] at he
        exact p.lands_inside hcurrent (by omega)
    | cons c todo =>
      have hc := encodeCommand_framing (hnext (by omega) c (by rw [htodo]; rfl))
      have hleft := p.left_cons htodo
      have hheader : encodeCommand c.argv=[42,49,13,10,36]++(encodeCommand c.argv).drop 5 := by
        have hsplit := List.take_append_drop 5 (encodeCommand c.argv)
        rw [hc.2.2.1] at hsplit
        exact hsplit.symm
      refine ⟨(encodeCommand p.current.argv).length-p.offset+4,?_,Or.inr ⟨by omega,?_⟩,?_⟩
      · rw [hleft,←hrest,List.take_length_add_append,List.take_append_of_le_length (by omega)]
        intro b hb
        rcases List.mem_append.mp hb with hb|hb
        · exact hbytes b hb
        · exact hc.1 b (List.mem_of_mem_take hb)
      · rw [hleft,←hrest,show ∀ k,k+4-2=k+2 from fun k => rfl,List.drop_length_add_append,hheader]
        exact List.prefix_append crlf _
      · intro e he _
        rcases Nat.lt_or_ge (encodeCommand p.current.argv).length (p.offset+e) with hover|hin
        · have hcross := p.cross htodo (by omega) (by omega) hover (by omega)
          rcases hcross with ⟨q,hq,howed⟩
          exact ⟨q,hq,by omega,fun _ => by omega⟩
        · exact p.lands_inside hcurrent hin

end Position

/-- Behind the unread bytes stand, up to the first NUL, only framing and copies
of unread bytes. -/
def SettledTail (b : RedisBuffer) : Prop :=
  ∀ c∈cstr (b.memory.drop b.used),isFraming c=true ∨ c∈b.unread

/-- Consuming framing leaves only framing and copies of unread bytes behind. -/
theorem settledTail_consume {b : RedisBuffer} {k : ℕ} (hzero : (0 : Byte)∉b.unread)
    (htail : SettledTail b) (hframing : ∀ c∈b.unread.take k,isFraming c=true) :
    SettledTail (b.consume k) := by
  have hspec := consume_spec b k
  have hsplit := memory_split b
  have hbytes : ∀ c∈b.unread,isFraming c=true ∨ c∈b.unread.drop k := by
    intro c hc
    rw [←List.take_append_drop k b.unread,List.mem_append] at hc
    exact hc.imp_left (hframing c)
  intro c hc
  rw [hspec.2.2,hsplit.1,List.drop_append_of_le_length (by omega),
    cstr_append (fun hmem => hzero (List.mem_of_mem_drop hmem)),List.mem_append] at hc
  rw [hspec.1]
  rcases hc with hc|hc
  · exact hbytes c (List.mem_of_mem_drop hc)
  · rcases htail c hc with hc|hc
    · exact Or.inl hc
    · exact hbytes c hc

/-- A buffer of which the next pass parses out of step. -/
structure Reading {commands : List RedisCommand} (b : RedisBuffer) (later : Bytes)
    (p : Position commands) : Prop where
  /-- There is something to parse. -/
  used_ne : b.used≠0
  /-- The unread bytes have no NUL. -/
  zero_not_mem : (0 : Byte)∉b.unread
  /-- The bytes behind it are settled. -/
  tail : SettledTail b
  /-- The rest of the stream is in the buffer and in later segments. -/
  left_eq : p.left=b.unread++later
  /-- The current command is a piece of framing. -/
  current : FramingCommand p.current.argv
  /-- Behind its header the next one is, too. -/
  next : 4<p.offset → ∀ c∈p.todo.head?,FramingCommand c.argv

section Parse

variable {commands : List RedisCommand} {b : RedisBuffer} {later : Bytes} {p : Position commands}

/-- What is unread is the front of what is left of the stream. -/
theorem Reading.take_left (h : Reading b later p) {k : ℕ} (hk : k ≤ b.unread.length) :
    p.left.take k=b.unread.take k := by
  rw [h.left_eq,List.take_append_of_le_length hk]

/-- The CR LF at the end of a stretch that ends inside the unread bytes is unread. -/
theorem Reading.crlf_unread (h : Reading b later p) {m : ℕ} (hle : m ≤ b.unread.length)
    (htwo : 2 ≤ m) (hcrlf : crlf<+:p.left.drop (m-2)) : crlf<+:b.unread.drop (m-2) := by
  rw [h.left_eq,List.drop_append_of_le_length (by omega)] at hcrlf
  refine List.prefix_of_prefix_length_le hcrlf (List.prefix_append _ _) ?_
  rw [List.length_drop,show crlf.length=2 from rfl]
  omega

/-- A stretch that does not end inside the unread bytes makes all of memory up
to the NUL framing. -/
theorem Reading.framing_cstr (h : Reading b later p) {m : ℕ} (hstretch : p.Stretch m)
    (hle : b.unread.length ≤ m) : ∀ c∈cstr b.memory,isFraming c=true := by
  have hsplit := memory_split b
  have hinside : ∀ c∈b.unread,isFraming c=true := by
    intro c hc
    have hfront : b.unread<+:p.left := by
      rw [h.left_eq]
      exact List.prefix_append _ _
    have htaken := List.prefix_of_prefix_length_le hfront (List.take_prefix m p.left)
      (by rw [List.length_take]; have hlength := hfront.length_le; omega)
    exact hstretch.framing c (htaken.subset hc)
  intro c hc
  rw [hsplit.1,cstr_append h.zero_not_mem,List.mem_append] at hc
  rcases hc with hc|hc
  · exact hinside c hc
  · exact (h.tail c hc).elim id (hinside c)

/-- What is read out of step has framing in front. -/
theorem Reading.framedAhead (h : Reading b later p) {m : ℕ} (hstretch : p.Stretch m) :
    FramedAhead b.memory := by
  have hsplit := memory_split b
  have hlonger : b.unread.length ≤ p.left.length := by
    rw [h.left_eq,List.length_append]
    omega
  rcases Nat.le_total b.unread.length m with hle|hge
  · exact ⟨cstr b.memory,List.prefix_refl _,h.framing_cstr hstretch hle,Or.inl rfl⟩
  · rcases hstretch.ends with hall|hline
    · exact ⟨cstr b.memory,List.prefix_refl _,h.framing_cstr hstretch (by omega),Or.inl rfl⟩
    · refine ⟨b.unread.take m,?_,?_,Or.inr ?_⟩
      · rw [hsplit.1,cstr_append h.zero_not_mem]
        exact (List.take_prefix m b.unread).trans (List.prefix_append _ _)
      · rw [←h.take_left hge]
        exact hstretch.framing
      · have hcrlf := h.crlf_unread hge hline.1 hline.2
        rcases hcrlf with ⟨more,hmore⟩
        obtain ⟨k,rfl⟩ : ∃ k,m=k+2 := ⟨m-2,by omega⟩
        rw [Nat.add_sub_cancel] at hmore
        rw [List.take_add,←hmore]
        exact ⟨_,rfl⟩

/-- Where no array is parsed, the line parser takes one piece of framing or
skips a line break. -/
theorem redisParse_line (h : Reading b later p)
    (harray : (if b.memory.getD 0 0=42 then redisParseRespArray b.memory b.used else none)=none) :
    ∃ consumed argv,redisParse b.memory b.used=some (consumed,argv) ∧
      (argv=[] ∨ FramingCommand argv) ∧ (∀ c∈b.unread.take consumed,isFraming c=true) ∧
      ∃ q : Position commands,q.left=b.unread.drop consumed++later ∧
        q.owed ≤ p.owed+(if argv=[] then 0 else 1) := by
  have hstretch := p.stretch_exists h.current h.next
  rcases hstretch with ⟨m,hstretch⟩
  have hsplit := memory_split b
  have htake : b.memory.take b.used=b.unread := rfl
  have hlonger : b.unread.length ≤ p.left.length := by
    rw [h.left_eq,List.length_append]
    omega
  have hline := redisParseInline_framing (by have hused := h.used_ne; omega)
    (htake ▸ h.zero_not_mem) (by have hmemory := b.length_memory; have hused := b.used_le; omega)
    (h.framedAhead hstretch)
  rcases hline with ⟨consumed,argv,hparse,hargv,hbound,_⟩
  rw [htake] at hargv hbound
  have hreach : min consumed b.unread.length ≤ m := by
    rcases Nat.le_total b.unread.length m with hle|hge
    · omega
    · rcases hstretch.ends with hall|hline
      · omega
      · have hstop := hbound (m-2) (h.crlf_unread hge hline.1 hline.2)
        omega
  have htaken : p.left.take (min consumed b.unread.length)=b.unread.take consumed := by
    rw [h.take_left (by omega),←List.take_eq_take_min]
  have hdropped : p.left.drop (min consumed b.unread.length)=b.unread.drop consumed++later := by
    rw [h.left_eq,List.drop_append_of_le_length (by omega),←List.drop_eq_drop_min]
  have hland := hstretch.lands _ hreach (by omega)
  rw [htaken,hdropped] at hland
  rcases hland with ⟨q,hq,hone,hnone⟩
  refine ⟨consumed,argv,?_,hargv.imp_left And.left,?_,q,hq,?_⟩
  · unfold redisParse
    rw [harray,hparse]
    rfl
  · rw [←htaken]
    intro c hc
    exact hstretch.framing c ((List.take_prefix_take_left hreach).subset hc)
  · split
    · rename_i hempty
      rcases hargv with hskip|hcommand
      · exact hnone hskip.2
      · rcases hcommand with ⟨t,ht,_⟩
        rw [hempty] at ht
        cases ht
    · exact hone

/-- Inside the current command no array is parsed. -/
theorem redisParseRespArray_inside (h : Reading b later p)
    (hinside : p.offset<(encodeCommand p.current.argv).length) (hstar : b.memory.getD 0 0=42) :
    redisParseRespArray b.memory b.used=none := by
  have hsplit := memory_split b
  have hused := h.used_ne
  rcases h.current with ⟨t,ht,hpiece⟩
  rw [ht] at hinside
  have hrest : 0<((encodeCommand [t]).drop p.offset).length := by
    rw [List.length_drop]
    omega
  have hbyte : (encodeCommand [t]).getD p.offset 0=42 := by
    rw [hsplit.1,List.getD_append _ _ _ _ (by omega),←List.getD_append b.unread later 0 _ (by omega),
      ←h.left_eq,Position.left,ht,List.getD_append _ _ _ _ hrest] at hstar
    rw [List.getD_eq_getElem?_getD,List.getElem?_drop,Nat.add_zero,
      ←List.getD_eq_getElem?_getD] at hstar
    exact hstar
  have hfound := star_inside p.offset_pos hinside hbyte
  rcases hfound with ⟨w,hw,hplace⟩
  have hbroken : ¬crlf<:+:w := by
    intro hocc
    have htail : w<:+:42::w := (List.suffix_cons 42 w).isInfix
    exact hpiece.unbroken ((hocc.trans htail).trans hplace)
  have hzero : (0 : Byte)∉w := by
    intro hmem
    exact zero_not_mem_framing hpiece.framing (hplace.subset (List.mem_cons_of_mem 42 hmem))
  have hnext : (encodings p.todo).getD 0 0≠36 := by
    cases p.todo with
    | nil => decide
    | cons c todo =>
      exact (by decide : (42 : Byte)≠36)
  have hstream : b.unread++later=42::w++crlf++encodings p.todo := by
    rw [←h.left_eq,Position.left,ht,hw]
  have hnone := redisParseRespArray_broken (b.memory.drop b.used) hstream hzero hbroken hnext
  rwa [hsplit.2,←hsplit.1] at hnone

/-- A pass at the end of a command dispatches the next one if the buffer holds it, and the
next line of it otherwise. -/
theorem redisParse_atEnd (h : Reading b later p) (hstar : b.memory.getD 0 0=42)
    (hend : p.offset=(encodeCommand p.current.argv).length) :
    ∃ consumed argv,redisParse b.memory b.used=some (consumed,argv) ∧
      (argv=[] ∨ FramingCommand argv) ∧ (∀ c∈b.unread.take consumed,isFraming c=true) ∧
      ∃ q : Position commands,q.left=b.unread.drop consumed++later ∧
        q.owed ≤ p.owed+(if argv=[] then 0 else 1) := by
  have hsplit := memory_split b
  have hused := h.used_ne
  have hcurrent := encodeCommand_framing h.current
  cases htodo : p.todo with
  | nil =>
    have hlength := congrArg List.length h.left_eq
    rw [Position.left,htodo,hend,List.drop_length,List.nil_append,List.length_append] at hlength
    change 0=_ at hlength
    omega
  | cons c todo =>
    have hc := h.next (by omega) c (by rw [htodo]; rfl)
    have hleft := p.left_cons htodo
    rw [hend,List.drop_length,List.nil_append,h.left_eq] at hleft
    rcases Nat.lt_or_ge b.unread.length (encodeCommand c.argv).length with hshort|hwhole
    · have hgrown := append_split hleft hshort.le
      rcases hgrown with ⟨missing,hmissing,_⟩
      have hne : missing≠[] := by
        rintro rfl
        rw [List.append_nil] at hmissing
        rw [hmissing] at hshort
        exact absurd hshort (Nat.lt_irrefl _)
      have hnone := redisParseRespArray_cut (b.memory.drop b.used) c hmissing hne
      rw [hsplit.2,←hsplit.1] at hnone
      refine redisParse_line h ?_
      rw [if_pos hstar]
      exact hnone
    · have hgrown := append_split hleft.symm hwhole
      rcases hgrown with ⟨more,hmore,hrest⟩
      have hparse := redisParse_encode (b.memory.drop b.used) c hmore
      rw [hsplit.2,←hsplit.1] at hparse
      have hshape := encodeCommand_framing hc
      refine ⟨_,_,hparse,Or.inr hc,?_,⟨p.done++[p.current],c,todo,(encodeCommand c.argv).length,?_,
        by omega,Nat.le_refl _⟩,?_,?_⟩
      · rw [hmore,List.take_left]
        exact hshape.1
      · rw [List.append_assoc,List.singleton_append,←htodo]
        exact p.commands_eq
      · rw [hmore,List.drop_left,←hrest]
        unfold Position.left
        dsimp only
        rw [List.drop_length]
        rfl
      · unfold Position.owed
        dsimp only
        rw [if_neg c.argc_pos,List.length_append,List.length_singleton,if_neg (by omega),
          if_neg (by omega)]

/-- A pass out of step dispatches one piece of framing or skips a line break,
and the dispatches keep up. -/
theorem redisParse_outOfStep (h : Reading b later p) :
    ∃ consumed argv,redisParse b.memory b.used=some (consumed,argv) ∧
      (argv=[] ∨ FramingCommand argv) ∧ (∀ c∈b.unread.take consumed,isFraming c=true) ∧
      ∃ q : Position commands,q.left=b.unread.drop consumed++later ∧
        q.owed ≤ p.owed+(if argv=[] then 0 else 1) := by
  by_cases hstar : b.memory.getD 0 0=42
  · rcases Nat.lt_or_eq_of_le p.offset_le with hinside|hend
    · refine redisParse_line h ?_
      rw [if_pos hstar]
      exact redisParseRespArray_inside h hinside hstar
    · exact redisParse_atEnd h hstar hend
  · refine redisParse_line h ?_
    rw [if_neg hstar]

end Parse

/-- The dispatches since the commands given are pieces of framing, and they
keep up with a place of the stream in these commands. -/
structure OutOfStep (commands : List RedisCommand) (extra : List (List Bytes)) (stream : Bytes) :
    Prop where
  /-- Every dispatch is a piece of framing. -/
  framing : ∀ argv∈extra,FramingCommand argv
  /-- There are as many as are to be expected. -/
  keepsUp : ∃ p : Position commands,p.left=stream ∧ p.owed ≤ extra.length

section Run

variable {commands : List RedisCommand} {front extra : List (List Bytes)}

/-- Where the dispatches are the first of the commands, a command they have
overtaken is a piece of framing. -/
theorem framing_overtaken {done todo : List RedisCommand} {c : RedisCommand}
    (hcommands : commands=done++c::todo) (hextra : extra<+:commands.map RedisCommand.argv)
    (hframing : ∀ argv∈extra,FramingCommand argv) (hlength : done.length<extra.length) :
    FramingCommand c.argv := by
  rcases hextra with ⟨more,hmore⟩
  have hindex := congrArg (fun l : List (List Bytes) => l[done.length]?) hmore
  rw [List.getElem?_append_left hlength,hcommands,List.map_append,List.map_cons,
    List.getElem?_append_right (by rw [List.length_map]),List.length_map,Nat.sub_self,
    List.getElem?_cons_zero] at hindex
  exact hframing c.argv (List.mem_of_getElem? hindex)

/-- Out of step the current command is a piece of framing, and behind its
header so is the next one. -/
theorem framing_position (p : Position commands) (hextra : extra<+:commands.map RedisCommand.argv)
    (hframing : ∀ argv∈extra,FramingCommand argv) (howed : p.owed ≤ extra.length) :
    FramingCommand p.current.argv ∧ (4<p.offset → ∀ c∈p.todo.head?,FramingCommand c.argv) := by
  unfold Position.owed at howed
  constructor
  · refine framing_overtaken p.commands_eq hextra hframing ?_
    split at howed <;> omega
  · intro hbehind c hc
    rw [if_neg (by omega)] at howed
    have htodo : p.todo=c::p.todo.tail := List.eq_cons_of_mem_head? hc
    have hcommands : commands=(p.done++[p.current])++c::p.todo.tail := by
      rw [List.append_assoc,List.singleton_append,←htodo]
      exact p.commands_eq
    refine framing_overtaken hcommands hextra hframing ?_
    rw [List.length_append,List.length_singleton]
    omega

/-- A piece of framing that is parsed is dispatched. -/
theorem redisPass_framing {s : RedisLoop} {consumed : ℕ} {argv : List Bytes}
    (hused : s.buffer.used≠0) (hargv : FramingCommand argv)
    (hparse : redisParse s.buffer.memory s.buffer.used=some (consumed,argv)) :
    redisPass s=⟨s.buffer.consume consumed,.parsing,s.dispatched++[argv]⟩ := by
  have hne : argv≠[] := by
    rcases hargv with ⟨t,ht,_⟩
    rw [ht]
    exact List.cons_ne_nil _ _
  have hopen : ¬(argv≠[] ∧ redisCloses argv=true) := by
    rw [redisCloses_framing hargv]
    exact fun hboth => Bool.noConfusion hboth.2
  rw [redisPass_some hused hparse,if_neg hopen,if_neg hne]

/-- One pass out of step leaves the service out of step. -/
theorem redisPass_outOfStep {s : RedisLoop} {later : Bytes} (hused : s.buffer.used≠0)
    (hzero : (0 : Byte)∉s.buffer.unread) (htail : SettledTail s.buffer)
    (hdispatched : s.dispatched=front++extra) (hextra : extra<+:commands.map RedisCommand.argv)
    (hout : OutOfStep commands extra (s.buffer.unread++later)) :
    (redisPass s).phase=.parsing ∧ (0 : Byte)∉(redisPass s).buffer.unread ∧
      SettledTail (redisPass s).buffer ∧ ∃ extra',(redisPass s).dispatched=front++extra' ∧
        OutOfStep commands extra' ((redisPass s).buffer.unread++later) := by
  rcases hout.keepsUp with ⟨p,hleft,howed⟩
  have hplace := framing_position p hextra hout.framing howed
  have hparse := redisParse_outOfStep
    (⟨hused,hzero,htail,hleft,hplace.1,hplace.2⟩ : Reading s.buffer later p)
  rcases hparse with ⟨consumed,argv,hparse,hargv,hframing,q,hq,hqowed⟩
  have hspec := consume_spec s.buffer consumed
  have hrest : (0 : Byte)∉(s.buffer.consume consumed).unread := by
    rw [hspec.1]
    exact fun hmem => hzero (List.mem_of_mem_drop hmem)
  have hsettled := settledTail_consume hzero htail hframing
  rw [←hspec.1] at hq
  rcases hargv with hnone|hsome
  · rw [redisPass_some hused hparse,if_neg (fun hboth => hboth.1 hnone),if_pos hnone]
    rw [if_pos hnone] at hqowed
    exact ⟨rfl,hrest,hsettled,extra,hdispatched,hout.framing,q,hq,by omega⟩
  · rw [redisPass_framing hused hsome hparse]
    have hone : q.owed ≤ p.owed+1 := hqowed.trans (by split <;> omega)
    refine ⟨rfl,hrest,hsettled,extra++[argv],?_,?_,q,hq,?_⟩
    · rw [hdispatched,List.append_assoc]
    · intro a ha
      rcases List.mem_append.mp ha with ha|ha
      · exact hout.framing a ha
      · rw [List.mem_singleton.mp ha]
        exact hsome
    · rw [List.length_append,List.length_singleton]
      omega

/-- The inner loop out of step empties the buffer and leaves the service out of
step. -/
theorem redisDrain_outOfStep (fuel : ℕ) {s : RedisLoop} {later : Bytes} (hphase : s.phase=.parsing)
    (hfuel : s.buffer.used<fuel) (hzero : (0 : Byte)∉s.buffer.unread) (htail : SettledTail s.buffer)
    (hdispatched : s.dispatched=front++extra)
    (hout : OutOfStep commands extra (s.buffer.unread++later))
    (hfinal : (redisDrain fuel s).dispatched<+:front++commands.map RedisCommand.argv) :
    (redisDrain fuel s).phase=.receiving ∧ (redisDrain fuel s).buffer.used=0 ∧
      ∃ extra',(redisDrain fuel s).dispatched=front++extra' ∧ OutOfStep commands extra' later := by
  induction fuel generalizing s extra with
  | zero => exact absurd hfuel (Nat.not_lt_zero _)
  | succ fuel ih =>
    have hgrown := (dispatched_drain (fuel+1) s).trans hfinal
    rw [hdispatched,List.prefix_append_right_inj] at hgrown
    rw [redisDrain,if_pos hphase] at hfinal ⊢
    by_cases hused : s.buffer.used=0
    · have hpass : redisPass s={s with phase := .receiving} := if_pos hused
      have hidle : (redisPass s).phase≠.parsing := by
        rw [hpass]
        exact RedisPhase.noConfusion
      have hempty : s.buffer.unread=[] := by
        rw [unread,hused,List.take_zero]
      rw [hempty,List.nil_append] at hout
      rw [redisDrain_idle hidle,hpass]
      exact ⟨rfl,hused,extra,hdispatched,hout⟩
    · have hpass := redisPass_outOfStep hused hzero htail hdispatched hgrown hout
      rcases hpass with ⟨hparsing,hzero',htail',extra',hdispatched',hout'⟩
      have hless := redisPass_used hparsing
      exact ih hparsing (by omega) hzero' htail' hdispatched' hout' hfinal

/-- Behind the bytes just received stands a NUL. -/
theorem redisReceive_memory {s : RedisLoop} {segment : Bytes} (hused : s.buffer.used=0)
    (hne : segment≠[]) (hfits : segment.length ≤ 4095) :
    ∃ more,(redisReceive s (.data segment)).buffer.memory=segment++0::more := by
  have hkept : s.buffer.kept=0 := by
    rw [kept,if_neg (by omega),hused]
  have htake : segment.take s.buffer.free=segment := by
    rw [free,hkept]
    exact List.take_of_length_le hfits
  have hunused : ¬segment.take s.buffer.free=[] := by
    rw [htake]
    exact hne
  unfold redisReceive
  dsimp only
  rw [if_neg hunused]
  dsimp only [receive]
  rw [htake,hkept,writeAt,List.take_zero,List.nil_append,List.append_assoc]
  exact ⟨_,rfl⟩

/-- After a receive call the bytes behind the unread ones are settled. -/
theorem settledTail_receive {s : RedisLoop} {segment : Bytes} (hused : s.buffer.used=0)
    (hne : segment≠[]) (hfits : segment.length ≤ 4095) :
    SettledTail (redisReceive s (.data segment)).buffer := by
  have hreceived := redisReceive_empty hused hne hfits
  rcases redisReceive_memory hused hne hfits with ⟨more,hmemory⟩
  intro c hc
  rw [hreceived.2.2.1,hmemory,List.drop_left] at hc
  exact absurd hc List.not_mem_nil

/-- A service out of step dispatches something that is no longer in the list of
commands. -/
theorem redisRun_outOfStep {s : RedisLoop} {segments : List Bytes} (hphase : s.phase=.receiving)
    (hused : s.buffer.used=0) (hdispatched : s.dispatched=front++extra)
    (hsegments : ∀ segment∈segments,segment≠[] ∧ segment.length ≤ 4095)
    (hzero : (0 : Byte)∉segments.flatten) (hout : OutOfStep commands extra segments.flatten) :
    ¬(redisRun s (segments.map .data)).dispatched<+:front++commands.map RedisCommand.argv := by
  intro hfinal
  induction segments generalizing s extra with
  | nil =>
    have hgrown := (dispatched_run s []).trans hfinal
    rw [hdispatched,List.prefix_append_right_inj] at hgrown
    rcases hout.keepsUp with ⟨p,hleft,howed⟩
    have hplace := framing_position p hgrown hout.framing howed
    have hshape := encodeCommand_framing hplace.1
    have hempty := List.append_eq_nil_iff.mp hleft
    have hend := List.drop_eq_nil_iff.mp hempty.1
    have htodo := length_le_encodings p.todo
    rw [hempty.2,List.length_nil] at htodo
    have hcount := congrArg List.length p.commands_eq
    have hlength := hgrown.length_le
    rw [List.length_append,List.length_cons] at hcount
    rw [List.length_map] at hlength
    unfold Position.owed at howed
    rw [if_neg (by omega)] at howed
    omega
  | cons segment segments ih =>
    have hbounds := hsegments segment List.mem_cons_self
    have hreceived := redisReceive_empty hused hbounds.1 hbounds.2
    have htail := settledTail_receive hused hbounds.1 hbounds.2
    rw [List.flatten_cons] at hout hzero
    rw [List.map_cons,redisRun_cons hphase] at hfinal
    have hgrown := (dispatched_run (afterSegment s segment) (segments.map .data)).trans hfinal
    have hdrain := redisDrain_outOfStep _ hreceived.1 (Nat.lt_succ_self _)
      (by rw [hreceived.2.1]; exact fun hmem => hzero (List.mem_append_left _ hmem)) htail
      (hreceived.2.2.2.trans hdispatched) (by rw [hreceived.2.1]; exact hout) hgrown
    rcases hdrain with ⟨hreceiving,hempty,extra',hdispatched',hout'⟩
    exact ih hreceiving hempty hdispatched'
      (fun other hother => hsegments other (List.mem_cons_of_mem _ hother))
      (fun hmem => hzero (List.mem_append_right _ hmem)) hout' hfinal

end Run

/-- Consumption behind the end is consumption of everything. -/
theorem consume_all {b : RedisBuffer} {j k : ℕ} (hj : b.used ≤ j) (hk : b.used ≤ k) :
    b.consume j=b.consume k := by
  unfold consume
  have hj' : ¬j<b.used := by omega
  have hk' : ¬k<b.used := by omega
  simp only [hj',hk',if_false]

/-- The first line of an array or of an argument is a piece of framing. -/
theorem framingCommand_header {a : Byte} {ds : Bytes} (ha : a=42 ∨ a=36)
    (hds : ∀ b∈ds,isDigit b=true) :
    FramingCommand [a::ds] ∧ ∀ b∈a::ds,isFraming b=true ∧ b≠0 ∧ b≠13 := by
  have hline : ∀ b∈a::ds,isFraming b=true ∧ b≠0 ∧ b≠13 := by
    intro b hb
    rcases List.mem_cons.mp hb with hb|hb
    · rw [hb]
      rcases ha with ha|ha
      · rw [ha]
        decide
      · rw [ha]
        decide
    · have hdigit := digit_bounds (hds b hb)
      exact ⟨isFraming_of_isDigit (hds b hb),hdigit.1,hdigit.2.1⟩
  refine ⟨⟨a::ds,rfl,fun b hb => (hline b hb).1,fun hocc => ?_⟩,hline⟩
  exact (hline 13 (hocc.subset List.mem_cons_self)).2.2 rfl

/-- A header line in front of the memory, unread in whole or in part, is
dispatched and consumed. -/
theorem redisPass_header {s : RedisLoop} {a : Byte} {ds more : Bytes} (hused : s.buffer.used≠0)
    (hmemory : s.buffer.memory=a::ds++crlf++more) (ha : a=42 ∨ a=36)
    (hds : ∀ b∈ds,isDigit b=true) (hshort : ds.length ≤ 2)
    (harray : a=42 → redisParseRespArray s.buffer.memory s.buffer.used=none) :
    redisPass s=⟨s.buffer.consume (ds.length+3),.parsing,s.dispatched++[[a::ds]]⟩ := by
  rcases framingCommand_header ha hds with ⟨hpiece,hline⟩
  have hend : lineEnd s.buffer.memory s.buffer.used=some (ds.length+1) := by
    unfold lineEnd
    rw [hmemory,strstr_crlf (fun b hb => (hline b hb).2) more]
    rfl
  have hlength : (a::ds).length=ds.length+1 := rfl
  have hbreak : crlf<+:s.buffer.memory.drop (ds.length+1) := by
    rw [hmemory,List.append_assoc,←hlength,List.drop_left]
    exact List.prefix_append _ _
  have hfirst := getD_of_drop (k := 0) hbreak (by decide)
  have hsecond := getD_of_drop (k := 1) hbreak (by decide)
  have hargs : lineArgs (readAt s.buffer.memory 0 (min (ds.length+1) 4095))=[a::ds] := by
    have hread : readAt s.buffer.memory 0 (min (ds.length+1) 4095)=a::ds := by
      rw [Nat.min_eq_left (by omega),readAt,List.drop_zero,hmemory,List.append_assoc,←hlength,
        List.take_left]
    have hzero : (0 : Byte)∉a::ds := fun hmem => (hline 0 hmem).2.1 rfl
    have htokens : tokens isBlank (a::ds)=[a::ds] :=
      tokensFrom_whole (fun b hb => (framing_bounds (hline b hb).1).2.1) (List.cons_ne_nil a ds)
    have hfits : (a::ds).take 1023=a::ds := List.take_of_length_le (by omega)
    rw [hread,lineArgs,cstr_self hzero,htokens]
    change [(a::ds).take 1023]=[a::ds]
    rw [hfits]
  have hnone : (if s.buffer.memory.getD 0 0=42 then
      redisParseRespArray s.buffer.memory s.buffer.used else none)=none := by
    split
    · rename_i hstar
      rw [hmemory] at hstar
      exact harray hstar
    · rfl
  have hparse : ∃ consumed,redisParse s.buffer.memory s.buffer.used=some (consumed,[a::ds]) ∧
      (consumed=ds.length+3 ∨ s.buffer.used ≤ consumed ∧ s.buffer.used ≤ ds.length+3) := by
    unfold redisParse redisParseInline
    rw [hnone,hend,Option.map_some,if_neg (Nat.succ_ne_zero _),hargs]
    refine ⟨_,rfl,?_⟩
    rw [hfirst,hsecond]
    simp only [List.getD_cons_zero,List.getD_cons_succ,true_and,and_true]
    split
    · split <;> omega
    · omega
  rcases hparse with ⟨consumed,hparse,hconsumed⟩
  rw [redisPass_framing hused hpiece hparse]
  rcases hconsumed with hexact|hall
  · rw [hexact]
  · rw [consume_all hall.1 hall.2]

/-- What an encoding starts with: framing that ends with CR LF and goes on
behind the first line. -/
theorem encodeCommand_header {argv : List Bytes} (hne : argv≠[]) :
    ∃ header more,encodeCommand argv=header++more ∧ (∀ b∈header,isFraming b=true) ∧
      crlf<:+header ∧ 6 ≤ header.length := by
  cases argv with
  | nil => exact absurd rfl hne
  | cons a argv =>
    have hcount := List.length_pos_iff.mpr (decimal_ne_nil (a::argv).length)
    refine ⟨42::(decimal (a::argv).length++crlf++(36::(decimal a.length++crlf))),
      a++crlf++argv.flatMap encodeArg,?_,?_,?_,?_⟩
    · rw [encodeCommand,List.flatMap_cons,encodeArg]
      simp only [List.cons_append,List.append_assoc]
    · intro b hb
      simp only [List.mem_cons,List.mem_append] at hb
      rcases hb with hb|(hb|hb)|hb|hb|hb
      · rw [hb]
        decide
      · exact isFraming_of_isDigit (isDigit_of_mem_decimal hb)
      · exact isFraming_crlf b (by simpa only [List.mem_cons] using hb)
      · rw [hb]
        decide
      · exact isFraming_of_isDigit (isDigit_of_mem_decimal hb)
      · exact isFraming_crlf b (by simpa only [List.mem_cons] using hb)
    · refine ⟨42::(decimal (a::argv).length++crlf++(36::decimal a.length)),?_⟩
      simp only [List.cons_append,List.append_assoc]
    · simp only [List.length_cons,List.length_append,List.length_nil]
      omega

/-- The memory behind a part of a command: a NUL, or what is left of the
encoding of the command in front. -/
def CutMemory (memory part : Bytes) : Prop :=
  (∃ more,memory=part++0::more) ∨
    ∃ (d : RedisCommand) (more : Bytes),memory=part++(encodeCommand d.argv++more).drop part.length

/-- The inner loop comes to a command that is not received whole. -/
theorem afterSegment_reaches {s : RedisLoop} {front : List RedisCommand} {part : Bytes}
    (hused : s.buffer.used=0) (hfits : (encodings front++part).length ≤ 4095)
    (hopen : ∀ d∈front,redisCloses d.argv=false) (hpos : part≠[]) :
    ∃ fuel t,afterSegment s (encodings front++part)=redisDrain fuel t ∧ part.length<fuel ∧
      t.phase=.parsing ∧ t.buffer.unread=part ∧
      t.dispatched=s.dispatched++front.map RedisCommand.argv ∧ CutMemory t.buffer.memory part := by
  have hne : encodings front++part≠[] := fun hnil => hpos (List.append_eq_nil_iff.mp hnil).2
  have hreceived := redisReceive_empty hused hne hfits
  have hlength : (encodings front++part).length=(encodings front).length+part.length :=
    List.length_append
  have hcount := length_le_encodings front
  unfold afterSegment
  rw [hreceived.2.2.1]
  rcases List.eq_nil_or_concat' front with hnil|hlast
  · subst hnil
    refine ⟨_,_,rfl,Nat.lt_succ_of_le (by omega),hreceived.1,hreceived.2.1,?_,
      Or.inl (redisReceive_memory hused hne hfits)⟩
    rw [hreceived.2.2.2,List.map_nil,List.append_nil]
  · rcases hlast with ⟨front',d,hfront⟩
    subst hfront
    have hd := hopen d (List.mem_append_right _ List.mem_cons_self)
    have hone : encodings [d]=encodeCommand d.argv := List.append_nil _
    obtain ⟨fuel,hfuel⟩ : ∃ fuel,(encodings (front'++[d])++part).length+1=front'.length+(fuel+1) :=
      ⟨(encodings (front'++[d])++part).length-front'.length,by
        rw [List.length_append,List.length_singleton] at hcount
        omega⟩
    have hunread : (redisReceive s (.data (encodings (front'++[d])++part))).buffer.unread=
        encodings front'++(encodeCommand d.argv++part) := by
      rw [hreceived.2.1,encodings_append,hone,List.append_assoc]
    have hdrain := redisDrain_encodings (fuel+1) hreceived.1 hunread
      (fun c hc => hopen c (List.mem_append_left _ hc))
    rcases hdrain with ⟨t,hdrain,hphase,hrest,hdispatched⟩
    have hpass := redisPass_encode hrest
    rw [hd] at hpass
    have hshape := encodeCommand_shape d.argv
    have hmemory : ∃ more,(redisPass t).buffer.memory=
        part++(encodeCommand d.argv++more).drop part.length := by
      have hsplit := memory_split t.buffer
      have htused := congrArg List.length hrest
      rw [hsplit.2,List.length_append] at htused
      have hspec := consume_spec t.buffer (encodeCommand d.argv).length
      rw [←hpass.2.1,htused,Nat.add_sub_cancel_left] at hspec
      refine ⟨part++t.buffer.memory.drop t.buffer.used,?_⟩
      rw [(memory_split (redisPass t).buffer).1,hpass.1,hspec.2.2,←List.append_assoc,←hrest,←hsplit.1]
    rcases hmemory with ⟨more,hmemory⟩
    refine ⟨fuel,redisPass t,?_,?_,hpass.2.2.2,hpass.1,?_,Or.inr ⟨d,more,hmemory⟩⟩
    · rw [hfuel,hdrain,redisDrain,if_pos hphase]
    · have hbefore := length_le_encodings front'
      rw [hlength,encodings_append,hone,List.length_append] at hfuel
      omega
    · rw [hpass.2.2.1,hdispatched,hreceived.2.2.2,List.map_append,List.append_assoc]
      rfl

/-- Where a command is cut, the service is out of step when it has dispatched
pieces of framing, two of them if the cut lies behind the header. -/
theorem outOfStep_cut {c : RedisCommand} {back : List RedisCommand} {part missing : Bytes}
    {extra : List (List Bytes)} (hpart : encodeCommand c.argv=part++missing) (hpos : part≠[])
    (hextra : ∀ argv∈extra,FramingCommand argv)
    (hcount : (if part.length ≤ 4 then 1 else 2) ≤ extra.length) :
    OutOfStep (c::back) extra (missing++encodings back) := by
  have hlength := congrArg List.length hpart
  rw [List.length_append] at hlength
  refine ⟨hextra,⟨[],c,back,part.length,rfl,List.length_pos_iff.mpr hpos,by omega⟩,?_,?_⟩
  · unfold Position.left
    dsimp only
    rw [hpart,List.drop_left]
  · unfold Position.owed
    dsimp only
    rw [List.length_nil,Nat.zero_add]
    exact hcount

/-- A part in front of the line feed of the first line is framing that starts
with a star. -/
theorem shortPart_bytes {argv : List Bytes} {part missing : Bytes}
    (hpart : encodeCommand argv=part++missing) (hpos : part≠[])
    (hshort : part.length<(decimal argv.length).length+3) :
    (∀ b∈part,isFraming b=true ∧ b≠10) ∧ (42 : Byte)∈part := by
  have hshape : encodeCommand argv=
      42::(decimal argv.length++[13])++(10::argv.flatMap encodeArg) := by
    rw [(encodeCommand_shape argv).1]
    simp only [List.cons_append,List.append_assoc,List.nil_append]
  have hgrown := append_split (hpart.symm.trans hshape) (by
    rw [List.length_cons,List.length_append,List.length_singleton]
    omega)
  rcases hgrown with ⟨rest,hrest,_⟩
  constructor
  · intro b hb
    have hmem : b∈42::(decimal argv.length++[13]) := by
      rw [hrest]
      exact List.mem_append_left _ hb
    rw [List.mem_cons,List.mem_append,List.mem_singleton] at hmem
    rcases hmem with hmem|hmem|hmem
    · rw [hmem]
      decide
    · have hdigit := isDigit_of_mem_decimal hmem
      refine ⟨isFraming_of_isDigit hdigit,?_⟩
      rintro rfl
      exact absurd hdigit (by decide)
    · rw [hmem]
      decide
  · cases part with
    | nil => exact absurd rfl hpos
    | cons b part =>
      rw [List.cons_append] at hrest
      rw [(List.cons.inj hrest).1]
      exact List.mem_cons_self

/-- Behind a short part of framing the framing goes on: with a NUL at once, or
with the rest of the header of the command in front. -/
theorem CutMemory.framedAhead {memory part : Bytes} (h : CutMemory memory part)
    (hframing : ∀ b∈part,isFraming b=true) (hshort : part.length ≤ 4) : FramedAhead memory := by
  have hzero := zero_not_mem_framing hframing
  rcases h with ⟨more,hmore⟩|⟨d,more,hmore⟩
  · refine ⟨part,?_,hframing,Or.inl ?_⟩
    · rw [hmore,cstr_terminated hzero]
    · rw [hmore,cstr_terminated hzero]
  · rcases encodeCommand_header d.argc_pos with ⟨header,other,hheader,hall,hcrlf,hsix⟩
    have hdrop : ∀ b∈header.drop part.length,isFraming b=true :=
      fun b hb => hall b (List.mem_of_mem_drop hb)
    rw [hheader,List.append_assoc,List.drop_append_of_le_length (by omega)] at hmore
    refine ⟨part++header.drop part.length,?_,?_,Or.inr ?_⟩
    · rw [hmore,cstr_append hzero,cstr_append (zero_not_mem_framing hdrop),←List.append_assoc]
      exact List.prefix_append _ _
    · intro b hb
      rcases List.mem_append.mp hb with hb|hb
      · exact hframing b hb
      · exact hdrop b hb
    · rcases hcrlf with ⟨w,hw⟩
      have hlength := congrArg List.length hw
      rw [List.length_append,show crlf.length=2 from rfl] at hlength
      rw [←hw,List.drop_append_of_le_length (by omega),←List.append_assoc]
      exact List.suffix_append _ _

/-- A part shorter than the first line of a command is dispatched whole. -/
theorem redisPass_shortPart {s : RedisLoop} {c : RedisCommand} {part missing : Bytes}
    (hunread : s.buffer.unread=part) (hpart : encodeCommand c.argv=part++missing)
    (hpos : part≠[]) (hshort : part.length<(decimal c.argv.length).length+3)
    (hmemory : CutMemory s.buffer.memory part) :
    ∃ argv,FramingCommand argv ∧ (redisPass s).phase=.parsing ∧ (redisPass s).buffer.used=0 ∧
      (redisPass s).dispatched=s.dispatched++[argv] := by
  have hsplit := memory_split s.buffer
  have hpartpos := List.length_pos_iff.mpr hpos
  rw [hunread] at hsplit
  have hbytes := shortPart_bytes hpart hpos hshort
  rcases hbytes with ⟨hbytes,hstar⟩
  have htwo := length_decimal_le (by decide : 0<2)
    (lt_of_le_of_lt c.argc_le (by decide : 32<10^2))
  have hframing : ∀ b∈part,isFraming b=true := fun b hb => (hbytes b hb).1
  have htake : s.buffer.memory.take s.buffer.used=part := hunread
  have hline := redisParseInline_framing (by omega) (htake ▸ zero_not_mem_framing hframing)
    (by have hlength := s.buffer.length_memory; have hused := s.buffer.used_le; omega)
    (hmemory.framedAhead hframing (by omega))
  rcases hline with ⟨consumed,argv,hparse,hargv,_,hall⟩
  rw [htake] at hargv hall
  have hconsumed := hall (fun hmem => (hbytes 10 hmem).2 rfl)
  have hmissing : missing≠[] := by
    rintro rfl
    have hlength := congrArg List.length hpart
    rw [(encodeCommand_shape c.argv).2.1,List.append_nil] at hlength
    omega
  have hnone := redisParseRespArray_cut (s.buffer.memory.drop s.buffer.used) c hpart hmissing
  rw [hsplit.2,←hsplit.1] at hnone
  have hcommand : FramingCommand argv := by
    rcases hargv with hskip|hcommand
    · rw [List.take_of_length_le (by omega)] at hskip
      exact absurd (hskip.2 42 hstar) (by decide)
    · exact hcommand
  have hwhole : redisParse s.buffer.memory s.buffer.used=some (consumed,argv) := by
    unfold redisParse
    rw [hnone,ite_self,hparse]
    rfl
  rw [redisPass_framing (by omega) hcommand hwhole]
  refine ⟨argv,hcommand,rfl,?_,rfl⟩
  rw [(consume_spec s.buffer consumed).2.1]
  omega

/-- The memory after a consumption. -/
theorem consume_memory (b : RedisBuffer) (k : ℕ) :
    (b.consume k).memory=b.unread.drop k++b.memory.drop (b.unread.drop k).length := by
  have hspec := consume_spec b k
  have hsplit := memory_split (b.consume k)
  have hused := (memory_split b).2
  have hlength : (b.unread.drop k).length=b.used-k := by
    rw [List.length_drop,hused]
  rw [hsplit.1,hspec.2.2,hspec.1,hlength]

/-- A header line that is unread in part is completed by the digit and the line
break of the one before. -/
theorem redisPass_block {s : RedisLoop} {u missing rest more : Bytes} {x y a b : Byte}
    (hunread : s.buffer.unread=u) (hpos : u≠[]) (hstream : u++missing=x::y::13::10::rest)
    (hmemory : s.buffer.memory=u++(a::b::13::10::more : Bytes).drop u.length)
    (hx : x=42 ∨ x=36) (hy : isDigit y=true) (hb : isDigit b=true)
    (harray : x=42 → redisParseRespArray s.buffer.memory s.buffer.used=none) :
    ∃ d more',isDigit d=true ∧ s.buffer.memory=x::d::13::10::more' ∧
      redisPass s=⟨s.buffer.consume 4,.parsing,s.dispatched++[[[x,d]]]⟩ := by
  have hblock : ∃ d more',isDigit d=true ∧ s.buffer.memory=x::d::13::10::more' := by
    rw [hmemory]
    match u with
    | [] => exact absurd rfl hpos
    | [p] =>
      have hfirst := (List.cons.inj hstream).1
      exact ⟨b,more,hb,by rw [hfirst]; rfl⟩
    | [p,q] =>
      have hfirst := List.cons.inj hstream
      have hsecond := (List.cons.inj hfirst.2).1
      exact ⟨y,more,hy,by rw [hfirst.1,hsecond]; rfl⟩
    | [p,q,r] =>
      have hfirst := List.cons.inj hstream
      have hsecond := List.cons.inj hfirst.2
      have hthird := (List.cons.inj hsecond.2).1
      exact ⟨y,more,hy,by rw [hfirst.1,hsecond.1,hthird]; rfl⟩
    | p::q::r::w::u =>
      have hfirst := List.cons.inj hstream
      have hsecond := List.cons.inj hfirst.2
      have hthird := List.cons.inj hsecond.2
      have hfourth := (List.cons.inj hthird.2).1
      exact ⟨y,_,hy,by rw [hfirst.1,hsecond.1,hthird.1,hfourth]; rfl⟩
  rcases hblock with ⟨d,more',hd,hwhole⟩
  have hused : s.buffer.used≠0 := by
    rw [←(memory_split s.buffer).2,hunread]
    exact fun hzero => hpos (List.length_eq_zero_iff.mp hzero)
  have hdigits : ∀ e∈[d],isDigit e=true := by
    intro e he
    rw [List.mem_singleton.mp he]
    exact hd
  exact ⟨d,more',hd,hwhole,redisPass_header hused hwhole hx hdigits (Nat.le_succ 1) harray⟩

/-- A line of one digit behind a mark is a piece of framing. -/
theorem framingCommand_digit {a d : Byte} (ha : a=42 ∨ a=36) (hd : isDigit d=true) :
    FramingCommand [[a,d]] := by
  refine (framingCommand_header ha ?_).1
  intro e he
  rw [List.mem_singleton.mp he]
  exact hd

/-- The command that is its own first line is `*1`. -/
theorem encodeCommand_own_line {argv : List Bytes} (hname : argv=[42::decimal argv.length]) :
    decimal argv.length=[49] ∧ encodeCommand argv=[42,49,13,10]++[36,50,13,10,42,49,13,10] := by
  have hone : argv.length=1 := congrArg List.length hname
  have hdecimal : decimal argv.length=[49] := by
    rw [hone]
    decide
  refine ⟨hdecimal,?_⟩
  rw [hname,hdecimal]
  decide

/-- A pass of the inner loop is its first step. -/
theorem redisDrain_succ (fuel : ℕ) {s : RedisLoop} (h : s.phase=.parsing) :
    redisDrain (fuel+1) s=redisDrain fuel (redisPass s) := by
  rw [redisDrain,if_pos h]

/-- Behind a header line that takes all that is unread the inner loop ends. -/
theorem redisDrain_lastBlock {k : ℕ} {s : RedisLoop} {a d : Byte} (hphase : s.phase=.parsing)
    (hpass : redisPass s=⟨s.buffer.consume 4,.parsing,s.dispatched++[[[a,d]]]⟩)
    (hfew : s.buffer.used ≤ 4) :
    (redisDrain (k+2) s).phase=.receiving ∧ (redisDrain (k+2) s).buffer.used=0 ∧
      (redisDrain (k+2) s).dispatched=s.dispatched++[[[a,d]]] := by
  have hzero : (s.buffer.consume 4).used=0 := by
    rw [(consume_spec s.buffer 4).2.1]
    omega
  rw [redisDrain_succ (k+1) hphase,hpass,redisDrain_empty (Nat.succ_pos _) rfl hzero]
  exact ⟨rfl,hzero,rfl⟩

/-- What is left of a part of the command `*1` is dispatched line by line. -/
theorem redisDrain_blocks {k : ℕ} {s : RedisLoop} {u missing more : Bytes} (hphase : s.phase=.parsing)
    (hunread : s.buffer.unread=u) (hstream : u++missing=[36,50,13,10,42,49,13,10])
    (hmissing : missing≠[]) (hmemory : s.buffer.memory=u++(42::49::13::10::more : Bytes).drop u.length) :
    (redisDrain (k+3) s).phase=.receiving ∧ (redisDrain (k+3) s).buffer.used=0 ∧
      ∃ extra,(redisDrain (k+3) s).dispatched=s.dispatched++extra ∧
        (∀ argv∈extra,FramingCommand argv) ∧ (u≠[] → 0<extra.length) := by
  have hused := (memory_split s.buffer).2
  rw [hunread] at hused
  by_cases hempty : u=[]
  · rw [hempty,List.length_nil] at hused
    rw [redisDrain_empty (Nat.succ_pos _) hphase hused.symm]
    exact ⟨rfl,hused.symm,[],(List.append_nil _).symm,fun a ha => absurd ha List.not_mem_nil,
      fun hne => absurd hempty hne⟩
  · have hfirst := redisPass_block hunread hempty hstream hmemory (Or.inr rfl) (by decide) (by decide)
      (fun h => absurd h (by decide))
    rcases hfirst with ⟨d,more',hd,hmemory',hpass⟩
    have hcommand : FramingCommand [[36,d]] := framingCommand_digit (Or.inr rfl) hd
    by_cases hlast : u.length ≤ 4
    · obtain ⟨hreceiving,hzero,hdispatched⟩ :=
        redisDrain_lastBlock (k := k+1) hphase hpass (by rw [←hused]; exact hlast)
      refine ⟨hreceiving,hzero,[[[36,d]]],hdispatched,?_,fun _ => Nat.one_pos⟩
      intro a ha
      rw [List.mem_singleton.mp ha]
      exact hcommand
    · have hspec := consume_spec s.buffer 4
      have hmoved := consume_memory s.buffer 4
      rw [hunread] at hspec hmoved
      rw [hmemory'] at hmoved
      have hne : u.drop 4≠[] := fun hnil => hlast (List.drop_eq_nil_iff.mp hnil)
      have hrest : u.drop 4++missing=42::49::13::10::[] := by
        have hdrop := congrArg (List.drop 4) hstream
        rw [List.drop_append_of_le_length (by omega)] at hdrop
        exact hdrop
      have hfew : (s.buffer.consume 4).used<4 := by
        have hlength := congrArg List.length hrest
        have hpos := List.length_pos_iff.mpr hmissing
        rw [List.length_append,List.length_drop] at hlength
        have hfour : ([42,49,13,10] : Bytes).length=4 := rfl
        rw [hspec.2.1]
        omega
      have hsecond := redisPass_block (s := ⟨s.buffer.consume 4,.parsing,s.dispatched++[[[36,d]]]⟩)
        hspec.1 hne hrest hmoved (Or.inl rfl) (by decide) hd
        (fun _ => by rw [redisParseRespArray,if_pos (Or.inl hfew)])
      rcases hsecond with ⟨e,_,he,_,hpass'⟩
      have hcommand' : FramingCommand [[42,e]] := framingCommand_digit (Or.inl rfl) he
      obtain ⟨hreceiving,hzero,hdispatched⟩ := redisDrain_lastBlock (k := k) rfl hpass' hfew.le
      rw [redisDrain_succ (k+2) hphase,hpass]
      refine ⟨hreceiving,hzero,[[[36,d]],[[42,e]]],?_,?_,fun _ => Nat.two_pos⟩
      · rw [hdispatched]
        exact List.append_assoc _ _ _
      · intro a ha
        rcases List.mem_pair.mp ha with ha|ha
        · rw [ha]
          exact hcommand
        · rw [ha]
          exact hcommand'

/-- The first pass over a part that holds the first line of a command takes that line for
a command. -/
theorem redisPass_firstLine {s : RedisLoop} {c : RedisCommand} {part missing : Bytes}
    (hunread : s.buffer.unread=part) (hpart : encodeCommand c.argv=part++missing)
    (hmissing : missing≠[]) (hlong : (decimal c.argv.length).length+3 ≤ part.length) :
    ∃ u,part=42::decimal c.argv.length++crlf++u ∧
      s.buffer.memory=42::decimal c.argv.length++crlf++(u++s.buffer.memory.drop s.buffer.used) ∧
      redisPass s=⟨s.buffer.consume ((decimal c.argv.length).length+3),.parsing,
        s.dispatched++[[42::decimal c.argv.length]]⟩ := by
  have hsplit := memory_split s.buffer
  rw [hunread] at hsplit
  have hshape : encodeCommand c.argv=
      42::decimal c.argv.length++crlf++c.argv.flatMap encodeArg := (encodeCommand_shape c.argv).1
  have htwo := length_decimal_le (by decide : 0<2)
    (lt_of_le_of_lt c.argc_le (by decide : 32<10^2))
  have hnone := redisParseRespArray_cut (s.buffer.memory.drop s.buffer.used) c hpart hmissing
  rw [hsplit.2,←hsplit.1] at hnone
  have hgrown := append_split (hshape.symm.trans hpart) (by
    rw [List.length_append,List.length_cons,show crlf.length=2 from rfl]
    omega)
  obtain ⟨u,hu,_⟩ := hgrown
  have hmemory : s.buffer.memory=
      42::decimal c.argv.length++crlf++(u++s.buffer.memory.drop s.buffer.used) := by
    have hwhole := congrArg (fun bs : Bytes => bs++s.buffer.memory.drop s.buffer.used) hu
    rw [←hsplit.1,List.append_assoc] at hwhole
    exact hwhole
  exact ⟨u,hu,hmemory,redisPass_header (by omega) hmemory (Or.inl rfl)
    (fun b hb => isDigit_of_mem_decimal hb) htwo (fun _ => hnone)⟩

/-- A part that holds the first line of a command is dispatched line by line. -/
theorem redisDrain_longPart {fuel : ℕ} {s : RedisLoop} {front : List (List Bytes)} {c : RedisCommand}
    {back : List RedisCommand} {part missing : Bytes} (hfuel : part.length<fuel)
    (hphase : s.phase=.parsing) (hunread : s.buffer.unread=part)
    (hpart : encodeCommand c.argv=part++missing) (hmissing : missing≠[])
    (hlong : (decimal c.argv.length).length+3 ≤ part.length) (hdispatched : s.dispatched=front)
    (hfinal : (redisDrain fuel s).dispatched<+:front++(c::back).map RedisCommand.argv) :
    (redisDrain fuel s).phase=.receiving ∧ (redisDrain fuel s).buffer.used=0 ∧
      ∃ extra,(redisDrain fuel s).dispatched=front++extra ∧
        OutOfStep (c::back) extra (missing++encodings back) := by
  obtain ⟨u,hu,hmemory,hfirst⟩ := redisPass_firstLine hunread hpart hmissing hlong
  obtain ⟨k,rfl⟩ : ∃ k,fuel=k+3+1 := ⟨fuel-4,by omega⟩
  rw [redisDrain_succ (k+3) hphase] at hfinal ⊢
  -- the first dispatch tells what the command is
  have hname : c.argv=[42::decimal c.argv.length] := by
    have hgrown := (dispatched_drain (k+3) (redisPass s)).trans hfinal
    rw [hfirst,hdispatched,List.prefix_append_right_inj,List.map_cons] at hgrown
    exact (List.cons_prefix_cons.mp hgrown).1.symm
  have hencode := encodeCommand_own_line hname
  rw [hencode.1] at hname hfirst hmemory hu
  have hstream : u++missing=[36,50,13,10,42,49,13,10] := by
    have hboth := hpart.symm.trans hencode.2
    rw [hu,List.append_assoc] at hboth
    exact List.append_cancel_left hboth
  have hspec := consume_spec s.buffer 4
  have hmoved := consume_memory s.buffer 4
  have hdrop : s.buffer.unread.drop 4=u := by
    rw [hunread,hu]
    rfl
  rw [hdrop] at hspec hmoved
  rw [hmemory] at hmoved
  have hblocks := redisDrain_blocks (k := k) (s := redisPass s) (by rw [hfirst]) (by rw [hfirst]; exact hspec.1)
    hstream hmissing (by rw [hfirst]; exact hmoved)
  rcases hblocks with ⟨hreceiving,hzero,extra,hextra,hframing,hcount⟩
  have hcommand : FramingCommand c.argv := by
    rw [hname]
    exact framingCommand_digit (Or.inl rfl) rfl
  refine ⟨hreceiving,hzero,c.argv::extra,?_,outOfStep_cut hpart ?_ ?_ ?_⟩
  · rw [hextra,hfirst,hdispatched,List.append_assoc]
    exact congrArg (fun a : List Bytes => front++(a::extra)) hname.symm
  · rw [hu]
    exact List.cons_ne_nil _ _
  · intro a ha
    rcases List.mem_cons.mp ha with ha|ha
    · rw [ha]
      exact hcommand
    · exact hframing a ha
  · have hlength : part.length=4+u.length := by
      rw [hu,List.length_append]
      rfl
    rw [List.length_cons]
    split
    · omega
    · have hpos := hcount (fun hnil => by rw [hnil,List.length_nil] at hlength; omega)
      omega

/-- The dispatches behind a segment that ends inside a command are not the
commands. -/
theorem redisRun_cut {s : RedisLoop} {front back : List RedisCommand} {c : RedisCommand}
    {part missing : Bytes} {segments : List Bytes} (hused : s.buffer.used=0)
    (hfits : (encodings front++part).length ≤ 4095) (hopen : ∀ d∈front,redisCloses d.argv=false)
    (hpart : encodeCommand c.argv=part++missing) (hpos : part≠[]) (hmissing : missing≠[])
    (hsegments : ∀ segment∈segments,segment≠[] ∧ segment.length ≤ 4095)
    (hstream : segments.flatten=missing++encodings back) (hzero : (0 : Byte)∉missing++encodings back) :
    ¬(redisRun (afterSegment s (encodings front++part)) (segments.map .data)).dispatched<+:
      s.dispatched++(front++c::back).map RedisCommand.argv := by
  intro hfinal
  have hreached := afterSegment_reaches hused hfits hopen hpos
  rcases hreached with ⟨fuel,t,hdrain,hfuel,hphase,hunread,hdispatched,hmemory⟩
  have hcommands : s.dispatched++(front++c::back).map RedisCommand.argv=
      t.dispatched++(c::back).map RedisCommand.argv := by
    rw [hdispatched,List.map_append,List.append_assoc]
  rw [hdrain,hcommands] at hfinal
  have hgrown := (dispatched_run (redisDrain fuel t) (segments.map .data)).trans hfinal
  have hcut : (redisDrain fuel t).phase=.receiving ∧ (redisDrain fuel t).buffer.used=0 ∧
      ∃ extra,(redisDrain fuel t).dispatched=t.dispatched++extra ∧
        OutOfStep (c::back) extra (missing++encodings back) := by
    rcases Nat.lt_or_ge part.length ((decimal c.argv.length).length+3) with hshort|hlong
    · have hpass := redisPass_shortPart hunread hpart hpos hshort hmemory
      rcases hpass with ⟨argv,hcommand,hparsing,hempty,hone⟩
      have hpartpos := List.length_pos_iff.mpr hpos
      obtain ⟨k,rfl⟩ : ∃ k,fuel=k+2 := ⟨fuel-2,by omega⟩
      have htwo := length_decimal_le (by decide : 0<2)
        (lt_of_le_of_lt c.argc_le (by decide : 32<10^2))
      rw [redisDrain_succ (k+1) hphase,redisDrain_empty (Nat.succ_pos k) hparsing hempty]
      refine ⟨rfl,hempty,[argv],hone,outOfStep_cut hpart hpos ?_ ?_⟩
      · intro a ha
        rw [List.mem_singleton.mp ha]
        exact hcommand
      · rw [if_pos (by omega)]
        exact Nat.le_refl 1
    · exact redisDrain_longPart hfuel hphase hunread hpart hmissing hlong rfl hgrown
  rcases hcut with ⟨hreceiving,hempty,extra,hextra,hout⟩
  rw [←hstream] at hzero hout
  exact redisRun_outOfStep hreceiving hempty hextra hsegments hzero hout hfinal

/-- A segmentation is aligned and dispatches the commands, or it is not and
dispatches something else. -/
theorem redisRun_cases {s : RedisLoop} {commands : List RedisCommand} {segments : List Bytes}
    (hphase : s.phase=.receiving) (hused : s.buffer.used=0)
    (hsegments : ∀ segment∈segments,segment≠[] ∧ segment.length ≤ 4095)
    (hstream : segments.flatten=encodings commands) (hzero : (0 : Byte)∉encodings commands) :
    (Aligned commands segments ∧ (redisRun s (segments.map .data)).dispatched=
      s.dispatched++(upToClosing commands).map RedisCommand.argv) ∨
    (¬Aligned commands segments ∧ ¬(redisRun s (segments.map .data)).dispatched<+:
      s.dispatched++commands.map RedisCommand.argv) := by
  induction segments generalizing s commands with
  | nil =>
    have hnil : commands=[] := by
      have hcount := length_le_encodings commands
      rw [←hstream] at hcount
      exact List.eq_nil_of_length_eq_zero (Nat.le_zero.mp hcount)
    rw [hnil]
    refine Or.inl ⟨fun k hk => ⟨0,?_⟩,(List.append_nil _).symm⟩
    rw [List.take_nil]
    rfl
  | cons segment segments ih =>
    have hbounds := hsegments segment List.mem_cons_self
    have hothers : ∀ other∈segments,other≠[] ∧ other.length ≤ 4095 :=
      fun other hother => hsegments other (List.mem_cons_of_mem _ hother)
    rw [List.map_cons,redisRun_cons hphase]
    rcases segment_cases hstream with hclosing|hwhole|hcut
    · rcases hclosing with ⟨front,c,back,more,rfl,hopen,hcloses,rfl⟩
      have hafter := afterSegment_closing hused hbounds.2 hopen hcloses
      refine Or.inl ⟨aligned_closing segments hopen hcloses,?_⟩
      rw [redisRun_closed hafter.1,hafter.2,upToClosing_closing back hopen hcloses]
    · rcases hwhole with ⟨front,back,rfl,hopen,rfl,hback⟩
      have hafter := afterSegment_whole hused hbounds.1 hbounds.2 hopen
      have hrest : (0 : Byte)∉encodings back := by
        rw [encodings_append] at hzero
        exact fun hmem => hzero (List.mem_append_right _ hmem)
      rw [aligned_whole back segments hopen]
      rcases ih hafter.1 hafter.2.1 hothers hback hrest with hgood|hbad
      · refine Or.inl ⟨hgood.1,?_⟩
        rw [hgood.2,hafter.2.2,upToClosing_append back hopen,List.map_append,List.append_assoc]
      · refine Or.inr ⟨hbad.1,?_⟩
        rw [List.map_append,←List.append_assoc,←hafter.2.2]
        exact hbad.2
    · rcases hcut with ⟨front,c,back,part,missing,rfl,hopen,hpart,hpos,hmissing,rfl⟩
      have hsplit : encodings (front++c::back)=encodings front++part++(missing++encodings back) := by
        have hcons : encodings (c::back)=encodeCommand c.argv++encodings back := rfl
        rw [encodings_append,hcons,hpart]
        simp only [List.append_assoc]
      rw [hsplit] at hzero hstream
      refine Or.inr ⟨not_aligned_cut segments hopen hpart hpos hmissing,?_⟩
      exact redisRun_cut hused hbounds.2 hopen hpart hpos hmissing hothers
        (List.append_cancel_left hstream) (fun hmem => hzero (List.mem_append_right _ hmem))

/-- The commands up to the first closing one are first commands. -/
theorem upToClosing_front (commands : List RedisCommand) : upToClosing commands<+:commands := by
  induction commands with
  | nil => exact List.prefix_refl _
  | cons c commands ih =>
    rw [upToClosing]
    split
    · exact List.prefix_append [c] commands
    · exact List.cons_prefix_cons.mpr ⟨rfl,ih⟩

/-- Encodings of arguments without a NUL have none. -/
theorem zero_not_mem_encodings {commands : List RedisCommand}
    (h : ∀ c∈commands,∀ a∈c.argv,(0 : Byte)∉a) : (0 : Byte)∉encodings commands := by
  have hdecimal : ∀ n,(0 : Byte)∉decimal n := fun n hmem => (decimal_line n 0 hmem).1 rfl
  have hcrlf : ¬((0 : Byte)=13 ∨ (0 : Byte)=10 ∨ (0 : Byte)∈([] : Bytes)) := by decide
  intro hmem
  have hcommand := List.mem_flatMap.mp hmem
  rcases hcommand with ⟨c,hc,hbyte⟩
  simp only [encodeCommand,List.mem_cons,List.mem_append,List.mem_flatMap] at hbyte
  rcases hbyte with hstar|hheader|⟨a,ha,harg⟩
  · exact absurd hstar (by decide)
  · exact hheader.elim (hdecimal _) hcrlf
  · simp only [encodeArg,List.mem_cons,List.mem_append] at harg
    rcases harg with hdollar|hheader|hpayload
    · exact absurd hdollar (by decide)
    · exact hheader.elim (hdecimal _) hcrlf
    · exact hpayload.elim (h c hc a ha) hcrlf

end HoneyDew.RedisOutOfStep

namespace HoneyDew.RedisStream

open CText Service RedisCommands RedisParser RedisUnread RedisOutOfStep

/-- The commands up to the closing one are dispatched, and nothing else, exactly
where the segmentation is aligned; the whole session is then theirs. -/
theorem redisRun_dispatches_iff_aligned (memory : Bytes) (h : memory.length=4096)
    (commands : List RedisCommand) (segments : List Bytes)
    (hnul : ∀ c∈commands,∀ a∈c.argv,(0 : Byte)∉a)
    (hsegments : ∀ segment∈segments,segment≠[] ∧ segment.length ≤ 4095)
    (hstream : segments.flatten=encodings commands) :
    ((redisRun (.start memory h) (segments.map .data)).dispatched=
        (upToClosing commands).map RedisCommand.argv ↔ Aligned commands segments) ∧
      (Aligned commands segments → ∀ session,
        runRedisService session memory h (segments.map .data)=
          session.recordConnection .redis::
            ((upToClosing commands).flatMap (fun c => redisDispatchCommand session c.argv)++
              [session.recordDisconnect .redis,.close])) := by
  have hcases := redisRun_cases (s := .start memory h) rfl rfl hsegments hstream
    (zero_not_mem_encodings hnul)
  have hstart : (RedisLoop.start memory h).dispatched=[] := rfl
  rw [hstart,List.nil_append,List.nil_append] at hcases
  rcases hcases with hgood|hbad
  · refine ⟨iff_of_true hgood.2 hgood.1,fun _ session => ?_⟩
    rw [runRedisService,hgood.2,List.flatMap_map]
  · refine ⟨iff_of_false (fun hdispatched => hbad.2 ?_) hbad.1,fun haligned => absurd haligned hbad.1⟩
    rw [hdispatched]
    exact (upToClosing_front commands).map RedisCommand.argv

/-- `PING` as a client sends it. -/
def pingCommand : RedisCommand where
  argv := [text "PING"]
  argc_pos := List.cons_ne_nil _ _
  argc_le := by decide
  arg_le := by decide +kernel

/-- Two commands in two segments are served. -/
theorem redisRun_dispatches_two_segments :
    (redisRun (.start zeroStack length_zeroStack)
        ([encodeCommand [text "PING"],encodeCommand [text "PING"]].map .data)).dispatched=
      [[text "PING"],[text "PING"]] :=
  ((redisRun_dispatches_iff_aligned zeroStack length_zeroStack [pingCommand,pingCommand]
    [encodeCommand [text "PING"],encodeCommand [text "PING"]]
    (by decide) (by decide) (by decide)).1.mpr
      (by
        intro k _
        refine ⟨min k 2,?_⟩
        match k with
        | 0 => rfl
        | 1 => rfl
        | k+2 =>
          rw [Nat.min_eq_right (Nat.le_add_left 2 k),List.take_of_length_le (Nat.le_add_left 2 k)]
          rfl))

/-- A segment that ends behind the header of an array makes three commands out
of one. -/
theorem redisRun_splits_command :
    ∃ front back,front++back=encodeCommand [text "PING"] ∧
      (redisRun (.start zeroStack length_zeroStack) [.data front,.data back]).dispatched=
        [[text "*1"],[text "$4"],[text "PING"]] ∧
      (redisRun (.start zeroStack length_zeroStack) [.data (front++back)]).dispatched=
        [[text "PING"]] :=
  ⟨text "*1"++crlf,text "$4"++crlf++(text "PING"++crlf),by decide,by decide,
    by decide⟩

end HoneyDew.RedisStream
