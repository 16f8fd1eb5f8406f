import HoneyDew.RedisStream

/-!
# The line parser on the framing of arrays

A segment that ends inside a command leaves the line parser with pieces of
framing: stars, dollars, digits and line breaks. Of such bytes it makes one
argument without CR LF, or nothing from a bare line break, and it never
consumes more than up to the first CR LF that is unread.
-/

namespace HoneyDew.RedisFraming

open CText CMemory Service RedisCommands StepSystem RedisParser RedisBuffer RedisLengths RedisUnread RedisStream

/-- The bytes that frame the arguments of an array. -/
def isFraming (b : Byte) : Bool := b=42 || b=36 || b=13 || b=10 || isDigit b

/-- Both bytes of CR LF frame. -/
theorem isFraming_crlf : ∀ c∈crlf,isFraming c=true := List.all_eq_true.mp rfl

/-- What a byte of framing is not. -/
theorem framing_bounds {b : Byte} (h : isFraming b=true) :
    b≠0 ∧ isBlank b=false ∧ toUpper b=b := by
  unfold isFraming at h
  simp only [Bool.or_eq_true,decide_eq_true_eq] at h
  rcases h with (((h|h)|h)|h)|h
  · rw [h]
    decide
  · rw [h]
    decide
  · rw [h]
    decide
  · rw [h]
    decide
  · have hdigit := digit_bounds h
    have hspace := hdigit.2.2.1
    unfold isSpace at hspace
    rw [Bool.or_eq_false_iff] at hspace
    refine ⟨hdigit.1,?_,?_⟩
    · unfold isBlank
      rw [hspace.1,Bool.false_or]
      refine decide_eq_false ?_
      rintro rfl
      exact absurd hspace.2 (by decide)
    · unfold isDigit at h
      simp only [Bool.and_eq_true,decide_eq_true_eq] at h
      have hhigh := UInt8.le_iff_toNat_le.mp h.2
      change b.toNat ≤ 57 at hhigh
      refine if_neg (fun hletter => ?_)
      have hlow := UInt8.le_iff_toNat_le.mp hletter.1
      change 97 ≤ b.toNat at hlow
      omega

/-- Digits are framing. -/
theorem isFraming_of_isDigit {b : Byte} (h : isDigit b=true) : isFraming b=true := by
  unfold isFraming
  rw [h,Bool.or_true]

/-- Framing has no NUL. -/
theorem zero_not_mem_framing {bs : Bytes} (h : ∀ b∈bs,isFraming b=true) : (0 : Byte)∉bs :=
  fun hmem => (framing_bounds (h 0 hmem)).1 rfl

/-- A piece of framing: no other bytes, and no whole CR LF. -/
structure FramingPiece (token : Bytes) : Prop where
  /-- Every byte frames arguments. -/
  framing : ∀ b∈token,isFraming b=true
  /-- The piece lies inside one line. -/
  unbroken : ¬crlf<:+:token

/-- A command that is one piece of framing. -/
def FramingCommand (argv : List Bytes) : Prop := ∃ token,argv=[token] ∧ FramingPiece token

/-- A command that is a piece of framing does not close the connection. -/
theorem redisCloses_framing {argv : List Bytes} (h : FramingCommand argv) :
    redisCloses argv=false := by
  rcases h with ⟨token,rfl,hpiece⟩
  have hupper : ∀ b∈redisStrToupper token,isFraming b=true := by
    intro b hb
    have hsource := List.mem_map.mp hb
    rcases hsource with ⟨a,ha,rfl⟩
    have hmem := (cstr_front token).subset (List.mem_of_mem_take ha)
    have hframing := hpiece.framing a hmem
    rw [(framing_bounds hframing).2.2]
    exact hframing
  have hother : ∀ v : RedisVerb,v.name.all isFraming=false → redisVerb [token]≠some v := by
    intro v hv hfound
    have hname := List.find?_some hfound
    rw [decide_eq_true_eq,List.getD_cons_zero] at hname
    rw [hname,List.all_eq_true.mpr hupper] at hv
    exact Bool.noConfusion hv
  unfold redisCloses
  rw [decide_eq_false (hother .shutdown (by decide)),
    decide_eq_false (hother .quit (by decide))]
  rfl

/-- The bytes of an occurrence. -/
theorem getD_of_drop {memory needle : Bytes} {l k : ℕ} (h : needle<+:memory.drop l)
    (hk : k<needle.length) : memory.getD (l+k) 0=needle.getD k 0 := by
  rcases h with ⟨rest,hrest⟩
  rw [List.getD_eq_getElem?_getD,List.getD_eq_getElem?_getD,←List.getElem?_drop,←hrest,
    List.getElem?_append_left hk]

/-- A byte at a place in front of an end is one of the bytes there. -/
theorem mem_take_of_getD {memory : Bytes} {b : Byte} {n i : ℕ} (hn : n ≤ memory.length) (hi : i<n)
    (hbyte : memory.getD i 0=b) : b∈memory.take n := by
  rw [List.getD_eq_getElem _ _ (by omega)] at hbyte
  rw [←hbyte]
  exact List.mem_take_iff_getElem.mpr ⟨i,by omega,rfl⟩

/-- Bytes without NUL at the start of a memory are the start of its string. -/
theorem take_prefix_cstr {memory : Bytes} {n : ℕ} (hzero : (0 : Byte)∉memory.take n) :
    memory.take n<+:cstr memory := by
  have hsplit := cstr_append hzero (memory.drop n)
  rw [List.take_append_drop] at hsplit
  rw [hsplit]
  exact List.prefix_append _ _

/-- The front of a memory up to a place in its string is the start of the string. -/
theorem take_prefix_of_le {memory : Bytes} {l : ℕ} (h : l ≤ (cstr memory).length) :
    memory.take l<+:cstr memory :=
  List.prefix_of_prefix_length_le (List.take_prefix l memory) (cstr_front memory)
    ((List.length_take_le l memory).trans h)

/-- In front of the first line break of the string there is none. -/
theorem unbroken_take {memory : Bytes} {l : ℕ} (h : memory.take l<+:cstr memory)
    (hfirst : ∀ j < l,¬crlf<+:(cstr memory).drop j) : ¬crlf<:+:memory.take l := by
  intro hocc
  obtain ⟨a,b,hsplit⟩ := hocc
  obtain ⟨rest,hrest⟩ := h
  have hlength := congrArg List.length hsplit
  rw [List.length_append,List.length_append,List.length_take] at hlength
  have htwo : crlf.length=2 := rfl
  refine hfirst a.length (by omega) ?_
  rw [←hrest,←hsplit,List.append_assoc,List.append_assoc,List.drop_left]
  exact List.prefix_append _ _

/-- A find in the string of a memory stands inside the string and in the memory. -/
theorem strstr_inside {memory needle : Bytes} {t : ℕ} (h : strstr memory needle=some t)
    (hneedle : needle≠[]) : t ≤ (cstr memory).length ∧ needle<+:memory.drop t := by
  have hfound := (findSub_some h).1
  have hlength := hfound.length_le
  have hpos := List.length_pos_iff.mpr hneedle
  rw [List.length_drop] at hlength
  exact ⟨by omega,hfound.trans ((cstr_front memory).drop t)⟩

/-- Where a line ends: inside the C string, without CR LF before, and not
behind any CR LF. -/
theorem lineEnd_spec {memory : Bytes} {n : ℕ} (hpos : 0<n) (hzero : (0 : Byte)∉memory.take n)
    (hn : n ≤ memory.length) :
    ∃ l,lineEnd memory n=some l ∧ memory.take l<+:cstr memory ∧ ¬crlf<:+:memory.take l ∧
      (∀ i,crlf<+:(cstr memory).drop i → l ≤ i) ∧
      (l=n ∨ crlf<+:memory.drop l ∨ [10]<+:memory.drop l) := by
  unfold lineEnd
  cases hcrlf : strstr memory crlf with
  | some t =>
    have hfirst := (findSub_some hcrlf).2
    have hinside := strstr_inside hcrlf (List.cons_ne_nil _ _)
    have hfront := take_prefix_of_le hinside.1
    refine ⟨t,rfl,hfront,unbroken_take hfront hfirst,?_,Or.inr (Or.inl hinside.2)⟩
    intro i hi
    by_contra hlt
    exact hfirst i (by omega) hi
  | none =>
    have hnever := fun i => (findSub_none hcrlf i).2
    cases hlf : strstr memory [10] with
    | some t =>
      have hinside := strstr_inside hlf (List.cons_ne_nil _ _)
      have hfront := take_prefix_of_le hinside.1
      refine ⟨t,rfl,hfront,unbroken_take hfront (fun j _ => hnever j),?_,Or.inr (Or.inr hinside.2)⟩
      intro i hi
      exact absurd hi (hnever i)
    | none =>
      have hlast : memory.getD (n-1) 0≠0 :=
        fun hz => hzero (mem_take_of_getD hn (by omega) hz)
      have hwhole := take_prefix_cstr hzero
      refine ⟨n,?_,hwhole,unbroken_take hwhole (fun j _ => hnever j),?_,Or.inl rfl⟩
      · rw [if_pos ⟨hpos,hlast⟩]
        rfl
      · intro i hi
        exact absurd hi (hnever i)

/-- Framing stands in front: up to the end of a line, or up to the NUL. -/
def FramedAhead (memory : Bytes) : Prop :=
  ∃ v,v<+:cstr memory ∧ (∀ b∈v,isFraming b=true) ∧ (v=cstr memory ∨ crlf<:+v)

/-- The front of the C string up to its first line break is framing then. -/
theorem FramedAhead.line {memory : Bytes} {l : ℕ} (h : FramedAhead memory)
    (hfront : memory.take l<+:cstr memory)
    (hfirst : ∀ i,crlf<+:(cstr memory).drop i → l ≤ i) :
    ∀ b∈memory.take l,isFraming b=true := by
  rcases h with ⟨v,hv,hframing,hend⟩
  rcases hend with hall|hcrlf
  · intro b hb
    rw [hall] at hframing
    exact hframing b (hfront.subset hb)
  · rcases hcrlf with ⟨w,hw⟩
    have hocc : crlf<+:(cstr memory).drop w.length := by
      rcases hv with ⟨rest,hrest⟩
      rw [←hrest,←hw,List.append_assoc,List.drop_left]
      exact List.prefix_append _ _
    have hle := hfirst _ hocc
    have hshort : memory.take l<+:v := by
      refine List.prefix_of_prefix_length_le hfront hv ?_
      have hlength := congrArg List.length hw
      rw [List.length_append] at hlength
      exact (List.length_take_le l memory).trans (by omega)
    exact fun b hb => hframing b (hshort.subset hb)

/-- From a bare line break the line parser takes the break and nothing else. -/
theorem redisParseInline_break {memory : Bytes} {n : ℕ} (hpos : 0<n) (hn : n ≤ memory.length)
    (hl : lineEnd memory n=some 0) (hbreak : crlf<+:memory ∨ [10]<+:memory) :
    ∃ consumed,redisParseInline memory n=some (consumed,[]) ∧ consumed ≤ 2 ∧
      (∀ b∈(memory.take n).take consumed,b=13 ∨ b=10) ∧
      ((10 : Byte)∉memory.take n → n ≤ consumed) := by
  unfold redisParseInline
  rw [hl,Option.map_some,if_pos rfl]
  rcases hbreak with hcrlf|hlf
  · rcases hcrlf with ⟨rest,hrest⟩
    have hbytes : memory.getD 0 0=13 ∧ memory.getD 1 0=10 ∧ memory.take 2=[13,10] := by
      rw [←hrest]
      exact ⟨rfl,rfl,rfl⟩
    rw [if_pos hbytes.1]
    refine ⟨2,rfl,Nat.le_refl 2,?_,?_⟩
    · intro b hb
      rw [List.take_take,Nat.min_comm,←List.take_take,hbytes.2.2] at hb
      have hmem := List.mem_of_mem_take hb
      rwa [List.mem_pair] at hmem
    · intro hnofeed
      by_contra hlt
      exact hnofeed (mem_take_of_getD hn (by omega) hbytes.2.1)
  · rcases hlf with ⟨rest,hrest⟩
    have hbytes : memory.getD 0 0=10 ∧ memory.take 1=[10] := by
      rw [←hrest]
      exact ⟨rfl,rfl⟩
    have hother : ¬memory.getD 0 0=13 := by
      rw [hbytes.1]
      decide
    rw [if_neg hother]
    refine ⟨1,rfl,Nat.le_succ 1,?_,?_⟩
    · intro b hb
      rw [List.take_take,Nat.min_comm,←List.take_take,hbytes.2] at hb
      exact Or.inr (List.mem_singleton.mp (List.mem_of_mem_take hb))
    · intro hnofeed
      exact absurd (mem_take_of_getD hn hpos hbytes.1) hnofeed

/-- From a line of framing the line parser takes one piece of it. -/
theorem redisParseInline_piece {memory : Bytes} {n l : ℕ} (hpos : 0<n) (hn : n ≤ memory.length)
    (hl : lineEnd memory n=some l) (hsome : 0<l) (hline : ∀ b∈memory.take l,isFraming b=true)
    (hunbroken : ¬crlf<:+:memory.take l)
    (hbreak : l=n ∨ crlf<+:memory.drop l ∨ [10]<+:memory.drop l) :
    ∃ consumed argv,redisParseInline memory n=some (consumed,argv) ∧ FramingCommand argv ∧
      consumed ≤ l+2 ∧ ((10 : Byte)∉memory.take n → n ≤ consumed) := by
  have hpiece : memory.take (min l 4095)<+:memory.take l := List.take_prefix_take_left (by omega)
  have hbytes : ∀ b∈memory.take (min l 4095),isFraming b=true :=
    fun b hb => hline b (hpiece.subset hb)
  have hnonempty : [] ++memory.take (min l 4095)≠[] := by
    intro hnil
    have hlength := congrArg List.length hnil
    rw [List.nil_append,List.length_take,List.length_nil] at hlength
    omega
  have htokens : lineArgs (readAt memory 0 (min l 4095))=[(memory.take (min l 4095)).take 1023] := by
    rw [lineArgs,readAt,List.drop_zero,cstr_self (zero_not_mem_framing hbytes),tokens,
      tokensFrom_whole (fun b hb => (framing_bounds (hbytes b hb)).2.1) hnonempty]
    rfl
  have htoken := (List.take_prefix 1023 (memory.take (min l 4095))).trans hpiece
  unfold redisParseInline
  rw [hl,Option.map_some,if_neg (by omega),htokens]
  refine ⟨_,_,rfl,⟨_,rfl,?_,?_⟩,?_,?_⟩
  · exact fun b hb => hline b (htoken.subset hb)
  · exact fun hocc => hunbroken (hocc.trans htoken.isInfix)
  · split
    · split <;> omega
    · omega
  · intro hnofeed
    rcases hbreak with hnone|hcrlf|hlf
    · omega
    · have hbyte : memory.getD (l+1) 0=10 := by
        rw [getD_of_drop hcrlf (by decide)]
        rfl
      by_cases hlt : l<n
      · have hlast : ¬l+1<n := fun h => hnofeed (mem_take_of_getD hn h hbyte)
        rw [if_pos hlt]
        split <;> omega
      · omega
    · have hbyte : memory.getD (l+0) 0=10 := by
        rw [getD_of_drop hlf (by decide)]
        rfl
      have hge : ¬l<n := fun h => hnofeed (mem_take_of_getD hn h hbyte)
      omega

/-- The line parser on a memory position where framing stands up to the end of
its line: nothing from a bare line break, else one piece of framing; it stops
at the latest behind the first CR LF, and not before the last unread byte
where no line feed is unread. -/
theorem redisParseInline_framing {memory : Bytes} {n : ℕ} (hpos : 0<n)
    (hzero : (0 : Byte)∉memory.take n) (hn : n ≤ memory.length) (hahead : FramedAhead memory) :
    ∃ consumed argv,redisParseInline memory n=some (consumed,argv) ∧
      ((argv=[] ∧ ∀ b∈(memory.take n).take consumed,b=13 ∨ b=10) ∨ FramingCommand argv) ∧
      (∀ i,crlf<+:(memory.take n).drop i → consumed ≤ i+2) ∧
      ((10 : Byte)∉memory.take n → n ≤ consumed) := by
  have hspec := lineEnd_spec hpos hzero hn
  rcases hspec with ⟨l,hl,hfront,hunbroken,hfirst,hbreak⟩
  have hbound : ∀ i,crlf<+:(memory.take n).drop i → l ≤ i :=
    fun i hi => hfirst i (hi.trans ((take_prefix_cstr hzero).drop i))
  rcases Nat.eq_zero_or_pos l with hempty|hline
  · rw [hempty] at hl
    rw [hempty,List.drop_zero] at hbreak
    have htaken := redisParseInline_break hpos hn hl (hbreak.resolve_left (by omega))
    rcases htaken with ⟨consumed,hparse,htwo,hskip,hall⟩
    exact ⟨consumed,[],hparse,Or.inl ⟨rfl,hskip⟩,fun i _ => by omega,hall⟩
  · have htaken := redisParseInline_piece hpos hn hl hline (hahead.line hfront hfirst) hunbroken hbreak
    rcases htaken with ⟨consumed,argv,hparse,hcommand,hstop,hall⟩
    refine ⟨consumed,argv,hparse,Or.inr hcommand,?_,hall⟩
    intro i hi
    have hle := hbound i hi
    omega

end HoneyDew.RedisFraming
