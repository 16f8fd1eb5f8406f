import HoneyDew.RedisLengths

/-!
# The line break that the Redis line parser finds

`strstr` runs on into the bytes behind the unread ones where these hold no line
break. The line parser gives the result of a buffer that ends there exactly
where the break found is one of them, stands right behind them, or takes a
byte from them that no argument would have stored.
-/

namespace HoneyDew.RedisLineBreak

open CText CMemory RedisParser RedisLengths

/-- The line break that the searches find stands in the unread bytes, or right
behind them with no line feed before it, or there is none. -/
def BreakInside (memory : Bytes) (used : ℕ) : Prop :=
  match strstr memory crlf with
  | some t => t+2≤used ∨ t=used ∧ (10 : Byte)∉memory.take used
  | none => match strstr memory [10] with
    | some t => t≤used
    | none => True

instance (memory : Bytes) (used : ℕ) : Decidable (BreakInside memory used) := by
  unfold BreakInside
  split
  · infer_instance
  · split <;> infer_instance

/-- The last byte of the text is stored in no argument of the line: it belongs
to a token behind the 32nd or stands behind 1023 bytes of its token. -/
def LastHidden (unread : Bytes) : Prop :=
  32<(tokens isBlank unread).length ∨ 1023<((tokens isBlank unread).getLastD []).length

instance (unread : Bytes) : Decidable (LastHidden unread) := by
  unfold LastHidden
  infer_instance

/-- The last unread byte is a CR with a stale line feed behind it, or the only
unread line feed with a stale CR LF behind it, and no argument stores it. -/
def BreakHidden (memory : Bytes) (used : ℕ) : Prop :=
  ∃ t∈strstr memory crlf,(t+1=used ∨ t=used ∧ memory.getD (used-1) 0=10) ∧
    (10 : Byte)∉memory.take (used-1) ∧ LastHidden (memory.take used)

instance (memory : Bytes) (used : ℕ) : Decidable (BreakHidden memory used) := by
  unfold BreakHidden
  infer_instance

/-- The line parser takes the line to end where it ends with a NUL behind the
unread bytes, as far as the arguments and the bytes consumed show. -/
def LineInside (memory : Bytes) (used : ℕ) : Prop := BreakInside memory used ∨ BreakHidden memory used

instance (memory : Bytes) (used : ℕ) : Decidable (LineInside memory used) := by
  unfold LineInside
  infer_instance

/-- A search in a buffer that stops behind the unread bytes is one in them. -/
theorem strstr_terminated (unread needle : Bytes) : strstr (unread++[0]) needle=strstr unread needle := by
  rw [strstr,cstr_append_nul,←strstr]

/-- A text that stands nowhere inside the unread bytes is not found in them. -/
theorem strstr_outside {unread needle : Bytes} (rest : Bytes) (hneedle : needle≠[])
    (hall : ∀ t∈strstr (unread++rest) needle,unread.length<t+needle.length) :
    strstr unread needle=none := by
  cases hshort : strstr unread needle with
  | none => rfl
  | some t =>
    have hfits := strstr_length hshort hneedle
    have hlong := hall t (strstr_append hshort rest)
    omega

/-- A text that is not found at all is not found in the unread bytes. -/
theorem strstr_absent {unread rest needle : Bytes} (hneedle : needle≠[])
    (h : strstr (unread++rest) needle=none) : strstr unread needle=none := by
  apply strstr_outside rest hneedle
  intro t ht
  rw [h] at ht
  cases ht

/-- A text that is found too late is not found in the unread bytes. -/
theorem strstr_late {unread rest needle : Bytes} {t : ℕ} (hneedle : needle≠[])
    (h : strstr (unread++rest) needle=some t) (hlate : unread.length<t+needle.length) :
    strstr unread needle=none := by
  apply strstr_outside rest hneedle
  intro t' ht'
  rw [h] at ht'
  rwa [← Option.some.inj ht']

/-- A byte that is not unread is not found in the unread bytes. -/
theorem strstr_byte_absent {unread : Bytes} {b : Byte} (h : b∉unread) : strstr unread [b]=none := by
  cases hfound : strstr unread [b] with
  | none => rfl
  | some j =>
    have hplace := (findSub_some hfound).1
    have hmem : b∈cstr unread := List.mem_of_mem_drop (hplace.subset (List.mem_singleton_self b))
    exact absurd ((cstr_front unread).subset hmem) h

/-- The last of some bytes without NUL is no NUL. -/
theorem last_ne_zero {unread : Bytes} (hpos : 0<unread.length) (hzero : (0 : Byte)∉unread) :
    0<unread.length ∧ unread.getD (unread.length-1) 0≠0 := by
  have hlast : unread.length-1<unread.length := by omega
  refine ⟨hpos,fun hz => hzero ?_⟩
  rw [List.getD_eq_getElem _ _ hlast] at hz
  rw [←hz]
  exact List.getElem_mem hlast

/-- The line ends where it ends in a buffer that stops behind the unread bytes. -/
theorem lineEnd_rest {unread rest : Bytes} (hpos : 0<unread.length)
    (h : BreakInside (unread++rest) unread.length) :
    lineEnd (unread++rest) unread.length=lineEnd (unread++[0]) unread.length := by
  have hlast : unread.length-1<unread.length := by omega
  have htake : (unread++rest).take unread.length=unread := List.take_left
  have hcrlf : crlf.length=2 := rfl
  have hcrlfne : crlf≠[] := List.cons_ne_nil _ _
  have hlfne : ([10] : Bytes)≠[] := List.cons_ne_nil _ _
  unfold BreakInside at h
  unfold lineEnd
  rw [List.getD_append _ _ _ _ hlast,List.getD_append _ _ _ _ hlast,strstr_terminated,
    strstr_terminated]
  cases hc : strstr (unread++rest) crlf with
  | some t =>
    rw [hc] at h
    dsimp only at h
    rcases h with hfits|hbehindCase
    · rw [strstr_of_append hc (by omega)]
      rfl
    · rw [htake] at hbehindCase
      have ht := hbehindCase.1
      have hlinefeed := hbehindCase.2
      have hcut := strstr_late hcrlfne hc (by omega)
      have hend := last_ne_zero hpos (zero_not_mem_of_strstr hc hcrlfne (by omega))
      rw [hcut,strstr_byte_absent hlinefeed,if_pos hend,ht]
      rfl
  | none =>
    rw [hc] at h
    dsimp only at h
    rw [strstr_absent hcrlfne hc]
    cases hl : strstr (unread++rest) [10] with
    | some t =>
      rw [hl] at h
      dsimp only at h
      rcases Nat.lt_or_ge t unread.length with hlt|hge
      · rw [strstr_of_append hl hlt]
      · have hlate : unread.length<t+([10] : Bytes).length := by
          rw [List.length_singleton]
          omega
        have hcut := strstr_late hlfne hl hlate
        have hend := last_ne_zero hpos (zero_not_mem_of_strstr hl hlfne hlate)
        have hsame : t=unread.length := by omega
        rw [hcut,if_pos hend,hsame]
        rfl
    | none => rw [strstr_absent hlfne hl]

/-- In a buffer that stops behind the unread bytes the line ends at a line
break among them or with them. -/
theorem lineEnd_cases {unread : Bytes} {l : ℕ}
    (h : lineEnd (unread++[0]) unread.length=some l) :
    (strstr unread crlf=some l ∧ l+2≤unread.length) ∨
      (strstr unread [10]=some l ∧ l+1≤unread.length) ∨ l=unread.length := by
  unfold lineEnd at h
  rw [strstr_terminated,strstr_terminated] at h
  rcases Option.or_eq_some_iff.mp h with hbreak|hlast
  · rcases Option.or_eq_some_iff.mp hbreak with hcrlf|hlf
    · exact Or.inl ⟨hcrlf,strstr_length hcrlf (List.cons_ne_nil _ _)⟩
    · exact Or.inr (Or.inl ⟨hlf.2,strstr_length hlf.2 (List.cons_ne_nil _ _)⟩)
  · have hend := hlast.2
    split at hend
    · exact Or.inr (Or.inr (Option.some.inj hend).symm)
    · cases hend

/-- The first byte of what `strstr` finds at the front. -/
theorem getD_of_strstr_zero {unread : Bytes} {b : Byte} {needle : Bytes}
    (h : strstr unread (b::needle)=some 0) : unread.getD 0 0=b := by
  have hfound := (findSub_some h).1
  rw [List.drop_zero] at hfound
  have hprefix := hfound.trans (cstr_front unread)
  rcases hprefix with ⟨rest,hrest⟩
  rw [←hrest]
  rfl

/-- The line parser gives the same result as in a buffer that stops behind the
unread bytes where the line break is inside. -/
theorem redisParseInline_break {unread rest : Bytes} (hpos : 0<unread.length)
    (h : BreakInside (unread++rest) unread.length) :
    redisParseInline (unread++rest) unread.length=
      redisParseInline (unread++[0]) unread.length := by
  unfold redisParseInline
  rw [lineEnd_rest hpos h]
  cases hend : lineEnd (unread++[0]) unread.length with
  | none => rfl
  | some l =>
    have hcases := lineEnd_cases hend
    have hle : l≤unread.length := by
      rcases hcases with hc|hc|hc
      · omega
      · omega
      · omega
    rw [Option.map_some,Option.map_some,readAt_inside rest (by omega),readAt_inside [0] (by omega),
      List.getD_append _ _ _ _ hpos,List.getD_append _ _ _ _ hpos]
    rcases Nat.lt_or_ge l unread.length with hlt|hge
    · rw [List.getD_append _ _ _ _ hlt,List.getD_append _ _ _ _ hlt]
      rcases Nat.lt_or_ge (l+1) unread.length with hlt'|hge'
      · rw [List.getD_append _ _ _ _ hlt',List.getD_append _ _ _ _ hlt']
      · have hno : ∀ (p q : Prop),¬(p ∧ l+1<unread.length ∧ q) := by
          intro p q hand
          omega
        rw [if_neg (hno _ _),if_neg (hno _ _)]
    · rw [if_neg (Nat.not_lt_of_ge hge),if_neg (Nat.not_lt_of_ge hge)]

/-- One byte more at the end of a line changes no argument exactly where no
argument stores it. -/
theorem lineArgs_snoc {b : Byte} (bs : Bytes) (hzero : (0 : Byte)∉bs++[b]) (hb : isBlank b=false) :
    lineArgs (bs++[b])=lineArgs bs ↔ LastHidden (bs++[b]) := by
  have hfront : (0 : Byte)∉bs := fun h => hzero (List.mem_append_left _ h)
  have htokens := tokensFrom_snoc hb [] bs
  rcases htokens with ⟨front,last,hlong,hshort⟩
  unfold lineArgs LastHidden tokens
  rw [cstr_self hzero,cstr_self hfront,hlong,hshort,List.length_append,List.length_singleton,
    List.getLastD_concat,List.length_append,List.length_singleton]
  by_cases hmany : 32≤front.length
  · rw [List.take_append_of_le_length hmany,List.take_append_of_le_length hmany]
    exact iff_of_true rfl (Or.inl (by omega))
  · have hall : ∀ tail : List Bytes,tail.length≤1 → (front++tail).take 32=front++tail := by
      intro tail htail
      refine List.take_of_length_le ?_
      rw [List.length_append]
      omega
    rw [hall [last++[b]] le_rfl]
    by_cases hlast : last=[]
    · rw [if_pos hlast,hall [] (Nat.zero_le 1),hlast]
      refine iff_of_false ?_ ?_
      · intro h
        have hlength := congrArg List.length h
        rw [List.length_map,List.length_map,List.length_append,List.length_append] at hlength
        exact absurd hlength (by simp)
      · intro h
        rcases h with h|h
        · omega
        · exact absurd h (by decide)
    · rw [if_neg hlast,hall [last] le_rfl,List.map_append,List.map_append,
        List.append_cancel_left_eq,List.map_singleton,List.map_singleton,List.singleton_inj]
      constructor
      · intro h
        right
        by_contra hshorter
        have hlength := congrArg List.length h
        rw [List.length_take,List.length_take,List.length_append,List.length_singleton] at hlength
        omega
      · intro h
        rcases h with h|h
        · omega
        · exact List.take_append_of_le_length (by omega)

/-- `strstr` for one byte finds its first place. -/
theorem strstr_byte {unread : Bytes} {b : Byte} {j : ℕ} (h : strstr unread [b]=some j) :
    j<unread.length ∧ unread.getD j 0=b ∧ b∉unread.take j := by
  have hfound := findSub_some h
  have hinside := strstr_length h (List.cons_ne_nil b [])
  rw [List.length_singleton] at hinside
  have hlt : j<unread.length := by omega
  have hfront := hfound.1.trans ((cstr_front unread).drop j)
  rw [List.drop_eq_getElem_cons hlt] at hfront
  refine ⟨hlt,?_,fun hmem => ?_⟩
  · rw [List.getD_eq_getElem _ _ hlt]
    exact (List.cons_prefix_cons.mp hfront).1.symm
  · have hplace := List.mem_take_iff_getElem.mp hmem
    rcases hplace with ⟨i,hi,hbyte⟩
    have hvisible := hfound.1.length_le
    rw [List.length_drop,List.length_singleton] at hvisible
    have hi' : i<(cstr unread).length := by omega
    refine hfound.2 i (by omega) ?_
    rw [List.drop_eq_getElem_cons hi',(cstr_front unread).getElem hi',hbyte]
    exact List.prefix_append [b] _

/-- `strstr` finds a byte of a text without NUL. -/
theorem strstr_byte_found {unread : Bytes} {b : Byte} (hzero : (0 : Byte)∉unread) (hb : b∈unread) :
    ∃ j,strstr unread [b]=some j := by
  refine Option.isSome_iff_exists.mp ?_
  rw [strstr,cstr_self hzero,findSub_isSome_iff,List.singleton_infix_iff]
  exact hb

/-- A text is its bytes but the last and the last. -/
theorem take_snoc {unread : Bytes} {t : ℕ} (h : t+1=unread.length) :
    unread.take t++[unread.getD t 0]=unread := by
  rw [List.getD_eq_getElem _ _ (by omega),List.take_append_getElem,List.take_of_length_le (by omega)]

/-- The line parser on a line that ends at or behind the end of the unread bytes. -/
theorem redisParseInline_behind {memory : Bytes} {bufLen t : ℕ} (hend : lineEnd memory bufLen=some t)
    (hpos : 0<bufLen) (ht : bufLen≤t) :
    redisParseInline memory bufLen=some (t,lineArgs (readAt memory 0 (min t 4095))) := by
  rw [redisParseInline,hend,Option.map_some,if_neg (by omega),if_neg (by omega),Nat.add_zero]

/-- The line parser on a line that ends in front of the last unread byte. -/
theorem redisParseInline_straddle {memory : Bytes} {bufLen t : ℕ}
    (hend : lineEnd memory bufLen=some t) (hpos : 0<t) (ht : t+1=bufLen) :
    redisParseInline memory bufLen=some (bufLen,lineArgs (readAt memory 0 (min t 4095))) := by
  rw [redisParseInline,hend,Option.map_some,if_neg (by omega),if_pos (by omega),
    if_neg (by omega),ht]

/-- The line parser on unread bytes with a line feed and no CR LF. -/
theorem redisParseInline_lineFeed {unread : Bytes} {j : ℕ} (hsize : unread.length≤4095)
    (hcrlf : strstr unread crlf=none) (hlf : strstr unread [10]=some j) :
    redisParseInline (unread++[0]) unread.length=some (j+1,lineArgs (unread.take j)) := by
  have hend : lineEnd (unread++[0]) unread.length=some j := by
    rw [lineEnd,strstr_terminated,strstr_terminated,hcrlf,hlf]
    rfl
  have hinside := (strstr_byte hlf).1
  have hbyte := (strstr_byte hlf).2.1
  have hten : ¬(10 : Byte)=13 := by decide
  rw [redisParseInline,hend,Option.map_some]
  by_cases hzero : j=0
  · rw [hzero] at hbyte
    rw [if_pos hzero,List.getD_append _ _ _ _ (by omega),hbyte,if_neg hten,hzero]
    rfl
  · rw [if_neg hzero,if_pos (by omega),List.getD_append _ _ _ _ (by omega),hbyte,
      if_neg (fun h => hten h.1),readAt_inside [0] (by omega),readAt,List.drop_zero,
      Nat.min_eq_left (by omega)]

/-- The line parser on unread bytes without a line break and NUL. -/
theorem redisParseInline_unbroken {unread : Bytes} (hpos : 0<unread.length)
    (hsize : unread.length≤4095) (hcrlf : strstr unread crlf=none) (hlf : strstr unread [10]=none)
    (hzero : (0 : Byte)∉unread) :
    redisParseInline (unread++[0]) unread.length=some (unread.length,lineArgs unread) := by
  have hlast := last_ne_zero hpos hzero
  have hend : lineEnd (unread++[0]) unread.length=some unread.length := by
    rw [lineEnd,strstr_terminated,strstr_terminated,hcrlf,hlf,
      List.getD_append _ _ _ _ (by omega),if_pos hlast]
    rfl
  rw [redisParseInline_behind hend hpos le_rfl,readAt_inside [0] (by omega),readAt,List.drop_zero,
    List.take_of_length_le (by omega)]

/-- In a buffer that stops behind unread bytes without NUL the line parser consumes
no more than them. -/
theorem redisParseInline_le {unread : Bytes} (hpos : 0<unread.length) (hsize : unread.length≤4095)
    (hcrlf : strstr unread crlf=none) (hzero : (0 : Byte)∉unread) :
    ∃ consumed args,redisParseInline (unread++[0]) unread.length=some (consumed,args) ∧
      consumed≤unread.length := by
  cases hlf : strstr unread [10] with
  | none => exact ⟨_,_,redisParseInline_unbroken hpos hsize hcrlf hlf hzero,le_rfl⟩
  | some j => exact ⟨_,_,redisParseInline_lineFeed hsize hcrlf hlf,(strstr_byte hlf).1⟩

/-- A line break far behind the unread bytes changes what the line parser consumes. -/
theorem redisParseInline_far {unread rest : Bytes} {t : ℕ} (hpos : 0<unread.length)
    (hsize : unread.length≤4095) (hend : lineEnd (unread++rest) unread.length=some t)
    (hcrlf : strstr unread crlf=none) (hzero : (0 : Byte)∉unread) (ht : unread.length<t) :
    redisParseInline (unread++rest) unread.length≠redisParseInline (unread++[0]) unread.length := by
  obtain ⟨consumed,args,hours,hle⟩ := redisParseInline_le hpos hsize hcrlf hzero
  rw [redisParseInline_behind hend hpos (by omega),hours]
  intro h
  have hconsumed := congrArg Prod.fst (Option.some.inj h)
  dsimp only at hconsumed
  omega

/-- A CR LF of which the CR is the last unread byte leaves the result as it is
exactly where no line feed is unread and no argument stores the CR. -/
theorem redisParseInline_cut {unread rest : Bytes} {t : ℕ} (hsize : unread.length≤4095)
    (hc : strstr (unread++rest) crlf=some t) (ht : t+1=unread.length) (hzero : (0 : Byte)∉unread) :
    redisParseInline (unread++rest) unread.length=redisParseInline (unread++[0]) unread.length ↔
      (10 : Byte)∉unread.take t ∧ LastHidden unread := by
  have hend : lineEnd (unread++rest) unread.length=some t := by
    rw [lineEnd,hc]
    rfl
  have hcrlfne : crlf≠[] := List.cons_ne_nil _ _
  have htwo : crlf.length=2 := rfl
  have hcr : unread.getD t 0=13 := by
    have hplace := (findSub_some hc).1.trans ((cstr_front _).drop t)
    rw [List.drop_append_of_le_length (by omega),List.drop_eq_getElem_cons (by omega),
      List.cons_append] at hplace
    rw [List.getD_eq_getElem _ _ (by omega)]
    exact (List.cons_prefix_cons.mp hplace).1.symm
  have hcrlf := strstr_late hcrlfne hc (by omega)
  have hsnoc := take_snoc ht
  rw [hcr] at hsnoc
  have hargs : lineArgs unread=lineArgs (unread.take t) ↔ LastHidden unread := by
    have hlast := lineArgs_snoc (unread.take t) (hsnoc.symm▸hzero) (by decide)
    rwa [hsnoc] at hlast
  cases hlf : strstr unread [10] with
  | some j =>
    have hbyte := strstr_byte hlf
    have hne : j≠t := by
      intro hsame
      rw [hsame,hcr] at hbyte
      exact absurd hbyte.2.1 (by decide)
    have hmem : (10 : Byte)∈unread.take t := by
      rw [←hbyte.2.1,List.getD_eq_getElem _ _ hbyte.1]
      exact List.mem_take_iff_getElem.mpr ⟨j,by omega,rfl⟩
    rw [redisParseInline_straddle hend (by omega) ht,redisParseInline_lineFeed hsize hcrlf hlf]
    refine iff_of_false ?_ (fun h => h.1 hmem)
    intro h
    have hconsumed := congrArg Prod.fst (Option.some.inj h)
    dsimp only at hconsumed
    omega
  | none =>
    have hno : (10 : Byte)∉unread.take t := by
      intro hmem
      have hfound := strstr_byte_found hzero (List.mem_of_mem_take hmem)
      rw [hlf] at hfound
      exact absurd hfound (by simp)
    rw [redisParseInline_unbroken (by omega) hsize hcrlf hlf hzero]
    rcases Nat.eq_zero_or_pos t with hfirst|hpos
    · have hone : unread.length=1 := by omega
      rw [redisParseInline,hend,Option.map_some,if_pos hfirst,List.getD_append _ _ _ _ (by omega),
        ←hfirst,hcr,if_pos rfl,hone]
      refine iff_of_false ?_ ?_
      · intro h
        have hconsumed : 2=1 := congrArg Prod.fst (Option.some.inj h)
        omega
      · intro h
        have hsame := hargs.mpr h.2
        rw [hfirst,List.take_zero,List.nil_append] at hsnoc
        rw [hfirst,List.take_zero,←hsnoc] at hsame
        exact absurd hsame (by decide)
    · rw [redisParseInline_straddle hend hpos ht,readAt_inside rest (by omega),readAt,
        List.drop_zero,Nat.min_eq_left (by omega),Option.some_inj,Prod.mk.injEq,←hargs]
      exact ⟨fun h => ⟨hno,h.2.symm⟩,fun h => ⟨rfl,h.2.symm⟩⟩

/-- A CR LF right behind unread bytes with a line feed leaves the result as it is
exactly where that is the last of them and stored in no argument. -/
theorem redisParseInline_next {unread rest : Bytes} (hpos : 0<unread.length)
    (hsize : unread.length≤4095) (hc : strstr (unread++rest) crlf=some unread.length)
    (hzero : (0 : Byte)∉unread) (hlf : (10 : Byte)∈unread) :
    redisParseInline (unread++rest) unread.length=redisParseInline (unread++[0]) unread.length ↔
      unread.getD (unread.length-1) 0=10 ∧ (10 : Byte)∉unread.take (unread.length-1) ∧
        LastHidden unread := by
  have hend : lineEnd (unread++rest) unread.length=some unread.length := by
    rw [lineEnd,hc]
    rfl
  have hcrlfne : crlf≠[] := List.cons_ne_nil _ _
  have htwo : crlf.length=2 := rfl
  have hcrlf := strstr_late hcrlfne hc (by omega)
  have hfound := strstr_byte_found hzero hlf
  rcases hfound with ⟨j,hj⟩
  have hbyte := strstr_byte hj
  rw [redisParseInline_behind hend hpos le_rfl,redisParseInline_lineFeed hsize hcrlf hj,
    readAt_inside rest (by omega),readAt,List.drop_zero,List.take_of_length_le (by omega),
    Option.some_inj,Prod.mk.injEq]
  by_cases hlast : j+1=unread.length
  · have hsnoc := take_snoc hlast
    rw [hbyte.2.1] at hsnoc
    have hargs := lineArgs_snoc (unread.take j) (hsnoc.symm▸hzero) (by decide)
    rw [hsnoc] at hargs
    have hplace : unread.length-1=j := by omega
    rw [hplace,hargs]
    exact ⟨fun h => ⟨hbyte.2.1,hbyte.2.2,h.2⟩,fun h => ⟨hlast.symm,h.2.2⟩⟩
  · refine iff_of_false (fun h => hlast h.1.symm) ?_
    intro h
    refine h.2.1 ?_
    rw [←hbyte.2.1,List.getD_eq_getElem _ _ hbyte.1]
    exact List.mem_take_iff_getElem.mpr ⟨j,by omega,rfl⟩

/-- The line parser gives the same result as in a buffer that stops behind the
unread bytes exactly where it takes the line to end there. -/
theorem redisParseInline_rest {unread : Bytes} (rest : Bytes) (hpos : 0<unread.length)
    (hsize : unread.length≤4095) :
    redisParseInline (unread++rest) unread.length=redisParseInline (unread++[0]) unread.length ↔
      LineInside (unread++rest) unread.length := by
  have htake : (unread++rest).take unread.length=unread := List.take_left
  have hcrlfne : crlf≠[] := List.cons_ne_nil _ _
  have hlfne : ([10] : Bytes)≠[] := List.cons_ne_nil _ _
  have htwo : crlf.length=2 := rfl
  by_cases hbreak : BreakInside (unread++rest) unread.length
  · exact iff_of_true (redisParseInline_break hpos hbreak) (Or.inl hbreak)
  · rw [LineInside,or_iff_right hbreak]
    unfold BreakInside at hbreak
    cases hc : strstr (unread++rest) crlf with
    | some t =>
      rw [hc] at hbreak
      dsimp only at hbreak
      rw [not_or,htake] at hbreak
      have hzero := zero_not_mem_of_strstr hc hcrlfne (by omega)
      have hhidden : BreakHidden (unread++rest) unread.length ↔
          (t+1=unread.length ∨ t=unread.length ∧ unread.getD (unread.length-1) 0=10) ∧
            (10 : Byte)∉unread.take (unread.length-1) ∧ LastHidden unread := by
        rw [BreakHidden,hc,htake,List.getD_append _ _ _ _ (by omega),
          List.take_append_of_le_length (by omega)]
        exact ⟨fun ⟨u,hu,h⟩ => Option.some.inj hu▸h,fun h => ⟨t,rfl,h⟩⟩
      rw [hhidden]
      rcases Nat.lt_trichotomy t unread.length with hlt|heq|hgt
      · have hcut : t+1=unread.length := by omega
        have hplace : unread.length-1=t := by omega
        rw [redisParseInline_cut hsize hc hcut hzero,hplace]
        exact ⟨fun h => ⟨Or.inl hcut,h⟩,fun h => h.2⟩
      · have hlf : (10 : Byte)∈unread := by
          by_contra hno
          exact hbreak.2 ⟨heq,hno⟩
        rw [heq] at hc
        rw [redisParseInline_next hpos hsize hc hzero hlf]
        constructor
        · intro h
          exact ⟨Or.inr ⟨heq,h.1⟩,h.2⟩
        · intro h
          rcases h.1 with hcut|hnext
          · omega
          · exact ⟨hnext.2,h.2⟩
      · have hend : lineEnd (unread++rest) unread.length=some t := by
          rw [lineEnd,hc]
          rfl
        have hcrlf := strstr_late hcrlfne hc (by omega)
        exact iff_of_false (redisParseInline_far hpos hsize hend hcrlf hzero hgt) (by omega)
    | none =>
      rw [hc] at hbreak
      dsimp only at hbreak
      cases hl : strstr (unread++rest) [10] with
      | none =>
        rw [hl] at hbreak
        exact absurd trivial hbreak
      | some t =>
        rw [hl] at hbreak
        dsimp only at hbreak
        have hlate : unread.length<t+([10] : Bytes).length := by omega
        have hend : lineEnd (unread++rest) unread.length=some t := by
          rw [lineEnd,hc,hl]
          rfl
        have hcrlf := strstr_absent hcrlfne hc
        refine iff_of_false ?_ ?_
        · exact redisParseInline_far hpos hsize hend hcrlf
            (zero_not_mem_of_strstr hl hlfne hlate) (by omega)
        · intro h
          rcases h with ⟨t',ht',-⟩
          rw [hc] at ht'
          cases ht'

end HoneyDew.RedisLineBreak
