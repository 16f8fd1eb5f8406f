import HoneyDew.RedisLineBreak

/-!
# What the Redis parsers read beyond the unread bytes

The moved bytes are not terminated again, so the searches of the parsers run
on into bytes of earlier commands. A pass uses only unread bytes exactly when
the line break and the lengths it finds are those that a NUL right behind them
would leave.
-/

namespace HoneyDew.RedisUnread

open CText CMemory Service RedisCommands StepSystem RedisParser RedisBuffer RedisLengths RedisLineBreak

/-- The line break and the lengths that one pass finds are those with a NUL right
behind the unread bytes, as far as its result shows. -/
def EndsInside (b : RedisBuffer) : Prop :=
  LineInside b.memory b.used ∧ (b.memory.getD 0 0=42 → SameNumbers b.memory b.used)

instance (b : RedisBuffer) : Decidable (EndsInside b) := by
  unfold EndsInside
  infer_instance

/-- One pass uses only unread bytes: its result is the one for a buffer that
ends there, it consumes no more than them, and every argument is a piece of
them. -/
def ParsesUnread (b : RedisBuffer) : Prop :=
  redisParse b.memory b.used=redisParse (b.unread++[0]) b.used ∧
    ∀ consumed argv,redisParse b.memory b.used=some (consumed,argv) →
      consumed ≤ b.used ∧ ∀ a∈argv,a<:+:b.unread

/-- The first CR LF of an array stands where it stands behind the star. -/
theorem strstr_star {unread : Bytes} {i : ℕ} (hstar : unread.getD 0 0=42)
    (h : strstr (unread.drop 1) crlf=some i) : strstr unread crlf=some (i+1) := by
  cases unread with
  | nil => exact absurd hstar (by decide)
  | cons b tail =>
    have hb : b=42 := hstar
    have hvisible : cstr (b::tail)=b::cstr tail := by
      rw [hb]
      rfl
    have hnot : ¬crlf.isPrefixOf (b::cstr tail)=true := by
      intro hfront
      have hfirst := (List.cons_prefix_cons.mp (List.isPrefixOf_iff_prefix.mp hfront)).1
      exact absurd (hfirst.trans hb) (by decide)
    have htail : findSub crlf (cstr tail)=some i := h
    rw [strstr,hvisible,findSub,if_neg hnot,htail]
    rfl

/-- Where the array parser gives a result, it consumes more than the first line. -/
theorem redisParseRespArray_line {unread rest : Bytes} {result : ℕ×List Bytes}
    (hstar : unread.getD 0 0=42)
    (h : redisParseRespArray (unread++rest) unread.length=some result) :
    ∃ t,strstr unread crlf=some t ∧ t+2 ≤ unread.length ∧ t+2<result.1 := by
  by_cases hstart : unread.length<4 ∨ (unread++rest).getD 0 0≠42
  · rw [redisParseRespArray,if_pos hstart] at h
    cases h
  · rw [redisParseRespArray_eq hstart,headerAt_inside unread rest (by omega)] at h
    cases hfound : strstr (unread.drop 1) crlf with
    | none =>
      rw [hfound] at h
      cases h
    | some i =>
      have hline := strstr_star hstar hfound
      have hinside := strstr_length hline (List.cons_ne_nil _ _)
      have htwo : crlf.length=2 := rfl
      rw [hfound,Option.map_some,Option.bind_some] at h
      dsimp only at h
      split at h
      · cases h
      · rename_i hrange
        rw [not_or] at hrange
        obtain ⟨k,hk⟩ : ∃ k,(atoi (unread.drop 1++rest)).toNat=k+1 :=
          ⟨(atoi (unread.drop 1++rest)).toNat-1,by omega⟩
        rw [hk] at h
        obtain ⟨-,-,header,tail,hheader,-,-,-,htail,hresult⟩ := redisParseArgs_round h
        have hbehind := headerAt_behind hheader
        have hle := redisParseArgs_le htail
        refine ⟨i+1,hline,by omega,?_⟩
        rw [hresult]
        dsimp only
        omega

/-- A CR LF in the unread bytes is where the line parser ends the line, whatever
stands behind them. -/
theorem redisParseInline_line {unread : Bytes} (rest : Bytes) {t : ℕ}
    (h : strstr unread crlf=some t) :
    ∃ consumed args,redisParseInline (unread++rest) unread.length=some (consumed,args) ∧
      consumed ≤ t+2 := by
  have hend : lineEnd (unread++rest) unread.length=some t := by
    rw [lineEnd,strstr_append h rest]
    rfl
  rw [redisParseInline,hend,Option.map_some]
  by_cases hzero : t=0
  · rw [if_pos hzero]
    refine ⟨_,_,rfl,?_⟩
    split <;> omega
  · rw [if_neg hzero]
    refine ⟨_,_,rfl,?_⟩
    split
    · split <;> omega
    · omega

/-- An array that is parsed with one of two continuations and not with the other
shows in the bytes consumed. -/
theorem redisParse_array_shows {unread rest rest' : Bytes} {result : ℕ×List Bytes}
    (hstar : unread.getD 0 0=42)
    (h : redisParseRespArray (unread++rest) unread.length=some result) :
    redisParseInline (unread++rest') unread.length≠some result := by
  obtain ⟨t,hline,-,hmore⟩ := redisParseRespArray_line hstar h
  obtain ⟨consumed,args,hparse,hle⟩ := redisParseInline_line rest' hline
  rw [hparse]
  intro hsame
  have hconsumed := congrArg Prod.fst (Option.some.inj hsame)
  dsimp only at hconsumed
  omega

/-- One attempt gives the same result as in a buffer that stops behind the
unread bytes exactly where the searches end inside. -/
theorem redisParse_rest {unread : Bytes} (rest : Bytes) (hpos : 0<unread.length)
    (hsize : unread.length ≤ 4095) :
    redisParse (unread++rest) unread.length=redisParse (unread++[0]) unread.length ↔
      LineInside (unread++rest) unread.length ∧
        ((unread++rest).getD 0 0=42 → SameNumbers (unread++rest) unread.length) := by
  have hbyte : ∀ tail : Bytes,(unread++tail).getD 0 0=unread.getD 0 0 :=
    fun tail => List.getD_append _ _ _ _ hpos
  have hinline := redisParseInline_rest rest hpos hsize
  unfold redisParse
  rw [hbyte,hbyte]
  by_cases hstar : unread.getD 0 0=42
  · have harray := redisParseRespArray_rest rest hpos hstar
    rw [if_pos hstar,if_pos hstar,←hinline,←harray,imp_iff_right hstar]
    cases htheirs : redisParseRespArray (unread++rest) unread.length with
    | none =>
      cases hours : redisParseRespArray (unread++[0]) unread.length with
      | none => exact ⟨fun h => ⟨h,rfl⟩,fun h => h.1⟩
      | some ours =>
        refine iff_of_false ?_ (fun h => Option.some_ne_none _ h.2.symm)
        exact redisParse_array_shows hstar hours
    | some theirs =>
      cases hours : redisParseRespArray (unread++[0]) unread.length with
      | none =>
        refine iff_of_false ?_ (fun h => Option.some_ne_none _ h.2)
        exact (redisParse_array_shows hstar htheirs).symm
      | some ours =>
        obtain ⟨t,hline,hfits,-⟩ := redisParseRespArray_line hstar htheirs
        have hbreak : BreakInside (unread++rest) unread.length := by
          unfold BreakInside
          rw [strstr_append hline rest]
          exact Or.inl hfits
        exact ⟨fun h => ⟨redisParseInline_break hpos hbreak,h⟩,fun h => h.2⟩
  · rw [if_neg hstar,if_neg hstar,Option.none_or,Option.none_or,hinline]
    exact ⟨fun h => ⟨h,fun hs => absurd hs hstar⟩,fun h => h.1⟩

/-- A read inside the unread bytes is a piece of them. -/
theorem readAt_piece {unread : Bytes} (offset n : ℕ) : readAt unread offset n<:+:unread := by
  unfold readAt
  exact (List.take_prefix n _).isInfix.trans (List.drop_suffix offset unread).isInfix

/-- The argument loop consumes and stores unread bytes only. -/
theorem redisParseArgs_inside {unread rest : Bytes} {k p : ℕ} {result : ℕ×List Bytes}
    (h : redisParseArgs (unread++rest) unread.length k p=some result)
    (hp : 0<k ∨ p ≤ unread.length) :
    result.1 ≤ unread.length ∧ ∀ a∈result.2,a<:+:unread := by
  induction k generalizing p result with
  | zero =>
    have hpair := Option.some.inj h
    rw [←hpair]
    refine ⟨?_,fun a ha => absurd ha List.not_mem_nil⟩
    rcases hp with hp|hp
    · exact absurd hp (Nat.lt_irrefl 0)
    · exact hp
  | succ k ih =>
    obtain ⟨-,-,header,tail,-,-,hroom,-,htail,hresult⟩ := redisParseArgs_round h
    have hrest := ih htail (Or.inr hroom)
    rw [hresult]
    refine ⟨hrest.1,?_⟩
    intro a ha
    rcases List.mem_cons.mp ha with ha|ha
    · rw [ha,readAt_inside rest (by omega)]
      exact readAt_piece _ _
    · exact hrest.2 a ha

/-- In a buffer that stops behind the unread bytes an attempt consumes and
stores unread bytes only. -/
theorem redisParse_inside {unread : Bytes} (hpos : 0<unread.length) {result : ℕ×List Bytes}
    (h : redisParse (unread++[0]) unread.length=some result) :
    result.1 ≤ unread.length ∧ ∀ a∈result.2,a<:+:unread := by
  rcases redisParse_found h with ⟨-,-,header,-,hsome,-,hargs⟩|hinline
  · exact redisParseArgs_inside hargs (Or.inl (by omega))
  · unfold redisParseInline at hinline
    have hmap := Option.map_eq_some_iff.mp hinline
    rcases hmap with ⟨l,hend,hpair⟩
    have hcases := lineEnd_cases hend
    rw [←hpair]
    by_cases hzero : l=0
    · rw [if_pos hzero]
      refine ⟨?_,fun a ha => absurd ha List.not_mem_nil⟩
      dsimp only
      rw [List.getD_append _ _ _ _ hpos]
      rcases hcases with hc|hc|hc
      · split <;> omega
      · have hbyte := getD_of_strstr_zero (hzero ▸ hc.1)
        rw [hbyte,if_neg (by decide)]
        omega
      · omega
    · rw [if_neg hzero]
      have hle : l ≤ unread.length := by
        rcases hcases with hc|hc|hc
        · omega
        · omega
        · omega
      constructor
      · dsimp only
        split
        · split <;> omega
        · omega
      · intro a ha
        have hmapped := List.mem_map.mp ha
        rcases hmapped with ⟨token,htoken,heq⟩
        have htake : min l 4095 ≤ unread.length := by omega
        have hpiece := infix_of_mem_tokensFrom [] _ (List.mem_of_mem_take htoken)
        rw [List.nil_append,readAt_inside [0] (by omega)] at hpiece
        rw [←heq]
        have hline := hpiece.trans (cstr_front _).isInfix
        exact (List.take_prefix _ _).isInfix.trans (hline.trans (readAt_piece _ _))

/-- A pass uses only unread bytes exactly where its searches end inside. -/
theorem parsesUnread_iff {b : RedisBuffer} (hused : 0<b.used) : ParsesUnread b ↔ EndsInside b := by
  have hle := b.used_le
  have hlength : b.unread.length=b.used := by
    have hmemory := b.length_memory
    rw [unread,List.length_take]
    omega
  have hsplit : b.memory=b.unread++b.memory.drop b.used := (List.take_append_drop _ _).symm
  have hpos : 0<b.unread.length := by omega
  have hparse : redisParse b.memory b.used=redisParse (b.unread++[0]) b.used ↔ EndsInside b := by
    have hrest := redisParse_rest (b.memory.drop b.used) hpos (by omega)
    rwa [hlength,←hsplit] at hrest
  constructor
  · intro h
    exact hparse.mp h.1
  · intro h
    have hsame := hparse.mpr h
    refine ⟨hsame,?_⟩
    intro consumed argv hsome
    rw [hsame,←hlength] at hsome
    have hinside := redisParse_inside hpos hsome
    rw [hlength] at hinside
    exact hinside

/-- While the inner loop runs a NUL stands behind the unread bytes, so every
search ends in the array. -/
def NulBehind (s : RedisLoop) : Prop := s.phase=.parsing → (0 : Byte)∈s.buffer.memory.drop s.buffer.used

/-- A pass keeps the NUL behind the unread bytes. -/
theorem nulBehind_pass {s : RedisLoop} (hs : NulBehind s) (hphase : s.phase=.parsing) :
    NulBehind (redisPass s) := by
  intro hnext
  have hnul := hs hphase
  have hmemory := s.buffer.length_memory
  have hused := s.buffer.used_le
  unfold redisPass at hnext ⊢
  split at hnext
  · cases hnext
  · rename_i hpositive
    rw [if_neg hpositive]
    cases hparse : redisParse s.buffer.memory s.buffer.used with
    | none =>
      rw [hparse] at hnext
      cases hnext
    | some result =>
      dsimp only [consume]
      by_cases hrest : result.1<s.buffer.used
      · rw [if_pos hrest,if_pos hrest,writeAt,List.take_zero,List.nil_append]
        have hlength : (readAt s.buffer.memory result.1 (s.buffer.used-result.1)).length=
            s.buffer.used-result.1 := length_readAt (by omega)
        rw [hlength,Nat.zero_add,List.drop_append,hlength,Nat.sub_self,List.drop_zero,
          List.drop_eq_nil_of_le (by omega),List.nil_append]
        have hshift : s.buffer.used=s.buffer.used-result.1+result.1 := by omega
        rw [hshift,←List.drop_drop] at hnul
        exact List.mem_of_mem_drop hnul
      · rw [if_neg hrest,if_neg hrest,List.drop_zero]
        exact List.mem_of_mem_drop hnul

/-- Right after a `recv` call the NUL stands at the end of the unread bytes. -/
theorem nulBehind_receive (s : RedisLoop) (r : RecvResult) :
    NulBehind (redisReceive s r) := by
  intro hnext
  cases r with
  | failed => cases hnext
  | data bytes =>
    unfold redisReceive at hnext ⊢
    dsimp only at hnext ⊢
    split at hnext
    · cases hnext
    · rename_i hsome
      rw [if_neg hsome]
      have hmemory := s.buffer.length_memory
      have hkept : s.buffer.kept ≤ 4095 := by
        unfold kept
        split <;> omega
      have hchunk : (bytes.take s.buffer.free).length ≤ s.buffer.free := List.length_take_le _ _
      unfold free at hchunk
      dsimp only [receive]
      have hfront : (s.buffer.memory.take s.buffer.kept++bytes.take s.buffer.free).length=
          s.buffer.kept+(bytes.take s.buffer.free).length := by
        rw [List.length_append,List.length_take]
        omega
      unfold writeAt
      rw [←List.append_assoc,List.append_assoc,List.drop_append,hfront,Nat.sub_self,List.drop_zero]
      refine List.mem_append_right _ (List.mem_append_left _ ?_)
      exact List.mem_singleton_self 0

/-- A NUL stands behind the unread bytes in every reachable state. -/
theorem nulBehind_run {memory : Bytes} {h : memory.length=4096} {labels : List RedisLabel}
    {s : RedisLoop} (hrun : execute redisStep (.start memory h) labels=some s) : NulBehind s := by
  have hstart : NulBehind (.start memory h) := by
    intro hphase
    cases hphase
  refine execute_invariant ?_ hstart hrun
  intro s a t hs hstep
  cases a with
  | recv r =>
    rw [redisStep] at hstep
    split at hstep
    · rw [←Option.some.inj hstep]
      exact nulBehind_receive s r
    · cases hstep
  | pass =>
    rw [redisStep] at hstep
    split at hstep
    · rename_i hphase
      rw [←Option.some.inj hstep]
      exact nulBehind_pass hs hphase
    · cases hstep

/-- In every state that the inner loop reaches, for every sequence of `recv`
results and whatever the stack held before: the next pass uses only unread bytes
exactly where its searches end inside them, and never runs off the array. -/
theorem pass_uses_unread_bytes (memory : Bytes) (h : memory.length=4096)
    (labels : List RedisLabel) {s : RedisLoop}
    (hrun : execute redisStep (.start memory h) labels=some s) (hphase : s.phase=.parsing)
    (hused : 0<s.buffer.used) :
    (ParsesUnread s.buffer ↔ EndsInside s.buffer) ∧
      (0 : Byte)∈s.buffer.memory.drop s.buffer.used :=
  ⟨parsesUnread_iff hused,nulBehind_run hrun hphase⟩

/-- A receive buffer whose stack bytes were zero. -/
def zeroStack : Bytes := List.replicate 4096 0

/-- The zeroed stack has the size of the buffer. -/
theorem length_zeroStack : zeroStack.length=4096 := List.length_replicate

/-- One complete line in one segment is parsed from its own bytes. -/
theorem pass_uses_unread_line :
    ∃ s,execute redisStep (.start zeroStack length_zeroStack) [.recv (.data (text "PING"++crlf))]=
        some s ∧ ParsesUnread s.buffer :=
  ⟨_,rfl,(pass_uses_unread_bytes zeroStack length_zeroStack [.recv (.data (text "PING"++crlf))] rfl
    rfl (by decide)).1.mpr (by decide)⟩

/-- A whole line and the beginning of the next one arrive together: the second
pass takes stale bytes of the first line for arguments and consumes thirteen
of four unread bytes. -/
theorem pass_reads_stale_bytes :
    ∃ s,execute redisStep (.start zeroStack length_zeroStack)
        [.recv (.data (text "SET aaaa bbbb"++crlf++text "PING")),.pass]=some s ∧
      s.phase=.parsing ∧ s.buffer.used=4 ∧
        redisParse s.buffer.memory s.buffer.used=some (13,[text "PINGaaaa",text "bbbb"]) :=
  ⟨_,rfl,rfl,rfl,by decide⟩

end HoneyDew.RedisUnread
