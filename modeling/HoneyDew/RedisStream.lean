import HoneyDew.RedisUnread

/-!
# The Redis service on a stream of encoded commands

Commands arrive as RESP arrays cut into segments. A segment made of whole
encodings leaves an empty buffer and dispatches its commands. A segment that
ends inside an encoding hands the beginning of the array to the line parser.
-/

namespace HoneyDew.RedisStream

open CText CMemory Service RedisCommands StepSystem RedisParser RedisBuffer RedisLengths RedisUnread

/-- One argument as a bulk string. -/
def encodeArg (a : Bytes) : Bytes := 36::(decimal a.length++crlf++(a++crlf))

/-- One command as an array of bulk strings. -/
def encodeCommand (argv : List Bytes) : Bytes :=
  42::(decimal argv.length++crlf++argv.flatMap encodeArg)

/-- The byte stream of a list of commands. -/
def encodings (commands : List RedisCommand) : Bytes :=
  commands.flatMap (fun c => encodeCommand c.argv)

/-- The commands up to and including the first that closes the connection. -/
def upToClosing : List RedisCommand → List RedisCommand
  | [] => []
  | c::commands => if redisCloses c.argv then [c] else c::upToClosing commands

/-- Every segment that ends before the end of the first closing command ends
at the end of a command. -/
def Aligned (commands : List RedisCommand) (segments : List Bytes) : Prop :=
  ∀ k,(segments.take k).flatten.length<(encodings (upToClosing commands)).length →
    ∃ j,(segments.take k).flatten.length=(encodings (commands.take j)).length

/-- A printed number has no byte that ends a line or a string. -/
theorem decimal_line (n : ℕ) : ∀ b∈decimal n,b≠0 ∧ b≠13 := by
  intro b hb
  have hbounds := digit_bounds (isDigit_of_mem_decimal hb)
  exact ⟨hbounds.1,hbounds.2.1⟩

/-- What stands behind a line and its CR LF. -/
theorem drop_line {unread line tail : Bytes} {p : ℕ} (h : unread.drop p=line++crlf++tail) :
    unread.drop (p+line.length+2)=tail := by
  have hskip : (line++crlf).length=line.length+2 := List.length_append
  rw [Nat.add_assoc,←List.drop_drop,h,←hskip,List.drop_left]

/-- An argument is announced by a dollar sign. -/
theorem dollar_ahead {unread tail : Bytes} (rest : Bytes) {p : ℕ} (hlt : p<unread.length)
    (h : unread.drop p=36::tail) : (unread++rest).getD p 0=36 := by
  rw [List.getD_append _ _ _ _ hlt,List.getD_eq_getElem _ _ hlt]
  rw [List.drop_eq_getElem_cons hlt] at h
  exact (List.cons.inj h).1

/-- A header whose CR LF is unread is read. -/
theorem headerAt_decimal {unread tail : Bytes} (rest : Bytes) {p k : ℕ} (hp : p≤unread.length)
    (hunread : unread.drop p=decimal k++crlf++tail) (hk : k<2^31) :
    headerAt (unread++rest) unread.length p=some ((k : ℤ),p+(decimal k).length+2) := by
  have hlength := congrArg List.length hunread
  rw [List.length_drop,List.length_append,List.length_append,show crlf.length=2 from rfl] at hlength
  have hfound := strstr_crlf (decimal_line k) (tail++rest)
  have hnumber : atoi (decimal k++(crlf++(tail++rest)))=k :=
    atoi_decimal hk (fun b hb => by
      have hb' : (13 : Byte)=b := Option.some.inj hb
      rw [←hb']
      decide)
  unfold headerAt
  rw [List.drop_append_of_le_length hp,hunread,List.append_assoc (decimal k++crlf),hfound,
    Option.bind_some,if_pos (by omega),List.append_assoc (decimal k),hnumber]

/-- A header whose CR LF is not yet received whole is not read. -/
theorem headerAt_cut {unread missing tail : Bytes} (rest : Bytes) {p k : ℕ} (hp : p≤unread.length)
    (hunread : decimal k++crlf++tail=unread.drop p++missing)
    (hshort : (unread.drop p).length<(decimal k).length+2) :
    (headerAt (unread++rest) unread.length p).filter (fun header => header.2≤unread.length)=none := by
  rw [headerAt_inside unread rest hp]
  cases hfound : strstr (unread.drop p) crlf with
  | none => rfl
  | some i =>
    have hfits := strstr_length hfound (List.cons_ne_nil _ _)
    have hwhole := strstr_append hfound missing
    rw [←hunread,strstr_crlf (decimal_line k) tail] at hwhole
    have hsame := Option.some.inj hwhole
    have htwo : crlf.length=2 := rfl
    omega

/-- The arguments of a sent command as `argv` stores them: an argument and its NUL
take `REDIS_MAX_ARG_LEN` bytes at most. -/
def stored (args : List Bytes) : List Bytes := args.map (fun a => a.take 1023)

/-- Short arguments are stored whole. -/
theorem stored_of_le {args : List Bytes} (h : ∀ a∈args,a.length≤1023) : stored args=args := by
  have hsame : ∀ a∈args,a.take 1023=id a := fun a ha => List.take_of_length_le (h a ha)
  rw [stored,List.map_congr_left hsame,List.map_id]

/-- Arguments that are unread whole are read. -/
theorem redisParseArgs_sent {unread more : Bytes} (rest : Bytes) {args : List Bytes} {p : ℕ}
    (hp : p≤unread.length) (hunread : unread.drop p=args.flatMap encodeArg++more)
    (hargs : ∀ a∈args,a.length<2^31) :
    redisParseArgs (unread++rest) unread.length args.length p=
      some (p+(args.flatMap encodeArg).length,stored args) := by
  induction args generalizing p with
  | nil => rfl
  | cons a args ih =>
    have ha := hargs a List.mem_cons_self
    have hlength := congrArg List.length hunread
    have hhead : unread.drop (p+1)=decimal a.length++crlf++((a++crlf)++(args.flatMap encodeArg++more)) := by
      rw [←List.drop_drop,hunread,List.flatMap_cons,encodeArg]
      simp only [List.cons_append,List.drop_succ_cons,List.drop_zero,List.append_assoc]
    have hencode : (encodeArg a).length=(decimal a.length).length+2+a.length+2+1 := by
      rw [encodeArg,List.length_cons,List.length_append,List.length_append,List.length_append,
        show crlf.length=2 from rfl]
      omega
    rw [List.length_drop,List.flatMap_cons,List.length_append,List.length_append,hencode] at hlength
    have hlt : p<unread.length := by omega
    have hdollar := dollar_ahead rest hlt hunread
    have hneither : ¬(unread.length≤p ∨ (unread++rest).getD p 0≠36) := by
      rw [not_or]
      exact ⟨by omega,fun hne => hne hdollar⟩
    have hheader := headerAt_decimal rest (by omega) hhead ha
    have hpayload := drop_line hhead
    have hend : readAt (unread++rest) (p+1+(decimal a.length).length+2+a.length) 2=crlf := by
      rw [readAt_inside rest (by omega),readAt,←List.drop_drop,hpayload,List.append_assoc,
        List.drop_left]
      rfl
    have harg : readAt (unread++rest) (p+1+(decimal a.length).length+2) (min a.length 1023)=
        a.take 1023 := by
      rw [readAt_inside rest (by omega),readAt,hpayload,List.append_assoc,
        List.take_append_of_le_length (Nat.min_le_left _ _),Nat.min_comm,List.take_eq_take_min.symm]
    have hnext := drop_line hpayload
    have hstored : stored (a::args)=a.take 1023::stored args := rfl
    have hrest := ih (by omega) hnext (fun b hb => hargs b (List.mem_cons_of_mem _ hb))
    rw [List.length_cons,redisParseArgs,if_neg hneither,hheader,Option.bind_some]
    dsimp only
    rw [Int.toNat_natCast,if_neg (by omega),if_neg (not_not.mpr hend),hrest,Option.map_some,harg,
      List.flatMap_cons,List.length_append,hencode,hstored]
    dsimp only
    congr 2
    omega

/-- What stands behind the first of two equal fronts. -/
theorem append_split {front front' back back' : Bytes} (h : front++back=front'++back')
    (hle : front.length≤front'.length) : ∃ middle,front'=front++middle ∧ back=middle++back' := by
  have hgrown : front<+:front' :=
    List.prefix_of_prefix_length_le (List.prefix_append front back) (h ▸ List.prefix_append _ _) hle
  rcases hgrown with ⟨middle,hmiddle⟩
  refine ⟨middle,hmiddle.symm,?_⟩
  rw [←hmiddle,List.append_assoc] at h
  exact List.append_cancel_left h

/-- Arguments that are not unread whole are not read. -/
theorem redisParseArgs_cut {unread missing : Bytes} (rest : Bytes) {args : List Bytes} {p : ℕ}
    (hp : p≤unread.length) (hunread : args.flatMap encodeArg=unread.drop p++missing)
    (hmissing : missing≠[]) (hargs : ∀ a∈args,a.length≤1023) :
    redisParseArgs (unread++rest) unread.length args.length p=none := by
  induction args generalizing p with
  | nil => exact absurd (List.append_eq_nil_iff.mp hunread.symm).2 hmissing
  | cons a args ih =>
    have ha := hargs a List.mem_cons_self
    by_cases hend : unread.length≤p
    · exact redisParseArgs_end _ (Nat.succ_pos _) hend
    · have hlt : p<unread.length := by omega
      have hcons := List.drop_eq_getElem_cons hlt
      rw [hcons,List.flatMap_cons,encodeArg,List.cons_append,List.cons_append] at hunread
      have hfirst := (List.cons.inj hunread).1
      have hhead : decimal a.length++crlf++((a++crlf)++args.flatMap encodeArg)=
          unread.drop (p+1)++missing := by
        rw [←(List.cons.inj hunread).2]
        simp only [List.append_assoc]
      have hdollar := dollar_ahead rest hlt (hcons.trans (congrArg (·::_) hfirst.symm))
      have hneither : ¬(unread.length≤p ∨ (unread++rest).getD p 0≠36) := by
        rw [not_or]
        exact ⟨hend,fun hne => hne hdollar⟩
      rw [List.length_cons,redisParseArgs_succ hneither]
      by_cases hshort : (unread.drop (p+1)).length<(decimal a.length).length+2
      · rw [headerAt_cut rest (by omega) hhead hshort]
        rfl
      · have hskip : (decimal a.length++crlf).length=(decimal a.length).length+2 := List.length_append
        have hsplit := append_split hhead (by omega)
        rcases hsplit with ⟨payload,hpayload,hbehind⟩
        have hlength := congrArg List.length hpayload
        rw [List.length_drop,List.length_append,hskip] at hlength
        have hheader := headerAt_decimal rest (by omega) hpayload (by omega : a.length<2^31)
        rw [hheader,Option.filter_some,if_pos (decide_eq_true (by omega)),Option.bind_some]
        dsimp only
        rw [Int.toNat_natCast]
        by_cases hroom : unread.length<p+1+(decimal a.length).length+2+a.length+2
        · rw [if_pos (Or.inr hroom)]
        · rw [if_neg (by omega)]
          have hskip' : (a++crlf).length=a.length+2 := List.length_append
          have hsplit' := append_split hbehind (by omega)
          rcases hsplit' with ⟨others,hothers,hmore⟩
          have hnext := drop_line ((drop_line hpayload).trans hothers)
          have hnone := ih (p := p+1+(decimal a.length).length+2+a.length+2) (by omega)
            (by rw [hnext]; exact hmore) (fun b hb => hargs b (List.mem_cons_of_mem _ hb))
          rw [hnone]
          split <;> rfl

/-- An encoding starts with a star and has at least four bytes. -/
theorem encodeCommand_shape (argv : List Bytes) :
    encodeCommand argv=42::(decimal argv.length++crlf++argv.flatMap encodeArg) ∧
      (encodeCommand argv).length=1+(decimal argv.length).length+2+(argv.flatMap encodeArg).length ∧
      4≤(encodeCommand argv).length := by
  have hdigits := List.length_pos_iff.mpr (decimal_ne_nil argv.length)
  have hlength : (encodeCommand argv).length=
      1+(decimal argv.length).length+2+(argv.flatMap encodeArg).length := by
    rw [encodeCommand,List.length_cons,List.length_append,List.length_append,
      show crlf.length=2 from rfl]
    omega
  exact ⟨rfl,hlength,by omega⟩

/-- A command that a client can send: one to 32 arguments whose lengths are read
as they are printed. -/
structure Sendable (args : List Bytes) : Prop where
  /-- There is an argument. -/
  argc_pos : args≠[]
  /-- There are at most `REDIS_MAX_ARGS` arguments. -/
  argc_le : args.length≤32
  /-- The lengths fit an `int`. -/
  arg_lt : ∀ a∈args,a.length<2^31

/-- A sent command that is unread whole is parsed as an array. -/
theorem redisParseRespArray_sent {unread more : Bytes} (rest : Bytes) {args : List Bytes}
    (hsend : Sendable args) (hunread : unread=encodeCommand args++more) :
    redisParseRespArray (unread++rest) unread.length=
      some ((encodeCommand args).length,stored args) := by
  have hargc := hsend.argc_le
  have hpos : 0<args.length := List.length_pos_iff.mpr hsend.argc_pos
  have hshape := encodeCommand_shape args
  have hlength := congrArg List.length hunread
  rw [List.length_append] at hlength
  have hstar : (unread++rest).getD 0 0=42 := by
    rw [hunread,hshape.1]
    rfl
  have hgo : ¬(unread.length<4 ∨ (unread++rest).getD 0 0≠42) := by
    rw [not_or]
    exact ⟨by omega,fun hne => hne hstar⟩
  have hhead : unread.drop 1=decimal args.length++crlf++(args.flatMap encodeArg++more) := by
    rw [hunread,hshape.1]
    simp only [List.cons_append,List.drop_succ_cons,List.drop_zero,List.append_assoc]
  have hbody := drop_line hhead
  have hheader := headerAt_decimal rest (by omega) hhead (by omega : args.length<2^31)
  have hargs := redisParseArgs_sent rest (by omega) hbody hsend.arg_lt
  rw [redisParseRespArray,if_neg hgo,hheader,Option.bind_some]
  dsimp only
  rw [if_neg (by omega),Int.toNat_natCast,hargs,hshape.2.1]

/-- A command that is not unread whole is no array. -/
theorem redisParseRespArray_cut {unread missing : Bytes} (rest : Bytes) (c : RedisCommand)
    (hunread : encodeCommand c.argv=unread++missing) (hmissing : missing≠[]) :
    redisParseRespArray (unread++rest) unread.length=none := by
  have hargc := c.argc_le
  by_cases hgo : unread.length<4 ∨ (unread++rest).getD 0 0≠42
  · rw [redisParseRespArray,if_pos hgo]
  · rw [redisParseRespArray_eq hgo]
    rw [not_or] at hgo
    have hhead : decimal c.argv.length++crlf++c.argv.flatMap encodeArg=unread.drop 1++missing := by
      have hdrop := congrArg (List.drop 1) hunread
      rw [List.drop_append_of_le_length (by omega)] at hdrop
      exact hdrop
    by_cases hshort : (unread.drop 1).length<(decimal c.argv.length).length+2
    · rw [headerAt_cut rest (by omega) hhead hshort]
      rfl
    · have hskip : (decimal c.argv.length++crlf).length=(decimal c.argv.length).length+2 :=
        List.length_append
      have hsplit := append_split hhead (by omega)
      rcases hsplit with ⟨args,hargs,hbehind⟩
      have hlength := congrArg List.length hargs
      rw [List.length_drop,List.length_append,hskip] at hlength
      have hheader := headerAt_decimal rest (by omega) hargs (by omega : c.argv.length<2^31)
      have hbody := drop_line hargs
      have hle : 1+(decimal c.argv.length).length+2≤unread.length := by omega
      rw [←hbody] at hbehind
      have hnone := redisParseArgs_cut rest hle hbehind hmissing c.arg_le
      rw [hheader,Option.filter_some,if_pos (decide_eq_true (by omega)),Option.bind_some]
      dsimp only
      rw [Int.toNat_natCast,hnone]
      split <;> rfl

/-- A sent command that is unread whole is parsed and consumed whole. -/
theorem redisParse_sent {unread more : Bytes} (rest : Bytes) {args : List Bytes}
    (hsend : Sendable args) (hunread : unread=encodeCommand args++more) :
    redisParse (unread++rest) unread.length=some ((encodeCommand args).length,stored args) := by
  have hstar : (unread++rest).getD 0 0=42 := by
    rw [hunread,(encodeCommand_shape args).1]
    rfl
  unfold redisParse
  rw [if_pos hstar,redisParseRespArray_sent rest hsend hunread]
  rfl

/-- A command as the dispatcher receives it can be sent and is stored whole. -/
theorem sendable_argv (c : RedisCommand) : Sendable c.argv ∧ stored c.argv=c.argv :=
  ⟨⟨c.argc_pos,c.argc_le,fun a ha => (c.arg_le a ha).trans_lt (by omega)⟩,stored_of_le c.arg_le⟩

/-- A command that is unread whole is parsed and consumed whole. -/
theorem redisParse_encode {unread more : Bytes} (rest : Bytes) (c : RedisCommand)
    (hunread : unread=encodeCommand c.argv++more) :
    redisParse (unread++rest) unread.length=some ((encodeCommand c.argv).length,c.argv) := by
  have hparse := redisParse_sent rest (sendable_argv c).1 hunread
  rwa [(sendable_argv c).2] at hparse

/-- The buffer is its unread bytes and what stands behind them. -/
theorem memory_split (b : RedisBuffer) :
    b.memory=b.unread++b.memory.drop b.used ∧ b.unread.length=b.used := by
  have hmemory := b.length_memory
  have hused := b.used_le
  refine ⟨(List.take_append_drop _ _).symm,?_⟩
  rw [unread,List.length_take]
  omega

/-- What a buffer holds after a consumption. -/
theorem consume_spec (b : RedisBuffer) (k : ℕ) :
    (b.consume k).unread=b.unread.drop k ∧ (b.consume k).used=b.used-k ∧
      (b.consume k).memory.drop (b.consume k).used=b.memory.drop (b.used-k) := by
  have hmemory := b.length_memory
  have hused := b.used_le
  unfold unread consume
  dsimp only
  by_cases hlt : k<b.used
  · have hread : (readAt b.memory k (b.used-k)).length=b.used-k := length_readAt (by omega)
    have hmoved : writeAt b.memory 0 (readAt b.memory k (b.used-k))=
        readAt b.memory k (b.used-k)++b.memory.drop (b.used-k) := by
      rw [writeAt,List.take_zero,List.nil_append,hread,Nat.zero_add]
    rw [if_pos hlt,if_pos hlt,hmoved]
    refine ⟨?_,rfl,?_⟩
    · rw [List.take_append_of_le_length hread.ge,List.take_of_length_le hread.le,readAt,List.drop_take]
    · rw [List.drop_append_of_le_length hread.ge,List.drop_eq_nil_of_le hread.le,List.nil_append]
  · rw [if_neg hlt,if_neg hlt,Nat.sub_eq_zero_of_le (by omega)]
    refine ⟨?_,rfl,rfl⟩
    rw [List.take_zero,List.drop_eq_nil_of_le]
    rw [List.length_take]
    omega

/-- A pass that parses something consumes and dispatches it. -/
theorem redisPass_some {s : RedisLoop} {consumed : ℕ} {argv : List Bytes} (hused : s.buffer.used≠0)
    (hparse : redisParse s.buffer.memory s.buffer.used=some (consumed,argv)) :
    redisPass s=⟨s.buffer.consume consumed,
      if argv≠[] ∧ redisCloses argv then .closed else .parsing,
      if argv=[] then s.dispatched else s.dispatched++[argv]⟩ := by
  unfold redisPass
  rw [if_neg hused,hparse]

/-- A pass over a sent command that is unread whole dispatches and consumes it. -/
theorem redisPass_sent {s : RedisLoop} {more : Bytes} {args : List Bytes} (hsend : Sendable args)
    (hunread : s.buffer.unread=encodeCommand args++more) :
    (redisPass s).buffer.unread=more ∧
      (redisPass s).buffer=s.buffer.consume (encodeCommand args).length ∧
      (redisPass s).dispatched=s.dispatched++[stored args] ∧
      (redisPass s).phase=(if redisCloses (stored args) then .closed else .parsing) := by
  have hsplit := memory_split s.buffer
  have hshape := encodeCommand_shape args
  have hlength := congrArg List.length hunread
  rw [hsplit.2,List.length_append] at hlength
  have hparse := redisParse_sent (s.buffer.memory.drop s.buffer.used) hsend hunread
  rw [hsplit.2,←hsplit.1] at hparse
  have hpos : stored args≠[] := fun h => hsend.argc_pos (List.map_eq_nil_iff.mp h)
  rw [redisPass_some (by omega) hparse]
  refine ⟨?_,rfl,?_,?_⟩
  · rw [(consume_spec s.buffer _).1,hunread,List.drop_left]
  · rw [if_neg hpos]
  · simp only [ne_eq,hpos,not_false_eq_true,true_and]

/-- A pass over a command that is unread whole dispatches and consumes it. -/
theorem redisPass_encode {s : RedisLoop} {more : Bytes} {c : RedisCommand}
    (hunread : s.buffer.unread=encodeCommand c.argv++more) :
    (redisPass s).buffer.unread=more ∧
      (redisPass s).buffer=s.buffer.consume (encodeCommand c.argv).length ∧
      (redisPass s).dispatched=s.dispatched++[c.argv] ∧
      (redisPass s).phase=(if redisCloses c.argv then .closed else .parsing) := by
  have hpass := redisPass_sent (sendable_argv c).1 hunread
  rwa [(sendable_argv c).2] at hpass

/-- The inner loop dispatches sent commands that are unread whole and do not close
the connection. -/
theorem redisDrain_sent {sent : List (List Bytes)} {s : RedisLoop} {more : Bytes} (fuel : ℕ)
    (hphase : s.phase=.parsing) (hunread : s.buffer.unread=sent.flatMap encodeCommand++more)
    (hsend : ∀ args∈sent,Sendable args) (hopen : ∀ args∈sent,redisCloses (stored args)=false) :
    ∃ t,redisDrain (sent.length+fuel) s=redisDrain fuel t ∧ t.phase=.parsing ∧
      t.buffer.unread=more ∧ t.dispatched=s.dispatched++sent.map stored := by
  induction sent generalizing s with
  | nil =>
    refine ⟨s,?_,hphase,hunread,?_⟩
    · rw [List.length_nil,Nat.zero_add]
    · rw [List.map_nil,List.append_nil]
  | cons args sent ih =>
    have hfirst : s.buffer.unread=encodeCommand args++(sent.flatMap encodeCommand++more) := by
      rw [hunread,List.flatMap_cons,List.append_assoc]
    have hpass := redisPass_sent (hsend args List.mem_cons_self) hfirst
    have hstays := hopen args List.mem_cons_self
    rw [hstays] at hpass
    have hrest := ih hpass.2.2.2 hpass.1 (fun d hd => hsend d (List.mem_cons_of_mem _ hd))
      (fun d hd => hopen d (List.mem_cons_of_mem _ hd))
    rcases hrest with ⟨t,hdrain,hparsing,hmore,hdispatched⟩
    refine ⟨t,?_,hparsing,hmore,?_⟩
    · rw [List.length_cons,Nat.add_right_comm,redisDrain,if_pos hphase]
      exact hdrain
    · rw [hdispatched,hpass.2.2.1,List.map_cons,List.append_assoc,List.singleton_append]

/-- The encodings of commands are those of their arguments. -/
theorem encodings_eq (commands : List RedisCommand) :
    encodings commands=(commands.map RedisCommand.argv).flatMap encodeCommand := by
  rw [encodings,List.flatMap_map]

/-- The arguments of commands can be sent, are stored whole, and close nothing more
than the commands do. -/
theorem sent_argv {commands : List RedisCommand} (hopen : ∀ c∈commands,redisCloses c.argv=false) :
    (∀ args∈commands.map RedisCommand.argv,Sendable args) ∧
      (∀ args∈commands.map RedisCommand.argv,redisCloses (stored args)=false) ∧
      (commands.map RedisCommand.argv).map stored=commands.map RedisCommand.argv := by
  have hstored : ∀ c∈commands,(stored∘RedisCommand.argv) c=c.argv := fun c _ => (sendable_argv c).2
  refine ⟨?_,?_,?_⟩
  · intro args hargs
    obtain ⟨c,_,hargv⟩ := List.mem_map.mp hargs
    rw [←hargv]
    exact (sendable_argv c).1
  · intro args hargs
    obtain ⟨c,hc,hargv⟩ := List.mem_map.mp hargs
    rw [←hargv,(sendable_argv c).2]
    exact hopen c hc
  · rw [List.map_map,List.map_congr_left hstored]

/-- The inner loop dispatches commands that are unread whole and do not close
the connection. -/
theorem redisDrain_encodings {commands : List RedisCommand} {s : RedisLoop} {more : Bytes}
    (fuel : ℕ) (hphase : s.phase=.parsing) (hunread : s.buffer.unread=encodings commands++more)
    (hopen : ∀ c∈commands,redisCloses c.argv=false) :
    ∃ t,redisDrain (commands.length+fuel) s=redisDrain fuel t ∧ t.phase=.parsing ∧
      t.buffer.unread=more ∧ t.dispatched=s.dispatched++commands.map RedisCommand.argv := by
  have hsent := sent_argv hopen
  rw [encodings_eq] at hunread
  have hdrain := redisDrain_sent fuel hphase hunread hsent.1 hsent.2.1
  rwa [List.length_map,hsent.2.2] at hdrain

/-- There are at least as many bytes as sent commands. -/
theorem length_le_sent (sent : List (List Bytes)) :
    sent.length≤(sent.flatMap encodeCommand).length := by
  induction sent with
  | nil => exact Nat.le_refl 0
  | cons args sent ih =>
    have hshape := (encodeCommand_shape args).2.2
    rw [List.flatMap_cons,List.length_append,List.length_cons]
    omega

/-- An encoding has at least as many bytes as its list has commands. -/
theorem length_le_encodings (commands : List RedisCommand) :
    commands.length≤(encodings commands).length := by
  have hsent := length_le_sent (commands.map RedisCommand.argv)
  rwa [List.length_map,←encodings_eq] at hsent

/-- A segment read into an empty buffer is what is unread. -/
theorem redisReceive_empty {s : RedisLoop} {segment : Bytes} (hused : s.buffer.used=0)
    (hne : segment≠[]) (hfits : segment.length≤4095) :
    (redisReceive s (.data segment)).phase=.parsing ∧
      (redisReceive s (.data segment)).buffer.unread=segment ∧
      (redisReceive s (.data segment)).buffer.used=segment.length ∧
      (redisReceive s (.data segment)).dispatched=s.dispatched := by
  have hmemory := s.buffer.length_memory
  have hkept : s.buffer.kept=0 := by
    rw [kept,if_neg (by omega),hused]
  have hfree : s.buffer.free=4095 := by
    rw [free,hkept]
  have htake : segment.take s.buffer.free=segment := List.take_of_length_le (by omega)
  have hunused : ¬segment.take s.buffer.free=[] := by
    rw [htake]
    exact hne
  unfold redisReceive
  dsimp only
  rw [if_neg hunused]
  refine ⟨rfl,?_,?_,rfl⟩
  · dsimp only [unread,receive]
    rw [htake,hkept,Nat.zero_add,writeAt,List.take_zero,List.nil_append,List.append_assoc,
      List.take_left]
  · dsimp only [receive]
    rw [htake,hkept,Nat.zero_add]

/-- A pass only adds to what has been dispatched. -/
theorem dispatched_pass (s : RedisLoop) : s.dispatched<+:(redisPass s).dispatched := by
  unfold redisPass
  split
  · exact List.prefix_refl _
  · split
    · exact List.prefix_refl _
    · dsimp only
      split
      · exact List.prefix_refl _
      · exact List.prefix_append _ _

/-- The inner loop only adds to what has been dispatched. -/
theorem dispatched_drain (fuel : ℕ) (s : RedisLoop) :
    s.dispatched<+:(redisDrain fuel s).dispatched := by
  induction fuel generalizing s with
  | zero => exact List.prefix_refl _
  | succ fuel ih =>
    rw [redisDrain]
    split
    · exact (dispatched_pass s).trans (ih _)
    · exact List.prefix_refl _

/-- A `recv` call dispatches nothing. -/
theorem dispatched_receive (s : RedisLoop) (r : RecvResult) :
    (redisReceive s r).dispatched=s.dispatched := by
  cases r with
  | failed => rfl
  | data bytes =>
    unfold redisReceive
    dsimp only
    split <;> rfl

/-- The outer loop only adds to what has been dispatched. -/
theorem dispatched_run (s : RedisLoop) (results : List RecvResult) :
    s.dispatched<+:(redisRun s results).dispatched := by
  induction results generalizing s with
  | nil => exact List.prefix_refl _
  | cons r results ih =>
    rw [redisRun]
    split
    · have hreceive := dispatched_receive s r
      have hdrain := dispatched_drain ((redisReceive s r).buffer.used+1) (redisReceive s r)
      rw [hreceive] at hdrain
      exact hdrain.trans (ih _)
    · exact List.prefix_refl _

/-- Outside of the inner loop no pass is made. -/
theorem redisDrain_idle {s : RedisLoop} (h : s.phase≠.parsing) (fuel : ℕ) : redisDrain fuel s=s := by
  cases fuel with
  | zero => rfl
  | succ fuel => rw [redisDrain,if_neg h]

/-- A closed loop reads no more segments. -/
theorem redisRun_closed {s : RedisLoop} (h : s.phase=.closed) (results : List RecvResult) :
    redisRun s results=s := by
  cases results with
  | nil => rfl
  | cons r results => rw [redisRun,if_neg (by rw [h]; decide)]

/-- With nothing left to parse the inner loop ends. -/
theorem redisDrain_empty {fuel : ℕ} {s : RedisLoop} (hfuel : 0<fuel) (hphase : s.phase=.parsing)
    (hused : s.buffer.used=0) : redisDrain fuel s={s with phase := .receiving} := by
  obtain ⟨k,rfl⟩ : ∃ k,fuel=k+1 := ⟨fuel-1,by omega⟩
  have hpass : redisPass s={s with phase := .receiving} := if_pos hused
  have hidle : ({s with phase := .receiving} : RedisLoop).phase≠.parsing := RedisPhase.noConfusion
  rw [redisDrain,if_pos hphase,hpass]
  exact redisDrain_idle hidle k

/-- One segment as the outer loop treats it. -/
def afterSegment (s : RedisLoop) (segment : Bytes) : RedisLoop :=
  redisDrain ((redisReceive s (.data segment)).buffer.used+1) (redisReceive s (.data segment))

/-- At the outer loop the next segment is treated, then the rest. -/
theorem redisRun_cons {s : RedisLoop} (h : s.phase=.receiving) (segment : Bytes)
    (results : List RecvResult) :
    redisRun s (.data segment::results)=redisRun (afterSegment s segment) results := by
  rw [redisRun,if_pos h]
  rfl

/-- A segment of whole sent commands that keep the connection open dispatches
them and leaves an empty buffer. -/
theorem afterSegment_open {s : RedisLoop} {sent : List (List Bytes)} (hused : s.buffer.used=0)
    (hne : sent.flatMap encodeCommand≠[]) (hfits : (sent.flatMap encodeCommand).length≤4095)
    (hsend : ∀ args∈sent,Sendable args) (hopen : ∀ args∈sent,redisCloses (stored args)=false) :
    (afterSegment s (sent.flatMap encodeCommand)).phase=.receiving ∧
      (afterSegment s (sent.flatMap encodeCommand)).buffer.used=0 ∧
      (afterSegment s (sent.flatMap encodeCommand)).dispatched=s.dispatched++sent.map stored := by
  have hreceived := redisReceive_empty hused hne hfits
  have hcount := length_le_sent sent
  obtain ⟨fuel,hfuel⟩ : ∃ fuel,(sent.flatMap encodeCommand).length+1=sent.length+(fuel+1) :=
    ⟨(sent.flatMap encodeCommand).length-sent.length,by omega⟩
  have hunread : (redisReceive s (.data (sent.flatMap encodeCommand))).buffer.unread=
      sent.flatMap encodeCommand++[] := by
    rw [hreceived.2.1,List.append_nil]
  obtain ⟨t,hdrain,hphase,hempty,hdispatched⟩ :=
    redisDrain_sent (fuel+1) hreceived.1 hunread hsend hopen
  have hzero : t.buffer.used=0 := by
    rw [←(memory_split t.buffer).2,hempty]
    rfl
  have hlast := redisDrain_empty (Nat.succ_pos fuel) hphase hzero
  rw [afterSegment,hreceived.2.2.1,hfuel,hdrain,hlast]
  refine ⟨rfl,hzero,?_⟩
  dsimp only
  rw [hdispatched,hreceived.2.2.2]

/-- A segment in which a closing command ends dispatches up to it and closes. -/
theorem afterSegment_closes {s : RedisLoop} {front : List (List Bytes)} {args : List Bytes}
    {more : Bytes} (hused : s.buffer.used=0)
    (hfits : (front.flatMap encodeCommand++encodeCommand args++more).length≤4095)
    (hsend : ∀ other∈front,Sendable other) (hlast : Sendable args)
    (hopen : ∀ other∈front,redisCloses (stored other)=false)
    (hcloses : redisCloses (stored args)=true) :
    (afterSegment s (front.flatMap encodeCommand++encodeCommand args++more)).phase=.closed ∧
      (afterSegment s (front.flatMap encodeCommand++encodeCommand args++more)).dispatched=
        s.dispatched++(front.map stored++[stored args]) := by
  have hshape := (encodeCommand_shape args).2.2
  have hcount := length_le_sent front
  generalize hsegment : front.flatMap encodeCommand++encodeCommand args++more=segment at hfits ⊢
  have hlength := congrArg List.length hsegment
  rw [List.length_append,List.length_append] at hlength
  have hne : segment≠[] := by
    intro hnil
    rw [hnil,List.length_nil] at hlength
    omega
  have hreceived := redisReceive_empty hused hne hfits
  obtain ⟨fuel,hfuel⟩ : ∃ fuel,segment.length+1=front.length+(fuel+1) :=
    ⟨segment.length-front.length,by omega⟩
  have hunread : (redisReceive s (.data segment)).buffer.unread=
      front.flatMap encodeCommand++(encodeCommand args++more) := by
    rw [hreceived.2.1,←hsegment,List.append_assoc]
  obtain ⟨t,hdrain,hphase,hrest,hdispatched⟩ :=
    redisDrain_sent (fuel+1) hreceived.1 hunread hsend hopen
  have hpass := redisPass_sent hlast hrest
  rw [hcloses] at hpass
  have hidle : (redisPass t).phase≠.parsing := by
    rw [hpass.2.2.2]
    exact RedisPhase.noConfusion
  have hend : redisDrain (fuel+1) t=redisPass t := by
    rw [redisDrain,if_pos hphase]
    exact redisDrain_idle hidle fuel
  rw [afterSegment,hreceived.2.2.1,hfuel,hdrain,hend]
  refine ⟨hpass.2.2.2,?_⟩
  rw [hpass.2.2.1,hdispatched,hreceived.2.2.2,List.append_assoc]

/-- A segment of whole commands that keep the connection open dispatches them
and leaves an empty buffer. -/
theorem afterSegment_whole {s : RedisLoop} {commands : List RedisCommand} (hused : s.buffer.used=0)
    (hne : encodings commands≠[]) (hfits : (encodings commands).length≤4095)
    (hopen : ∀ c∈commands,redisCloses c.argv=false) :
    (afterSegment s (encodings commands)).phase=.receiving ∧
      (afterSegment s (encodings commands)).buffer.used=0 ∧
      (afterSegment s (encodings commands)).dispatched=
        s.dispatched++commands.map RedisCommand.argv := by
  have hsent := sent_argv hopen
  rw [encodings_eq] at hne hfits ⊢
  have hafter := afterSegment_open hused hne hfits hsent.1 hsent.2.1
  rwa [hsent.2.2] at hafter

/-- A segment in which a closing command ends dispatches up to it and closes. -/
theorem afterSegment_closing {s : RedisLoop} {front : List RedisCommand} {c : RedisCommand}
    {more : Bytes} (hused : s.buffer.used=0)
    (hfits : (encodings front++encodeCommand c.argv++more).length≤4095)
    (hopen : ∀ d∈front,redisCloses d.argv=false) (hcloses : redisCloses c.argv=true) :
    (afterSegment s (encodings front++encodeCommand c.argv++more)).phase=.closed ∧
      (afterSegment s (encodings front++encodeCommand c.argv++more)).dispatched=
        s.dispatched++(front++[c]).map RedisCommand.argv := by
  have hsent := sent_argv hopen
  have hc := sendable_argv c
  rw [encodings_eq] at hfits ⊢
  rw [←hc.2] at hcloses
  have hafter := afterSegment_closes hused hfits hsent.1 hc.1 hsent.2.1 hcloses
  rwa [hsent.2.2,hc.2,←List.map_singleton (f := RedisCommand.argv),←List.map_append] at hafter

/-- How a segment at the front of a command stream ends: behind a closing
command, at the end of a command before that, or inside a command. -/
theorem segment_cases {segment rest : Bytes} {commands : List RedisCommand}
    (h : segment++rest=encodings commands) :
    (∃ front c back more,commands=front++c::back ∧ (∀ d∈front,redisCloses d.argv=false) ∧
      redisCloses c.argv=true ∧ segment=encodings front++encodeCommand c.argv++more) ∨
    (∃ front back,commands=front++back ∧ (∀ d∈front,redisCloses d.argv=false) ∧
      segment=encodings front ∧ rest=encodings back) ∨
    (∃ front c back part missing,commands=front++c::back ∧
      (∀ d∈front,redisCloses d.argv=false) ∧ encodeCommand c.argv=part++missing ∧ part≠[] ∧
      missing≠[] ∧ segment=encodings front++part) := by
  induction commands generalizing segment with
  | nil =>
    have hnil := List.append_eq_nil_iff.mp h
    exact Or.inr (Or.inl ⟨[],[],rfl,fun d hd => absurd hd List.not_mem_nil,hnil.1,hnil.2⟩)
  | cons c commands ih =>
    have hstream : segment++rest=encodeCommand c.argv++encodings commands := h
    by_cases hempty : segment=[]
    · refine Or.inr (Or.inl ⟨[],c::commands,rfl,fun d hd => absurd hd List.not_mem_nil,hempty,?_⟩)
      rw [hempty,List.nil_append] at h
      exact h
    · rcases Nat.lt_or_ge segment.length (encodeCommand c.argv).length with hlt|hge
      · have hsplit := append_split hstream hlt.le
        rcases hsplit with ⟨missing,hmissing,_⟩
        refine Or.inr (Or.inr ⟨[],c,commands,segment,missing,rfl,
          fun d hd => absurd hd List.not_mem_nil,hmissing,hempty,?_,rfl⟩)
        rintro rfl
        rw [List.append_nil] at hmissing
        rw [hmissing] at hlt
        exact absurd hlt (Nat.lt_irrefl _)
      · have hsplit := append_split hstream.symm hge
        rcases hsplit with ⟨later,hlater,hrest⟩
        cases hcloses : redisCloses c.argv with
        | true =>
          refine Or.inl ⟨[],c,commands,later,rfl,fun d hd => absurd hd List.not_mem_nil,hcloses,?_⟩
          exact hlater
        | false =>
          have hopen : ∀ front : List RedisCommand,(∀ d∈front,redisCloses d.argv=false) →
              ∀ d∈c::front,redisCloses d.argv=false := by
            intro front hfront d hd
            rcases List.mem_cons.mp hd with hd|hd
            · rw [hd]
              exact hcloses
            · exact hfront d hd
          have hmore : ∀ front : List RedisCommand,∀ bytes,later=encodings front++bytes →
              segment=encodings (c::front)++bytes := by
            intro front bytes hbytes
            rw [hlater,hbytes,←List.append_assoc]
            rfl
          rcases ih hrest.symm with hclosing|hwhole|hcut
          · rcases hclosing with ⟨front,d,back,more,hcommands,hfront,hd,hsegment⟩
            refine Or.inl ⟨c::front,d,back,more,by rw [hcommands]; rfl,hopen front hfront,hd,?_⟩
            rw [List.append_assoc] at hsegment ⊢
            exact hmore front _ hsegment
          · rcases hwhole with ⟨front,back,hcommands,hfront,hsegment,hback⟩
            refine Or.inr (Or.inl ⟨c::front,back,by rw [hcommands]; rfl,hopen front hfront,?_,hback⟩)
            have hbytes := hmore front [] (by rw [hsegment,List.append_nil])
            rwa [List.append_nil] at hbytes
          · rcases hcut with ⟨front,d,back,part,missing,hcommands,hfront,hd,hpos,hmissing,hsegment⟩
            refine Or.inr (Or.inr ⟨c::front,d,back,part,missing,by rw [hcommands]; rfl,
              hopen front hfront,hd,hpos,hmissing,?_⟩)
            exact hmore front part hsegment

/-- Encodings follow each other as their commands do. -/
theorem encodings_append (front back : List RedisCommand) :
    encodings (front++back)=encodings front++encodings back := List.flatMap_append

/-- Commands that keep the connection open are kept before the closing one. -/
theorem upToClosing_append {front : List RedisCommand} (back : List RedisCommand)
    (h : ∀ c∈front,redisCloses c.argv=false) :
    upToClosing (front++back)=front++upToClosing back := by
  induction front with
  | nil => rfl
  | cons c front ih =>
    have hopen := h c List.mem_cons_self
    have hrest := ih (fun d hd => h d (List.mem_cons_of_mem _ hd))
    rw [List.cons_append,upToClosing,hopen,hrest]
    rfl

/-- The commands end with the first closing one. -/
theorem upToClosing_closing {front : List RedisCommand} {c : RedisCommand}
    (back : List RedisCommand) (h : ∀ d∈front,redisCloses d.argv=false)
    (hcloses : redisCloses c.argv=true) : upToClosing (front++c::back)=front++[c] := by
  rw [upToClosing_append _ h,upToClosing,hcloses]
  rfl

/-- The first command is always among those that count. -/
theorem upToClosing_cons (c : RedisCommand) (back : List RedisCommand) :
    ∃ more,upToClosing (c::back)=c::more := by
  rw [upToClosing]
  split
  · exact ⟨[],rfl⟩
  · exact ⟨upToClosing back,rfl⟩

/-- Nothing is asked of a stream whose first segment holds a closing command. -/
theorem aligned_closing {front back : List RedisCommand} {c : RedisCommand} {more : Bytes}
    (segments : List Bytes) (h : ∀ d∈front,redisCloses d.argv=false)
    (hcloses : redisCloses c.argv=true) :
    Aligned (front++c::back) ((encodings front++encodeCommand c.argv++more)::segments) := by
  intro k hk
  rw [upToClosing_closing back h hcloses,encodings_append,List.length_append] at hk
  cases k with
  | zero => exact ⟨0,rfl⟩
  | succ k =>
    have hone : encodings [c]=encodeCommand c.argv := List.append_nil _
    rw [List.take_succ_cons,List.flatten_cons,List.length_append,List.length_append,
      List.length_append,hone] at hk
    omega

/-- Behind a segment of whole commands the rest of the stream is asked. -/
theorem aligned_whole {front : List RedisCommand} (back : List RedisCommand)
    (segments : List Bytes) (h : ∀ c∈front,redisCloses c.argv=false) :
    Aligned (front++back) (encodings front::segments) ↔ Aligned back segments := by
  constructor
  · intro haligned k hk
    have hnext := haligned (k+1)
    rw [upToClosing_append back h,encodings_append,List.take_succ_cons,List.flatten_cons,
      List.length_append,List.length_append] at hnext
    have hend := hnext (by omega)
    rcases hend with ⟨j,hj⟩
    rcases Nat.lt_or_ge j front.length with hlt|hge
    · have hsplit := congrArg List.length (encodings_append (front.take j) (front.drop j))
      rw [List.take_append_drop,List.length_append] at hsplit
      rw [List.take_append_of_le_length hlt.le] at hj
      refine ⟨0,?_⟩
      change _=0
      omega
    · have htake : (front++back).take j=front++back.take (j-front.length) := by
        rw [List.take_append,List.take_of_length_le hge]
      rw [htake,encodings_append,List.length_append] at hj
      exact ⟨j-front.length,by omega⟩
  · intro haligned k hk
    cases k with
    | zero => exact ⟨0,rfl⟩
    | succ k =>
      rw [upToClosing_append back h,encodings_append,List.take_succ_cons,List.flatten_cons,
        List.length_append,List.length_append] at hk
      have hend := haligned k (by omega)
      rcases hend with ⟨j,hj⟩
      refine ⟨front.length+j,?_⟩
      rw [List.take_succ_cons,List.flatten_cons,List.length_append,List.take_length_add_append,
        encodings_append,List.length_append,hj]

/-- A segment that ends inside a command is not aligned. -/
theorem not_aligned_cut {front back : List RedisCommand} {c : RedisCommand} {part missing : Bytes}
    (segments : List Bytes) (h : ∀ d∈front,redisCloses d.argv=false)
    (hpart : encodeCommand c.argv=part++missing) (hpos : part≠[]) (hmissing : missing≠[]) :
    ¬Aligned (front++c::back) ((encodings front++part)::segments) := by
  intro haligned
  have hpartpos := List.length_pos_iff.mpr hpos
  have hmissingpos := List.length_pos_iff.mpr hmissing
  have hwhole := congrArg List.length hpart
  rw [List.length_append] at hwhole
  have hone : ∀ more : List RedisCommand,
      (encodings (c::more)).length=(encodeCommand c.argv).length+(encodings more).length :=
    fun more => List.length_append
  have hcounted := upToClosing_cons c back
  rcases hcounted with ⟨more,hmore⟩
  have hfirst : ([encodings front++part] : List Bytes).flatten.length=
      (encodings front).length+part.length := by
    rw [List.flatten_singleton,List.length_append]
  have hend := haligned 1
  rw [List.take_succ_cons,List.take_zero,hfirst,upToClosing_append _ h,encodings_append,
    List.length_append,hmore,hone] at hend
  have hend := hend (by omega)
  rcases hend with ⟨j,hj⟩
  rcases Nat.lt_or_ge front.length j with hlt|hge
  · obtain ⟨i,rfl⟩ : ∃ i,j=front.length+(i+1) := ⟨j-front.length-1,by omega⟩
    rw [List.take_length_add_append,List.take_succ_cons,encodings_append,List.length_append,
      hone] at hj
    omega
  · have hsplit := congrArg List.length (encodings_append (front.take j) (front.drop j))
    rw [List.take_append_drop,List.length_append] at hsplit
    rw [List.take_append_of_le_length hge] at hj
    omega

end HoneyDew.RedisStream
