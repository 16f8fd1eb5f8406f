import HoneyDew.RedisStream

/-!
# Decoding pipelined commands

A client that sends whole commands in one segment has each of them parsed, consumed
to its last byte and dispatched, whatever bytes its arguments are made of and
whatever an earlier segment has left in the buffer. An argument that is too long is
stored in part, but consumed whole.
-/

namespace HoneyDew.RedisDecoding

open CText CMemory Service RedisCommands RedisParser RedisBuffer RedisStream

/-- What is dispatched of sent commands: all up to the first that closes the
connection. -/
def dispatchedOf : List (List Bytes) → List (List Bytes)
  | [] => []
  | args::sent =>
    if redisCloses (stored args) then [stored args] else stored args::dispatchedOf sent

/-- One piece of a concatenation is not longer than the whole. -/
theorem length_le_flatMap {α : Type*} (piece : α → Bytes) {x : α} {xs : List α} (h : x∈xs) :
    (piece x).length≤(xs.flatMap piece).length := by
  obtain ⟨front,back,hsplit⟩ := List.append_of_mem h
  rw [hsplit,List.flatMap_append,List.flatMap_cons,List.length_append,List.length_append]
  omega

/-- An argument is shorter than the encoding of its command. -/
theorem length_lt_encodeCommand {a : Bytes} {args : List Bytes} (h : a∈args) :
    a.length<(encodeCommand args).length := by
  have hpiece := length_le_flatMap encodeArg h
  have hshape := (encodeCommand_shape args).2.1
  rw [encodeArg,List.length_cons,List.length_append,List.length_append,List.length_append] at hpiece
  omega

/-- Commands whose encodings fit the buffer can be sent. -/
theorem sendable_of_fits {sent : List (List Bytes)} (hargs : ∀ args∈sent,args≠[] ∧ args.length≤32)
    (hfits : (sent.flatMap encodeCommand).length≤4095) : ∀ args∈sent,Sendable args := by
  intro args hmem
  have hwhole := length_le_flatMap encodeCommand hmem
  have hshort : ∀ a∈args,a.length<2^31 := by
    intro a ha
    have hlt := length_lt_encodeCommand ha
    omega
  exact ⟨(hargs args hmem).1,(hargs args hmem).2,hshort⟩

/-- A list of commands keeps the connection open or has a first that closes it. -/
theorem open_or_closing (sent : List (List Bytes)) :
    ((∀ args∈sent,redisCloses (stored args)=false) ∧ dispatchedOf sent=sent.map stored) ∨
      ∃ front args back,sent=front++args::back ∧
        (∀ other∈front,redisCloses (stored other)=false) ∧ redisCloses (stored args)=true ∧
        dispatchedOf sent=front.map stored++[stored args] := by
  induction sent with
  | nil => exact Or.inl ⟨fun _ h => absurd h List.not_mem_nil,rfl⟩
  | cons args sent ih =>
    cases hcloses : redisCloses (stored args) with
    | true =>
      refine Or.inr ⟨[],args,sent,rfl,fun _ h => absurd h List.not_mem_nil,hcloses,?_⟩
      rw [dispatchedOf,hcloses]
      rfl
    | false =>
      have hfirst : dispatchedOf (args::sent)=stored args::dispatchedOf sent := by
        rw [dispatchedOf,hcloses]
        rfl
      cases ih with
      | inl hopen =>
        refine Or.inl ⟨?_,by rw [hfirst,hopen.2,List.map_cons]⟩
        intro other hmem
        cases List.mem_cons.mp hmem with
        | inl hsame => rw [hsame,hcloses]
        | inr hlater => exact hopen.1 other hlater
      | inr hclosing =>
        obtain ⟨front,last,back,hsplit,hfront,hlast,hdispatched⟩ := hclosing
        refine Or.inr ⟨args::front,last,back,by rw [hsplit]; rfl,?_,hlast,?_⟩
        · intro other hmem
          cases List.mem_cons.mp hmem with
          | inl hsame => rw [hsame,hcloses]
          | inr hlater => exact hfront other hlater
        · rw [hfirst,hdispatched,List.map_cons,List.cons_append]

/-- A segment with a closing command among whole commands. -/
theorem afterSegment_split {s : RedisLoop} {front back : List (List Bytes)} {args : List Bytes}
    (hused : s.buffer.used=0) (hfits : ((front++args::back).flatMap encodeCommand).length≤4095)
    (hsend : ∀ other∈front++args::back,Sendable other)
    (hopen : ∀ other∈front,redisCloses (stored other)=false)
    (hcloses : redisCloses (stored args)=true) :
    (afterSegment s ((front++args::back).flatMap encodeCommand)).phase=.closed ∧
      (afterSegment s ((front++args::back).flatMap encodeCommand)).dispatched=
        s.dispatched++(front.map stored++[stored args]) := by
  have hsplit : (front++args::back).flatMap encodeCommand=
      front.flatMap encodeCommand++encodeCommand args++back.flatMap encodeCommand := by
    rw [List.flatMap_append,List.flatMap_cons,List.append_assoc]
  rw [hsplit] at hfits ⊢
  exact afterSegment_closes hused hfits (fun other hmem => hsend other (List.mem_append_left _ hmem))
    (hsend args (by simp)) hopen hcloses

/-- What the service does with commands sent in one segment. -/
structure Decoded (s : RedisLoop) (sent : List (List Bytes)) : Prop where
  /-- Each command is parsed to its last byte, whatever stands behind it. -/
  parsed : ∀ front args back stale,sent=front++args::back →
    redisParseRespArray (encodeCommand args++(back.flatMap encodeCommand++stale))
      ((encodeCommand args).length+(back.flatMap encodeCommand).length)=
        some ((encodeCommand args).length,stored args)
  /-- The arguments are stored whole up to the size of an argument. -/
  whole : ∀ args∈sent,(∀ a∈args,a.length≤1023) → stored args=args
  /-- The loop ends with the commands dispatched up to the first closing one. -/
  dispatched : (redisRun s [.data (sent.flatMap encodeCommand)]).dispatched=
    s.dispatched++dispatchedOf sent
  /-- Without a closing command the buffer is empty at the next `recv`. -/
  kept : (∀ args∈sent,redisCloses (stored args)=false) →
    (redisRun s [.data (sent.flatMap encodeCommand)]).phase=.receiving ∧
      (redisRun s [.data (sent.flatMap encodeCommand)]).buffer.used=0
  /-- With a closing command the loops are left. -/
  closed : (∃ args∈sent,redisCloses (stored args)=true) →
    (redisRun s [.data (sent.flatMap encodeCommand)]).phase=.closed

/-- Commands of one to 32 arguments, which arrive whole in one segment of at most
4095 bytes, are all decoded, with any bytes in their arguments and any old bytes
in the buffer. -/
theorem pipelined_commands_decoded {s : RedisLoop} {sent : List (List Bytes)}
    (hphase : s.phase=.receiving) (hused : s.buffer.used=0) (hne : sent≠[])
    (hargs : ∀ args∈sent,args≠[] ∧ args.length≤32)
    (hfits : (sent.flatMap encodeCommand).length≤4095) : Decoded s sent := by
  have hsend := sendable_of_fits hargs hfits
  have hbytes : sent.flatMap encodeCommand≠[] := by
    intro hnil
    have hcount := length_le_sent sent
    rw [hnil,List.length_nil] at hcount
    exact hne (List.length_eq_zero_iff.mp (by omega))
  have hrun : redisRun s [.data (sent.flatMap encodeCommand)]=
      afterSegment s (sent.flatMap encodeCommand) := redisRun_cons hphase _ []
  have hparsed : ∀ front args back stale,sent=front++args::back →
      redisParseRespArray (encodeCommand args++(back.flatMap encodeCommand++stale))
        ((encodeCommand args).length+(back.flatMap encodeCommand).length)=
          some ((encodeCommand args).length,stored args) := by
    intro front args back stale hsplit
    have hparse := redisParseRespArray_sent stale (hsend args (by rw [hsplit]; simp))
      (rfl : encodeCommand args++back.flatMap encodeCommand=_)
    rwa [List.append_assoc,List.length_append] at hparse
  refine ⟨hparsed,fun args _ hshort => stored_of_le hshort,?_,?_,?_⟩
  · rw [hrun]
    cases open_or_closing sent with
    | inl hopen =>
      rw [(afterSegment_open hused hbytes hfits hsend hopen.1).2.2,hopen.2]
    | inr hclosing =>
      obtain ⟨front,args,back,hsplit,hopen,hcloses,hdispatched⟩ := hclosing
      rw [hdispatched]
      rw [hsplit] at hfits hsend ⊢
      exact (afterSegment_split hused hfits hsend hopen hcloses).2
  · intro hopen
    have hafter := afterSegment_open hused hbytes hfits hsend hopen
    rw [hrun]
    exact ⟨hafter.1,hafter.2.1⟩
  · intro hclosing
    obtain ⟨args,hmem,hcloses⟩ := hclosing
    cases open_or_closing sent with
    | inl hopen => exact absurd (hopen.1 args hmem) (by rw [hcloses]; simp)
    | inr hfirst =>
      obtain ⟨front,last,back,hsplit,hopen,hlast,_⟩ := hfirst
      rw [hrun]
      rw [hsplit] at hfits hsend ⊢
      exact (afterSegment_split hused hfits hsend hopen hlast).1

/-- A value full of protocol bytes, then the end of the session, then a command that
is not read. -/
theorem pipelined_commands_decoded_quit :
    Decoded (.start (List.replicate 4096 36) List.length_replicate)
      [[text "SET",text "k",[13,10,36,0,42]],[text "QUIT"],[text "PING"]] :=
  pipelined_commands_decoded rfl rfl (by simp) (by simp) (by decide)

end HoneyDew.RedisDecoding
