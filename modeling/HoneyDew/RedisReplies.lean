import HoneyDew.RedisCommands
import HoneyDew.RespReply
import Mathlib.Data.List.GetD

/-!
# The replies of the Redis dispatcher as a reply stream

Every branch of the dispatcher but two sends one complete reply. The canned
configuration and key listings announce wrong string lengths, and the error
line for an unknown command is a reply only if the quoted text leaves room for
its CR LF and brings no line end of its own.
-/

namespace HoneyDew.RedisReplies

open CText Service RedisCommands RespReply

/-- The error text for an unknown command, before it is cut to its array. -/
def unknownText (argv : List Bytes) : Bytes :=
  text "-ERR unknown command '"++arg argv 0++text "', with args beginning with: "++
    ((argv.drop 1).take 3).flatMap (fun a => text "'"++cstr a++text "' ")

/-- The error text leaves room for CR LF and has no line end, or the part that
fits the array happens to end in its only CR LF. -/
def UnknownLineWhole (t : Bytes) : Prop :=
  if t.length≤509 then LineText t
  else LineText ((t.take 511).take ((t.take 511).length-2)) ∧
    (t.take 511).drop ((t.take 511).length-2)=crlf

instance (t : Bytes) : Decidable (UnknownLineWhole t) := by
  unfold UnknownLineWhole
  infer_instance

/-- The commands that are answered by one complete reply. -/
def InStep (argv : List Bytes) : Prop :=
  match redisVerb argv with
  | some .keys => False
  | some .config => ¬(2≤argv.length ∧ redisStrToupper (argv.getD 1 [])=text "GET")
  | some _ => True
  | none => UnknownLineWhole (unknownText argv)

instance (argv : List Bytes) : Decidable (InStep argv) := by
  unfold InStep
  split <;> infer_instance

/-- The three sends of a stored argument are one bulk reply. -/
theorem isReply_sendBulkString {s : Bytes} (h : s.length≤1023) :
    IsReply (redisSendBulkString s).flatten := by
  have hle : (cstr s).length≤1023 := by
    have hprefix := (cstr_front s).length_le
    omega
  have hdecimal : (decimal (cstr s).length).length≤4 :=
    length_decimal_le (by decide) (by omega)
  have hheader : (text "$"++decimal (cstr s).length++crlf).length≤63 := by
    rw [List.length_append,List.length_append,show (text "$").length=1 from rfl,
      show crlf.length=2 from rfl]
    omega
  have hbulk := isReply_bulk_text (cstr s)
  unfold redisSendBulkString
  rw [List.take_of_length_le hheader]
  simp only [List.flatten_cons,List.flatten_nil,List.append_nil,List.append_assoc] at hbulk ⊢
  exact hbulk

/-- The `INFO` reply is one bulk reply. -/
theorem isReply_info : IsReply redisHandleInfo.flatten := by
  have hlength : (text "$"++decimal redisFakeInfo.length++crlf++redisFakeInfo++crlf).length≤8191 := by
    decide +kernel
  unfold redisHandleInfo
  rw [List.take_of_length_le hlength,List.flatten_singleton]
  exact isReply_bulk_text redisFakeInfo

/-- The canned configuration announces wrong lengths. -/
theorem not_isReply_config : ¬IsReply redisFakeConfig := by decide +kernel

/-- The canned key list announces a wrong length. -/
theorem not_isReply_keys : ¬IsReply redisFakeKeys := by decide

/-- The array of the error text is filled as if it were one formatting call. -/
theorem appendQuoted_take (t : Bytes) (argv : List Bytes) :
    appendQuoted (t.take 511) argv=
      (t++argv.flatMap (fun a => text "'"++cstr a++text "' ")).take 511 := by
  induction argv generalizing t with
  | nil => rw [appendQuoted,List.flatMap_nil,List.append_nil]
  | cons a argv ih =>
    have hroom : 511-(t.take 511).length=511-t.length := by
      rw [List.length_take]
      omega
    have hstep := ih (t++(text "'"++cstr a++text "' "))
    rw [List.take_append] at hstep
    rw [appendQuoted,hroom,hstep,List.flatMap_cons,List.append_assoc t]

/-- The error reply is the cut text, with CR LF where they still fit. -/
theorem redisUnknown_eq (argv : List Bytes) :
    redisUnknown argv=if (unknownText argv).length≤509 then unknownText argv++crlf
      else (unknownText argv).take 511 := by
  have htake := appendQuoted_take (text "-ERR unknown command '"++arg argv 0++
    text "', with args beginning with: ") ((argv.drop 1).take 3)
  unfold redisUnknown
  dsimp only
  rw [htake]
  change (if ((unknownText argv).take 511).length+2<512 then _ else _)=_
  by_cases hshort : (unknownText argv).length≤509
  · have hwhole : (unknownText argv).take 511=unknownText argv := List.take_of_length_le (by omega)
    rw [hwhole,if_pos (by omega),if_pos hshort]
    change (unknownText argv).take 511++crlf=_
    rw [hwhole]
  · rw [if_neg (by rw [List.length_take]; omega),if_neg hshort]
    rfl

/-- The error text starts with the mark of an error reply. -/
theorem unknownText_cons (argv : List Bytes) : ∃ t,unknownText argv=45::t :=
  ⟨_,rfl⟩

/-- A line with the error mark in front is still a line. -/
theorem lineText_cons_iff (t : Bytes) : LineText (45::t) ↔ LineText t := by
  constructor
  · intro h b hb
    exact h b (List.mem_cons_of_mem _ hb)
  · intro h b hb
    rcases List.mem_cons.mp hb with hb|hb
    · rw [hb]
      decide
    · exact h b hb

/-- The error reply is one reply exactly when its line is whole. -/
theorem isReply_unknown_iff (argv : List Bytes) :
    IsReply (redisUnknown argv) ↔ UnknownLineWhole (unknownText argv) := by
  obtain ⟨t,ht⟩ := unknownText_cons argv
  rw [redisUnknown_eq]
  unfold UnknownLineWhole
  by_cases hshort : (unknownText argv).length≤509
  · rw [if_pos hshort,if_pos hshort,ht,List.cons_append,isReply_error_iff,lineText_cons_iff]
    constructor
    · rintro ⟨line,hline,heq⟩
      rwa [List.append_cancel_right heq]
    · intro hline
      exact ⟨t,hline,rfl⟩
  · rw [if_neg hshort,if_neg hshort]
    have hcut : (unknownText argv).take 511=45::t.take 510 := by
      rw [ht,List.take_succ_cons]
    have hlong : 509≤(t.take 510).length := by
      have hlength := congrArg List.length ht
      rw [List.length_cons] at hlength
      rw [List.length_take]
      omega
    obtain ⟨m,hm⟩ : ∃ m,(t.take 510).length=m+2 := ⟨(t.take 510).length-2,by omega⟩
    rw [hcut,isReply_error_iff,List.length_cons,hm]
    rw [show m+2+1-2=m+1 by omega,List.take_succ_cons,List.drop_succ_cons,lineText_cons_iff]
    constructor
    · rintro ⟨line,hline,heq⟩
      have hlength := congrArg List.length heq
      rw [List.length_append,show crlf.length=2 from rfl,hm] at hlength
      have hsame : line.length=m := by omega
      rw [heq,←hsame,List.take_left,List.drop_left]
      exact ⟨hline,rfl⟩
    · rintro ⟨hline,hend⟩
      refine ⟨_,hline,?_⟩
      rw [←hend,List.take_append_drop]

/-- `CONFIG GET` is answered by something else than a reply, any other `CONFIG` by one. -/
theorem isReply_config_iff (argv : List Bytes) :
    IsReply (redisHandleConfig argv).flatten ↔
      ¬(2≤argv.length ∧ redisStrToupper (argv.getD 1 [])=text "GET") := by
  unfold redisHandleConfig
  dsimp only
  by_cases hargs : 2≤argv.length
  · rw [if_pos hargs]
    by_cases hget : redisStrToupper (argv.getD 1 [])=text "GET"
    · rw [if_pos hget]
      refine iff_of_false ?_ (fun h => h ⟨hargs,hget⟩)
      rw [List.flatten_singleton]
      exact not_isReply_config
    · rw [if_neg hget]
      refine iff_of_true ?_ (fun h => hget h.2)
      split
      · decide
      · split
        · decide
        · split <;> decide
  · rw [if_neg hargs]
    refine iff_of_true ?_ (fun h => hargs h.1)
    decide

/-- Every `CLIENT` is answered by a reply. -/
theorem isReply_client (argv : List Bytes) : IsReply (redisHandleClient argv).flatten := by
  unfold redisHandleClient
  dsimp only
  split
  · split
    · decide
    · split
      · decide
      · split <;> decide
  · decide

/-- A command is answered by one complete reply exactly when it keeps the
client in step. -/
theorem isReply_replies_iff (c : RedisCommand) :
    IsReply (redisReplies c.argv).flatten ↔ InStep c.argv := by
  have harg : (c.argv.getD 1 []).length≤1023 := by
    rcases Nat.lt_or_ge 1 c.argv.length with hlt|hge
    · rw [List.getD_eq_getElem _ _ hlt]
      exact c.arg_le _ (List.getElem_mem hlt)
    · rw [List.getD_eq_default _ _ hge]
      exact Nat.zero_le _
  have hbulk := isReply_sendBulkString harg
  unfold redisReplies InStep
  cases hverb : redisVerb c.argv with
  | none =>
    dsimp only
    rw [List.flatten_singleton]
    exact isReply_unknown_iff c.argv
  | some verb =>
    cases verb with
    | keys =>
      refine iff_of_false ?_ not_false
      dsimp only [redisReply]
      rw [List.flatten_singleton]
      exact not_isReply_keys
    | config =>
      dsimp only [redisReply]
      exact isReply_config_iff c.argv
    | ping =>
      refine iff_of_true ?_ trivial
      dsimp only [redisReply]
      split
      · exact hbulk
      · decide
    | echo =>
      refine iff_of_true ?_ trivial
      dsimp only [redisReply]
      split
      · exact hbulk
      · decide
    | client =>
      refine iff_of_true ?_ trivial
      dsimp only [redisReply]
      exact isReply_client c.argv
    | info => exact iff_of_true isReply_info trivial
    | set | get | auth | slaveof | replicaof | eval | evalsha | flushall | flushdb | del | unlink
    | «exists» | ttl | pttl | type | dbsize | select | command | save | bgsave | bgrewriteaof
    | shutdown | module | debug | quit =>
      refine iff_of_true ?_ trivial
      dsimp only [redisReply]
      decide

/-- What a dispatched command sends. -/
theorem sent_dispatch (s : Session) (c : RedisCommand) :
    sent (redisDispatchCommand s c.argv)=(redisReplies c.argv).flatten := by
  have hsends : ∀ replies : List Bytes,sent (replies.map Action.send)=replies.flatten := by
    intro replies
    induction replies with
    | nil => rfl
    | cons reply replies ih =>
      rw [List.map_cons,List.flatten_cons,←ih]
      rfl
  unfold redisDispatchCommand
  rw [if_neg c.argc_pos]
  change sent (_++_)=_
  rw [sent_append,hsends]
  split <;> rfl

/-- The bytes sent for a list of commands. -/
def repliesTo (s : Session) (commands : List RedisCommand) : Bytes :=
  sent (commands.flatMap (fun c => redisDispatchCommand s c.argv))

/-- The replies to the commands dispatched so far are in step after every
command exactly when every command is answered by one complete reply. -/
theorem replies_in_step_iff (s : Session) (commands : List RedisCommand) :
    (∀ k≤commands.length,ParseAs k (repliesTo s (commands.take k))) ↔
      ∀ c∈commands,InStep c.argv := by
  induction commands using List.reverseRecOn with
  | nil =>
    refine iff_of_true ?_ (fun _ h => absurd h List.not_mem_nil)
    intro k hk
    obtain rfl : k=0 := Nat.le_zero.mp hk
    exact parseAs_zero
  | append_singleton commands c ih =>
    have hsnoc : repliesTo s (commands++[c])=repliesTo s commands++(redisReplies c.argv).flatten := by
      unfold repliesTo
      rw [List.flatMap_append,sent_append,List.flatMap_singleton,sent_dispatch]
    constructor
    · intro h x hx
      have hfront : ∀ k≤commands.length,ParseAs k (repliesTo s (commands.take k)) := by
        intro k hk
        have hk' := h k (by rw [List.length_append]; omega)
        rwa [List.take_append_of_le_length hk] at hk'
      have hall := ih.mp hfront
      have hwhole := hfront commands.length (Nat.le_refl _)
      rw [List.take_length] at hwhole
      have hlast := h (commands++[c]).length (Nat.le_refl _)
      rw [List.take_length,hsnoc,List.length_append,List.length_singleton,parseAs_succ_iff hwhole,
        isReply_replies_iff] at hlast
      rcases List.mem_append.mp hx with hx|hx
      · exact hall x hx
      · rw [List.mem_singleton.mp hx]
        exact hlast
    · intro h k hk
      have hfront := ih.mpr (fun x hx => h x (List.mem_append_left _ hx))
      rw [List.length_append,List.length_singleton] at hk
      rcases Nat.lt_or_ge commands.length k with hlt|hge
      · have hwhole := hfront commands.length (Nat.le_refl _)
        have hlast := (isReply_replies_iff c).mpr (h c (by simp only [List.mem_append,List.mem_singleton,or_true]))
        obtain rfl : k=commands.length+1 := by omega
        rw [List.take_length] at hwhole
        rw [List.take_of_length_le (by rw [List.length_append]; rfl),hsnoc]
        exact hwhole.snoc hlast
      · rw [List.take_append_of_le_length hge]
        exact hfront k hge

/-- The command `CONFIG GET *`. -/
def configGetAll : RedisCommand where
  argv := [text "CONFIG",text "GET",text "*"]
  argc_pos := List.cons_ne_nil _ _
  argc_le := by decide
  arg_le := by decide

/-- The answer to `CONFIG GET *` is not one complete reply. -/
theorem config_get_reply_malformed :
    ¬ParseAs 1 (repliesTo ⟨text "::1",40000,text "s"⟩ [configGetAll]) := by
  have hreply : ¬IsReply (repliesTo ⟨text "::1",40000,text "s"⟩ [configGetAll]) := by decide +kernel
  intro h
  exact hreply ((parseAs_succ_iff parseAs_zero).mp h)

end HoneyDew.RedisReplies
