import HoneyDew.AuditTrail
import HoneyDew.JsonString

/-!
# Messages in the structured log

The logger escapes a message before it puts it into a line of JSON. The loop stops
in front of the last two bytes of the destination, and every byte that has no case
of its own is copied as it is.
-/

namespace HoneyDew.LoggerJson

open CText CMemory AuditTrail JsonString

/-! ## The code -/

/-- `UTILITIES_LOG_BUFFER_SIZE`. -/
def utilitiesLogBufferSize : ℕ := 4096

/-- One of the cases that store a backslash and a letter, if there is room. -/
def escapeCase (dstSize : ℕ) (letter : Byte) (dst : Bytes) (j : ℕ) : Bytes×ℕ :=
  if j+2<dstSize then (writeAt (writeAt dst j [92]) (j+1) [letter],j+2) else (dst,j)

/-- The `switch` on one byte: the destination and the next position in it. -/
def escapeByteInto (dstSize : ℕ) (c : Byte) (dst : Bytes) (j : ℕ) : Bytes×ℕ :=
  if c=34 then escapeCase dstSize 34 dst j
  else if c=92 then escapeCase dstSize 92 dst j
  else if c=10 then escapeCase dstSize 110 dst j
  else if c=13 then escapeCase dstSize 114 dst j
  else if c=9 then escapeCase dstSize 116 dst j
  else (writeAt dst j [c],j+1)

/-- The loop over the source. -/
def escapeLoop (dstSize : ℕ) : Bytes → Bytes → ℕ → Bytes×ℕ
  | [],dst,j => (dst,j)
  | c::cs,dst,j =>
    if c≠0 ∧ j<(dstSize+wordModulus-2)%wordModulus then
      escapeLoop dstSize cs (escapeByteInto dstSize c dst j).1 (escapeByteInto dstSize c dst j).2
    else (dst,j)

/-- `escape_json_string`: the destination when it returns. -/
def escapeJsonString (src dst : Bytes) (dstSize : ℕ) : Bytes :=
  writeAt (escapeLoop dstSize src dst 0).1 (escapeLoop dstSize src dst 0).2 [0]

/-! ## What it stores -/

/-- What the `switch` stores for a byte. -/
def stored (c : Byte) : Bytes :=
  if c=34 then [92,34] else if c=92 then [92,92] else if c=10 then [92,110]
  else if c=13 then [92,114] else if c=9 then [92,116] else [c]

/-- The bytes that the loop takes up from a position on. -/
def takenUp (limit : ℕ) : ℕ → Bytes → Bytes
  | _,[] => []
  | j,c::cs => if j<limit then c::takenUp limit (j+(stored c).length) cs else []

/-- Two writes one behind the other. -/
theorem writeAt_writeAt {dst : Bytes} {j : ℕ} (xs ys : Bytes) (h : j≤dst.length) :
    writeAt (writeAt dst j xs) (j+xs.length) ys=writeAt dst j (xs++ys) := by
  have hfront : (dst.take j++xs).length=j+xs.length := by
    rw [List.length_append,List.length_take,Nat.min_eq_left h]
  have hdrop : (dst.take j++xs++dst.drop (j+xs.length)).drop (j+xs.length+ys.length)=
      dst.drop (j+xs.length+ys.length) := by
    rw [← List.drop_drop,List.drop_left' hfront,List.drop_drop]
  unfold writeAt
  rw [List.take_left' hfront,hdrop,List.length_append,Nat.add_assoc]
  simp only [List.append_assoc]

/-- A write of nothing. -/
theorem writeAt_nil (dst : Bytes) (j : ℕ) : writeAt dst j []=dst := by
  rw [writeAt,List.append_nil]
  exact List.take_append_drop j dst

/-- A case stores its two bytes where they fit. -/
theorem escapeCase_eq {dstSize j : ℕ} {dst : Bytes} (letter : Byte) (hj : j+2<dstSize)
    (hdst : j≤dst.length) : escapeCase dstSize letter dst j=(writeAt dst j [92,letter],j+2) := by
  have hwrite := writeAt_writeAt [92] [letter] hdst
  rw [List.length_singleton] at hwrite
  rw [escapeCase,if_pos hj,hwrite]
  rfl

/-- The `switch` stores what a byte takes, and the position moves behind it. -/
theorem escapeByteInto_eq {dstSize j : ℕ} {dst : Bytes} (c : Byte) (hj : j+2<dstSize)
    (hdst : j≤dst.length) :
    escapeByteInto dstSize c dst j=(writeAt dst j (stored c),j+(stored c).length) := by
  unfold escapeByteInto stored
  simp only [escapeCase_eq _ hj hdst]
  by_cases hquote : c=34
  · rw [if_pos hquote,if_pos hquote]
    rfl
  by_cases hbackslash : c=92
  · rw [if_neg hquote,if_neg hquote,if_pos hbackslash,if_pos hbackslash]
    rfl
  by_cases hlf : c=10
  · rw [if_neg hquote,if_neg hquote,if_neg hbackslash,if_neg hbackslash,if_pos hlf,if_pos hlf]
    rfl
  by_cases hcr : c=13
  · rw [if_neg hquote,if_neg hquote,if_neg hbackslash,if_neg hbackslash,if_neg hlf,if_neg hlf,
      if_pos hcr,if_pos hcr]
    rfl
  by_cases htab : c=9
  · rw [if_neg hquote,if_neg hquote,if_neg hbackslash,if_neg hbackslash,if_neg hlf,if_neg hlf,
      if_neg hcr,if_neg hcr,if_pos htab,if_pos htab]
    rfl
  rw [if_neg hquote,if_neg hquote,if_neg hbackslash,if_neg hbackslash,if_neg hlf,if_neg hlf,
    if_neg hcr,if_neg hcr,if_neg htab,if_neg htab]
  rfl

/-- A byte takes one place or two. -/
theorem length_stored (c : Byte) : (stored c).length≤2 := by
  unfold stored
  repeat' split
  all_goals simp only [List.length_cons,List.length_nil,Nat.reduceAdd,Nat.reduceLeDiff,Nat.le_refl]

section Call

variable {dstSize : ℕ} (hsize : 3≤dstSize) (hword : dstSize<wordModulus)

include hsize hword

/-- The limit of the loop does not wrap around. -/
theorem limit_eq : (dstSize+wordModulus-2)%wordModulus=dstSize-2 := by
  have hsplit : dstSize+wordModulus-2=dstSize-2+wordModulus := by omega
  rw [hsplit,Nat.add_mod_right,Nat.mod_eq_of_lt (by omega)]

/-- The loop stores the bytes it takes up one behind the other, and leaves room for the
terminator. -/
theorem escapeLoop_eq {cs : Bytes} (hcs : (0 : Byte)∉cs) (behind : Bytes) {dst : Bytes} {j : ℕ}
    (hdst : dstSize≤dst.length) (hj : j+1≤dstSize) :
    escapeLoop dstSize (cs++0::behind) dst j=
        (writeAt dst j ((takenUp (dstSize-2) j cs).flatMap stored),
          j+((takenUp (dstSize-2) j cs).flatMap stored).length) ∧
      j+((takenUp (dstSize-2) j cs).flatMap stored).length+1≤dstSize := by
  induction cs generalizing dst j with
  | nil =>
    have hzero : ¬((0 : Byte)≠0 ∧ j<(dstSize+wordModulus-2)%wordModulus) := fun h => h.1 rfl
    rw [List.nil_append,escapeLoop,if_neg hzero]
    constructor
    · rw [takenUp,List.flatMap_nil,writeAt_nil]
      rfl
    · exact hj
  | cons c cs ih =>
    rw [List.mem_cons,not_or] at hcs
    rw [List.cons_append,escapeLoop,limit_eq hsize hword,takenUp]
    by_cases hlimit : j<dstSize-2
    · have hroom : j+2<dstSize := by omega
      have hbyte := escapeByteInto_eq c hroom (show j≤dst.length by omega)
      have hlength : (writeAt dst j (stored c)).length=dst.length := by
        have hstored := length_stored c
        exact length_writeAt (by omega)
      have hnext : j+(stored c).length+1≤dstSize := by
        have hstored := length_stored c
        omega
      have hrest := ih hcs.2 (hlength.symm ▸ hdst) hnext
      rw [if_pos ⟨fun h => hcs.1 h.symm,hlimit⟩,hbyte,if_pos hlimit,List.flatMap_cons,
        List.length_append,← Nat.add_assoc,hrest.1,writeAt_writeAt _ _ (by omega)]
      exact ⟨rfl,hrest.2⟩
    · rw [if_neg (fun h => hlimit h.2),if_neg hlimit]
      constructor
      · rw [List.flatMap_nil,writeAt_nil]
        rfl
      · exact hj

/-- What a call leaves: the bytes taken up as they are stored, the terminator, and the old
bytes behind it. -/
theorem escapeJsonString_eq {message : Bytes} (hmessage : (0 : Byte)∉message) (behind : Bytes)
    {dst : Bytes} (hdst : dstSize≤dst.length) :
    let body := (takenUp (dstSize-2) 0 message).flatMap stored
    escapeJsonString (message++0::behind) dst dstSize=body++0::dst.drop (body.length+1) ∧
      body.length+1≤dstSize := by
  intro body
  have hloop := escapeLoop_eq hsize hword hmessage behind hdst (show 0+1≤dstSize by omega)
  have hlast := writeAt_writeAt body [0] (Nat.zero_le dst.length)
  have hlength : body.length+1≤dstSize := by
    have hroom := hloop.2
    rwa [Nat.zero_add] at hroom
  refine ⟨?_,hlength⟩
  rw [escapeJsonString,hloop.1]
  dsimp only
  rw [hlast,writeAt,List.take_zero,List.nil_append,Nat.zero_add,List.length_append,
    List.length_singleton,List.append_assoc]
  rfl

end Call

/-! ## What it means -/

/-- A control character that the `switch` has no case for. -/
def Raw (c : Byte) : Prop := c<32 ∧ c≠9 ∧ c≠10 ∧ c≠13

instance (c : Byte) : Decidable (Raw c) := inferInstanceAs (Decidable (c<32 ∧ c≠9 ∧ c≠10 ∧ c≠13))

/-- A control character without a case is none of the other bytes. -/
theorem raw_ne {c d : Byte} (hc : Raw c) (hd : ¬Raw d) : c≠d := fun h => hd (h ▸ hc)

/-- A control character without a case is stored as it is. -/
theorem stored_raw {c : Byte} (hc : Raw c) : stored c=[c] := by
  have hquote : c≠34 := raw_ne hc (by decide)
  have hbackslash : c≠92 := raw_ne hc (by decide)
  rw [stored,if_neg hquote,if_neg hbackslash,if_neg hc.2.2.1,if_neg hc.2.2.2,if_neg hc.2.1]

/-- The other bytes are stored as JSON has them. -/
theorem stored_of_not_raw {c : Byte} (hascii : c<128) (hc : ¬Raw c) : stored c=escapeByte c := by
  unfold stored
  by_cases hquote : c=34
  · rw [if_pos hquote,hquote]
    rfl
  by_cases hbackslash : c=92
  · rw [if_neg hquote,if_pos hbackslash,hbackslash]
    rfl
  by_cases hlf : c=10
  · rw [if_neg hquote,if_neg hbackslash,if_pos hlf,hlf]
    rfl
  by_cases hcr : c=13
  · rw [if_neg hquote,if_neg hbackslash,if_neg hlf,if_pos hcr,hcr]
    rfl
  by_cases htab : c=9
  · rw [if_neg hquote,if_neg hbackslash,if_neg hlf,if_neg hcr,if_pos htab,htab]
    rfl
  have hplain : Plain c :=
    ⟨UInt8.not_lt.mp (fun h => hc ⟨h,htab,hlf,hcr⟩),hascii,hquote,hbackslash⟩
  rw [if_neg hquote,if_neg hbackslash,if_neg hlf,if_neg hcr,if_neg htab,escapeByte_plain hplain]

/-- No byte takes more than JSON needs for it. -/
theorem length_stored_le {c : Byte} (hascii : c<128) : (stored c).length≤(escapeByte c).length := by
  by_cases hc : Raw c
  · rw [stored_raw hc]
    exact (length_escapeByte c).1
  · rw [stored_of_not_raw hascii hc]

/-- No NUL is stored for another byte. -/
theorem zero_not_mem_stored {c : Byte} (hc : c≠0) : (0 : Byte)∉stored c := by
  unfold stored
  repeat' split
  all_goals simp [hc.symm]

section Texts

variable {cs : Bytes} (hascii : ∀ c∈cs,c<128)

include hascii

/-- A text without such characters is stored as JSON has it. -/
theorem flatMap_stored (hraw : ∀ c∈cs,¬Raw c) : cs.flatMap stored=escape cs :=
  List.flatMap_congr (fun c hc => stored_of_not_raw (hascii c hc) (hraw c hc))

/-- No text takes more than JSON needs for it. -/
theorem length_flatMap_stored : (cs.flatMap stored).length≤(escape cs).length := by
  induction cs with
  | nil => exact Nat.le_refl _
  | cons c cs ih =>
    have hrest := ih (fun b hb => hascii b (List.mem_cons_of_mem _ hb))
    have hfirst := length_stored_le (hascii c List.mem_cons_self)
    rw [List.flatMap_cons,escape_cons,List.length_append,List.length_append]
    omega

/-- A text with such a character is not read. -/
theorem unescape_raw {c : Byte} (hmem : c∈cs) (hc : Raw c) : unescape (cs.flatMap stored)=none := by
  induction cs with
  | nil => cases hmem
  | cons b cs ih =>
    rw [List.flatMap_cons]
    by_cases hb : Raw b
    · have hplain : ¬Plain b := fun h => UInt8.not_lt.mpr h.1 hb.1
      rw [stored_raw hb]
      exact unescape_bad hplain (raw_ne hb (by decide)) _
    · have hlater : c∈cs := by
        cases List.mem_cons.mp hmem with
        | inl heq => exact absurd (heq ▸ hc) hb
        | inr hlater => exact hlater
      have hbascii := hascii b List.mem_cons_self
      rw [stored_of_not_raw hbascii hb,unescape_escapeByte hbascii,
        ih (fun d hd => hascii d (List.mem_cons_of_mem _ hd)) hlater]
      rfl

end Texts

/-- The bytes taken up are the front of a text, and it goes on only behind the limit. -/
theorem takenUp_append (limit j : ℕ) (cs : Bytes) :
    ∃ rest,cs=takenUp limit j cs++rest ∧
      (rest≠[] → limit≤j+((takenUp limit j cs).flatMap stored).length) := by
  induction cs generalizing j with
  | nil => exact ⟨[],rfl,fun h => absurd rfl h⟩
  | cons c cs ih =>
    rw [takenUp]
    by_cases hlimit : j<limit
    · obtain ⟨rest,hsplit,hrest⟩ := ih (j+(stored c).length)
      refine ⟨rest,?_,?_⟩
      · rw [if_pos hlimit,List.cons_append,← hsplit]
      · intro hne
        have hbound := hrest hne
        rw [if_pos hlimit,List.flatMap_cons,List.length_append]
        omega
    · refine ⟨c::cs,?_,?_⟩
      · rw [if_neg hlimit,List.nil_append]
      · intro _
        omega

/-- A byte is taken up exactly if what stands in front of it ends before the limit. -/
theorem takenUp_split (limit j : ℕ) (front : Bytes) (c : Byte) (back : Bytes) :
    j+(front.flatMap stored).length<limit ↔
      ∃ rest,takenUp limit j (front++c::back)=front++c::rest := by
  induction front generalizing j with
  | nil =>
    rw [List.nil_append,takenUp,List.flatMap_nil,List.length_nil,Nat.add_zero]
    constructor
    · intro h
      exact ⟨_,if_pos h⟩
    · intro h
      obtain ⟨rest,hrest⟩ := h
      by_contra hlimit
      rw [if_neg hlimit] at hrest
      cases hrest
  | cons b front ih =>
    have hrest := ih (j+(stored b).length)
    rw [List.cons_append,takenUp,List.flatMap_cons,List.length_append,← Nat.add_assoc]
    constructor
    · intro h
      obtain ⟨rest,htaken⟩ := hrest.mp h
      exact ⟨rest,by rw [if_pos (by omega),htaken]; rfl⟩
    · intro h
      obtain ⟨rest,htaken⟩ := h
      by_cases hlimit : j<limit
      · rw [if_pos hlimit] at htaken
        exact hrest.mpr ⟨rest,(List.cons.inj htaken).2⟩
      · rw [if_neg hlimit] at htaken
        cases htaken

/-! ## Messages that come back -/

/-- The call logs its message: what it leaves is the text between the quotes of a JSON
string, which stands for the message if its escaped form and the terminator fit and for a
front of it otherwise, and nothing behind the destination is written. -/
structure LogsMessage (src dst : Bytes) (dstSize : ℕ) (message : Bytes) : Prop where
  /-- The result is well formed. -/
  body : StringBody (cstr (escapeJsonString src dst dstSize))
  /-- The result stands for a front of the message, and for all of it if it fits. -/
  decodes : ∃ front,front<+:message ∧
    unescape (cstr (escapeJsonString src dst dstSize))=some (front.map UInt8.toNat) ∧
    ((escape message).length+1≤dstSize → front=message)
  /-- The terminator stands in the destination. -/
  terminated : (0 : Byte)∈(escapeJsonString src dst dstSize).take dstSize
  /-- The bytes behind the destination are the old ones. -/
  inside : (escapeJsonString src dst dstSize).drop dstSize=dst.drop dstSize

/-- Every control character without a case stands behind the place where the escaped text
leaves fewer than three bytes. -/
def ControlsBehind (dstSize : ℕ) (message : Bytes) : Prop :=
  ∀ front c back,message=front++c::back → (escape front).length+2<dstSize → ¬Raw c

/-- The message is not one that fits exactly and ends with a plain character. -/
def NotExact (dstSize : ℕ) (message : Bytes) : Prop :=
  ∀ front c,message=front++[c] → Plain c → (escape front).length+2≠dstSize

section Meaning

variable {dstSize : ℕ} (hsize : 3≤dstSize) (hword : dstSize<wordModulus) {message : Bytes}
  (hmessage : ∀ c∈message,c≠0 ∧ c<128)

include hmessage

/-- The message is free of NUL. -/
theorem zero_not_mem_message : (0 : Byte)∉message := fun h => (hmessage 0 h).1 rfl

/-- The bytes taken up are ASCII characters. -/
theorem takenUp_ascii (limit j : ℕ) : ∀ c∈takenUp limit j message,c<128 := by
  obtain ⟨rest,hsplit,_⟩ := takenUp_append limit j message
  intro c hc
  have hmem : c∈takenUp limit j message++rest := List.mem_append_left _ hc
  rw [← hsplit] at hmem
  exact (hmessage c hmem).2

/-- What is stored is read as a C string. -/
theorem zero_not_mem_taken (limit j : ℕ) :
    (0 : Byte)∉(takenUp limit j message).flatMap stored := by
  obtain ⟨rest,hsplit,_⟩ := takenUp_append limit j message
  intro hzero
  obtain ⟨c,hc,hstored⟩ := List.mem_flatMap.mp hzero
  have hmem : c∈takenUp limit j message++rest := List.mem_append_left _ hc
  rw [← hsplit] at hmem
  exact zero_not_mem_stored (hmessage c hmem).1 hstored

/-- The control characters stand behind the limit exactly if none is taken up. -/
theorem controlsBehind_iff (dstSize : ℕ) :
    ControlsBehind dstSize message ↔ ∀ c∈takenUp (dstSize-2) 0 message,¬Raw c := by
  constructor
  · intro h
    -- the fronts of what is taken up grow byte by byte
    have hfront : ∀ front rest,takenUp (dstSize-2) 0 message=front++rest → ∀ c∈front,¬Raw c := by
      intro front
      induction front using List.reverseRecOn with
      | nil =>
        intro rest _ c hc
        cases hc
      | append_singleton front b ih =>
        intro rest htaken
        rw [List.append_assoc,List.singleton_append] at htaken
        have hclean := ih (b::rest) htaken
        obtain ⟨later,hsplit,_⟩ := takenUp_append (dstSize-2) 0 message
        have hwhole : message=front++b::(rest++later) := by
          rw [hsplit,htaken,List.append_assoc,List.cons_append]
        have hascii : ∀ c∈front,c<128 := by
          intro c hc
          refine (hmessage c ?_).2
          rw [hwhole]
          exact List.mem_append_left _ hc
        have hlimit := (takenUp_split (dstSize-2) 0 front b (rest++later)).mpr
          ⟨rest,by rw [← hwhole,htaken]⟩
        rw [Nat.zero_add,flatMap_stored hascii hclean] at hlimit
        have hb := h front b (rest++later) hwhole (by omega)
        intro c hc
        cases List.mem_append.mp hc with
        | inl hmem => exact hclean c hmem
        | inr hmem =>
          rw [List.mem_singleton.mp hmem]
          exact hb
    exact hfront _ [] (List.append_nil _).symm
  · intro h front c back hsplit hroom
    have hascii : ∀ b∈front,b<128 := by
      intro b hb
      refine (hmessage b ?_).2
      rw [hsplit]
      exact List.mem_append_left _ hb
    have hlength := length_flatMap_stored hascii
    have htaken := (takenUp_split (dstSize-2) 0 front c back).mp (by omega)
    obtain ⟨rest,hrest⟩ := htaken
    refine h c ?_
    rw [hsplit,hrest]
    exact List.mem_append_right _ List.mem_cons_self

include hsize in
/-- A message that fits is taken up as a whole unless it fits exactly with a plain
character at its end. -/
theorem takenUp_eq_of_fits (hclean : ∀ c∈takenUp (dstSize-2) 0 message,¬Raw c)
    (hexact : NotExact dstSize message) (hfits : (escape message).length+1≤dstSize) :
    takenUp (dstSize-2) 0 message=message := by
  have hascii := takenUp_ascii hmessage (dstSize-2) 0
  obtain ⟨rest,hsplit,hrest⟩ := takenUp_append (dstSize-2) 0 message
  cases rest with
  | nil =>
    rw [List.append_nil] at hsplit
    exact hsplit.symm
  | cons c rest =>
    have hlimit := hrest (List.cons_ne_nil c rest)
    rw [flatMap_stored hascii hclean] at hlimit
    rw [hsplit,escape_append,escape_cons,List.length_append,List.length_append] at hfits
    have hfirst := length_escapeByte c
    have hlater := length_le_escape rest
    have hnil : rest=[] := List.eq_nil_of_length_eq_zero (by omega)
    have hc : c∈message := by
      rw [hsplit]
      exact List.mem_append_right _ List.mem_cons_self
    rw [hnil] at hsplit
    exact absurd (by omega) (hexact _ c hsplit (hfirst.2 (by omega) (hmessage c hc).2))

include hsize hword

variable (behind : Bytes) {dst : Bytes} (hdst : dstSize≤dst.length)

include hdst

/-- The string that a call leaves. -/
theorem cstr_escapeJsonString : cstr (escapeJsonString (message++0::behind) dst dstSize)=
    (takenUp (dstSize-2) 0 message).flatMap stored := by
  have hcall := escapeJsonString_eq hsize hword (zero_not_mem_message hmessage) behind hdst
  rw [hcall.1]
  exact cstr_terminated (zero_not_mem_taken hmessage _ _) _

/-- The terminator stands in the destination, and the bytes behind it are the old ones. -/
theorem escapeJsonString_inside :
    (0 : Byte)∈(escapeJsonString (message++0::behind) dst dstSize).take dstSize ∧
      (escapeJsonString (message++0::behind) dst dstSize).drop dstSize=dst.drop dstSize := by
  have hcall := escapeJsonString_eq hsize hword (zero_not_mem_message hmessage) behind hdst
  dsimp only at hcall
  generalize (takenUp (dstSize-2) 0 message).flatMap stored=body at hcall
  have hsplit : body++0::dst.drop (body.length+1)=(body++[0])++dst.drop (body.length+1) := by
    rw [List.append_assoc,List.singleton_append]
  have hlength : (body++[0]).length=body.length+1 := by
    rw [List.length_append,List.length_singleton]
  rw [hcall.1,hsplit]
  constructor
  · rw [List.take_append,List.take_of_length_le (by omega)]
    exact List.mem_append_left _ (List.mem_append_right _ (List.mem_singleton_self 0))
  · rw [List.drop_append,List.drop_eq_nil_of_le (by omega),List.nil_append,List.drop_drop,hlength]
    congr 1
    omega

/-- A logged message has its control characters behind the limit. -/
theorem controlsBehind_of_logsMessage (h : LogsMessage (message++0::behind) dst dstSize message) :
    ControlsBehind dstSize message := by
  rw [controlsBehind_iff hmessage]
  intro c hc hraw
  have hread := unescape_of_stringBody h.body
  rw [cstr_escapeJsonString hsize hword hmessage behind hdst,
    unescape_raw (takenUp_ascii hmessage _ _) hc hraw] at hread
  cases hread

/-- A logged message does not fit exactly with a plain character at its end, for the loop
does not take up that character. -/
theorem notExact_of_logsMessage (h : LogsMessage (message++0::behind) dst dstSize message) :
    NotExact dstSize message := by
  have hcontrols := controlsBehind_of_logsMessage hsize hword hmessage behind hdst h
  have hclean := (controlsBehind_iff hmessage dstSize).mp hcontrols
  have hascii := takenUp_ascii hmessage (dstSize-2) 0
  intro last c hlast hplain hexact
  obtain ⟨front,_,hread,hfits⟩ := h.decodes
  have hlength : (escape message).length+1≤dstSize := by
    rw [hlast,escape_append,escape_cons,escapeByte_plain hplain,List.length_append]
    have hone : ([c]++escape []).length=1 := rfl
    omega
  rw [cstr_escapeJsonString hsize hword hmessage behind hdst,flatMap_stored hascii hclean,
    unescape_escape hascii,hfits hlength] at hread
  have hall : takenUp (dstSize-2) 0 message=message :=
    List.map_injective_iff.mpr (fun _ _ => UInt8.toNat_inj.mp) (Option.some.inj hread)
  have hlimit := (takenUp_split (dstSize-2) 0 last c []).mpr ⟨[],by rw [← hlast,hall]⟩
  rw [hall,hlast] at hclean hascii
  rw [flatMap_stored (fun b hb => hascii b (List.mem_append_left _ hb))
    (fun b hb => hclean b (List.mem_append_left _ hb))] at hlimit
  omega

/-- A call logs its message exactly if the control characters without a case stand behind
the limit and the message does not fit exactly with a plain character at its end. -/
theorem logsMessage_iff : LogsMessage (message++0::behind) dst dstSize message ↔
    ControlsBehind dstSize message ∧ NotExact dstSize message := by
  constructor
  · intro h
    exact ⟨controlsBehind_of_logsMessage hsize hword hmessage behind hdst h,
      notExact_of_logsMessage hsize hword hmessage behind hdst h⟩
  · intro h
    have hascii := takenUp_ascii hmessage (dstSize-2) 0
    have hclean := (controlsBehind_iff hmessage dstSize).mp h.1
    have hinside := escapeJsonString_inside hsize hword hmessage behind hdst
    have hread : unescape (cstr (escapeJsonString (message++0::behind) dst dstSize))=
        some ((takenUp (dstSize-2) 0 message).map UInt8.toNat) := by
      rw [cstr_escapeJsonString hsize hword hmessage behind hdst,flatMap_stored hascii hclean,
        unescape_escape hascii]
    obtain ⟨rest,hsplit,_⟩ := takenUp_append (dstSize-2) 0 message
    have hfront : takenUp (dstSize-2) 0 message<+:message := ⟨rest,hsplit.symm⟩
    exact ⟨stringBody_of_unescape hread,
      ⟨_,hfront,hread,takenUp_eq_of_fits hsize hmessage hclean h.2⟩,
      hinside.1,hinside.2⟩

end Meaning

/-- A letter in quotes comes back from a buffer of eight bytes. -/
theorem logsMessage_quoted :
    LogsMessage ([34,97,34]++0::[]) (List.replicate 8 0) 8 [34,97,34] := by
  have hascii : ∀ c∈([34,97,34] : Bytes),c≠0 ∧ c<128 := List.forall_iff_forall_mem.mp (by decide)
  have hclean : ∀ c∈([34,97,34] : Bytes),¬Raw c := List.forall_iff_forall_mem.mp (by decide)
  refine (logsMessage_iff (by decide) (by decide) hascii [] (by decide)).mpr ⟨?_,?_⟩
  · intro front c back hsplit _
    refine hclean c ?_
    rw [hsplit]
    exact List.mem_append_right _ List.mem_cons_self
  · intro front c hlast hplain
    have hquote := congrArg List.getLast? hlast
    rw [List.getLast?_concat] at hquote
    rw [← Option.some.inj hquote] at hplain
    exact absurd hplain (by decide)

-- the last letter is left out although three bytes are enough for both
example : escapeJsonString [97,98,0] [1,1,1] 3=[97,0,1] := by decide

/-- The code of an arrow key makes the line of the log no JSON. -/
theorem not_logsMessage_arrow :
    ¬LogsMessage ([27,91,65]++0::[]) (List.replicate utilitiesLogBufferSize 0)
      utilitiesLogBufferSize [27,91,65] := by
  intro h
  have hsize : utilitiesLogBufferSize≤(List.replicate utilitiesLogBufferSize (0 : Byte)).length := by
    rw [List.length_replicate]
  have hcontrols := controlsBehind_of_logsMessage (by decide) (by decide)
    (List.forall_iff_forall_mem.mp (by decide)) [] hsize h
  exact hcontrols [] 27 [91,65] rfl (by decide) (by decide)

end HoneyDew.LoggerJson
