import HoneyDew.TelnetService
import HoneyDew.TelnetStream

/-!
# What is left of a Telnet stream

Outside a sub-negotiation the stripper follows the stream part by part. Inside
it looks for 0xFF 0xF0 at every byte, so a doubled 0xFF in front of 0xF0 ends the
sub-negotiation early and the bytes behind them are taken for data.
-/

namespace HoneyDew.TelnetDecoding

open CText TelnetService TelnetStream

/-- The bytes that a part leaves: its data, and what stands behind an end inside
a sub-negotiation. -/
def shown : Item → Bytes
  | .subnegotiation payload => behindEnd payload
  | item => item.value

section Steps

variable {room : ℕ}

/-- Without room nothing is written. -/
theorem telnetStripFrom_full (src : Bytes) : telnetStripFrom false 0 src=[] := by
  cases src <;> rfl

/-- What the loop does with two bytes. -/
theorem telnetStripFrom_pair (b cmd : Byte) (rest : Bytes) :
    telnetStripFrom false (room+1) (b::cmd::rest)=
      if b=0xFF then
        if cmd=0xFA then telnetStripFrom true (room+1) rest
        else if 0xFB≤cmd ∧ cmd≤0xFE then telnetStripFrom false (room+1) rest.tail
        else if cmd=0xFF then 0xFF::telnetStripFrom false room rest
        else telnetStripFrom false (room+1) rest
      else b::telnetStripFrom false room (cmd::rest) := by
  cases rest <;> rfl

/-- A byte of data is written. -/
theorem telnetStripFrom_data (b : Byte) (rest : Bytes) :
    telnetStripFrom false (room+1) (escape [b]++rest)=b::telnetStripFrom false room rest := by
  by_cases hescape : b=0xFF
  · have hwire : escape [b]++rest=0xFF::0xFF::rest := by rw [hescape]; rfl
    rw [hwire,telnetStripFrom_pair,if_pos rfl,if_neg (by decide),if_neg (by decide),if_pos rfl,
      hescape]
  · have hwire : escape [b]++rest=b::rest := by
      rw [escape,List.flatMap_singleton,if_neg hescape]
      rfl
    rw [hwire]
    cases rest with
    | nil => rfl
    | cons next rest => rw [telnetStripFrom_pair,if_neg hescape]

/-- A command of two bytes is skipped. -/
theorem telnetStripFrom_command {c : Byte} (hc : c<0xFA) (rest : Bytes) :
    telnetStripFrom false room (0xFF::c::rest)=telnetStripFrom false room rest := by
  cases room with
  | zero => rw [telnetStripFrom_full,telnetStripFrom_full]
  | succ room =>
    have hlow : c.toNat<250 := hc
    have hsub : c≠0xFA := fun h => absurd (h ▸ hlow) (by decide)
    have hdata : c≠0xFF := fun h => absurd (h ▸ hlow) (by decide)
    have hrequest : ¬(0xFB≤c ∧ c≤0xFE) := by
      intro h
      have hle : 251≤c.toNat := h.1
      omega
    rw [telnetStripFrom_pair,if_pos rfl,if_neg hsub,if_neg hrequest,if_neg hdata]

/-- A request for an option is skipped. -/
theorem telnetStripFrom_request {c : Byte} (hlow : 0xFB≤c) (hhigh : c≤0xFE) (option : Byte)
    (rest : Bytes) :
    telnetStripFrom false room (0xFF::c::option::rest)=telnetStripFrom false room rest := by
  cases room with
  | zero => rw [telnetStripFrom_full,telnetStripFrom_full]
  | succ room =>
    have hsub : c≠0xFA := fun h => absurd (h ▸ hlow) (by decide)
    rw [telnetStripFrom_pair,if_pos rfl,if_neg hsub,if_pos ⟨hlow,hhigh⟩,List.tail_cons]

/-- A sub-negotiation begins. -/
theorem telnetStripFrom_subnegotiation (rest : Bytes) :
    telnetStripFrom false (room+1) (0xFF::0xFA::rest)=telnetStripFrom true (room+1) rest := by
  rw [telnetStripFrom_pair,if_pos rfl,if_pos rfl]

/-- Inside a sub-negotiation a byte that does not end it is skipped. -/
theorem telnetStripFrom_skip {b next : Byte} (h : ¬(b=0xFF ∧ next=0xF0)) (rest : Bytes) :
    telnetStripFrom true room (b::next::rest)=telnetStripFrom true room (next::rest) := by
  conv_lhs => rw [telnetStripFrom]
  exact if_neg h

/-- The bytes 0xFF 0xF0 end a sub-negotiation. -/
theorem telnetStripFrom_end (rest : Bytes) :
    telnetStripFrom true room (0xFF::0xF0::rest)=telnetStripFrom false room rest := by
  rw [telnetStripFrom,if_pos ⟨rfl,rfl⟩]

end Steps

section Parts

variable {room : ℕ}

/-- Bytes of data are written as far as there is room. -/
theorem telnetStripFrom_escape (bytes rest : Bytes) :
    telnetStripFrom false room (escape bytes++rest)=
      bytes.take room++telnetStripFrom false (room-bytes.length) rest := by
  induction bytes generalizing room with
  | nil =>
    rw [List.take_nil,List.nil_append,List.length_nil,Nat.sub_zero]
    rfl
  | cons b bytes ih =>
    cases room with
    | zero => rw [telnetStripFrom_full,Nat.zero_sub,telnetStripFrom_full]; rfl
    | succ room =>
      have hwire : escape (b::bytes)++rest=escape [b]++(escape bytes++rest) := by
        unfold escape
        rw [List.flatMap_cons,List.flatMap_singleton,List.append_assoc]
      rw [hwire,telnetStripFrom_data,ih,List.take_succ_cons,List.length_cons,Nat.add_sub_add_right]
      rfl

/-- A sub-negotiation is skipped up to the first end in its bytes; the bytes
behind it are data, and the end proper is a command. -/
theorem telnetStripFrom_payload (payload rest : Bytes) :
    telnetStripFrom true room (escape payload++0xFF::0xF0::rest)=
      telnetStripFrom false room (escape (behindEnd payload)++0xFF::0xF0::rest) := by
  induction payload with
  | nil =>
    show telnetStripFrom true room (0xFF::0xF0::rest)=telnetStripFrom false room (0xFF::0xF0::rest)
    rw [telnetStripFrom_end,telnetStripFrom_command (by decide)]
  | cons a payload ih =>
    by_cases hescape : a=0xFF
    · have hwire : escape (a::payload)++0xFF::0xF0::rest=
          0xFF::0xFF::(escape payload++0xFF::0xF0::rest) := by rw [hescape]; rfl
      rw [hwire,telnetStripFrom_skip (by decide),behindEnd]
      by_cases hend : a=0xFF ∧ payload.head?=some 0xF0
      · obtain ⟨tail,rfl⟩ : ∃ tail,payload=0xF0::tail := List.head?_eq_some_iff.mp hend.2
        rw [if_pos hend]
        exact telnetStripFrom_end _
      · rw [if_neg hend,←ih]
        have hhead : payload.head?≠some 0xF0 := fun h => hend ⟨hescape,h⟩
        cases payload with
        | nil => exact telnetStripFrom_skip (by decide) _
        | cons c payload =>
          by_cases hc : c=0xFF
          · rw [hc]
            exact telnetStripFrom_skip (by decide) _
          · have hnext : escape (c::payload)++0xFF::0xF0::rest=
                c::(escape payload++0xFF::0xF0::rest) := by
              unfold escape
              rw [List.flatMap_cons,if_neg hc]
              rfl
            rw [hnext]
            exact telnetStripFrom_skip (fun h => hhead (congrArg some h.2)) _
    · have hwire : escape (a::payload)++0xFF::0xF0::rest=a::(escape payload++0xFF::0xF0::rest) := by
        unfold escape
        rw [List.flatMap_cons,if_neg hescape]
        rfl
      rw [hwire,behindEnd,if_neg (fun h => hescape h.1),←ih]
      obtain ⟨next,bytes,hbytes⟩ : ∃ next bytes,escape payload++0xFF::0xF0::rest=next::bytes :=
        List.exists_cons_of_ne_nil (List.append_ne_nil_of_right_ne_nil _ (List.cons_ne_nil _ _))
      rw [hbytes]
      exact telnetStripFrom_skip (fun h => hescape h.1) _

/-- A part of a stream leaves its bytes as far as there is room. -/
theorem telnetStripFrom_item (item : Item) (rest : Bytes) :
    telnetStripFrom false room (item.encode++rest)=
      (shown item).take room++telnetStripFrom false (room-(shown item).length) rest := by
  cases item with
  | data b => exact telnetStripFrom_escape [b] rest
  | command c hc =>
    rw [show shown (.command c hc)=[] from rfl,List.take_nil,List.length_nil,Nat.sub_zero]
    exact telnetStripFrom_command hc rest
  | request c option hlow hhigh =>
    rw [show shown (.request c option hlow hhigh)=[] from rfl,List.take_nil,List.length_nil,
      Nat.sub_zero]
    exact telnetStripFrom_request hlow hhigh option rest
  | subnegotiation payload =>
    cases room with
    | zero => rw [telnetStripFrom_full,Nat.zero_sub,telnetStripFrom_full]; rfl
    | succ room =>
      have hwire : (Item.subnegotiation payload).encode++rest=
          0xFF::0xFA::(escape payload++0xFF::0xF0::rest) := by
        simp only [Item.encode,List.cons_append,List.append_assoc,List.nil_append]
      rw [hwire,telnetStripFrom_subnegotiation,telnetStripFrom_payload,telnetStripFrom_escape,
        telnetStripFrom_command (by decide)]
      rfl

/-- What is left of a stream: the bytes of its parts as far as there is room. -/
theorem telnetStripFrom_encode (items : List Item) :
    telnetStripFrom false room (encode items)=(items.flatMap shown).take room := by
  induction items generalizing room with
  | nil => rw [encode,List.flatMap_nil,List.flatMap_nil,List.take_nil,telnetStripFrom]
  | cons item items ih =>
    have hwire : encode (item::items)=item.encode++encode items := List.flatMap_cons
    rw [hwire,telnetStripFrom_item,ih,List.flatMap_cons,List.take_append]

/-- Nothing is written behind the room, whatever the bytes are. -/
theorem length_telnetStripFrom_le (skipping : Bool) (src : Bytes) :
    (telnetStripFrom skipping room src).length≤room := by
  fun_induction telnetStripFrom skipping room src with
  -- the branches that write: an escaped byte, a plain one and the last one of the source
  | case9 room rest hsub hrequest ih => exact Nat.succ_le_succ ih
  | case11 room b cmd rest hb ih => exact Nat.succ_le_succ ih
  | case12 => exact Nat.succ_le_succ (Nat.zero_le _)
  | _ => first | exact Nat.zero_le _ | assumption

end Parts

/-- The bytes of a sub-negotiation that are taken for data. -/
def leaked : Item → Bytes
  | .subnegotiation payload => behindEnd payload
  | _ => []

/-- A stream leaves its data and what is taken for data. -/
theorem length_shown (items : List Item) :
    (items.flatMap shown).length=(value items).length+(items.flatMap leaked).length := by
  induction items with
  | nil => rfl
  | cons item items ih =>
    have hitem : (shown item).length=item.value.length+(leaked item).length := by
      cases item with
      | data b => rfl
      | command c hc => rfl
      | request c option hlow hhigh => rfl
      | subnegotiation payload => exact (Nat.zero_add _).symm
    have hvalue : (value (item::items)).length=item.value.length+(value items).length :=
      List.length_append
    rw [List.flatMap_cons,List.flatMap_cons,List.length_append,List.length_append,hvalue]
    omega

/-- Where every sub-negotiation ends once, a stream leaves its data. -/
theorem shown_eq_value {items : List Item}
    (hends : ∀ payload,Item.subnegotiation payload∈items → EndsOnce payload) :
    items.flatMap shown=value items := by
  refine List.flatMap_congr ?_
  intro item hitem
  cases item with
  | data b => rfl
  | command c hc => rfl
  | request c option hlow hhigh => rfl
  | subnegotiation payload => exact (behindEnd_eq_nil_iff payload).mpr (hends payload hitem)

/-- A stream is freed from all its commands, into every buffer with room for the
data, exactly when no sub-negotiation goes on behind 0xFF 0xF0; no stream writes
behind its buffer. -/
theorem stream_stripped_iff (items : List Item) :
    ((∀ cap,(value items).length<cap → telnetStripIac (encode items) cap=value items) ↔
      ∀ payload,Item.subnegotiation payload∈items → EndsOnce payload) ∧
    ∀ src cap,0<cap → (telnetStripIac src cap).length+1≤cap := by
  refine ⟨⟨?_,?_⟩,?_⟩
  · intro hstripped payload hpayload
    have hlength := length_shown items
    have hall := hstripped ((items.flatMap shown).length+1) (by omega)
    rw [telnetStripIac,telnetStripFrom_encode,Nat.add_sub_cancel,List.take_length] at hall
    rw [hall] at hlength
    have hnone : items.flatMap leaked=[] := List.eq_nil_of_length_eq_zero (by omega)
    exact (behindEnd_eq_nil_iff payload).mp (List.flatMap_eq_nil_iff.mp hnone _ hpayload)
  · intro hends cap hcap
    rw [telnetStripIac,telnetStripFrom_encode,shown_eq_value hends]
    exact List.take_of_length_le (by omega)
  · intro src cap hcap
    have hle : (telnetStripIac src cap).length≤cap-1 := length_telnetStripFrom_le false src
    omega

/-- A doubled 0xFF in front of 0xF0 ends a sub-negotiation, and the letter behind
them is taken for input. -/
theorem doubled_byte_ends_subnegotiation :
    ∃ items : List Item,(value items).length<1024 ∧
      telnetStripIac (encode items) 1024≠value items :=
  ⟨[.subnegotiation [24,0xFF,0xF0,65],.data 98],by decide,by decide⟩

end HoneyDew.TelnetDecoding
