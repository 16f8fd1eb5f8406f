import HoneyDew.MysqlHandshake

/-!
# Streams of numbered packets

A packet is a length of three bytes, a sequence number and so many bytes of payload. A
stream of packets is read back packet by packet. An error packet has a code, a state
behind a number sign and a message.
-/

namespace HoneyDew.PacketStream

open CText CMemory MysqlHandshake

/-- A packet without its length. -/
structure Packet where
  /-- Its number in the exchange. -/
  sequence : Byte
  /-- What it carries. -/
  payload : Bytes
  deriving DecidableEq,Repr

/-- The bytes of a packet. -/
def Packet.encode (p : Packet) : Bytes := littleEndian 3 p.payload.length++p.sequence::p.payload

/-- The packet at the front of a stream, and the rest. -/
def takePacket (input : Bytes) : Option (Packet×Bytes) :=
  match takeNumber 3 input with
  | some (n,sequence::rest) => (takeBytes n rest).map (fun taken => (⟨sequence,taken.1⟩,taken.2))
  | _ => none

/-- At most so many packets that make up a stream. -/
def readPackets : ℕ → Bytes → Option (List Packet)
  | _,[] => some []
  | 0,_::_ => none
  | fuel+1,b::input => (takePacket (b::input)).bind (fun taken =>
      (readPackets fuel taken.2).map (fun packets => taken.1::packets))

/-- The packets of a stream; none has no bytes. -/
def readStream (input : Bytes) : Option (List Packet) := readPackets input.length input

/-- What an error packet says. -/
structure ServerError where
  /-- The number of the error. -/
  code : ℕ
  /-- The state of five characters. -/
  state : Bytes
  /-- The text for the user. -/
  message : Bytes
  deriving DecidableEq,Repr

/-- Read the payload of an error packet. -/
def readError (payload : Bytes) : Option ServerError :=
  (takeBytes 1 payload).bind fun marker =>
  (takeNumber 2 marker.2).bind fun code =>
  (takeBytes 1 code.2).bind fun sign =>
  (takeBytes 5 sign.2).bind fun state =>
  if marker.1=[255] ∧ sign.1=[35] then some ⟨code.1,state.1,state.2⟩ else none

/-- The length of a packet with its header. -/
theorem length_encode (p : Packet) : p.encode.length=p.payload.length+4 := by
  rw [Packet.encode,List.length_append,length_littleEndian,List.length_cons]
  omega

/-- A packet whose length fits its header is taken from the front. -/
theorem takePacket_encode {p : Packet} (h : p.payload.length<256^3) (rest : Bytes) :
    takePacket (p.encode++rest)=some (p,rest) := by
  rw [takePacket,Packet.encode,List.append_assoc,takeNumber_append,Nat.mod_eq_of_lt h]
  dsimp only [List.cons_append]
  rw [takeBytes_append rfl]
  rfl

/-- Packets one behind the other are read back. -/
theorem readPackets_encode {packets : List Packet} (h : ∀ p∈packets,p.payload.length<256^3)
    {fuel : ℕ} (hfuel : packets.length ≤ fuel) :
    readPackets fuel (packets.flatMap Packet.encode)=some packets := by
  induction packets generalizing fuel with
  | nil => rw [List.flatMap_nil,readPackets]
  | cons p packets ih =>
    obtain ⟨k,rfl⟩ : ∃ k,fuel=k+1 := ⟨fuel-1,by rw [List.length_cons] at hfuel; omega⟩
    have hlength := length_encode p
    have htaken := takePacket_encode (h p List.mem_cons_self) (packets.flatMap Packet.encode)
    have hrest := ih (fun q hq => h q (List.mem_cons_of_mem p hq)) (Nat.le_of_succ_le_succ hfuel)
    rw [List.flatMap_cons]
    obtain ⟨b,tail,hhead⟩ : ∃ b tail,p.encode=b::tail :=
      List.exists_cons_of_ne_nil (List.ne_nil_of_length_pos (by omega))
    rw [hhead,List.cons_append] at htaken ⊢
    rw [readPackets,htaken,Option.bind_some,hrest]
    rfl

/-- A stream of packets is read back. -/
theorem readStream_encode {packets : List Packet} (h : ∀ p∈packets,p.payload.length<256^3) :
    readStream (packets.flatMap Packet.encode)=some packets := by
  refine readPackets_encode h ?_
  have hsum := List.length_le_sum_of_one_le (packets.map (fun p => p.encode.length)) (by
    intro n hn
    obtain ⟨p,_,rfl⟩ := List.mem_map.mp hn
    rw [length_encode]
    omega)
  rwa [List.length_map,←List.length_flatMap] at hsum

/-- An error packet says what it was made from. -/
theorem readError_append {code : ℕ} (hcode : code<256^2) {state : Bytes} (hstate : state.length=5)
    (message : Bytes) :
    readError ([255]++(littleEndian 2 code++([35]++(state++message))))=
      some ⟨code,state,message⟩ := by
  have hmarker : ([255] : Bytes).length=1 := rfl
  have hsign : ([35] : Bytes).length=1 := rfl
  simp only [readError,takeNumber_append,Option.bind_some,takeBytes_append hmarker,
    takeBytes_append hsign,takeBytes_append hstate,Nat.mod_eq_of_lt hcode,and_self,if_true]

end HoneyDew.PacketStream
