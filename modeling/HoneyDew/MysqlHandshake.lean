import HoneyDew.CMemory

/-!
# Decoding a MySQL handshake

The first packet of a server has a header of a length and a sequence number. Its
payload is read field by field. Whether it names an authentication plugin, and
how long the second part of the authentication data is, depends on one bit of the
capability flags.
-/

namespace HoneyDew.MysqlHandshake

open CText CMemory

/-! ## Readers -/

/-- The value of an integer, least significant byte first. -/
def littleEndianValue : Bytes → ℕ
  | [] => 0
  | b::bs => b.toNat+256*littleEndianValue bs

/-- An integer of so many bytes is read back up to its size. -/
theorem littleEndianValue_littleEndian (k n : ℕ) :
    littleEndianValue (littleEndian k n)=n%256^k := by
  induction k generalizing n with
  | zero => exact (Nat.mod_one n).symm
  | succ k ih =>
    have hbyte : (UInt8.ofNat (n%256)).toNat=n%256 := by
      rw [UInt8.toNat_ofNat']
      exact Nat.mod_mod n 256
    rw [littleEndian,littleEndianValue,ih,hbyte,Nat.pow_succ',Nat.mod_mul]

/-- So many bytes, and the rest. -/
def takeBytes (n : ℕ) (input : Bytes) : Option (Bytes×Bytes) :=
  if n≤ input.length then some (input.take n,input.drop n) else none

/-- An integer of so many bytes, and the rest. -/
def takeNumber (n : ℕ) (input : Bytes) : Option (ℕ×Bytes) :=
  (takeBytes n input).map (fun taken => (littleEndianValue taken.1,taken.2))

/-- A text that ends with a NUL, and the rest. -/
def takeText (input : Bytes) : Option (Bytes×Bytes) :=
  if (0 : Byte)∈input then some (cstr input,input.drop ((cstr input).length+1)) else none

/-- Bytes at the front are taken. -/
theorem takeBytes_append {n : ℕ} {bytes : Bytes} (h : bytes.length=n) (rest : Bytes) :
    takeBytes n (bytes++rest)=some (bytes,rest) := by
  rw [takeBytes,← h,if_pos (by simp),List.take_left,List.drop_left]

/-- An integer at the front is taken. -/
theorem takeNumber_append (k n : ℕ) (rest : Bytes) :
    takeNumber k (littleEndian k n++rest)=some (n%256^k,rest) := by
  rw [takeNumber,takeBytes_append (length_littleEndian k n),Option.map_some,
    littleEndianValue_littleEndian]

/-- A text at the front is taken. -/
theorem takeText_append {s : Bytes} (h : (0 : Byte)∉s) (rest : Bytes) :
    takeText (s++0::rest)=some (s,rest) := by
  have hdrop : (s++0::rest).drop (s.length+1)=rest := by
    rw [List.append_cons]
    exact List.drop_left' (by simp)
  rw [takeText,if_pos (by simp),cstr_terminated h,hdrop]

/-! ## The packet -/

/-- What a client learns from a handshake. -/
structure Handshake where
  /-- The version of the server. -/
  serverVersion : Bytes
  /-- The number of the connection. -/
  connectionId : ℕ
  /-- Both parts of the authentication data. -/
  authData : Bytes
  /-- The name of the authentication plugin, if there is one. -/
  authPlugin : Option Bytes
  deriving DecidableEq,Repr

/-- `CLIENT_PLUGIN_AUTH`, bit 19 of the capability flags. -/
def pluginAuth (capabilities : ℕ) : Bool := capabilities.testBit 19

/-- The length of the second part of the authentication data. -/
def part2Length (capabilities authDataLen : ℕ) : ℕ :=
  max 13 ((if pluginAuth capabilities then authDataLen else 0)-8)

/-- The name of the plugin, where there is one. -/
def takePlugin (capabilities : ℕ) (input : Bytes) : Option (Option Bytes×Bytes) :=
  if pluginAuth capabilities then (takeText input).map (fun taken => (some taken.1,taken.2))
  else some (none,input)

/-- A payload of protocol version 10, and what is left of it. -/
def decodePayload (payload : Bytes) : Option (Handshake×Bytes) :=
  (takeNumber 1 payload).bind fun protocol =>
  if protocol.1=10 then
    (takeText protocol.2).bind fun serverVersion =>
    (takeNumber 4 serverVersion.2).bind fun connectionId =>
    (takeBytes 8 connectionId.2).bind fun part1 =>
    (takeBytes 1 part1.2).bind fun filler =>
    (takeNumber 2 filler.2).bind fun capLower =>
    (takeBytes 1 capLower.2).bind fun charset =>
    (takeNumber 2 charset.2).bind fun status =>
    (takeNumber 2 status.2).bind fun capUpper =>
    (takeNumber 1 capUpper.2).bind fun authDataLen =>
    (takeBytes 10 authDataLen.2).bind fun reserved =>
    (takeBytes (part2Length (capUpper.1*2^16+capLower.1) authDataLen.1) reserved.2).bind fun part2 =>
    (takePlugin (capUpper.1*2^16+capLower.1) part2.2).bind fun authPlugin =>
    some (⟨serverVersion.1,connectionId.1,part1.1++part2.1,authPlugin.1⟩,authPlugin.2)
  else none

/-- A packet: the handshake and what is left of the payload it declares. -/
def decodePacket (packet : Bytes) : Option (Handshake×Bytes) :=
  (takeNumber 3 packet).bind fun length =>
  (takeNumber 1 length.2).bind fun sequence =>
  (takeBytes length.1 sequence.2).bind fun payload =>
  decodePayload payload.1

/-- A packet is decoded by its payload. -/
theorem decodePacket_append {payload : Bytes} (sequence : ℕ) (hlength : payload.length<256^3)
    (rest : Bytes) :
    decodePacket (littleEndian 3 payload.length++(littleEndian 1 sequence++(payload++rest)))=
      decodePayload payload := by
  simp only [decodePacket,takeNumber_append,Option.bind_some,
    Nat.mod_eq_of_lt hlength,takeBytes_append rfl]

end HoneyDew.MysqlHandshake
