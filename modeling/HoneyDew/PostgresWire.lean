import HoneyDew.Service

/-!
# The PostgreSQL wire protocol of two services

The PostgreSQL and the QuestDB service have the same start: a start-up message
read into a buffer, perhaps after an encryption request, whose parameters are
searched for the user name, and a challenge. The buffer is the front of a
memory whose rest is the stack behind it.
-/

namespace HoneyDew.PostgresWire

open CText CMemory Service

/-- `htonl` as bytes. -/
def bigEndian32 (n : ℕ) : Bytes := (littleEndian 4 n).reverse

/-- The four bytes at an offset as a big-endian number. -/
def readBigEndian32 (memory : Bytes) (offset : ℕ) : ℕ :=
  (memory.getD offset 0).toNat*2^24+(memory.getD (offset+1) 0).toNat*2^16+
    (memory.getD (offset+2) 0).toNat*2^8+(memory.getD (offset+3) 0).toNat

/-- The loop of the start-up parser over the memory at `params`, with the bytes
still counted as received. Every round counts at least two bytes off, so the
number of bytes bounds the rounds. -/
def startupParams : ℕ → Bytes → ℕ → Option Bytes
  | 0,_,_ => none
  | fuel+1,params,remaining =>
    if remaining ≤ 1 then none
    else
      let keyLen := (cstr (params.take remaining)).length
      if keyLen=0 ∨ remaining ≤ keyLen then none
      else
        let params' := params.drop (keyLen+1)
        let remaining' := remaining-(keyLen+1)
        if remaining'=0 then none
        else
          let valLen := (cstr (params'.take remaining')).length
          if cstr params=text "user" then some ((cstr params').take 255)
          else startupParams fuel (params'.drop (valLen+1))
            (if valLen<remaining' then remaining'-(valLen+1) else 0)

/-- The parser of both services: the user name as the array then holds it;
nothing where the function returns -1. -/
def parseStartupUsername (buf : Bytes) (n : ℕ) : Option Bytes :=
  if n ≤ 8 then none else startupParams (n-8) (buf.drop 8) (n-8)

/-- `*_send_auth_md5`. -/
def authMd5 (salt : Bytes) : Bytes := text "R"++bigEndian32 12++bigEndian32 5++salt

/-- `*_send_error_response`: the fields and the length in front of them. -/
def errorResponse (severity code : String) (message : Bytes) : Bytes :=
  let fields := text "S"++text severity++[0]++text "V"++text severity++[0]++text "C"++text code++
    [0]++text "M"++message++[0]++[0]
  text "E"++bigEndian32 (4+fields.length)++fields

/-- How the start-up phase ends. -/
inductive Startup
  /-- The handler goes to its end. -/
  | ended
  /-- A start-up message of the third protocol version stands in the buffer. -/
  | accepted (memory : Bytes) (n : ℕ) (later : List RecvResult)
  deriving DecidableEq,Repr

/-- The number of bytes and the memory after one `recv` into the buffer. -/
def recvInto (memory : Bytes) (results : List RecvResult) : Option (ℕ×Bytes×List RecvResult) :=
  match results with
  | [] => none
  | r::rs => (recv 4096 r).map (fun bytes => (bytes.length,writeAt memory 0 bytes,rs))

/-- A receive call that gives nothing stores nothing. -/
theorem recvInto_none {memory : Bytes} {r : RecvResult} (h : recv 4096 r=none)
    (rs : List RecvResult) : recvInto memory (r::rs)=none := by
  simp [recvInto,h]

/-- A receive call that gives bytes stores them at the front of the buffer. -/
theorem recvInto_some {memory : Bytes} {r : RecvResult} {segment : Bytes}
    (h : recv 4096 r=some segment) (rs : List RecvResult) :
    recvInto memory (r::rs)=some (segment.length,writeAt memory 0 segment,rs) := by
  simp [recvInto,h]

/-- The number at an offset inside the bytes received. -/
theorem readBigEndian32_writeAt (memory : Bytes) {segment : Bytes} (h : 8 ≤ segment.length) :
    readBigEndian32 (writeAt memory 0 segment) 4=readBigEndian32 segment 4 := by
  have hbyte : ∀ i < 8,(writeAt memory 0 segment).getD i 0=segment.getD i 0 := by
    intro i hi
    unfold writeAt
    rw [List.take_zero,List.nil_append,List.getD_eq_getElem?_getD,List.getD_eq_getElem?_getD,
      List.getElem?_append_left (by omega)]
  unfold readBigEndian32
  rw [hbyte 4 (by decide),hbyte 5 (by decide),hbyte 6 (by decide),hbyte 7 (by decide)]

/-- The test of the protocol version. -/
def checkVersion (memory : Bytes) (n : ℕ) (later : List RecvResult) : List Action×Startup :=
  if readBigEndian32 memory 4=196608 then ([],.accepted memory n later)
  else ([.send (errorResponse "FATAL" "08004" (text "unsupported protocol version"))],.ended)

/-- The start-up phase. -/
def startup (memory : Bytes) (results : List RecvResult) : List Action×Startup :=
  match recvInto memory results with
  | none => ([],.ended)
  | some (n,memory',later) =>
    if n<8 then ([],.ended)
    else if readBigEndian32 memory' 4=80877103 then
      let first := Action.send (text "N")
      match recvInto memory' later with
      | none => ([first],.ended)
      | some (n',memory'',later') =>
        if n' ≤ 8 then ([first],.ended)
        else
          let checked := checkVersion memory'' n' later'
          (first::checked.1,checked.2)
    else checkVersion memory' n later

/-- The password message: its text and the results of the later calls, if it
arrives. The buffer is zeroed before. -/
def passwordMessage : List RecvResult → Option (Bytes×List RecvResult)
  | [] => none
  | r::rs =>
    (recv 4096 r).bind (fun bytes =>
      if 5<bytes.length ∧ bytes.head?=some 112 then
        some ((cstr (bytes.drop 5)).take 255,rs)
      else none)

end HoneyDew.PostgresWire
