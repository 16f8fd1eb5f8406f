import HoneyDew.Service

/-!
# The MySQL service

The greeting is built from a connection number and two salts. The user name of
the login packet is a pointer into the receive buffer, which later packets
overwrite, so every text made from it reads the buffer as it is then. The
buffer is the front of a memory whose rest is the stack behind it.
-/

namespace HoneyDew.MysqlService

open CText CMemory Service

/-- `MYSQL_HONEYPOT_SERVER_VERSION`. -/
def mysqlServerVersion : Bytes := text "5.7.42-0ubuntu0.18.04.1"

/-- `MYSQL_HONEYPOT_AUTH_PLUGIN`. -/
def mysqlAuthPlugin : Bytes := text "mysql_native_password"

/-- The two arrays that `mysql_generate_salt` fills. -/
structure MysqlSalt where
  /-- `salt_part1`. -/
  part1 : Bytes
  /-- `salt_part1` is an array of 8 bytes. -/
  length_part1 : part1.length=8
  /-- `salt_part2`. -/
  part2 : Bytes
  /-- `salt_part2` is an array of 12 bytes. -/
  length_part2 : part2.length=12

/-- `capabilities`. -/
def mysqlCapabilities : ℕ := 0x0000F7DF

/-- The payload of the greeting. -/
def mysqlGreetingPayload (connId : ℕ) (salt : MysqlSalt) : Bytes :=
  [10]++mysqlServerVersion++[0]++littleEndian 4 connId++salt.part1++[0]++
    littleEndian 2 (mysqlCapabilities%2^16)++[0x21]++littleEndian 2 0x0002++
    littleEndian 2 (mysqlCapabilities/2^16)++[21]++List.replicate 10 0++salt.part2++[0]++
    mysqlAuthPlugin++[0]

/-- `mysql_build_greeting_packet` into an array of 512 bytes; empty where it
returns 0. -/
def mysqlBuildGreetingPacket (connId : ℕ) (salt : MysqlSalt) : Bytes :=
  let payload := mysqlGreetingPayload connId salt
  if 512<payload.length+4 then [] else littleEndian 3 payload.length++[0]++payload

/-- The greeting always fits its array. -/
theorem mysqlBuildGreetingPacket_ne_nil (connId : ℕ) (salt : MysqlSalt) :
    mysqlBuildGreetingPacket connId salt≠[] := by
  have hversion : mysqlServerVersion.length=23 := by decide
  have hplugin : mysqlAuthPlugin.length=21 := by decide
  have hpart1 := salt.length_part1
  have hpart2 := salt.length_part2
  have hlength : (mysqlGreetingPayload connId salt).length=91 := by
    simp only [mysqlGreetingPayload,List.length_append,List.length_cons,List.length_nil,
      List.length_replicate,length_littleEndian]
    omega
  unfold mysqlBuildGreetingPacket
  dsimp only
  rw [hlength,if_neg (by decide),List.append_assoc]
  exact List.append_ne_nil_of_right_ne_nil _ (List.cons_ne_nil _ _)

/-- `mysql_build_error_packet` into an array of 512 bytes; empty where it
returns 0. -/
def mysqlBuildErrorPacket (seqId : Byte) (username remoteIp : Bytes) : Bytes :=
  let message := (text "Access denied for user '"++username++text "'@'"++cstr remoteIp++
    text "' (using password: YES)").take 255
  let payloadLen := 1+2+1+5+message.length
  if 512<payloadLen+4 then []
  else littleEndian 3 payloadLen++[seqId]++[0xFF]++littleEndian 2 1045++text "#"++text "28000"++
    message

/-- `mysql_extract_username`: the offset of the name in the buffer; nothing
where it returns a null pointer. -/
def mysqlExtractUsername (memory : Bytes) (pktLen : ℕ) : Option ℕ :=
  if pktLen≤36 then none
  else if (0 : Byte)∈readAt memory 36 (pktLen-36) then some 36
  else none

/-- The pointer that `run_mysql_service` keeps: nothing for the literal
`(unknown)`. -/
def mysqlUsername (memory : Bytes) (pktLen : ℕ) : Option ℕ :=
  (mysqlExtractUsername memory pktLen).filter (fun p => memory.getD p 0≠0)

/-- The text at the user name pointer, as the buffer is now. -/
def mysqlUsernameText (memory : Bytes) : Option ℕ → Bytes
  | none => text "(unknown)"
  | some p => cstr (memory.drop p)

/-- The error packet, if it is built. -/
def mysqlDeny (s : Session) (memory : Bytes) (username : Option ℕ) (seqId : Byte) : List Action :=
  let packet := mysqlBuildErrorPacket seqId (mysqlUsernameText memory username) s.remoteIp
  if packet=[] then [] else [.send packet]

/-- `mysql_extract_and_log_query`. -/
def mysqlExtractAndLogQuery (s : Session) (memory : Bytes) (pktLen : ℕ) : List Action :=
  if pktLen<5 then []
  else if memory.getD 4 0=0x03 ∧ 5<pktLen then
    [s.recordCommand .mysql (readAt memory 5 (min (pktLen-5) 1024))]
  else []

/-- The loop behind the login packet. -/
def mysqlQueries (s : Session) (username : Option ℕ) (memory : Bytes) :
    List RecvResult → List Action
  | [] => []
  | r::rs =>
    match recv 4096 r with
    | none => []
    | some bytes =>
      let memory' := writeAt memory 0 bytes
      mysqlExtractAndLogQuery s memory' bytes.length++
        (mysqlDeny s memory' username (memory'.getD 3 0+1)++mysqlQueries s username memory' rs)

/-- `run_mysql_service`: a connection number, the salts, the result of sending
the greeting, the memory from `recv_buf` on and the results of the `recv`
calls. -/
def runMysqlService (s : Session) (connId : ℕ) (salt : MysqlSalt) (sent : ℤ) (memory : Bytes)
    (results : List RecvResult) : List Action :=
  let greeting := mysqlBuildGreetingPacket connId salt
  s.recordConnection .mysql::
    if greeting=[] then [.close]
    else .send greeting::
      if sent≤0 then [.close]
      else match results with
        | [] => [.close]
        | r::rs =>
          match recv 4096 r with
          | none => [.close]
          | some bytes =>
            let memory' := writeAt memory 0 bytes
            let username := mysqlUsername memory' bytes.length
            s.recordAuth .mysql (mysqlUsernameText memory' username) (some []) false::
              (mysqlDeny s memory' username 2++
                (mysqlQueries s username memory' rs++[.close,s.recordDisconnect .mysql]))

end HoneyDew.MysqlService
