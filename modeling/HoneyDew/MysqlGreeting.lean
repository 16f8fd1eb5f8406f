import HoneyDew.MysqlHandshake
import HoneyDew.MysqlService

/-!
# Whether a client can decode the MySQL greeting

The greeting always carries the name of the authentication plugin and the length
of the authentication data. A client reads them only where the capability flags
announce them, which those of the service do not.
-/

namespace HoneyDew.MysqlGreeting

open CText CMemory MysqlService MysqlHandshake

/-- The payload of the greeting with any capability flags. -/
def payloadWith (capabilities connId : ℕ) (salt : MysqlSalt) : Bytes :=
  [10]++mysqlServerVersion++[0]++littleEndian 4 connId++salt.part1++[0]++
    littleEndian 2 (capabilities%2^16)++[0x21]++littleEndian 2 0x0002++
    littleEndian 2 (capabilities/2^16)++[21]++List.replicate 10 0++salt.part2++[0]++
    mysqlAuthPlugin++[0]

/-- The packet of such a payload. -/
def packetWith (capabilities connId : ℕ) (salt : MysqlSalt) : Bytes :=
  littleEndian 3 (payloadWith capabilities connId salt).length++(littleEndian 1 0++
    (payloadWith capabilities connId salt++[]))

/-- A client that follows the protocol gets from a packet what the service has put
into it: the version, the number of the connection, the salt of 20 bytes and the name
of the plugin, with nothing of the declared payload left. -/
def DecodesBack (packet : Bytes) (connId : ℕ) (salt : MysqlSalt) : Prop :=
  ∃ handshake,decodePacket packet=some (handshake,[]) ∧
    handshake.serverVersion=mysqlServerVersion ∧ handshake.connectionId=connId ∧
    handshake.authData.take 20=salt.part1++salt.part2 ∧
    handshake.authPlugin=some mysqlAuthPlugin

/-- The payload has 91 bytes. -/
theorem length_payloadWith (capabilities connId : ℕ) (salt : MysqlSalt) :
    (payloadWith capabilities connId salt).length=91 := by
  have hversion : mysqlServerVersion.length=23 := by decide
  have hplugin : mysqlAuthPlugin.length=21 := by decide
  simp only [payloadWith,List.length_append,List.length_cons,List.length_nil,List.length_replicate,
    length_littleEndian,hversion,hplugin,salt.length_part1,salt.length_part2]

/-- The greeting is the packet with the capability flags of the service. -/
theorem mysqlBuildGreetingPacket_eq (connId : ℕ) (salt : MysqlSalt) :
    mysqlBuildGreetingPacket connId salt=packetWith mysqlCapabilities connId salt := by
  have hpayload : mysqlGreetingPayload connId salt=payloadWith mysqlCapabilities connId salt := rfl
  have hlength := length_payloadWith mysqlCapabilities connId salt
  unfold mysqlBuildGreetingPacket packetWith
  rw [hpayload]
  dsimp only
  rw [hlength,if_neg (by decide),List.append_nil,List.append_assoc]
  rfl

/-- Flags are put together again from their halves. -/
theorem capabilities_halves {capabilities : ℕ} (h : capabilities<2^32) :
    capabilities/2^16%256^2*2^16+capabilities%2^16%256^2=capabilities := by
  omega

/-- The second part of the salt has 13 bytes with its NUL, whether or not its length
is announced. -/
theorem part2Length_greeting (capabilities : ℕ) : part2Length capabilities (21%256^1)=13 := by
  unfold part2Length
  cases pluginAuth capabilities with
  | true => rfl
  | false => rfl

/-- The payload field by field. -/
theorem payloadWith_fields (capabilities connId : ℕ) (salt : MysqlSalt) :
    payloadWith capabilities connId salt=
      littleEndian 1 10++(mysqlServerVersion++0::(littleEndian 4 connId++(salt.part1++([0]++
        (littleEndian 2 (capabilities%2^16)++([0x21]++(littleEndian 2 0x0002++
          (littleEndian 2 (capabilities/2^16)++(littleEndian 1 21++(List.replicate 10 0++
            ((salt.part2++[0])++(mysqlAuthPlugin++0::[])))))))))))) := by
  have hprotocol : littleEndian 1 10=[10] := rfl
  have hlength : littleEndian 1 21=[21] := rfl
  rw [hprotocol,hlength]
  simp only [payloadWith,List.append_assoc,List.cons_append,List.nil_append]

/-- What a client reads. -/
theorem decodePayload_payloadWith {capabilities : ℕ} (h : capabilities<2^32) (connId : ℕ)
    (salt : MysqlSalt) :
    decodePayload (payloadWith capabilities connId salt)=
      some (⟨mysqlServerVersion,connId%2^32,salt.part1++(salt.part2++[0]),
          if pluginAuth capabilities then some mysqlAuthPlugin else none⟩,
        if pluginAuth capabilities then [] else mysqlAuthPlugin++[0]) := by
  have hversion : (0 : Byte)∉mysqlServerVersion := by decide
  have hplugin : (0 : Byte)∉mysqlAuthPlugin := by decide
  have hpart2 : (salt.part2++[0]).length=13 := by
    rw [List.length_append,salt.length_part2,List.length_singleton]
  have hten : 10%256^1=10 := rfl
  have hid : connId%256^4=connId%2^32 := rfl
  have hbyte : ∀ (b : Byte) (rest : Bytes),takeBytes 1 ([b]++rest)=some ([b],rest) :=
    fun b rest => takeBytes_append (List.length_singleton : [b].length=1) rest
  have hreserved : (List.replicate 10 (0 : Byte)).length=10 := List.length_replicate
  rw [payloadWith_fields]
  unfold decodePayload
  rw [takeNumber_append,Option.bind_some,if_pos hten]
  dsimp only
  rw [takeText_append hversion,Option.bind_some]
  dsimp only
  rw [takeNumber_append,Option.bind_some,hid]
  dsimp only
  rw [takeBytes_append salt.length_part1,Option.bind_some]
  dsimp only
  rw [hbyte,Option.bind_some]
  dsimp only
  rw [takeNumber_append,Option.bind_some]
  dsimp only
  rw [hbyte,Option.bind_some]
  dsimp only
  rw [takeNumber_append,Option.bind_some]
  dsimp only
  rw [takeNumber_append,Option.bind_some]
  dsimp only
  rw [takeNumber_append,Option.bind_some]
  dsimp only
  rw [takeBytes_append hreserved,Option.bind_some]
  dsimp only
  rw [capabilities_halves h,part2Length_greeting,takeBytes_append hpart2,Option.bind_some]
  dsimp only
  rw [takePlugin]
  cases pluginAuth capabilities with
  | true => simp only [if_true,takeText_append hplugin,Option.map_some,Option.bind_some]
  | false => simp only [Bool.false_eq_true,if_false,Option.bind_some]

/-- What a client learns from the packet, and what it leaves of the payload. -/
theorem decodePacket_packetWith {capabilities : ℕ} (h : capabilities<2^32) (connId : ℕ)
    (salt : MysqlSalt) :
    decodePacket (packetWith capabilities connId salt)=
      some (⟨mysqlServerVersion,connId%2^32,salt.part1++(salt.part2++[0]),
          if pluginAuth capabilities then some mysqlAuthPlugin else none⟩,
        if pluginAuth capabilities then [] else mysqlAuthPlugin++[0]) := by
  have hsize : (payloadWith capabilities connId salt).length<256^3 := by
    rw [length_payloadWith]
    decide
  rw [packetWith,decodePacket_append 0 hsize,decodePayload_payloadWith h]

/-- The packet decodes back exactly when the flags announce the plugin; without them
the name of the plugin is left over. -/
theorem decodesBack_packetWith_iff {capabilities connId : ℕ} (h : capabilities<2^32)
    (hid : connId<2^32) (salt : MysqlSalt) :
    DecodesBack (packetWith capabilities connId salt) connId salt ↔
      pluginAuth capabilities=true := by
  have hdecoded := decodePacket_packetWith h connId salt
  constructor
  · intro hdecodes
    obtain ⟨handshake,hsome,_⟩ := hdecodes
    rw [hdecoded,Option.some_inj,Prod.mk.injEq] at hsome
    by_contra hflag
    have hleft := hsome.2
    rw [if_neg hflag] at hleft
    exact absurd hleft (by simp)
  · intro hflag
    have hsalt : (salt.part1++salt.part2).length=20 := by
      rw [List.length_append,salt.length_part1,salt.length_part2]
    rw [hflag,Nat.mod_eq_of_lt hid] at hdecoded
    refine ⟨_,hdecoded,rfl,rfl,?_,rfl⟩
    rw [← List.append_assoc,← hsalt,List.take_left]

/-- The flags of the service do not announce the plugin. -/
theorem pluginAuth_mysqlCapabilities : pluginAuth mysqlCapabilities=false := by decide

/-- No greeting of the service decodes back. -/
theorem mysqlBuildGreetingPacket_not_decodesBack (connId : UInt32) (salt : MysqlSalt) :
    ¬DecodesBack (mysqlBuildGreetingPacket connId.toNat salt) connId.toNat salt := by
  rw [mysqlBuildGreetingPacket_eq,decodesBack_packetWith_iff (by decide) connId.toNat_lt,
    pluginAuth_mysqlCapabilities]
  decide

/-- The first connection, with salts of one letter. -/
theorem mysqlBuildGreetingPacket_first : ¬∀ (connId : UInt32) (salt : MysqlSalt),
    (0 : Byte)∉salt.part1++salt.part2 →
      DecodesBack (mysqlBuildGreetingPacket connId.toNat salt) connId.toNat salt := by
  intro hall
  have hfirst := hall 1 ⟨List.replicate 8 97,rfl,List.replicate 12 97,rfl⟩ (by decide)
  rw [mysqlBuildGreetingPacket_eq,decodesBack_packetWith_iff (by decide) (by decide),
    pluginAuth_mysqlCapabilities] at hfirst
  exact absurd hfirst (by decide)

end HoneyDew.MysqlGreeting
