import HoneyDew.MysqlService

/-!
# The user named in MySQL denials

The handler keeps a pointer to the name in its receive buffer. Every later
packet overwrites the buffer, and every denial reads the name again.
-/

namespace HoneyDew.MysqlDenial

open CText CMemory Service MysqlService

/-- The packets that the loop behind the login packet receives. -/
def laterPackets : List RecvResult → List Bytes
  | [] => []
  | r::rs =>
    match recv 4096 r with
    | none => []
    | some packet => packet::laterPackets rs

/-- The memory from `recv_buf` on behind each of these packets. -/
def laterBuffers (memory : Bytes) : List Bytes → List Bytes
  | [] => []
  | packet::packets => writeAt memory 0 packet::laterBuffers (writeAt memory 0 packet) packets

/-- Every packet sent behind the greeting denies a user, and every name it is
made from ends at a NUL inside `recv_buf`. -/
structure DeniesUser (user remoteIp : Bytes) (buffers : List Bytes) (actions : List Action) :
    Prop where
  /-- The packets carry the message for this user. -/
  named : ∀ packet∈(sends actions).tail,∃ seqId,packet=mysqlBuildErrorPacket seqId user remoteIp
  /-- No byte behind the buffer is read. -/
  terminated : ∀ buffer∈buffers,(0 : Byte)∈readAt buffer 36 (4096-36)

/-- Every packet agrees with the name and its NUL as far as it reaches into
their place. -/
def RepeatsName (user : Bytes) (packets : List Bytes) : Prop :=
  ∀ packet∈packets,packet.drop 36<+:user++[0] ∨ user++[0]<+:packet.drop 36

/-- The text of a denial before it is cut to its array. -/
def denialText (user remoteIp : Bytes) : Bytes :=
  text "Access denied for user '"++user++text "'@'"++cstr remoteIp++text "' (using password: YES)"

section Packets

variable {user name remoteIp : Bytes}

/-- The bytes of an error packet. -/
theorem mysqlBuildErrorPacket_eq (seqId : Byte) (user remoteIp : Bytes) :
    mysqlBuildErrorPacket seqId user remoteIp=
      littleEndian 3 (9+((denialText user remoteIp).take 255).length)++[seqId]++[0xFF]++
        littleEndian 2 1045++text "#"++text "28000"++(denialText user remoteIp).take 255 := by
  have hlength : ((denialText user remoteIp).take 255).length≤255 := List.length_take_le _ _
  unfold mysqlBuildErrorPacket
  dsimp only
  rw [show text "Access denied for user '"++user++text "'@'"++cstr remoteIp++
    text "' (using password: YES)"=denialText user remoteIp from rfl,if_neg (by omega)]

/-- The error packet is always built. -/
theorem mysqlBuildErrorPacket_ne_nil (seqId : Byte) (user remoteIp : Bytes) :
    mysqlBuildErrorPacket seqId user remoteIp≠[] := by
  rw [mysqlBuildErrorPacket_eq]
  simp

/-- Equal error packets carry equal messages. -/
theorem message_of_errorPacket {seqId seqId' : Byte}
    (h : mysqlBuildErrorPacket seqId name remoteIp=mysqlBuildErrorPacket seqId' user remoteIp) :
    (denialText name remoteIp).take 255=(denialText user remoteIp).take 255 := by
  rw [mysqlBuildErrorPacket_eq,mysqlBuildErrorPacket_eq] at h
  simp only [List.append_assoc] at h
  have hbody := List.append_inj_right h (by simp)
  have hmessage := List.append_inj_right hbody (by simp)
  simpa using hmessage

/-- A message that is not cut names one user. -/
theorem name_of_message (hshort : (denialText user remoteIp).length<255)
    (h : (denialText name remoteIp).take 255=(denialText user remoteIp).take 255) : name=user := by
  rw [List.take_of_length_le (Nat.le_of_lt hshort)] at h
  have hlength := congrArg List.length h
  rw [List.length_take] at hlength
  rw [List.take_of_length_le (by omega)] at h
  unfold denialText at h
  simp only [List.append_assoc] at h
  exact List.append_cancel_right (List.append_cancel_left h)

end Packets

section Buffers

variable {memory packet user rest : Bytes}

/-- What stands at the place of the name behind a packet. -/
theorem drop_writeAt (memory packet : Bytes) :
    (writeAt memory 0 packet).drop 36=
      packet.drop 36++(memory.drop 36).drop (packet.drop 36).length := by
  unfold writeAt
  rw [List.take_zero,List.nil_append,Nat.zero_add,List.drop_append,List.drop_drop,List.drop_drop,
    List.length_drop]
  congr 2
  omega

/-- A packet that repeats the name as far as it reaches leaves the name. -/
theorem name_kept (h : memory.drop 36=user++0::rest)
    (hpacket : packet.drop 36<+:user++[0] ∨ user++[0]<+:packet.drop 36) :
    ∃ rest',(writeAt memory 0 packet).drop 36=user++0::rest' := by
  rw [drop_writeAt]
  obtain hinside|⟨more,hmore⟩ := hpacket
  · obtain ⟨more,hmore⟩ := hinside
    have hmemory : memory.drop 36=packet.drop 36++(more++rest) := by
      rw [h,←List.append_assoc,hmore]
      simp
    refine ⟨rest,?_⟩
    rw [hmemory,List.drop_left,←List.append_assoc,hmore]
    simp
  · refine ⟨more++(memory.drop 36).drop (packet.drop 36).length,?_⟩
    rw [←hmore]
    simp

/-- A packet that leaves the name repeats it as far as it reaches. -/
theorem repeats_of_name_kept (h : (writeAt memory 0 packet).drop 36=user++0::rest) :
    packet.drop 36<+:user++[0] ∨ user++[0]<+:packet.drop 36 := by
  have hpacket : packet.drop 36<+:(writeAt memory 0 packet).drop 36 := by
    rw [drop_writeAt]
    exact List.prefix_append _ _
  have huser : user++[0]<+:(writeAt memory 0 packet).drop 36 := ⟨rest,by rw [h]; simp⟩
  exact List.prefix_or_prefix_of_prefix hpacket huser

/-- The text at the place of the name. -/
theorem cstr_of_name (h : memory.drop 36=user++0::rest) (hnul : (0 : Byte)∉user) :
    mysqlUsernameText memory (some 36)=user := by
  rw [mysqlUsernameText,h,cstr_terminated hnul]

/-- A text that ends inside the buffer stands there with its NUL. -/
theorem name_of_cstr (hnul : (0 : Byte)∈readAt memory 36 (4096-36)) :
    ∃ rest,memory.drop 36=mysqlUsernameText memory (some 36)++0::rest :=
  exists_terminator (List.mem_of_mem_take hnul)

/-- A name and its NUL end inside the buffer. -/
theorem terminated_of_name (h : memory.drop 36=user++0::rest) (huser : user.length<4096-36) :
    (0 : Byte)∈readAt memory 36 (4096-36) := by
  rw [readAt,h]
  obtain ⟨room,hroom⟩ : ∃ k,4096-36=user.length+(k+1) := ⟨4096-36-user.length-1,by omega⟩
  rw [hroom,List.take_length_add_append,List.take_succ_cons]
  simp

end Buffers

section Runs

variable (s : Session)

/-- One denial for each buffer. -/
def denials (buffers : List Bytes) : List Bytes :=
  buffers.map (fun buffer =>
    mysqlBuildErrorPacket (buffer.getD 3 0+1) (mysqlUsernameText buffer (some 36)) s.remoteIp)

/-- A denial is sent. -/
theorem sends_mysqlDeny (memory : Bytes) (username : Option ℕ) (seqId : Byte) :
    sends (mysqlDeny s memory username seqId)=
      [mysqlBuildErrorPacket seqId (mysqlUsernameText memory username) s.remoteIp] := by
  unfold mysqlDeny
  rw [if_neg (mysqlBuildErrorPacket_ne_nil _ _ _)]
  rfl

/-- Logging a query sends nothing. -/
theorem sends_mysqlExtractAndLogQuery (memory : Bytes) (pktLen : ℕ) :
    sends (mysqlExtractAndLogQuery s memory pktLen)=[] := by
  unfold mysqlExtractAndLogQuery
  split
  · rfl
  split <;> rfl

/-- The loop sends a denial for every packet it receives. -/
theorem sends_mysqlQueries (memory : Bytes) (results : List RecvResult) :
    sends (mysqlQueries s (some 36) memory results)=
      denials s (laterBuffers memory (laterPackets results)) := by
  induction results generalizing memory with
  | nil => rfl
  | cons r rs ih =>
    unfold mysqlQueries laterPackets
    cases hr : recv 4096 r with
    | none => rfl
    | some packet =>
      dsimp only
      rw [sends_append,sends_append,sends_mysqlExtractAndLogQuery,sends_mysqlDeny,ih]
      rfl

/-- Packets that repeat the name leave it in every buffer. -/
theorem name_in_buffers {memory user rest : Bytes} {packets : List Bytes}
    (h : memory.drop 36=user++0::rest) (hrepeats : RepeatsName user packets) :
    ∀ buffer∈laterBuffers memory packets,∃ rest',buffer.drop 36=user++0::rest' := by
  induction packets generalizing memory rest with
  | nil => simp [laterBuffers]
  | cons packet packets ih =>
    obtain ⟨rest',hkept⟩ := name_kept h (hrepeats packet List.mem_cons_self)
    intro buffer hbuffer
    obtain rfl|hlater := List.mem_cons.mp hbuffer
    · exact ⟨rest',hkept⟩
    · exact ih hkept (fun q hq => hrepeats q (List.mem_cons_of_mem _ hq)) buffer hlater

/-- Where every buffer holds the name, every packet has repeated it. -/
theorem repeats_of_buffers {memory user : Bytes} {packets : List Bytes}
    (h : ∀ buffer∈laterBuffers memory packets,∃ rest,buffer.drop 36=user++0::rest) :
    RepeatsName user packets := by
  induction packets generalizing memory with
  | nil => simp [RepeatsName]
  | cons packet packets ih =>
    obtain ⟨rest,hkept⟩ := h (writeAt memory 0 packet) List.mem_cons_self
    have hlater := ih (fun buffer hbuffer => h buffer (List.mem_cons_of_mem _ hbuffer))
    intro q hq
    obtain rfl|hq := List.mem_cons.mp hq
    · exact repeats_of_name_kept hkept
    · exact hlater q hq

section Login

variable {s} {memory login user : Bytes} {p : ℕ}

/-- The login packets a name is extracted from. -/
theorem extracted_name (hname : mysqlExtractUsername (writeAt memory 0 login) login.length=some p)
    (huser : cstr ((writeAt memory 0 login).drop p)=user) (hsize : login.length≤4096) :
    p=36 ∧ user.length<4096-36 ∧ ∃ rest,(writeAt memory 0 login).drop 36=user++0::rest := by
  unfold mysqlExtractUsername at hname
  split at hname
  · cases hname
  split at hname
  · rename_i hlong hnul
    cases hname
    obtain ⟨rest,hrest⟩ := exists_terminator (List.mem_of_mem_take hnul)
    rw [huser] at hrest
    refine ⟨rfl,?_,rest,hrest⟩
    obtain ⟨back,hback⟩ := exists_terminator hnul
    have hcut : cstr (readAt (writeAt memory 0 login) 36 (login.length-36))=user := by
      rw [←cstr_append_of_mem hnul ((writeAt memory 0 login).drop (36+(login.length-36))),
        readAt_append_drop,huser]
    have hlength := congrArg List.length hback
    rw [hcut,List.length_append,List.length_cons] at hlength
    have hread : (readAt (writeAt memory 0 login) 36 (login.length-36)).length≤login.length-36 :=
      List.length_take_le _ _
    omega
  · cases hname

/-- A name that is not empty is kept as a pointer. -/
theorem mysqlUsername_of_name (hname : mysqlExtractUsername memory login.length=some 36)
    {rest : Bytes} (h : memory.drop 36=user++0::rest) (hnul : (0 : Byte)∉user) (hne : user≠[]) :
    mysqlUsername memory login.length=some 36 := by
  obtain ⟨c,user,rfl⟩ := List.exists_cons_of_ne_nil hne
  have hfirst : memory.getD 36 0=c := by
    have hget := congrArg (fun l => l.getD 0 0) h
    simpa only [List.getD_eq_getElem?_getD,List.getElem?_drop,Nat.add_zero,List.cons_append,
      List.getElem?_cons_zero,Option.getD_some] using hget
  have hc : c≠0 := fun hzero => hnul (by simp [hzero])
  unfold mysqlUsername
  rw [hname]
  exact if_pos (decide_eq_true (by rwa [hfirst]))

/-- The packets sent behind the greeting: the first denial and one for every
later packet. -/
theorem sends_runMysqlService {connId : ℕ} {salt : MysqlSalt} {sent : ℤ} {r : RecvResult}
    {later : List RecvResult} (hsent : 0<sent) (hlogin : recv 4096 r=some login)
    (hname : mysqlUsername (writeAt memory 0 login) login.length=some 36) :
    (sends (runMysqlService s connId salt sent memory (r::later))).tail=
      mysqlBuildErrorPacket 2 (mysqlUsernameText (writeAt memory 0 login) (some 36)) s.remoteIp::
        denials s (laterBuffers (writeAt memory 0 login) (laterPackets later)) := by
  unfold runMysqlService
  dsimp only
  rw [if_neg (mysqlBuildGreetingPacket_ne_nil connId salt),if_neg (by omega),hlogin]
  dsimp only
  rw [hname]
  have hacts : ∀ (e : AuditTrail.AuditEvent) (bytes : Bytes) (e' : AuditTrail.AuditEvent)
      (acts : List Action),(sends (.audit e::.send bytes::.audit e'::acts)).tail=sends acts :=
    fun _ _ _ _ => rfl
  refine (hacts _ _ _ _).trans ?_
  rw [sends_append,sends_append,sends_mysqlDeny,sends_mysqlQueries]
  simp [sends,Session.recordDisconnect]

/-- Buffers that all hold the name give denials of this user. -/
theorem deniesUser_of_buffers {acts : List Action} {first : Bytes} {buffers : List Bytes}
    (hsends : (sends acts).tail=
      mysqlBuildErrorPacket 2 (mysqlUsernameText first (some 36)) s.remoteIp::denials s buffers)
    (hnul : (0 : Byte)∉user) (hroom : user.length<4096-36)
    (hbuffers : ∀ buffer∈first::buffers,∃ rest,buffer.drop 36=user++0::rest) :
    DeniesUser user s.remoteIp (first::buffers) acts := by
  constructor
  · rw [hsends]
    intro packet hpacket
    obtain rfl|hlater := List.mem_cons.mp hpacket
    · obtain ⟨rest,hplace⟩ := hbuffers first List.mem_cons_self
      exact ⟨2,by rw [cstr_of_name hplace hnul]⟩
    · obtain ⟨buffer,hbuffer,rfl⟩ := List.mem_map.mp hlater
      obtain ⟨rest,hplace⟩ := hbuffers buffer (List.mem_cons_of_mem _ hbuffer)
      exact ⟨_,by rw [cstr_of_name hplace hnul]⟩
  · intro buffer hbuffer
    obtain ⟨rest,hplace⟩ := hbuffers buffer hbuffer
    exact terminated_of_name hplace hroom

/-- Denials of one user whose message is not cut come from buffers that hold the
name. -/
theorem buffers_of_deniesUser {acts : List Action} {first : Bytes} {buffers : List Bytes}
    (hsends : (sends acts).tail=
      mysqlBuildErrorPacket 2 (mysqlUsernameText first (some 36)) s.remoteIp::denials s buffers)
    (hshort : (denialText user s.remoteIp).length<255)
    (hdenies : DeniesUser user s.remoteIp (first::buffers) acts) :
    ∀ buffer∈buffers,∃ rest,buffer.drop 36=user++0::rest := by
  intro buffer hbuffer
  have hpacket : mysqlBuildErrorPacket (buffer.getD 3 0+1)
      (mysqlUsernameText buffer (some 36)) s.remoteIp∈(sends acts).tail := by
    rw [hsends]
    exact List.mem_cons_of_mem _ (List.mem_map.mpr ⟨buffer,hbuffer,rfl⟩)
  obtain ⟨seqId,hseq⟩ := hdenies.named _ hpacket
  have hsame := name_of_message hshort (message_of_errorPacket hseq)
  obtain ⟨rest,hplace⟩ := name_of_cstr (hdenies.terminated buffer (List.mem_cons_of_mem _ hbuffer))
  exact ⟨rest,by rw [hplace,hsame]⟩

end Login

end Runs

section Sessions

variable {s : Session} {connId : ℕ} {salt : MysqlSalt} {sent : ℤ} {memory login user : Bytes}
  {p : ℕ} {r : RecvResult} {later : List RecvResult}

/-- The buffers of a session: behind the login packet and behind every later
packet. -/
def sessionBuffers (memory login : Bytes) (later : List RecvResult) : List Bytes :=
  writeAt memory 0 login::laterBuffers (writeAt memory 0 login) (laterPackets later)

/-- Later packets that repeat the name are answered with denials of its user. -/
theorem deniesUser_of_repeats (hsent : 0<sent) (hlogin : recv 4096 r=some login)
    (hname : mysqlExtractUsername (writeAt memory 0 login) login.length=some p)
    (huser : cstr ((writeAt memory 0 login).drop p)=user) (hne : user≠[])
    (hrepeats : RepeatsName user (laterPackets later)) :
    DeniesUser user s.remoteIp (sessionBuffers memory login later)
      (runMysqlService s connId salt sent memory (r::later)) := by
  have hnul : (0 : Byte)∉user := huser ▸ zero_not_mem_cstr _
  obtain ⟨rfl,hroom,rest,hplace⟩ := extracted_name hname huser (length_le_of_recv hlogin)
  refine deniesUser_of_buffers (sends_runMysqlService hsent hlogin
    (mysqlUsername_of_name hname hplace hnul hne)) hnul hroom ?_
  intro buffer hbuffer
  obtain rfl|hlater := List.mem_cons.mp hbuffer
  · exact ⟨rest,hplace⟩
  · exact name_in_buffers hplace hrepeats buffer hlater

/-- Where all denials name the user in a message that is not cut, the later
packets have repeated the name. -/
theorem repeats_of_deniesUser (hsent : 0<sent) (hlogin : recv 4096 r=some login)
    (hname : mysqlExtractUsername (writeAt memory 0 login) login.length=some p)
    (huser : cstr ((writeAt memory 0 login).drop p)=user) (hne : user≠[])
    (hshort : (denialText user s.remoteIp).length<255)
    (hdenies : DeniesUser user s.remoteIp (sessionBuffers memory login later)
      (runMysqlService s connId salt sent memory (r::later))) :
    RepeatsName user (laterPackets later) := by
  have hnul : (0 : Byte)∉user := huser ▸ zero_not_mem_cstr _
  obtain ⟨rfl,hroom,rest,hplace⟩ := extracted_name hname huser (length_le_of_recv hlogin)
  exact repeats_of_buffers (buffers_of_deniesUser (sends_runMysqlService hsent hlogin
    (mysqlUsername_of_name hname hplace hnul hne)) hshort hdenies)

end Sessions

/-- Every denial of a session names the user of its login packet, read inside
the receive buffer, if every later packet repeats the name as far as it reaches
into its place; unless the message is cut to its array, only then. -/
theorem denials_name_user (s : Session) (connId : ℕ) (salt : MysqlSalt) (sent : ℤ)
    (memory login user : Bytes) (p : ℕ) (r : RecvResult) (later : List RecvResult) (hsent : 0<sent)
    (hlogin : recv 4096 r=some login)
    (hname : mysqlExtractUsername (writeAt memory 0 login) login.length=some p)
    (huser : cstr ((writeAt memory 0 login).drop p)=user) (hne : user≠[]) :
    (RepeatsName user (laterPackets later) →
      DeniesUser user s.remoteIp (sessionBuffers memory login later)
        (runMysqlService s connId salt sent memory (r::later))) ∧
    ((denialText user s.remoteIp).length<255 →
      DeniesUser user s.remoteIp (sessionBuffers memory login later)
        (runMysqlService s connId salt sent memory (r::later)) →
      RepeatsName user (laterPackets later)) :=
  ⟨deniesUser_of_repeats hsent hlogin hname huser hne,
    repeats_of_deniesUser hsent hlogin hname huser hne⟩

/-- A login packet with the name root. -/
def rootLogin : Bytes := List.replicate 36 1++(text "root"++[0])

/-- The salts of a greeting. -/
def someSalt : MysqlSalt :=
  ⟨List.replicate 8 97,List.length_replicate,List.replicate 12 97,List.length_replicate⟩

/-- A ping leaves the name in its place. -/
theorem ping_denied_for_root :
    DeniesUser (text "root") (text "10.0.0.9") (sessionBuffers [] rootLogin [.data [1,0,0,0,14]])
      (runMysqlService ⟨text "10.0.0.9",40000,text "id"⟩ 1 someSalt 95 []
        [.data rootLogin,.data [1,0,0,0,14]]) := by
  refine (denials_name_user ⟨text "10.0.0.9",40000,text "id"⟩ 1 someSalt 95 [] rootLogin (text "root")
    36 (.data rootLogin) [.data [1,0,0,0,14]] (by decide) (by decide) (by decide)
    (by decide) (by decide)).1 ?_
  intro packet hpacket
  obtain rfl := List.mem_singleton.mp hpacket
  exact .inl List.nil_prefix

/-- A query as long as the login packet. -/
def longQuery : Bytes := [40,0,0,0,3]++text "SELECT name FROM accounts WHERE id=12345"

/-- A query that reaches the place of the name is denied to another user. -/
theorem query_denied_for_other_user :
    ¬DeniesUser (text "root") (text "10.0.0.9") (sessionBuffers [] rootLogin [.data longQuery])
      (runMysqlService ⟨text "10.0.0.9",40000,text "id"⟩ 1 someSalt 95 []
        [.data rootLogin,.data longQuery]) := by
  intro hdenies
  have hrepeats := repeats_of_deniesUser (s := ⟨text "10.0.0.9",40000,text "id"⟩) (p := 36)
    (r := .data rootLogin) (by decide) (by decide) (by decide) (by decide) (by decide)
    (by decide) hdenies
  have hquery := hrepeats longQuery (by simp [laterPackets]; decide)
  revert hquery
  decide

end HoneyDew.MysqlDenial
