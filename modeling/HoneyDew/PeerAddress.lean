import HoneyDew.Connection

/-!
# The way of a peer address from accept to the connection

The listener lets accept write a 28-byte IPv6 socket address over a 16-byte
local, copies the local into the thread arguments and the handler reads the
copy as an IPv6 socket address again. Of the sixteen address bytes eight
survive; the other eight are read from the padding behind the copied local
and from the low half of the session table pointer.
-/

namespace HoneyDew.PeerAddress

open CText CMemory Connection

/-- The peer of an accepted connection, in the fields of `sockaddr_in6`. -/
structure Peer where
  /-- The 128-bit address, v4-mapped for an IPv4 peer. -/
  address : Bytes
  /-- An address has sixteen bytes. -/
  length_address : address.length=16
  /-- The port. -/
  port : UInt16
  /-- The flow information field. -/
  flowinfo : Bytes
  /-- The flow information has four bytes. -/
  length_flowinfo : flowinfo.length=4
  /-- The scope identifier. -/
  scopeId : Bytes
  /-- The scope identifier has four bytes. -/
  length_scopeId : scopeId.length=4

/-- A 16-bit value in network byte order. -/
def htons (port : UInt16) : Bytes :=
  [UInt8.ofNat (port.toNat/256),UInt8.ofNat (port.toNat%256)]

/-- `ntohs` of the two bytes that stand in memory. -/
def ntohs (bytes : Bytes) : UInt16 :=
  UInt16.ofNat ((bytes.getD 0 0).toNat*256+(bytes.getD 1 0).toNat)

/-- Network byte order is undone by reading it. -/
theorem ntohs_htons (port : UInt16) : ntohs (htons port)=port := by
  have hlt := port.toNat_lt
  have hhigh : (UInt8.ofNat (port.toNat/256)).toNat=port.toNat/256 := by
    rw [UInt8.toNat_ofNat']
    omega
  have hlow : (UInt8.ofNat (port.toNat%256)).toNat=port.toNat%256 := by
    rw [UInt8.toNat_ofNat']
    omega
  simp only [ntohs,htons,List.getD_cons_zero,List.getD_cons_succ,hhigh,hlow]
  rw [Nat.div_add_mod']
  exact UInt16.ofNat_toNat

/-- The value of `AF_INET6` as it is stored in the family field. -/
def afInet6 : Bytes := [10,0]

/-- The bytes of the `sockaddr_in6` that accept fills. -/
def sockaddrIn6 (peer : Peer) : Bytes :=
  afInet6++htons peer.port++peer.flowinfo++peer.address++peer.scopeId

/-- A `sockaddr_in6` has 28 bytes. -/
theorem length_sockaddrIn6 (peer : Peer) : (sockaddrIn6 peer).length=28 := by
  simp only [sockaddrIn6,List.length_append,peer.length_address,peer.length_flowinfo,
    peer.length_scopeId]
  rfl

/-- The first half of the address stands in bytes 8 to 15. -/
theorem readAt_sockaddrIn6_address (peer : Peer) : readAt (sockaddrIn6 peer) 8 8=peer.address.take 8 := by
  have hhead : (afInet6++htons peer.port++peer.flowinfo).length=8 := by
    simp only [List.length_append,peer.length_flowinfo]
    rfl
  have haddr := peer.length_address
  unfold readAt sockaddrIn6
  rw [List.append_assoc,List.drop_append,hhead,List.drop_eq_nil_of_le (by omega),List.nil_append,
    Nat.sub_self,List.drop_zero,List.take_append_of_le_length (by omega)]

/-- What surrounds one pass of the listener loop in memory. -/
structure ListenerMemory where
  /-- The stack from the local `client_addr` on. -/
  frame : Bytes
  /-- The bytes that accept is told it may write are part of the stack. -/
  frame_length : 28≤frame.length
  /-- What `malloc` returns for the thread arguments, before the assignments. -/
  fresh : Bytes
  /-- `sizeof(thread_args_t)`. -/
  length_fresh : fresh.length=48
  /-- The session table pointer. -/
  sessions : ℕ
  /-- The semaphore pointer. -/
  sem : ℕ
  /-- The service binding pointer. -/
  binding : ℕ

/-- The local `struct sockaddr_in client_addr` after accept has stored an
address of `sizeof(struct sockaddr_in6)` bytes over it. -/
def clientAddr (m : ListenerMemory) (peer : Peer) : Bytes :=
  readAt (writeAt m.frame 0 (sockaddrIn6 peer)) 0 16

/-- The bytes of a `thread_args_t`: the assignments of the listener in their
order, each at the offset of its field. -/
def threadArgs (m : ListenerMemory) (clientFd : ℤ) (peer : Peer) : Bytes :=
  let args := writeAt m.fresh 0 (littleEndian 4 (clientFd%2^32).toNat)
  let args := writeAt args 4 (clientAddr m peer)
  let args := writeAt args 24 (littleEndian 8 m.sessions)
  let args := writeAt args 32 (littleEndian 8 m.sem)
  writeAt args 40 (littleEndian 8 m.binding)

/-- `inet_ntop(AF_INET, ...)`: four decimal numbers with dots. -/
def inetNtop4 (address : Bytes) : Bytes :=
  [46].intercalate (address.map (fun b => decimal b.toNat))

/-- The address text of `connection_handler`, read from the thread arguments:
the family decides how the copied local is read. -/
def handlerAddress (inetNtop6 : Bytes → Bytes) (args : Bytes) : Bytes :=
  if readAt args 4 2=afInet6 then inetNtop6 (readAt args 12 16) else inetNtop4 (readAt args 8 4)

/-- The connection that `connection_handler` creates for a descriptor. -/
def connectionHandler (inetNtop6 : Bytes → Bytes) (proto : ProtocolType) (fd : ℤ)
    (args : Bytes) : ConnectionT :=
  connectionCreate fd (handlerAddress inetNtop6 args++[0]) (ntohs (readAt args 6 2)) proto 0

/-- The connection of one accepted peer. -/
def recorded (inetNtop6 : Bytes → Bytes) (proto : ProtocolType) (m : ListenerMemory)
    (clientFd : ℤ) (peer : Peer) : ConnectionT :=
  connectionHandler inetNtop6 proto clientFd (threadArgs m clientFd peer)

/-- A rendering of IPv6 addresses that a `char[INET6_ADDRSTRLEN]` can hold and
that tells different addresses apart. -/
structure FaithfulText (inetNtop6 : Bytes → Bytes) : Prop where
  /-- Different addresses have different texts. -/
  injective : ∀ {a b : Bytes},a.length=16 → b.length=16 → inetNtop6 a=inetNtop6 b → a=b
  /-- A text contains no NUL. -/
  nul_free : ∀ {a : Bytes},a.length=16 → (0 : Byte)∉inetNtop6 a
  /-- A text and its NUL fit in `INET6_ADDRSTRLEN` bytes. -/
  fits : ∀ {a : Bytes},a.length=16 → (inetNtop6 a).length≤45

/-- The copied local holds the first sixteen bytes that accept stored. -/
theorem clientAddr_eq (m : ListenerMemory) (peer : Peer) :
    clientAddr m peer=readAt (sockaddrIn6 peer) 0 16 := by
  have hlen := length_sockaddrIn6 peer
  have hframe := readAt_append_drop m.frame 0 28
  have hlocal := m.frame_length
  have hold : (readAt m.frame 0 28).length=(sockaddrIn6 peer).length := by
    rw [hlen,length_readAt (by omega)]
  have hwrite := writeAt_append 0 [] (readAt m.frame 0 28) (m.frame.drop (0+28)) (sockaddrIn6 peer)
    rfl hold
  rw [hframe,List.drop_zero,List.nil_append,List.nil_append] at hwrite
  rw [clientAddr,hwrite]
  exact readAt_append_inside 0 0 16 [] (sockaddrIn6 peer) (m.frame.drop (0+28)) rfl (by omega)

/-- The copied local has its declared size. -/
theorem length_clientAddr (m : ListenerMemory) (peer : Peer) : (clientAddr m peer).length=16 := by
  have hlen := length_sockaddrIn6 peer
  rw [clientAddr_eq]
  exact length_readAt (by omega)

/-- The thread arguments field by field: four padding bytes, which nobody
assigns, stand between the copied local and the session table pointer. -/
theorem threadArgs_layout (m : ListenerMemory) (clientFd : ℤ) (peer : Peer) :
    threadArgs m clientFd peer=littleEndian 4 (clientFd%2^32).toNat++(clientAddr m peer++
      (readAt m.fresh 20 4++(littleEndian 8 m.sessions++(littleEndian 8 m.sem++
        littleEndian 8 m.binding)))) := by
  have hfresh := m.length_fresh
  have hlocal := length_clientAddr m peer
  have hread : ∀ offset n,offset+n≤48 → (readAt m.fresh offset n).length=n := by
    intro offset n h
    exact length_readAt (by omega)
  have hsplit : m.fresh=readAt m.fresh 0 4++(readAt m.fresh 4 16++(readAt m.fresh 20 4++
      (readAt m.fresh 24 8++(readAt m.fresh 32 8++(readAt m.fresh 40 8++[]))))) := by
    have hend : m.fresh.drop (40+8)=[] := List.drop_eq_nil_of_le (by omega)
    rw [←hend,readAt_append_drop m.fresh 40 8,readAt_append_drop m.fresh 32 8,
      readAt_append_drop m.fresh 24 8,readAt_append_drop m.fresh 20 4,
      readAt_append_drop m.fresh 4 16,readAt_append_drop m.fresh 0 4,List.drop_zero]
  have hfd := writeAt_append 0 [] (readAt m.fresh 0 4) (readAt m.fresh 4 16++(readAt m.fresh 20 4++
    (readAt m.fresh 24 8++(readAt m.fresh 32 8++(readAt m.fresh 40 8++[])))))
    (littleEndian 4 (clientFd%2^32).toNat) rfl
    (by rw [hread 0 4 (by omega),length_littleEndian])
  rw [←hsplit,List.nil_append,List.nil_append] at hfd
  have haddr := writeAt_append 4 (littleEndian 4 (clientFd%2^32).toNat) (readAt m.fresh 4 16)
    (readAt m.fresh 20 4++(readAt m.fresh 24 8++(readAt m.fresh 32 8++(readAt m.fresh 40 8++[]))))
    (clientAddr m peer) (length_littleEndian _ _) (by rw [hread 4 16 (by omega),hlocal])
  have hsessions := writeAt_append 24 (littleEndian 4 (clientFd%2^32).toNat++(clientAddr m peer++
    readAt m.fresh 20 4)) (readAt m.fresh 24 8) (readAt m.fresh 32 8++(readAt m.fresh 40 8++[]))
    (littleEndian 8 m.sessions)
    (by simp only [List.length_append,length_littleEndian,hlocal,hread 20 4 (by omega)])
    (by rw [hread 24 8 (by omega),length_littleEndian])
  have hsem := writeAt_append 32 (littleEndian 4 (clientFd%2^32).toNat++(clientAddr m peer++
    (readAt m.fresh 20 4++littleEndian 8 m.sessions))) (readAt m.fresh 32 8)
    (readAt m.fresh 40 8++[]) (littleEndian 8 m.sem)
    (by simp only [List.length_append,length_littleEndian,hlocal,hread 20 4 (by omega)])
    (by rw [hread 32 8 (by omega),length_littleEndian])
  have hbinding := writeAt_append 40 (littleEndian 4 (clientFd%2^32).toNat++(clientAddr m peer++
    (readAt m.fresh 20 4++(littleEndian 8 m.sessions++littleEndian 8 m.sem))))
    (readAt m.fresh 40 8) [] (littleEndian 8 m.binding)
    (by simp only [List.length_append,length_littleEndian,hlocal,hread 20 4 (by omega)])
    (by rw [hread 40 8 (by omega),length_littleEndian])
  simp only [List.append_assoc] at hsessions hsem hbinding
  unfold threadArgs
  dsimp only
  rw [hfd,haddr,hsessions,hsem,hbinding,List.append_nil]

/-- Bytes of the copied local are read back from the thread arguments. -/
theorem readAt_threadArgs_clientAddr (m : ListenerMemory) (clientFd : ℤ) (peer : Peer)
    {skip n : ℕ} (h : skip+n≤16) :
    readAt (threadArgs m clientFd peer) (4+skip) n=readAt (sockaddrIn6 peer) skip n := by
  have hlocal := length_clientAddr m peer
  have hinside := readAt_append_inside 4 skip n (littleEndian 4 (clientFd%2^32).toNat) (clientAddr m peer)
    (readAt m.fresh 20 4++(littleEndian 8 m.sessions++(littleEndian 8 m.sem++
      littleEndian 8 m.binding))) (length_littleEndian _ _) (by omega)
  rw [threadArgs_layout,hinside,clientAddr_eq]
  unfold readAt
  rw [List.drop_zero,List.drop_take,List.take_take,Nat.min_eq_left (by omega)]

/-- Behind the copied local stand the padding that `malloc` left there and the
low half of the session table pointer. -/
theorem readAt_threadArgs_neighbours (m : ListenerMemory) (clientFd : ℤ) (peer : Peer) :
    readAt (threadArgs m clientFd peer) 20 8=readAt m.fresh 20 4++littleEndian 4 m.sessions := by
  have hlocal := length_clientAddr m peer
  have hfresh := m.length_fresh
  have hpadding : (readAt m.fresh 20 4).length=4 := length_readAt (by omega)
  have hlow := take_littleEndian (by omega : 4≤8) m.sessions
  have hsplit : littleEndian 8 m.sessions=littleEndian 4 m.sessions++(littleEndian 8 m.sessions).drop 4 := by
    rw [←hlow,List.take_append_drop]
  have hfront : (littleEndian 4 (clientFd%2^32).toNat++clientAddr m peer).length=20 := by
    rw [List.length_append,length_littleEndian,hlocal]
  have hpiece : (readAt m.fresh 20 4++littleEndian 4 m.sessions).length=8 := by
    rw [List.length_append,length_littleEndian,hpadding]
  have hread := readAt_append 20 8 (littleEndian 4 (clientFd%2^32).toNat++clientAddr m peer)
    (readAt m.fresh 20 4++littleEndian 4 m.sessions) ((littleEndian 8 m.sessions).drop 4++
      (littleEndian 8 m.sem++littleEndian 8 m.binding)) hfront hpiece
  rw [threadArgs_layout,hsplit]
  simp only [List.append_assoc] at hread ⊢
  exact hread

/-- The address bytes that the handler reads: the first half of the peer's
address and then whatever stands behind the copied local. -/
theorem handler_address_bytes (m : ListenerMemory) (clientFd : ℤ) (peer : Peer) :
    readAt (threadArgs m clientFd peer) 12 16=
      peer.address.take 8++(readAt m.fresh 20 4++littleEndian 4 m.sessions) := by
  have hfirst := readAt_threadArgs_clientAddr m clientFd peer (by decide : 8+8≤16)
  rw [readAt_sockaddrIn6_address] at hfirst
  rw [readAt_add _ 12 8 8,hfirst,readAt_threadArgs_neighbours]

/-- The handler always takes the IPv6 branch. -/
theorem handlerAddress_eq (inetNtop6 : Bytes → Bytes) (m : ListenerMemory) (clientFd : ℤ)
    (peer : Peer) : handlerAddress inetNtop6 (threadArgs m clientFd peer)=
      inetNtop6 (peer.address.take 8++(readAt m.fresh 20 4++littleEndian 4 m.sessions)) := by
  have hfamily : readAt (threadArgs m clientFd peer) 4 2=afInet6 :=
    readAt_threadArgs_clientAddr m clientFd peer (by decide : 0+2≤16)
  rw [handlerAddress,if_pos hfamily,handler_address_bytes]

/-- The handler's sixteen bytes have the length of an address. -/
theorem length_handler_address (m : ListenerMemory) (peer : Peer) :
    (peer.address.take 8++(readAt m.fresh 20 4++littleEndian 4 m.sessions)).length=16 := by
  have hpeer := peer.length_address
  have hfresh := m.length_fresh
  have hpadding : (readAt m.fresh 20 4).length=4 := length_readAt (by omega)
  rw [List.length_append,List.length_append,List.length_take,length_littleEndian,hpadding]
  omega

/-- The port survives: it stands in the part of the address that is copied. -/
theorem recorded_port (inetNtop6 : Bytes → Bytes) (proto : ProtocolType) (m : ListenerMemory)
    (clientFd : ℤ) (peer : Peer) : (recorded inetNtop6 proto m clientFd peer).remotePort=peer.port := by
  have hread := readAt_threadArgs_clientAddr m clientFd peer (by decide : 2+2≤16)
  have hport : readAt (sockaddrIn6 peer) 2 2=htons peer.port := rfl
  change ntohs (readAt (threadArgs m clientFd peer) 6 2)=peer.port
  rw [hread,hport,ntohs_htons]

/-- The recorded text renders the bytes that the handler reads. -/
theorem recorded_ip {inetNtop6 : Bytes → Bytes} (hntop : FaithfulText inetNtop6)
    (proto : ProtocolType) (m : ListenerMemory) (clientFd : ℤ) (peer : Peer) :
    (recorded inetNtop6 proto m clientFd peer).remoteIp.cstring=
      inetNtop6 (peer.address.take 8++(readAt m.fresh 20 4++littleEndian 4 m.sessions)) := by
  have hlen := length_handler_address m peer
  have htext := cstr_terminated (hntop.nul_free hlen) []
  have hfits := hntop.fits hlen
  unfold recorded connectionHandler
  rw [handlerAddress_eq,connectionCreate_remoteIp,htext]
  rw [htext]
  exact hfits

/-- A peer is recorded under its own address and port exactly when the last
eight bytes of the address are the padding bytes and the low pointer bytes that
happen to stand behind the copied local. Two peers are recorded alike exactly
when their addresses agree in the first eight bytes and the same bytes stand
behind the two locals. -/
theorem peer_recorded_iff_neighbours {inetNtop6 : Bytes → Bytes}
    (hntop : FaithfulText inetNtop6) (proto : ProtocolType) (m : ListenerMemory) (clientFd : ℤ)
    (peer : Peer) :
    ((recorded inetNtop6 proto m clientFd peer).remoteIp.cstring=inetNtop6 peer.address ∧
        (recorded inetNtop6 proto m clientFd peer).remotePort=peer.port ↔
      peer.address.drop 8=readAt m.fresh 20 4++littleEndian 4 m.sessions) ∧
    ∀ (m' : ListenerMemory) (clientFd' : ℤ) (peer' : Peer),
      (recorded inetNtop6 proto m clientFd peer).remoteIp.cstring=
          (recorded inetNtop6 proto m' clientFd' peer').remoteIp.cstring ↔
        peer.address.take 8=peer'.address.take 8 ∧
          readAt m.fresh 20 4++littleEndian 4 m.sessions=
            readAt m'.fresh 20 4++littleEndian 4 m'.sessions := by
  have hlen := length_handler_address m peer
  constructor
  · rw [recorded_ip hntop,recorded_port]
    have hsplit : peer.address=peer.address.take 8++peer.address.drop 8 :=
      (List.take_append_drop 8 peer.address).symm
    constructor
    · intro h
      have hbytes := hntop.injective hlen peer.length_address h.1
      rw [hsplit,List.take_left' (by rw [List.length_take,peer.length_address]; decide)] at hbytes
      exact (List.append_cancel_left hbytes).symm
    · intro h
      refine ⟨?_,rfl⟩
      rw [←h,←hsplit]
  · intro m' clientFd' peer'
    have hlen' := length_handler_address m' peer'
    rw [recorded_ip hntop,recorded_ip hntop]
    constructor
    · intro h
      have hbytes := hntop.injective hlen hlen' h
      have hhalf : (peer.address.take 8).length=(peer'.address.take 8).length := by
        rw [List.length_take,List.length_take,peer.length_address,peer'.length_address]
      exact List.append_inj hbytes hhalf
    · intro h
      rw [h.1,h.2]

/-- One lower-case hexadecimal digit. -/
def hexDigit (n : ℕ) : Byte := if n<10 then UInt8.ofNat (48+n) else UInt8.ofNat (87+n)

/-- The full form of an IPv6 address from byte `i` on: two digits for each
byte and a colon in front of every second byte but the first. On an address
whose eight groups all start with a nonzero digit this is its standard text. -/
def fullHex (i : ℕ) : Bytes → Bytes
  | [] => []
  | b::bs => (if 0 < i ∧ i%2=0 then [58] else [])++
      (hexDigit (b.toNat/16)::hexDigit (b.toNat%16)::fullHex (i+1) bs)

/-- Different nibbles have different digits. -/
theorem hexDigit_injective {m n : ℕ} (hm : m<16) (hn : n<16) (h : hexDigit m=hexDigit n) : m=n := by
  revert h
  interval_cases m <;> interval_cases n <;> decide

/-- A digit is never NUL. -/
theorem hexDigit_ne_zero {n : ℕ} (hn : n<16) : hexDigit n≠0 := by
  interval_cases n <;> decide

/-- The two nibbles of a byte. -/
theorem nibbles_lt (b : Byte) : b.toNat/16<16 ∧ b.toNat%16<16 := by
  have hb := b.toNat_lt
  omega

/-- The full form determines the bytes. -/
theorem fullHex_injective {a b : Bytes} (i : ℕ) (hlen : a.length=b.length)
    (h : fullHex i a=fullHex i b) : a=b := by
  induction a generalizing i b with
  | nil => exact (List.length_eq_zero_iff.mp hlen.symm).symm
  | cons x a ih =>
    cases b with
    | nil => simp only [List.length_cons,List.length_nil,Nat.add_eq_zero_iff,Nat.one_ne_zero,and_false] at hlen
    | cons y b =>
      have hdigits := List.append_cancel_left h
      have hhigh := hexDigit_injective (nibbles_lt x).1 (nibbles_lt y).1 (List.cons.inj hdigits).1
      have hrest := (List.cons.inj hdigits).2
      have hlow := hexDigit_injective (nibbles_lt x).2 (nibbles_lt y).2 (List.cons.inj hrest).1
      have htail := ih (i+1) (Nat.succ.inj hlen) (List.cons.inj hrest).2
      have hbyte : x=y := by
        rw [←UInt8.toNat_inj]
        omega
      rw [hbyte,htail]

/-- The full form contains no NUL. -/
theorem zero_not_mem_fullHex (i : ℕ) (a : Bytes) : (0 : Byte)∉fullHex i a := by
  induction a generalizing i with
  | nil => exact List.not_mem_nil
  | cons x a ih =>
    have hn := nibbles_lt x
    intro h
    rcases List.mem_append.mp h with hc|hd
    · split at hc
      · exact absurd (List.mem_singleton.mp hc) (by decide)
      · exact List.not_mem_nil hc
    · rcases List.mem_cons.mp hd with hd|hd
      · exact hexDigit_ne_zero hn.1 hd.symm
      · rcases List.mem_cons.mp hd with hd|hd
        · exact hexDigit_ne_zero hn.2 hd.symm
        · exact ih (i+1) hd

/-- The length of the full form depends on the number of bytes only. -/
theorem length_fullHex (i : ℕ) {a b : Bytes} (h : a.length=b.length) :
    (fullHex i a).length=(fullHex i b).length := by
  induction a generalizing i b with
  | nil => rw [List.length_eq_zero_iff.mp h.symm]
  | cons x a ih =>
    cases b with
    | nil => exact absurd h (Nat.succ_ne_zero _)
    | cons y b =>
      have htail := ih (i+1) (Nat.succ.inj h)
      simp only [fullHex,List.length_append,List.length_cons,htail]

/-- The full form is a faithful rendering. -/
theorem faithfulText_fullHex : FaithfulText (fullHex 0) where
  injective := fun ha hb h => fullHex_injective 0 (ha.trans hb.symm) h
  nul_free := fun _ => zero_not_mem_fullHex 0 _
  fits := by
    intro a ha
    have hzero : (List.replicate 16 (0 : Byte)).length=16 := List.length_replicate
    have hlen := length_fullHex 0 (ha.trans hzero.symm)
    rw [hlen]
    decide

/-- A pass of the listener loop whose padding bytes and table pointer are given. -/
def sampleMemory (padding : Bytes) (hpadding : padding.length=4) (sessions : ℕ) : ListenerMemory :=
  ⟨List.replicate 64 0,by decide,List.replicate 20 0++padding++List.replicate 24 0,by
    rw [List.length_append,List.length_append,hpadding]
    rfl,sessions,0,0⟩

/-- A peer with the given first and second address half. -/
def samplePeer (address : Bytes) (h : address.length=16) (port : UInt16) : Peer :=
  ⟨address,h,port,[0,0,0,0],rfl,[0,0,0,0],rfl⟩

/-- An address whose second half is the neighbouring bytes is recorded. -/
theorem peer_recorded_beside_pointer :
    (recorded (fullHex 0) .redis (sampleMemory [0x99,0x99,0xaa,0xaa] rfl 0x88887777) 7
        (samplePeer [0x20,0x01,0x1d,0xb8,0x11,0x11,0x22,0x22,0x99,0x99,0xaa,0xaa,0x77,0x77,0x88,0x88]
          rfl 40000)).remoteIp.cstring=text "2001:1db8:1111:2222:9999:aaaa:7777:8888" := by
  have hrecorded := (peer_recorded_iff_neighbours faithfulText_fullHex .redis
    (sampleMemory [0x99,0x99,0xaa,0xaa] rfl 0x88887777) 7
    (samplePeer [0x20,0x01,0x1d,0xb8,0x11,0x11,0x22,0x22,0x99,0x99,0xaa,0xaa,0x77,0x77,0x88,0x88]
      rfl 40000)).1.mpr (by decide)
  rw [hrecorded.1]
  decide

/-- Two v4-mapped peers, 1.2.3.4 and 5.6.7.8, are recorded alike. -/
theorem mapped_peers_recorded_alike :
    FaithfulText (fullHex 0) ∧
    (samplePeer [0,0,0,0,0,0,0,0,0,0,0xff,0xff,1,2,3,4] rfl 40000).address≠
      (samplePeer [0,0,0,0,0,0,0,0,0,0,0xff,0xff,5,6,7,8] rfl 40000).address ∧
    recorded (fullHex 0) .redis (sampleMemory [0,0,0,0] rfl 0x55550000) 7
        (samplePeer [0,0,0,0,0,0,0,0,0,0,0xff,0xff,1,2,3,4] rfl 40000)=
      recorded (fullHex 0) .redis (sampleMemory [0,0,0,0] rfl 0x55550000) 7
        (samplePeer [0,0,0,0,0,0,0,0,0,0,0xff,0xff,5,6,7,8] rfl 40000) :=
  ⟨faithfulText_fullHex,by decide,by decide⟩

end HoneyDew.PeerAddress
