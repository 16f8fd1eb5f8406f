import HoneyDew.Service

/-!
# The DNS service

One receive call gives the query, perhaps behind a two-byte length. The name in
it is decoded, recorded and answered. The buffer keeps what the stack held
behind the bytes received, and the builders copy from it by offset.
-/

namespace HoneyDew.DnsService

open CText CMemory Service

/-- `DNS_HEADER_SIZE`. -/
def dnsHeaderSize : ℕ := 12

/-- The two bytes at an offset as a big-endian number. -/
def readBigEndian16 (memory : Bytes) (offset : ℕ) : ℕ :=
  (memory.getD offset 0).toNat*2^8+(memory.getD (offset+1) 0).toNat

/-- `htons` as bytes. -/
def bigEndian16 (n : ℕ) : Bytes := (littleEndian 2 n).reverse

/-- The label loop of `dns_parse_domain_name` with so many more labels allowed:
the position behind the name and the text collected in an array of `dsize`
bytes; nothing where the function returns -1. -/
def dnsParseLabels (msg : Bytes) (msgLen dsize : ℕ) : ℕ → ℕ → Bytes → Option (ℕ×Bytes)
  | 0,_,_ => none
  | allowed+1,pos,domain =>
    if msgLen≤pos then some (pos,domain)
    else
      let labelLen := (msg.getD pos 0).toNat
      if labelLen=0 then some (pos+1,domain)
      else if 192≤labelLen then some (pos+2,domain)
      else if msgLen<pos+1+labelLen then none
      else
        let dot : Bytes := if allowed=128 then [] else [46]
        dnsParseLabels msg msgLen dsize allowed (pos+1+labelLen)
          ((domain++dot++readAt msg (pos+1) labelLen).take (dsize-1))

/-- `dns_parse_domain_name`: the length of the name and its text. -/
def dnsParseDomainName (msg : Bytes) (msgLen offset dsize : ℕ) : Option (ℕ×Bytes) :=
  (dnsParseLabels msg msgLen dsize 129 offset []).map (fun found => (found.1-offset,found.2))

/-- `dns_parse_qtype`. -/
def dnsParseQtype (msg : Bytes) (msgLen qnameEnd : ℕ) : ℕ :=
  if msgLen<qnameEnd+2 then 0 else readBigEndian16 msg qnameEnd

/-- `dns_build_servfail`; empty where it returns 0. -/
def dnsBuildServfail (query : Bytes) (qlen rsize : ℕ) : Bytes :=
  if qlen<dnsHeaderSize ∨ rsize<qlen then []
  else
    let copied := readAt query 0 qlen
    let flagged := (copied.set 2 0x81).set 3 ((copied.getD 3 0 &&& 0xF0) ||| 2)
    writeAt flagged 6 [0,0,0,0,0,0]

/-- `dns_build_fake_a_response`. -/
def dnsBuildFakeAResponse (query : Bytes) (qlen qnameEnd rsize : ℕ) : Bytes :=
  let questionEnd := qnameEnd+4
  let total := questionEnd+16
  if qlen<dnsHeaderSize ∨ rsize<total then dnsBuildServfail query qlen rsize
  else
    let copied := readAt query 0 questionEnd
    let flagged := (copied.set 2 0x81).set 3 0x80
    writeAt flagged 6 [0,1,0,0,0,0]++
      [0xC0,0x0C,0x00,0x01,0x00,0x01,0x00,0x00,0x01,0x2C,0x00,0x04,10,0,2,15]

/-- The message, its length and whether it stands behind a length: the
detection of a frame in `run_dns_service`. -/
def dnsFrame (raw : Bytes) (n : ℕ) : Bytes×ℕ×Bool :=
  let tcpLen := readBigEndian16 raw 0
  if 2≤n ∧ 0<tcpLen ∧ tcpLen≤n-2 ∧ dnsHeaderSize+2≤tcpLen+2 then (raw.drop 2,tcpLen,true)
  else (raw,n,false)

/-- The sends of a reply. -/
def dnsSend (tcpFramed : Bool) (reply : Bytes) : List Action :=
  if reply=[] then []
  else if tcpFramed then [.send (bigEndian16 reply.length),.send reply]
  else [.send reply]

/-- What `run_dns_service` does with a message. -/
def dnsAnswer (s : Session) (msg : Bytes) (len : ℕ) (tcpFramed : Bool) : List Action :=
  if len<dnsHeaderSize then []
  else match dnsParseDomainName msg len dnsHeaderSize 512 with
    | none | some (0,_) => dnsSend tcpFramed (dnsBuildServfail msg len 4096)
    | some (parsed+1,domain) =>
      let qnameEnd := dnsHeaderSize+(parsed+1)
      let qtype := dnsParseQtype msg len qnameEnd
      s.recordCommand .dns domain::
        if qtype=252 then
          let refused := dnsBuildServfail msg len 4096
          s.recordEvent .exploitAttempt .critical .dns []
              (text "AXFR zone transfer attempt: "++cstr domain)::
            dnsSend tcpFramed (refused.set 3 ((refused.getD 3 0 &&& 0xF0) ||| 5))
        else if qtype=1 then dnsSend tcpFramed (dnsBuildFakeAResponse msg len qnameEnd 4096)
        else dnsSend tcpFramed (dnsBuildServfail msg len 4096)

/-- `run_dns_service`, with what the buffer `raw` held before. -/
def runDnsService (s : Session) (memory : Bytes) (results : List RecvResult) : List Action :=
  s.recordConnection .dns::
    ((match results with
      | [] => []
      | r::_ =>
        match recv 4096 r with
        | none => []
        | some bytes =>
          let frame := dnsFrame (writeAt memory 0 bytes) bytes.length
          dnsAnswer s frame.1 frame.2.1 frame.2.2)++
    [s.recordDisconnect .dns,.close])

end HoneyDew.DnsService
