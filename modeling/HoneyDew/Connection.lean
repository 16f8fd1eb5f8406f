import HoneyDew.CMemory

/-!
# Connections as the protocol handlers receive them

The fields of a connection that the handlers read: its descriptor, the
recorded peer, the protocol of its port and the initial state value.
-/

namespace HoneyDew.Connection

open CText CMemory

/-- `protocol_type`, in the order of the header. -/
inductive ProtocolType
  | unknown
  | http
  | https
  | ftp
  | ftps
  | ssh
  | telnet
  | smtp
  | pop3
  | imap
  | dns
  | mysql
  | postgresql
  | redis
  | questdb
  deriving DecidableEq,Repr

/-- `connection_t` without its reassembly buffer, mutex and activity time. -/
structure ConnectionT where
  /-- The accepted descriptor. -/
  socketFileDescriptor : ℤ
  /-- The text of the peer address, `char remote_ip[INET6_ADDRSTRLEN]`. -/
  remoteIp : CharArray 45
  /-- The port of the peer. -/
  remotePort : UInt16
  /-- The protocol of the listening port. -/
  protocol : ProtocolType
  /-- The state value of the protocol state machine. -/
  state : ℤ
  deriving DecidableEq,Repr

/-- `connection_create`: the object is zeroed and its fields are assigned. -/
def connectionCreate (sockfd : ℤ) (ip : Bytes) (port : UInt16) (proto : ProtocolType)
    (initialState : ℤ) : ConnectionT :=
  ⟨sockfd,(CharArray.zeroed 45).strncpyInto ip,port,proto,initialState⟩

/-- An address text that fits is recorded whole. -/
theorem connectionCreate_remoteIp (sockfd : ℤ) {ip : Bytes} (port : UInt16) (proto : ProtocolType)
    (initialState : ℤ) (h : (cstr ip).length≤45) :
    (connectionCreate sockfd ip port proto initialState).remoteIp.cstring=cstr ip := by
  have hcopy := CharArray.cstring_strncpyInto (CharArray.zeroed 45) ip
  rwa [List.take_of_length_le h] at hcopy

end HoneyDew.Connection
