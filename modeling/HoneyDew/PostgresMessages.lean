import Mathlib.Data.UInt
import Mathlib.Data.Nat.Notation

/-!
# Backend messages of the PostgreSQL protocol

A message is a type byte, the length of what follows it and a body whose shape
the type decides. A stream is a sequence of complete messages.
-/

namespace HoneyDew.PostgresMessages

/-- The messages of a backend that answers simple queries with empty results. -/
inductive BackendMessage
  /-- The client is let in. -/
  | authenticationOk
  /-- The client is asked for a hash of its password. -/
  | authenticationMd5 (salt : List UInt8)
  /-- A setting of the backend. -/
  | parameterStatus (name value : List UInt8)
  /-- The backend waits for a query. -/
  | readyForQuery (status : UInt8)
  /-- The names of the columns of a result. -/
  | rowDescription (columns : List (List UInt8))
  /-- The end of a result. -/
  | commandComplete (tag : List UInt8)
  /-- A statement has been parsed. -/
  | parseComplete
  /-- An error with its severity, the severity again, its code and its text. -/
  | errorResponse (severity localized code message : List UInt8)
  deriving DecidableEq,Repr

/-- A string that ends in a zero, and what follows it. -/
def takeString : List UInt8 → Option (List UInt8×List UInt8)
  | [] => none
  | b::bs => if b=0 then some ([],bs) else (takeString bs).map (fun found => (b::found.1,found.2))

/-- A field of an error: its type and a string. -/
def takeField (type : UInt8) : List UInt8 → Option (List UInt8×List UInt8)
  | [] => none
  | b::bs => if b=type then takeString bs else none

/-- The columns of a result, each a string and 18 bytes of type. -/
def parseColumns : ℕ → List UInt8 → Option (List (List UInt8))
  | 0,bytes => if bytes=[] then some [] else none
  | count+1,bytes => (takeString bytes).bind (fun name =>
      if name.2.length<18 then none
      else (parseColumns count (name.2.drop 18)).map (fun names => name.1::names))

/-- The fields of an error: severity, severity, code, text and a zero. -/
def parseError (body : List UInt8) : Option BackendMessage :=
  (takeField 83 body).bind (fun severity =>
    (takeField 86 severity.2).bind (fun localized =>
      (takeField 67 localized.2).bind (fun code =>
        (takeField 77 code.2).bind (fun message =>
          if message.2=[0] then
            some (.errorResponse severity.1 localized.1 code.1 message.1)
          else none))))

/-- The body of a message of a type. -/
def parseBody (type : UInt8) (body : List UInt8) : Option BackendMessage :=
  if type=82 then
    if body=[0,0,0,0] then some .authenticationOk
    else if body.take 4=[0,0,0,5] ∧ body.length=8 then some (.authenticationMd5 (body.drop 4))
    else none
  else if type=83 then
    (takeString body).bind (fun name =>
      (takeString name.2).bind (fun value =>
        if value.2=[] then some (.parameterStatus name.1 value.1) else none))
  else if type=90 then
    match body with
    | [status] =>
      if status=73 ∨ status=84 ∨ status=69 then some (.readyForQuery status) else none
    | _ => none
  else if type=84 then
    match body with
    | high::low::columns =>
      (parseColumns (high.toNat*2^8+low.toNat) columns).map BackendMessage.rowDescription
    | _ => none
  else if type=67 then
    (takeString body).bind (fun tag =>
      if tag.2=[] then some (.commandComplete tag.1) else none)
  else if type=49 then if body=[] then some .parseComplete else none
  else if type=69 then parseError body
  else none

/-- The first message of a stream, and what follows it. -/
def parseMessage : List UInt8 → Option (BackendMessage×List UInt8)
  | type::l₃::l₂::l₁::l₀::rest =>
    let length := l₃.toNat*2^24+l₂.toNat*2^16+l₁.toNat*2^8+l₀.toNat
    if length<4 ∨ rest.length<length-4 then none
    else (parseBody type (rest.take (length-4))).map (fun m => (m,rest.drop (length-4)))
  | _ => none

/-- A stream is a sequence of complete messages. -/
inductive Parses : List UInt8 → List BackendMessage → Prop
  /-- The end of the stream. -/
  | nil : Parses [] []
  /-- A message in front of a stream. -/
  | cons {bytes rest : List UInt8} {m : BackendMessage} {messages : List BackendMessage}
      (hmessage : parseMessage bytes=some (m,rest)) (hrest : Parses rest messages) :
      Parses bytes (m::messages)

/-- The four bytes of a length. -/
def lengthBytes (n : ℕ) : List UInt8 :=
  [UInt8.ofNat (n/2^24%256),UInt8.ofNat (n/2^16%256),UInt8.ofNat (n/2^8%256),UInt8.ofNat (n%256)]

/-- A message on the wire. -/
def frame (type : UInt8) (body : List UInt8) : List UInt8 :=
  type::(lengthBytes (4+body.length)++body)

/-- The length of a message on the wire. -/
theorem length_frame (type : UInt8) (body : List UInt8) :
    (frame type body).length=5+body.length := by
  simp [frame,lengthBytes]
  omega

/-- A framed body is read back with what follows it. -/
theorem parseMessage_frame {type : UInt8} {body : List UInt8} {m : BackendMessage}
    (hsize : 4+body.length<2^32) (hbody : parseBody type body=some m) (rest : List UInt8) :
    parseMessage (frame type body++rest)=some (m,rest) := by
  have hwire : frame type body++rest=
      type::UInt8.ofNat ((4+body.length)/2^24%256)::UInt8.ofNat ((4+body.length)/2^16%256)::
        UInt8.ofNat ((4+body.length)/2^8%256)::UInt8.ofNat ((4+body.length)%256)::(body++rest) := rfl
  have hlength : (UInt8.ofNat ((4+body.length)/2^24%256)).toNat*2^24+
      (UInt8.ofNat ((4+body.length)/2^16%256)).toNat*2^16+
      (UInt8.ofNat ((4+body.length)/2^8%256)).toNat*2^8+
      (UInt8.ofNat ((4+body.length)%256)).toNat=4+body.length := by
    simp only [UInt8.toNat_ofNat']
    omega
  rw [hwire,parseMessage,hlength,if_neg (by rw [List.length_append]; omega),Nat.add_sub_cancel_left,List.take_left,
    List.drop_left,hbody,Option.map_some]

/-- A string with its zero is read back with what follows it. -/
theorem takeString_terminated {str : List UInt8} (hstr : (0 : UInt8)∉str) (rest : List UInt8) :
    takeString (str++0::rest)=some (str,rest) := by
  induction str with
  | nil => simp [takeString]
  | cons b str ih =>
    rw [List.mem_cons,not_or] at hstr
    have hb : b≠0 := fun h => hstr.1 h.symm
    rw [List.cons_append,takeString,if_neg hb,ih hstr.2,Option.map_some]

/-- A field is read back with what follows it. -/
theorem takeField_terminated (type : UInt8) {str : List UInt8} (hstr : (0 : UInt8)∉str)
    (rest : List UInt8) : takeField type (type::(str++0::rest))=some (str,rest) := by
  rw [takeField,if_pos rfl,takeString_terminated hstr]

/-- A message is read alike with more bytes behind it. -/
theorem parseMessage_append {bytes rest : List UInt8} {m : BackendMessage}
    (h : parseMessage bytes=some (m,rest)) (more : List UInt8) :
    parseMessage (bytes++more)=some (m,rest++more) := by
  match bytes,h with
  | type::l₃::l₂::l₁::l₀::tail,h =>
    rw [parseMessage] at h
    split at h
    · cases h
    rename_i hfits
    rw [not_or,Nat.not_lt,Nat.not_lt] at hfits
    obtain ⟨m',hbody,hpair⟩ := Option.map_eq_some_iff.mp h
    obtain ⟨rfl,rfl⟩ := Prod.mk.inj hpair
    simp only [List.cons_append,parseMessage]
    rw [if_neg (by rw [List.length_append]; omega),List.take_append_of_le_length hfits.2,
      List.drop_append_of_le_length hfits.2,hbody,Option.map_some]

/-- Streams one after the other are a stream. -/
theorem Parses.append {xs ys : List UInt8} {ms ns : List BackendMessage} (hxs : Parses xs ms)
    (hys : Parses ys ns) : Parses (xs++ys) (ms++ns) := by
  induction hxs with
  | nil => exact hys
  | cons hmessage hrest ih => exact .cons (parseMessage_append hmessage ys) ih

/-- One framed message is a stream. -/
theorem Parses.frame {type : UInt8} {body : List UInt8} {m : BackendMessage}
    (hsize : 4+body.length<2^32) (hbody : parseBody type body=some m) :
    Parses (PostgresMessages.frame type body) [m] := by
  have hmessage := parseMessage_frame hsize hbody []
  rw [List.append_nil] at hmessage
  exact .cons hmessage .nil

/-- A stream is read in one way. -/
theorem Parses.unique {bytes : List UInt8} {ms ns : List BackendMessage} (h : Parses bytes ms)
    (h' : Parses bytes ns) : ms=ns := by
  induction h generalizing ns with
  | nil =>
    cases h' with
    | nil => rfl
    | cons hmessage hrest => cases hmessage
  | cons hmessage hrest ih =>
    cases h' with
    | nil => cases hmessage
    | cons hmessage' hrest' =>
      rw [hmessage,Option.some_inj,Prod.mk.injEq] at hmessage'
      obtain ⟨rfl,rfl⟩ := hmessage'
      rw [ih hrest']

end HoneyDew.PostgresMessages
