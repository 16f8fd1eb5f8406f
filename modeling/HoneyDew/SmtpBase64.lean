import HoneyDew.Base64
import HoneyDew.SmtpService

/-!
# What the SMTP service decodes

The decoder skips line breaks and blanks and counts padding like any other
symbol. A group with padding therefore gives three bytes as well, and an encoded
text comes back filled up with zero bytes to a multiple of three.
-/

namespace HoneyDew.SmtpBase64

open CText Base64 SmtpService

/-- The characters `base64_decode` skips. -/
def isSkipped (c : Byte) : Bool := c=13 || c=10 || c=32

/-- The characters of an input that `base64_decode` looks at. -/
def symbols (input : Bytes) : Bytes := input.filter (fun c => !isSkipped c)

/-- What one of these characters stands for. -/
def sextet (c : Byte) : ℕ := if c=61 then 0 else decodeTable c

/-- The symbols of the alphabet stand for their sextets. -/
theorem sextet_symbol {n : ℕ} (h : n<64) : sextet (symbol n)=n := by
  have hall : ∀ n<64, sextet (symbol n)=n := by decide
  exact hall n h

/-- Symbols are neither skipped nor NUL. -/
theorem encode_clean (s : Bytes) : ∀ c∈encode s, isSkipped c=false ∧ c≠0 := by
  apply forall_mem_encode
  · decide
  · decide

/-- An encoding is its own symbols. -/
theorem symbols_encode (s : Bytes) : symbols (encode s)=encode s := by
  unfold symbols
  rw [List.filter_eq_self]
  intro c hc
  rw [(encode_clean s c hc).1]
  rfl

/-- An input with the symbols of an encoding holds no NUL. -/
theorem zero_not_mem_input {s input : Bytes} (h : symbols input=encode s) : (0 : Byte)∉input := by
  intro hzero
  have hsymbol : (0 : Byte)∈symbols input := List.mem_filter.mpr ⟨hzero,rfl⟩
  rw [h] at hsymbol
  exact (encode_clean s 0 hsymbol).2 rfl

/-! ## One group -/

/-- A skipped character is no symbol. -/
theorem symbols_cons_skipped {c : Byte} (h : isSkipped c=true) (input : Bytes) :
    symbols (c::input)=symbols input := List.filter_cons_of_neg (by simp [h])

/-- A character that is not skipped is a symbol. -/
theorem symbols_cons {c : Byte} (h : isSkipped c=false) (input : Bytes) :
    symbols (c::input)=c::symbols input := List.filter_cons_of_pos (by simp [h])

/-- The inner loop takes the next symbols, whatever is skipped between them. -/
theorem base64Sextets_spec (n : ℕ) (input : Bytes) :
    (base64Sextets n input).1=((symbols input).take n).map sextet ∧
      symbols (base64Sextets n input).2=(symbols input).drop n := by
  induction input generalizing n with
  | nil =>
    cases n with
    | zero => exact ⟨rfl,rfl⟩
    | succ n => exact ⟨rfl,rfl⟩
  | cons c input ih =>
    cases n with
    | zero => exact ⟨rfl,rfl⟩
    | succ n =>
      rw [base64Sextets]
      by_cases hskip : c=13 ∨ c=10 ∨ c=32
      · have hskipped : isSkipped c=true := by
          simpa [isSkipped,or_assoc] using hskip
        rw [if_pos hskip,symbols_cons_skipped hskipped]
        exact ih (n+1)
      · have hsymbol : isSkipped c=false := by
          simpa [isSkipped,and_assoc] using hskip
        rw [if_neg hskip,symbols_cons hsymbol,List.take_succ_cons,List.map_cons,List.drop_succ_cons]
        exact ⟨congrArg (sextet c::·) (ih n).1,(ih n).2⟩

/-- A round with four symbols left writes three bytes. -/
theorem base64Loop_group (fuel room : ℕ) {input rest : Bytes} {p q r t : Byte}
    (h : symbols input=p::q::r::t::rest) (hroom : 3≤room) :
    ∃ input', symbols input'=rest ∧ base64Loop (fuel+1) room input=
      base64Group [sextet p,sextet q,sextet r,sextet t]++base64Loop fuel (room-3) input' := by
  have hgroup := base64Sextets_spec 4 input
  rw [h] at hgroup
  have hne : ¬(input=[] ∨ room=0) := by
    intro hend
    cases hend with
    | inl hnil =>
      rw [hnil] at h
      cases h
    | inr hzero => omega
  refine ⟨(base64Sextets 4 input).2,hgroup.2,?_⟩
  rw [base64Loop,if_neg hne]
  simp only [hgroup.1,List.take_succ_cons,List.take_zero,List.map_cons,List.map_nil]
  have hlength : (base64Group [sextet p,sextet q,sextet r,sextet t]).length=3 := rfl
  rw [if_neg (by simp),List.take_of_length_le (by omega),hlength]

/-- The loop ends where no symbol is left. -/
theorem base64Loop_end {fuel room : ℕ} {input : Bytes} (h : symbols input=[]) :
    base64Loop fuel room input=[] := by
  cases fuel with
  | zero => rfl
  | succ fuel =>
    have hgroup := (base64Sextets_spec 4 input).1
    rw [h] at hgroup
    rw [base64Loop]
    by_cases hend : input=[] ∨ room=0
    · rw [if_pos hend]
    · rw [if_neg hend]
      simp only [hgroup,List.take_nil,List.map_nil,List.length_nil]
      rfl

/-- The sextets of three bytes are decoded to these bytes. -/
theorem base64Group_sextets (a b c : Byte) :
    base64Group [a.toNat/4,a.toNat%4*16+b.toNat/16,b.toNat%16*4+c.toNat/64,c.toNat%64]=
      [a,b,c] := by
  have hgroup : ∀ p q r t,base64Group [p,q,r,t]=
      [triple p q r t/2^16,triple p q r t/2^8,triple p q r t].map UInt8.ofNat := fun _ _ _ _ => rfl
  rw [hgroup,triple_sextets,bytes_of_triple]

/-- A round on four symbols that stand for the sextets of three bytes. -/
theorem base64Loop_bytes (a b c : Byte) (fuel room : ℕ) {input rest : Bytes} {p q r t : Byte}
    (h : symbols input=p::q::r::t::rest) (hroom : 3≤room) (hp : sextet p=a.toNat/4)
    (hq : sextet q=a.toNat%4*16+b.toNat/16) (hr : sextet r=b.toNat%16*4+c.toNat/64)
    (ht : sextet t=c.toNat%64) :
    ∃ input', symbols input'=rest ∧
      base64Loop (fuel+1) room input=a::b::c::base64Loop fuel (room-3) input' := by
  obtain ⟨input',hrest,hloop⟩ := base64Loop_group fuel room h hroom
  rw [hp,hq,hr,ht,base64Group_sextets] at hloop
  exact ⟨input',hrest,hloop⟩

/-! ## The whole text -/

/-- A byte string filled up with zero bytes to a multiple of three. -/
def zeroFilled (s : Bytes) : Bytes := s++List.replicate ((3-s.length%3)%3) 0

/-- Full groups stay in front. -/
theorem zeroFilled_cons (a b c : Byte) (s : Bytes) :
    zeroFilled (a::b::c::s)=a::b::c::zeroFilled s := by
  have hlength : (a::b::c::s).length%3=s.length%3 := by
    simp only [List.length_cons]
    omega
  unfold zeroFilled
  rw [hlength]
  rfl

/-- At most two bytes are filled in. -/
theorem length_zeroFilled (s : Bytes) : (zeroFilled s).length=3*((s.length+2)/3) := by
  rw [zeroFilled,List.length_append,List.length_replicate]
  omega

/-- Nothing is filled in exactly where there are only full groups. -/
theorem zeroFilled_eq_iff (s : Bytes) : zeroFilled s=s ↔ s.length%3=0 := by
  constructor
  · intro h
    have hlength := length_zeroFilled s
    rw [h] at hlength
    omega
  · intro h
    rw [zeroFilled,h]
    exact List.append_nil s

/-- Padding stands for zero bits. -/
theorem sextet_padding : sextet padding=0 := rfl

/-- The rounds on an encoded text, whatever is skipped in it. -/
theorem base64Loop_encode (s : Bytes) {fuel room : ℕ} {input : Bytes} (h : symbols input=encode s)
    (hfuel : (s.length+2)/3≤fuel) (hroom : (zeroFilled s).length≤room) :
    base64Loop fuel room input=zeroFilled s := by
  have hbyte (a : Byte) : a.toNat<256 := a.toNat_lt
  have hmore {n fuel : ℕ} (hfuel : (n+1+2)/3≤fuel) : ∃ fuel',fuel=fuel'+1 := ⟨fuel-1,by omega⟩
  rw [length_zeroFilled] at hroom
  induction s using encode.induct generalizing fuel room input with
  | case1 => exact base64Loop_end h
  | case2 a =>
    have ha := hbyte a
    obtain ⟨fuel',hsucc⟩ := hmore hfuel
    simp only [List.length_singleton] at hroom
    rw [encode] at h
    obtain ⟨input',hrest,hloop⟩ := base64Loop_bytes a 0 0 fuel' room h (by omega)
      (sextet_symbol (by omega)) (sextet_symbol (by omega)) sextet_padding sextet_padding
    rw [hsucc,hloop,base64Loop_end hrest]
    rfl
  | case3 a b =>
    have ha := hbyte a
    have hb := hbyte b
    obtain ⟨fuel',hsucc⟩ := hmore hfuel
    simp only [List.length_cons,List.length_nil] at hroom
    rw [encode] at h
    obtain ⟨input',hrest,hloop⟩ := base64Loop_bytes a b 0 fuel' room h (by omega)
      (sextet_symbol (by omega)) (sextet_symbol (by omega)) (sextet_symbol (by omega))
      sextet_padding
    rw [hsucc,hloop,base64Loop_end hrest]
    rfl
  | case4 a b c s ih =>
    have ha := hbyte a
    have hb := hbyte b
    have hc := hbyte c
    obtain ⟨fuel',hsucc⟩ := hmore hfuel
    simp only [List.length_cons] at hroom hfuel
    rw [encode] at h
    obtain ⟨input',hrest,hloop⟩ := base64Loop_bytes a b c fuel' room h (by omega)
      (sextet_symbol (by omega)) (sextet_symbol (by omega)) (sextet_symbol (by omega))
      (sextet_symbol (by omega))
    rw [hsucc,hloop,ih hrest (by omega) (by omega),zeroFilled_cons]

/-- An encoded text that fits the output array comes back filled up with zero
bytes. -/
theorem base64Decode_encode (s : Bytes) {input : Bytes} {outSize : ℕ}
    (h : symbols input=encode s) (hsize : (zeroFilled s).length<outSize) :
    base64Decode input outSize=zeroFilled s := by
  have hlength : (encode s).length≤ input.length := by
    rw [← h]
    exact List.length_filter_le _ _
  rw [length_encode] at hlength
  rw [base64Decode,cstr_self (zero_not_mem_input h)]
  exact base64Loop_encode s h (by omega) (by omega)

/-- Decoding undoes encoding exactly for texts of whole groups. -/
theorem base64Decode_encode_iff (s input : Bytes) (outSize : ℕ) (h : symbols input=encode s)
    (hsize : s.length+2<outSize) :
    ((base64Decode input outSize).length=s.length ∧ base64Decode input outSize++[0]=s++[0]) ↔
      s.length%3=0 := by
  have hroom := length_zeroFilled s
  rw [base64Decode_encode s h (by omega),List.append_cancel_right_eq,zeroFilled_eq_iff,hroom]
  omega

/-- The encoding of three bytes in two lines, with a blank behind them. -/
theorem base64Decode_encode_abc :
    ((base64Decode (text "YW\r\nJj ") 6).length=(text "abc").length ∧
      base64Decode (text "YW\r\nJj ") 6++[0]=text "abc"++[0]) ↔ (text "abc").length%3=0 :=
  base64Decode_encode_iff (text "abc") (text "YW\r\nJj ") 6 (by decide) (by decide)

/-- The encoding of one byte gives three. -/
theorem not_base64Decode_encode_a : ¬∀ (s input : Bytes) (outSize : ℕ),
    symbols input=encode s → s.length+2<outSize →
      (base64Decode input outSize).length=s.length ∧ base64Decode input outSize++[0]=s++[0] := by
  intro hall
  have hone := hall (text "a") (text "YQ==") 4 (by decide) (by decide)
  exact absurd hone.1 (by decide)

end HoneyDew.SmtpBase64
