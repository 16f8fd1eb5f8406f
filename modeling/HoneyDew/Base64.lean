import Mathlib.Algebra.Ring.Nat

/-!
# The standard Base64 encoding

Three bytes are written as four symbols of six bits each. A last group of one or
two bytes is filled up with padding. Decoding a group puts its four sextets
together and takes the bytes of the result apart again.
-/

namespace HoneyDew.Base64

/-- The symbol of a sextet. -/
def symbol (n : ℕ) : UInt8 :=
  if n<26 then UInt8.ofNat (n+65)
  else if n<52 then UInt8.ofNat (n-26+97)
  else if n<62 then UInt8.ofNat (n-52+48)
  else if n=62 then 43
  else 47

/-- The padding symbol. -/
abbrev padding : UInt8 := 61

/-- The encoding of a byte string, with padding. -/
def encode : List UInt8 → List UInt8
  | [] => []
  | [a] => [symbol (a.toNat/4),symbol (a.toNat%4*16),padding,padding]
  | [a,b] =>
    [symbol (a.toNat/4),symbol (a.toNat%4*16+b.toNat/16),symbol (b.toNat%16*4),padding]
  | a::b::c::rest =>
    symbol (a.toNat/4)::symbol (a.toNat%4*16+b.toNat/16)::symbol (b.toNat%16*4+c.toNat/64)::
      symbol (c.toNat%64)::encode rest

/-- Every symbol of an encoding is padding or stands for a sextet. -/
theorem mem_encode {s : List UInt8} {c : UInt8} (h : c∈encode s) :
    c=padding ∨ ∃ n<64, c=symbol n := by
  have hbyte (a : UInt8) : a.toNat<256 := a.toNat_lt
  induction s using encode.induct with
  | case1 => cases h
  | case2 a =>
    have ha := hbyte a
    simp only [encode,List.mem_cons,List.not_mem_nil,or_false] at h
    rcases h with h|h|h|h
    · exact Or.inr ⟨_,by omega,h⟩
    · exact Or.inr ⟨_,by omega,h⟩
    · exact Or.inl h
    · exact Or.inl h
  | case3 a b =>
    have ha := hbyte a
    have hb := hbyte b
    simp only [encode,List.mem_cons,List.not_mem_nil,or_false] at h
    rcases h with h|h|h|h
    · exact Or.inr ⟨_,by omega,h⟩
    · exact Or.inr ⟨_,by omega,h⟩
    · exact Or.inr ⟨_,by omega,h⟩
    · exact Or.inl h
  | case4 a b c rest ih =>
    have ha := hbyte a
    have hb := hbyte b
    have hc := hbyte c
    simp only [encode,List.mem_cons] at h
    rcases h with h|h|h|h|h
    · exact Or.inr ⟨_,by omega,h⟩
    · exact Or.inr ⟨_,by omega,h⟩
    · exact Or.inr ⟨_,by omega,h⟩
    · exact Or.inr ⟨_,by omega,h⟩
    · exact ih h

/-- An encoding has four symbols for every three bytes begun. -/
theorem length_encode (s : List UInt8) : (encode s).length=4*((s.length+2)/3) := by
  induction s using encode.induct with
  | case1 => rfl
  | case2 a => simp [encode]
  | case3 a b => simp [encode]
  | case4 a b c rest ih =>
    simp only [encode,List.length_cons,ih]
    omega

/-- Only nothing is encoded by nothing. -/
theorem encode_ne_nil {s : List UInt8} (h : s≠[]) : encode s≠[] := by
  cases s with
  | nil => exact absurd rfl h
  | cons a s =>
    apply List.ne_nil_of_length_pos
    rw [length_encode,List.length_cons]
    omega

/-- Every symbol of an encoding satisfies what padding and the alphabet do. -/
theorem forall_mem_encode {p : UInt8 → Prop} (hpad : p padding) (hsymbol : ∀ n<64, p (symbol n))
    (s : List UInt8) : ∀ c∈encode s, p c := by
  intro c hc
  cases mem_encode hc with
  | inl h => rwa [h]
  | inr h =>
    obtain ⟨n,hn,hcn⟩ := h
    rw [hcn]
    exact hsymbol n hn

/-! ## Groups -/

/-- Four sextets in one number. -/
def triple (p q r t : ℕ) : ℕ := p*2^18+q*2^12+r*2^6+t

/-- The sextets of three bytes put them together again. -/
theorem triple_sextets (a b c : ℕ) :
    triple (a/4) (a%4*16+b/16) (b%16*4+c/64) (c%64)=a*2^16+b*2^8+c := by
  unfold triple
  omega

/-- A byte is the low-order part of a number. -/
theorem ofNat_low (high : ℕ) (b : UInt8) : UInt8.ofNat (high*2^8+b.toNat)=b := by
  have hb := b.toNat_lt
  apply UInt8.toNat_inj.mp
  rw [UInt8.toNat_ofNat']
  omega

/-- The three bytes of a number below 2^24. -/
theorem bytes_of_triple (a b c : UInt8) :
    [(a.toNat*2^16+b.toNat*2^8+c.toNat)/2^16,(a.toNat*2^16+b.toNat*2^8+c.toNat)/2^8,
      a.toNat*2^16+b.toNat*2^8+c.toNat].map UInt8.ofNat=[a,b,c] := by
  have hb := b.toNat_lt
  have hc := c.toNat_lt
  have hhigh : (a.toNat*2^16+b.toNat*2^8+c.toNat)/2^16=0*2^8+a.toNat := by omega
  have hmiddle : (a.toNat*2^16+b.toNat*2^8+c.toNat)/2^8=a.toNat*2^8+b.toNat := by omega
  have hlow : a.toNat*2^16+b.toNat*2^8+c.toNat=(a.toNat*2^8+b.toNat)*2^8+c.toNat := by omega
  rw [hhigh,hmiddle,hlow]
  simp only [List.map_cons,List.map_nil,ofNat_low]

end HoneyDew.Base64
