import Mathlib.Data.UInt
import Mathlib.Data.Nat.Notation

/-!
# The data stream of Telnet

Data, commands, requests for options and sub-negotiations follow each other in
one stream of bytes. The byte 0xFF introduces everything but data and is doubled
where it is meant itself, inside a sub-negotiation as well.
-/

namespace HoneyDew.TelnetStream

/-- Bytes with every 0xFF doubled. -/
def escape (bytes : List UInt8) : List UInt8 :=
  bytes.flatMap (fun b => if b=0xFF then [0xFF,0xFF] else [b])

/-- One part of a stream. -/
inductive Item
  /-- A byte of data. -/
  | data (b : UInt8)
  /-- A command of two bytes. -/
  | command (c : UInt8) (hc : c<0xFA)
  /-- A request for an option: WILL, WONT, DO or DONT. -/
  | request (c option : UInt8) (hlow : 0xFB≤c) (hhigh : c≤0xFE)
  /-- A sub-negotiation with its bytes. -/
  | subnegotiation (payload : List UInt8)

/-- A part on the wire. -/
def Item.encode : Item → List UInt8
  | .data b => escape [b]
  | .command c _ => [0xFF,c]
  | .request c option _ _ => [0xFF,c,option]
  | .subnegotiation payload => 0xFF::0xFA::(escape payload++[0xFF,0xF0])

/-- The data of a part. -/
def Item.value : Item → List UInt8
  | .data b => [b]
  | _ => []

/-- A stream on the wire. -/
def encode (items : List Item) : List UInt8 := items.flatMap Item.encode

/-- The data of a stream. -/
def value (items : List Item) : List UInt8 := items.flatMap Item.value

/-- What stands behind the first 0xFF 0xF0 in some bytes. -/
def behindEnd : List UInt8 → List UInt8
  | [] => []
  | a::rest => if a=0xFF ∧ rest.head?=some 0xF0 then rest.tail else behindEnd rest

/-- The bytes 0xFF 0xF0 stand nowhere but at the end. -/
def EndsOnce (payload : List UInt8) : Prop :=
  ∀ front back,payload=front++0xFF::0xF0::back → back=[]

section Endings

/-- The bytes behind an end belong to those behind the first end. -/
theorem suffix_behindEnd (front back : List UInt8) :
    back<:+behindEnd (front++0xFF::0xF0::back) := by
  induction front with
  | nil =>
    rw [List.nil_append,behindEnd,if_pos ⟨rfl,rfl⟩]
    exact List.suffix_refl _
  | cons a front ih =>
    rw [List.cons_append,behindEnd]
    by_cases hend : a=0xFF ∧ (front++0xFF::0xF0::back).head?=some 0xF0
    · rw [if_pos hend]
      cases front with
      | nil => exact absurd hend.2 (by simp)
      | cons c front =>
        refine ⟨front++[0xFF,0xF0],?_⟩
        rw [List.append_assoc]
        rfl
    · rw [if_neg hend]
      exact ih

/-- Bytes behind an end stand behind one. -/
theorem behindEnd_split (payload : List UInt8) :
    behindEnd payload=[] ∨ ∃ front,payload=front++0xFF::0xF0::behindEnd payload := by
  induction payload with
  | nil => exact .inl rfl
  | cons a payload ih =>
    rw [behindEnd]
    by_cases hend : a=0xFF ∧ payload.head?=some 0xF0
    · rw [if_pos hend]
      cases payload with
      | nil => exact absurd hend.2 (by simp)
      | cons c payload =>
        have hc : c=0xF0 := Option.some_inj.mp hend.2
        exact .inr ⟨[],by rw [hend.1,hc]; rfl⟩
    · rw [if_neg hend]
      rcases ih with hnone|⟨front,hfront⟩
      · exact .inl hnone
      · exact .inr ⟨a::front,congrArg (a::·) hfront⟩

/-- Nothing stands behind the first end exactly where the bytes end once. -/
theorem behindEnd_eq_nil_iff (payload : List UInt8) : behindEnd payload=[] ↔ EndsOnce payload := by
  constructor
  · intro hnone front back hpayload
    have hsuffix := suffix_behindEnd front back
    rw [←hpayload,hnone] at hsuffix
    exact List.suffix_nil.mp hsuffix
  · intro hends
    rcases behindEnd_split payload with hnone|⟨front,hfront⟩
    · exact hnone
    · exact hends front _ hfront

end Endings

end HoneyDew.TelnetStream
