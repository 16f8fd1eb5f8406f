import HoneyDew.JsonString
import HoneyDew.StoreCursor
import Mathlib.Algebra.Ring.Nat

/-!
# Session identifiers

Sixteen random bytes get the version and variant bits of a random UUID and are written
as lower-case hexadecimal digits in five groups with hyphens between them. The five loops
share the position in the buffer, and every store is preceded by a test of it.
-/

namespace HoneyDew.SessionIds

open CText CMemory StoreCursor JsonString

/-! ## The code -/

/-- The string `hex`. -/
def hex : Bytes := text "0123456789abcdef"

/-- The assignments that set the version and the variant. -/
def stampUuid (uuid : Bytes) : Bytes :=
  let uuid := uuid.set 6 (uuid.getD 6 0&&&0x0F|||0x40)
  uuid.set 8 (uuid.getD 8 0&&&0x3F|||0x80)

/-- A loop over `n` bytes of the array from an index on. -/
def hexLoop (uuid : Bytes) (bufLen : ℕ) : ℕ → ℕ → Cursor → Cursor
  | _,0,c => c
  | i,n+1,c =>
    if c.offset<bufLen-1 then
      let high := c.store [hex.getD ((uuid.getD i 0>>>4)&&&0x0F).toNat 0]
      let low := high.store [hex.getD (uuid.getD i 0&&&0x0F).toNat 0]
      hexLoop uuid bufLen (i+1) n low
    else c

/-- A hyphen, where there is room for it. -/
def hyphen (bufLen : ℕ) (c : Cursor) : Cursor := if c.offset<bufLen-1 then c.store [45] else c

/-- `audit_generate_session_id` on a buffer of `bufLen` bytes; `random` is what
`getrandom`, or the loop that stands in for it, has left in `uuid`. -/
def auditGenerateSessionId (random buf : Bytes) (bufLen : ℕ) : Cursor :=
  if bufLen<37 then .start buf
  else
    let uuid := stampUuid random
    let c := hyphen bufLen (hexLoop uuid bufLen 0 4 (.start buf))
    let c := hyphen bufLen (hexLoop uuid bufLen 4 2 c)
    let c := hyphen bufLen (hexLoop uuid bufLen 6 2 c)
    let c := hyphen bufLen (hexLoop uuid bufLen 8 2 c)
    let c := hexLoop uuid bufLen 10 6 c
    c.store [0]

/-! ## What an identifier is -/

/-- The two digits of a byte. -/
def hexPair (b : Byte) : Bytes := [hexDigit (b.toNat/16),hexDigit (b.toNat%16)]

/-- The digits of bytes one behind the other. -/
def hexText (bs : Bytes) : Bytes := bs.flatMap hexPair

/-- The digits of `n` bytes from an index on. -/
def group (uuid : Bytes) (i n : ℕ) : Bytes := hexText ((uuid.drop i).take n)

/-- Sixteen bytes in five groups of digits. -/
def uuidText (uuid : Bytes) : Bytes :=
  group uuid 0 4++45::(group uuid 4 2++45::(group uuid 6 2++45::(group uuid 8 2++
    45::group uuid 10 6)))

/-- The bytes that pairs of digits stand for. -/
def readPairs : Bytes → Option Bytes
  | [] => some []
  | [_] => none
  | high::low::rest =>
    match hexValue high,hexValue low,readPairs rest with
    | some h,some l,some bs => some (UInt8.ofNat (h*16+l)::bs)
    | _,_,_ => none

/-- The bytes that an identifier stands for: hyphens are passed over. -/
def readId (id : Bytes) : Option Bytes := readPairs (id.filter (fun b => b≠45))

/-- An identifier has 36 characters: hyphens at four positions, lower-case digits at all
others, and there the version and the variant. -/
structure WellFormedId (id : Bytes) : Prop where
  /-- The number of characters. -/
  length_eq : id.length=36
  /-- The hyphens stand at four positions and nowhere else. -/
  hyphens : ∀ i : ℕ,id[i]?=some 45 ↔ i∈[8,13,18,23]
  /-- All other characters are lower-case digits. -/
  digits : ∀ d∈id,d=45 ∨ d∈hex
  /-- The version. -/
  version : id[14]?=some 52
  /-- The variant is 8, 9, a or b. -/
  variant : ∃ d∈text "89ab",id[19]?=some d

/-- The bytes are the random ones but for the version and the variant. -/
structure Stamped (random uuid : Bytes) : Prop where
  /-- There are sixteen of them. -/
  length_eq : uuid.length=16
  /-- The bytes that keep all their bits. -/
  kept : ∀ i : ℕ,i≠6 → i≠8 → uuid[i]?=random[i]?
  /-- The byte that keeps its low four bits. -/
  version : (uuid.getD 6 0).toNat=64+(random.getD 6 0).toNat%16
  /-- The byte that keeps its low six bits. -/
  variant : (uuid.getD 8 0).toNat=128+(random.getD 8 0).toNat%64

/-- The inputs agree on the 122 bits that are kept. -/
structure SameKeptBits (random random' : Bytes) : Prop where
  /-- The bytes that keep all their bits. -/
  kept : ∀ i : ℕ,i≠6 → i≠8 → random[i]?=random'[i]?
  /-- The low four bits. -/
  version : (random.getD 6 0).toNat%16=(random'.getD 6 0).toNat%16
  /-- The low six bits. -/
  variant : (random.getD 8 0).toNat%64=(random'.getD 8 0).toNat%64

/-! ## Bytes -/

/-- The low four bits with the version. -/
theorem toNat_version (b : Byte) : (b&&&0x0F|||0x40).toNat=64+b.toNat%16 := by
  have hor : ∀ n<16,n|||64=64+n := by decide
  have hlow : b.toNat&&&15=b.toNat%16 := Nat.and_two_pow_sub_one_eq_mod b.toNat 4
  rw [UInt8.toNat_or,UInt8.toNat_and]
  change b.toNat&&&15|||64=64+b.toNat%16
  rw [hlow,hor _ (Nat.mod_lt _ (by decide))]

/-- The low six bits with the variant. -/
theorem toNat_variant (b : Byte) : (b&&&0x3F|||0x80).toNat=128+b.toNat%64 := by
  have hor : ∀ n<64,n|||128=128+n := by decide
  have hlow : b.toNat&&&63=b.toNat%64 := Nat.and_two_pow_sub_one_eq_mod b.toNat 6
  rw [UInt8.toNat_or,UInt8.toNat_and]
  change b.toNat&&&63|||128=128+b.toNat%64
  rw [hlow,hor _ (Nat.mod_lt _ (by decide))]

/-- The indices of the two digits of a byte. -/
theorem toNat_nibbles (b : Byte) :
    ((b>>>4)&&&0x0F).toNat=b.toNat/16 ∧ (b&&&0x0F).toNat=b.toNat%16 := by
  have hlow : ∀ n : ℕ,n&&&15=n%16 := fun n => Nat.and_two_pow_sub_one_eq_mod n 4
  have hsize : b.toNat<256 := b.toNat_lt
  rw [UInt8.toNat_and,UInt8.toNat_and,UInt8.toNat_shiftRight]
  change (b.toNat>>>4)&&&15=b.toNat/16 ∧ b.toNat&&&15=b.toNat%16
  rw [hlow,hlow,Nat.shiftRight_eq_div_pow]
  omega

/-- The string of digits holds the digits. -/
theorem hex_getD {n : ℕ} (hn : n<16) : hex.getD n 0=hexDigit n := by
  have hall : ∀ n<16,hex.getD n 0=hexDigit n := by decide
  exact hall n hn

/-- The characters that a loop stores for a byte. -/
theorem stored_pair (b : Byte) :
    [hex.getD ((b>>>4)&&&0x0F).toNat 0]++[hex.getD (b&&&0x0F).toNat 0]=hexPair b := by
  have hnibbles := toNat_nibbles b
  have hsize : b.toNat<256 := b.toNat_lt
  rw [hnibbles.1,hnibbles.2,hex_getD (by omega),hex_getD (by omega)]
  rfl

/-- A digit is one of the string, and neither a hyphen nor NUL. -/
theorem hexDigit_mem {n : ℕ} (hn : n<16) : hexDigit n∈hex ∧ hexDigit n≠45 ∧ hexDigit n≠0 := by
  have hall : ∀ n<16,hexDigit n∈hex ∧ hexDigit n≠45 ∧ hexDigit n≠0 := by decide
  exact hall n hn

/-- The characters of a text of digits are digits. -/
theorem mem_hexText {bs : Bytes} {d : Byte} (h : d∈hexText bs) : d∈hex ∧ d≠45 ∧ d≠0 := by
  obtain ⟨b,-,hb⟩ := List.mem_flatMap.mp h
  have hsize : b.toNat<256 := b.toNat_lt
  rcases List.mem_cons.mp hb with hhigh|hlow
  · rw [hhigh]
    exact hexDigit_mem (by omega)
  · rw [List.mem_singleton.mp hlow]
    exact hexDigit_mem (by omega)

/-- Every byte takes two digits. -/
theorem length_hexText (bs : Bytes) : (hexText bs).length=2*bs.length := by
  induction bs with
  | nil => rfl
  | cons b bs ih =>
    rw [hexText,List.flatMap_cons,←hexText,List.length_append,ih,List.length_cons,hexPair,
      List.length_cons,List.length_singleton]
    omega

/-- The digits of bytes are read back as the bytes. -/
theorem readPairs_hexText (bs : Bytes) : readPairs (hexText bs)=some bs := by
  induction bs with
  | nil => rfl
  | cons b bs ih =>
    have hsize : b.toNat<256 := b.toNat_lt
    have hhigh := hexValue_hexDigit (show b.toNat/16<16 by omega)
    have hlow := hexValue_hexDigit (show b.toNat%16<16 by omega)
    have hcons : hexText (b::bs)=hexDigit (b.toNat/16)::hexDigit (b.toNat%16)::hexText bs := rfl
    rw [hcons,readPairs,hhigh,hlow,ih]
    dsimp only
    rw [Nat.div_add_mod',UInt8.ofNat_toNat]

/-! ## The loops -/

/-- A loop stores the digits of its bytes. -/
theorem holds_hexLoop {uuid buf t : Bytes} {bufLen limit i n : ℕ} {c : Cursor}
    (h : Holds buf limit t c) (huuid : i+n≤uuid.length) (hlen : t.length+2*n<bufLen)
    (hlimit : t.length+2*n≤limit) :
    Holds buf limit (t++group uuid i n) (hexLoop uuid bufLen i n c) := by
  unfold group
  induction n generalizing i t c with
  | zero =>
    rw [List.take_zero,hexText,List.flatMap_nil,List.append_nil]
    exact h
  | succ n ih =>
    have hi : i<uuid.length := by omega
    have hoffset := h.offset_eq
    have hbyte : uuid.getD i 0=uuid[i] := by
      rw [List.getD_eq_getElem?_getD,List.getElem?_eq_getElem hi,Option.getD_some]
    have hpair := stored_pair uuid[i]
    have hstored := (h.store [hex.getD ((uuid[i]>>>4)&&&0x0F).toNat 0]
      (by rw [List.length_singleton]; omega)).store [hex.getD (uuid[i]&&&0x0F).toNat 0]
      (by rw [List.length_append,List.length_singleton,List.length_singleton]; omega)
    rw [List.append_assoc,hpair] at hstored
    have hlength : (t++hexPair uuid[i]).length=t.length+2 := List.length_append
    have hrest := ih hstored (i := i+1) (by omega) (by omega) (by omega)
    rw [hexLoop,if_pos (by omega),hbyte]
    dsimp only
    rw [List.drop_eq_getElem_cons hi,List.take_succ_cons,hexText,List.flatMap_cons,←hexText,
      ←List.append_assoc]
    exact hrest

/-- A hyphen is stored where there is room for it. -/
theorem holds_hyphen {buf t : Bytes} {bufLen limit : ℕ} {c : Cursor} (h : Holds buf limit t c)
    (hlen : t.length+1<bufLen) (hlimit : t.length+1≤limit) :
    Holds buf limit (t++[45]) (hyphen bufLen c) := by
  have hoffset := h.offset_eq
  rw [hyphen,if_pos (by omega)]
  exact h.store [45] hlimit

/-- A group has two digits for every byte. -/
theorem length_group {uuid : Bytes} {i n : ℕ} (h : i+n≤uuid.length) :
    (group uuid i n).length=2*n := by
  rw [group,length_hexText,List.length_take,List.length_drop]
  omega

/-- A loop and the hyphen behind it store a group and a hyphen. -/
theorem holds_block {uuid buf t : Bytes} {bufLen : ℕ} {c : Cursor} (h : Holds buf 37 t c)
    (hlen : 37≤bufLen) (i n : ℕ) (huuid : i+n≤uuid.length) (hroom : t.length+2*n<36) :
    Holds buf 37 (t++group uuid i n++[45]) (hyphen bufLen (hexLoop uuid bufLen i n c)) ∧
      (t++group uuid i n++[45]).length=t.length+2*n+1 := by
  have hlength : (t++group uuid i n).length=t.length+2*n := by
    rw [List.length_append,length_group huuid]
  have hloop : Holds buf 37 (t++group uuid i n) (hexLoop uuid bufLen i n c) :=
    holds_hexLoop h huuid (by omega) (by omega)
  refine ⟨holds_hyphen hloop (by omega) (by omega),?_⟩
  rw [List.length_append,hlength,List.length_singleton]

/-- Thirty-two digits and four hyphens. -/
theorem length_uuidText {uuid : Bytes} (h : uuid.length=16) : (uuidText uuid).length=36 := by
  unfold uuidText
  simp only [List.length_append,List.length_cons]
  rw [length_group (by omega),length_group (by omega),length_group (by omega),
    length_group (by omega),length_group (by omega)]

/-- The version and the variant are set in place. -/
theorem length_stampUuid (uuid : Bytes) : (stampUuid uuid).length=uuid.length := by
  unfold stampUuid
  rw [List.length_set,List.length_set]

/-- The loops and hyphens store the text of the sixteen bytes. -/
theorem auditGenerateSessionId_eq {random : Bytes} {bufLen : ℕ} (hrandom : random.length=16)
    (hlen : 37≤bufLen) (buf : Bytes) :
    (auditGenerateSessionId random buf bufLen).memory=
        uuidText (stampUuid random)++0::buf.drop 37 ∧
      ∀ w∈(auditGenerateSessionId random buf bufLen).writes,w.1+w.2≤37 := by
  have huuid : (stampUuid random).length=16 := by rw [length_stampUuid,hrandom]
  have hzero : ([] : Bytes).length=0 := rfl
  obtain ⟨hfirst,hfirstLength⟩ := holds_block (holds_start buf 37) hlen 0 4
    (by omega : 0+4≤(stampUuid random).length) (by omega)
  obtain ⟨hsecond,hsecondLength⟩ := holds_block hfirst hlen 4 2
    (by omega : 4+2≤(stampUuid random).length) (by omega)
  obtain ⟨hthird,hthirdLength⟩ := holds_block hsecond hlen 6 2
    (by omega : 6+2≤(stampUuid random).length) (by omega)
  obtain ⟨hfourth,hfourthLength⟩ := holds_block hthird hlen 8 2
    (by omega : 8+2≤(stampUuid random).length) (by omega)
  have hlast := holds_hexLoop hfourth (by omega : 10+6≤(stampUuid random).length)
    (by omega : _+2*6<bufLen) (by omega)
  simp only [List.nil_append,List.append_assoc,List.singleton_append] at hlast
  have hlength := length_uuidText huuid
  have hend := Holds.terminated (t := uuidText (stampUuid random)) hlast (by omega)
  rw [hlength] at hend
  unfold auditGenerateSessionId
  rw [if_neg (by omega)]
  exact hend

/-! ## The text of an identifier -/

/-- A hyphen stands behind a text without hyphens, or further behind. -/
theorem getElem?_hyphen {front rest : Bytes} (hfront : (45 : Byte)∉front) (i : ℕ) :
    (front++45::rest)[i]?=some 45 ↔
      i=front.length ∨ front.length < i ∧ rest[i-front.length-1]?=some 45 := by
  rcases Nat.lt_trichotomy i front.length with hlt|heq|hgt
  · rw [List.getElem?_append_left hlt]
    constructor
    · intro h
      exact absurd (List.mem_of_getElem? h) hfront
    · intro h
      omega
  · rw [heq,List.getElem?_append_right (Nat.le_refl _),Nat.sub_self]
    exact iff_of_true rfl (Or.inl rfl)
  · have hsub : i-front.length=(i-front.length-1)+1 := by omega
    rw [List.getElem?_append_right hgt.le,hsub,List.getElem?_cons_succ,Nat.add_sub_cancel]
    constructor
    · exact fun h => Or.inr ⟨hgt,h⟩
    · rintro (h|h)
      · omega
      · exact h.2

/-- There is no hyphen in a group. -/
theorem hyphen_not_mem_group (uuid : Bytes) (i n : ℕ) : (45 : Byte)∉group uuid i n :=
  fun h => (mem_hexText h).2.1 rfl

/-- A character of an identifier is a hyphen or a digit. -/
theorem mem_uuidText {uuid : Bytes} {d : Byte} (h : d∈uuidText uuid) : d=45 ∨ d∈hex ∧ d≠0 := by
  have hgroup : ∀ i n,d∈group uuid i n → d=45 ∨ d∈hex ∧ d≠0 :=
    fun i n hd => Or.inr ⟨(mem_hexText hd).1,(mem_hexText hd).2.2⟩
  unfold uuidText at h
  simp only [List.mem_append,List.mem_cons] at h
  rcases h with h|h|h|h|h|h|h|h|h
  · exact hgroup _ _ h
  · exact Or.inl h
  · exact hgroup _ _ h
  · exact Or.inl h
  · exact hgroup _ _ h
  · exact Or.inl h
  · exact hgroup _ _ h
  · exact Or.inl h
  · exact hgroup _ _ h

/-- The hyphens of an identifier. -/
theorem hyphens_uuidText {uuid : Bytes} (h : uuid.length=16) (i : ℕ) :
    (uuidText uuid)[i]?=some 45 ↔ i∈[8,13,18,23] := by
  have hlast : ∀ j : ℕ,¬(group uuid 10 6)[j]?=some 45 :=
    fun j hj => hyphen_not_mem_group uuid 10 6 (List.mem_of_getElem? hj)
  unfold uuidText
  rw [getElem?_hyphen (hyphen_not_mem_group uuid 0 4),getElem?_hyphen (hyphen_not_mem_group uuid 4 2),
    getElem?_hyphen (hyphen_not_mem_group uuid 6 2),getElem?_hyphen (hyphen_not_mem_group uuid 8 2),
    length_group (by omega),length_group (by omega),length_group (by omega),length_group (by omega)]
  simp only [hlast,and_false,or_false,List.mem_cons,List.not_mem_nil]
  omega

/-- Without its hyphens an identifier is the digits of its bytes. -/
theorem filter_uuidText {uuid : Bytes} (h : uuid.length=16) :
    (uuidText uuid).filter (fun b => b≠45)=hexText uuid := by
  have hgroup : ∀ i n,(group uuid i n).filter (fun b => b≠45)=group uuid i n := by
    intro i n
    refine List.filter_eq_self.mpr ?_
    intro d hd
    exact decide_eq_true (mem_hexText hd).2.1
  have hhyphen : ∀ rest : Bytes,(45::rest).filter (fun b => b≠45)=rest.filter (fun b => b≠45) := by
    intro rest
    exact List.filter_cons_of_neg (by decide)
  have hlast : (uuid.drop 10).take 6=uuid.drop 10 := by
    refine List.take_of_length_le ?_
    rw [List.length_drop]
    omega
  have hjoin : ∀ i n,(uuid.drop i).take n++uuid.drop (i+n)=uuid.drop i := readAt_append_drop uuid
  have hsplit : (uuid.drop 0).take 4++((uuid.drop 4).take 2++((uuid.drop 6).take 2++
      ((uuid.drop 8).take 2++(uuid.drop 10).take 6)))=uuid := by
    rw [hlast,hjoin 8 2,hjoin 6 2,hjoin 4 2,hjoin 0 4,List.drop_zero]
  have hdigits := congrArg hexText hsplit
  simp only [hexText,List.flatMap_append] at hdigits
  unfold uuidText
  simp only [List.filter_append,hgroup,hhyphen]
  exact hdigits

/-- The first digit of a group is the high one of its first byte. -/
theorem getElem?_group {uuid : Bytes} {i n : ℕ} (h : i<uuid.length) :
    (group uuid i (n+1))[0]?=some (hexDigit ((uuid.getD i 0).toNat/16)) := by
  have hbyte : uuid.getD i 0=uuid[i] := by
    rw [List.getD_eq_getElem?_getD,List.getElem?_eq_getElem h,Option.getD_some]
  rw [group,List.drop_eq_getElem_cons h,List.take_succ_cons,hexText,List.flatMap_cons,hbyte]
  rfl

/-- What stands behind a group and its hyphen. -/
theorem getElem?_behind {front rest : Bytes} {k : ℕ} (hfront : front.length=k) (i : ℕ) :
    (front++45::rest)[k+1+i]?=rest[i]? := by
  have hsub : k+1+i-front.length=i+1 := by omega
  rw [List.getElem?_append_right (by omega),hsub,List.getElem?_cons_succ]

/-- The characters at the positions of the version and of the variant. -/
theorem marks_uuidText {uuid : Bytes} (h : uuid.length=16) :
    (uuidText uuid)[14]?=some (hexDigit ((uuid.getD 6 0).toNat/16)) ∧
      (uuidText uuid)[19]?=some (hexDigit ((uuid.getD 8 0).toNat/16)) := by
  have hfirst : (group uuid 0 4).length=8 := length_group (by omega)
  have hsecond : (group uuid 4 2).length=4 := length_group (by omega)
  have hthird : (group uuid 6 2).length=4 := length_group (by omega)
  have hversion := getElem?_group (n := 1) (by omega : 6<uuid.length)
  have hvariant := getElem?_group (n := 1) (by omega : 8<uuid.length)
  unfold uuidText
  constructor
  · rw [getElem?_behind hfirst 5,getElem?_behind hsecond 0,
      List.getElem?_append_left (by rw [hthird]; decide)]
    exact hversion
  · have hfourth : 0<(group uuid 8 2).length := by
      rw [length_group (by omega)]
      decide
    rw [getElem?_behind hfirst 10,getElem?_behind hsecond 5,getElem?_behind hthird 0,
      List.getElem?_append_left hfourth]
    exact hvariant

/-! ## Identifiers -/

/-- Only the version and the variant are replaced. -/
theorem stamped_stampUuid {random : Bytes} (h : random.length=16) :
    Stamped random (stampUuid random) where
  length_eq := by rw [length_stampUuid,h]
  kept := by
    intro i h6 h8
    unfold stampUuid
    rw [List.getElem?_set_ne h8.symm,List.getElem?_set_ne h6.symm]
  version := by
    have hbyte : (stampUuid random).getD 6 0=random.getD 6 0&&&0x0F|||0x40 := by
      unfold stampUuid
      rw [List.getD_eq_getElem?_getD,List.getElem?_set_ne (by decide),
        List.getElem?_set_self (by omega),Option.getD_some]
    rw [hbyte,toNat_version]
  variant := by
    have hbyte : (stampUuid random).getD 8 0=random.getD 8 0&&&0x3F|||0x80 := by
      have hset : 8<(random.set 6 (random.getD 6 0&&&0x0F|||0x40)).length := by
        rw [List.length_set]
        omega
      unfold stampUuid
      dsimp only
      rw [List.getD_eq_getElem?_getD,List.getElem?_set_self hset,Option.getD_some,
        List.getD_eq_getElem?_getD,List.getElem?_set_ne (by decide),←List.getD_eq_getElem?_getD]
    rw [hbyte,toNat_variant]

/-- The text of stamped bytes is an identifier. -/
theorem wellFormedId_uuidText {random uuid : Bytes} (h : Stamped random uuid) :
    WellFormedId (uuidText uuid) where
  length_eq := length_uuidText h.length_eq
  hyphens := hyphens_uuidText h.length_eq
  digits := by
    intro d hd
    exact (mem_uuidText hd).imp_right And.left
  version := by
    have hversion := h.version
    have hfour : (uuid.getD 6 0).toNat/16=4 := by omega
    rw [(marks_uuidText h.length_eq).1,hfour]
    rfl
  variant := by
    have hvariant := h.variant
    have hall : ∀ n<16,8≤n → n<12 → hexDigit n∈text "89ab" := by decide
    exact ⟨_,hall ((uuid.getD 8 0).toNat/16) (by omega) (by omega) (by omega),
      (marks_uuidText h.length_eq).2⟩

/-- An identifier is read back as its bytes. -/
theorem readId_uuidText {uuid : Bytes} (h : uuid.length=16) : readId (uuidText uuid)=some uuid := by
  rw [readId,filter_uuidText h,readPairs_hexText]

/-- Bytes with the same stamp agree on the bits that are kept, and the other way round. -/
theorem stamped_eq_iff {random random' uuid uuid' : Bytes} (h : Stamped random uuid)
    (h' : Stamped random' uuid') : uuid=uuid' ↔ SameKeptBits random random' := by
  constructor
  · rintro rfl
    refine ⟨?_,?_,?_⟩
    · intro i h6 h8
      rw [←h.kept i h6 h8,h'.kept i h6 h8]
    · have hversion := h.version
      have hversion' := h'.version
      omega
    · have hvariant := h.variant
      have hvariant' := h'.variant
      omega
  · intro hsame
    have hbyte : ∀ i,(uuid.getD i 0).toNat=(uuid'.getD i 0).toNat → i<16 → uuid[i]?=uuid'[i]? := by
      intro i hi hlt
      have hlength := h.length_eq
      have hlength' := h'.length_eq
      rw [List.getD_eq_getElem?_getD,List.getD_eq_getElem?_getD,
        List.getElem?_eq_getElem (by omega),List.getElem?_eq_getElem (by omega),Option.getD_some,
        Option.getD_some] at hi
      rw [List.getElem?_eq_getElem (by omega),List.getElem?_eq_getElem (by omega),
        UInt8.toNat_inj.mp hi]
    refine List.ext_getElem? ?_
    intro i
    by_cases h6 : i=6
    · subst h6
      refine hbyte 6 ?_ (by decide)
      rw [h.version,h'.version,hsame.version]
    by_cases h8 : i=8
    · subst h8
      refine hbyte 8 ?_ (by decide)
      rw [h.variant,h'.variant,hsame.variant]
    rw [h.kept i h6 h8,h'.kept i h6 h8,hsame.kept i h6 h8]

/-- For any sixteen bytes and any buffer of at least 37 bytes an identifier and a NUL are
stored and nothing else; its digits are read back as the bytes with the version and the
variant replaced, and two identifiers are the same exactly when the bytes agree on the
other 122 bits. -/
theorem sessionId_wellFormed_lossless {random random' : Bytes} {bufLen bufLen' : ℕ}
    (hrandom : random.length=16) (hrandom' : random'.length=16) (hlen : 37≤bufLen)
    (hlen' : 37≤bufLen') (buf buf' : Bytes) :
    (∃ id uuid,(auditGenerateSessionId random buf bufLen).memory=id++0::buf.drop 37 ∧
        cstr (auditGenerateSessionId random buf bufLen).memory=id ∧ WellFormedId id ∧
        readId id=some uuid ∧ Stamped random uuid) ∧
      (∀ w∈(auditGenerateSessionId random buf bufLen).writes,w.1+w.2≤37) ∧
      (cstr (auditGenerateSessionId random buf bufLen).memory=
          cstr (auditGenerateSessionId random' buf' bufLen').memory ↔
        SameKeptBits random random') := by
  have hstored := auditGenerateSessionId_eq hrandom hlen buf
  have hstored' := auditGenerateSessionId_eq hrandom' hlen' buf'
  have hstamped := stamped_stampUuid hrandom
  have hstamped' := stamped_stampUuid hrandom'
  have hfree : ∀ uuid,(0 : Byte)∉uuidText uuid := by
    intro uuid hzero
    rcases mem_uuidText hzero with h|h
    · exact absurd h (by decide)
    · exact h.2 rfl
  have hread := readId_uuidText hstamped.length_eq
  have hread' := readId_uuidText hstamped'.length_eq
  have hstring := cstr_terminated (hfree (stampUuid random)) (buf.drop 37)
  have hstring' := cstr_terminated (hfree (stampUuid random')) (buf'.drop 37)
  rw [←hstored.1] at hstring
  rw [←hstored'.1] at hstring'
  refine ⟨⟨_,_,hstored.1,hstring,wellFormedId_uuidText hstamped,hread,hstamped⟩,hstored.2,?_⟩
  rw [hstring,hstring',←stamped_eq_iff hstamped hstamped']
  constructor
  · intro htext
    rw [htext,hread'] at hread
    exact (Option.some.inj hread).symm
  · intro huuid
    rw [huuid]

/-- Two inputs that differ in the bits that are replaced only give the same identifier. -/
theorem sessionId_wellFormed_lossless_zero :
    cstr (auditGenerateSessionId (List.replicate 16 0) (List.replicate 37 7) 37).memory=
      cstr (auditGenerateSessionId ((List.replicate 16 0).set 6 240) (List.replicate 64 0) 64).memory := by
  refine (sessionId_wellFormed_lossless (by decide) (by decide) (by decide) (by decide) _ _).2.2.mpr ?_
  exact ⟨fun i h6 _ => (List.getElem?_set_ne h6.symm).symm,by decide,by decide⟩

end HoneyDew.SessionIds
