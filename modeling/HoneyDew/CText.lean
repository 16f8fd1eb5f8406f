import Mathlib.Data.Nat.Digits.Lemmas
import Mathlib.Data.List.Infix
import Mathlib.Data.List.TakeWhile

/-!
# C strings and the text routines of the C library

Memory is a list of bytes; a C string is what stands before the first NUL.
The search, number and token routines are the functions of the C library that
a C program calls by name, with their documented behaviour: searching stops at
the NUL, `atoi` skips white space and stops at the first non-digit, `strtok`
drops empty tokens.
-/

namespace HoneyDew.CText

/-- One byte of memory. -/
abbrev Byte := UInt8

/-- Consecutive bytes of memory. -/
abbrev Bytes := List UInt8

/-- The bytes of a source string literal, in UTF-8. -/
def text (s : String) : Bytes := s.toByteArray.data.toList

/-- Carriage return and line feed. -/
abbrev crlf : Bytes := [13,10]

/-- The C string at a memory position: the bytes before the first NUL. -/
def cstr (memory : Bytes) : Bytes := memory.takeWhile (fun b => b≠0)

/-- A C string contains no NUL. -/
theorem zero_not_mem_cstr (memory : Bytes) : (0 : Byte)∉cstr memory := by
  intro h
  have hc := List.mem_takeWhile_imp h
  simp at hc

/-- A C string starts where its memory starts. -/
theorem cstr_front (memory : Bytes) : cstr memory<+:memory := List.takeWhile_prefix _

/-- NUL-free bytes in front of a memory position belong to its C string. -/
theorem cstr_append {s : Bytes} (hs : (0 : Byte)∉s) (rest : Bytes) :
    cstr (s++rest)=s++cstr rest := by
  unfold cstr
  refine List.takeWhile_append_of_pos ?_
  intro b hb
  rw [decide_eq_true_eq]
  rintro rfl
  exact hs hb

/-- NUL-free bytes are their own C string when a NUL follows them. -/
theorem cstr_terminated {s : Bytes} (hs : (0 : Byte)∉s) (rest : Bytes) : cstr (s++0::rest)=s := by
  rw [cstr_append hs]
  simp [cstr]

/-- NUL-free bytes are their own C string. -/
theorem cstr_self {s : Bytes} (hs : (0 : Byte)∉s) : cstr s=s := by
  have h := cstr_append hs []
  rwa [List.append_nil,show cstr []=[] from rfl,List.append_nil] at h

/-- `strncpy(dst, src, n)`: the first `n` bytes of `dst` become the string
padded with NULs; the bytes after them stay. -/
def strncpy (dst src : Bytes) (n : ℕ) : Bytes :=
  (cstr src).take n++List.replicate (n-(cstr src).length) 0++dst.drop n

/-- First position at which `needle` occurs. -/
def findSub (needle : Bytes) : Bytes → Option ℕ
  | [] => if needle=[] then some 0 else none
  | b::bs => if needle.isPrefixOf (b::bs) then some 0 else (findSub needle bs).map (·+1)

/-- `strstr`: the search runs over the C string only. -/
def strstr (memory needle : Bytes) : Option ℕ := findSub needle (cstr memory)

/-- A position found is an occurrence, and there is none before it. -/
theorem findSub_some {needle bs : Bytes} {i : ℕ} (h : findSub needle bs=some i) :
    needle<+:bs.drop i ∧ ∀ j < i,¬needle<+:bs.drop j := by
  induction bs generalizing i with
  | nil =>
    rw [findSub] at h
    split at h
    · rename_i hn
      cases h
      exact ⟨hn ▸ List.nil_prefix,fun j hj => absurd hj (Nat.not_lt_zero j)⟩
    · cases h
  | cons b bs ih =>
    rw [findSub] at h
    split at h
    · rename_i hp
      cases h
      exact ⟨List.isPrefixOf_iff_prefix.mp hp,fun j hj => absurd hj (Nat.not_lt_zero j)⟩
    · rename_i hp
      obtain ⟨k,hk,rfl⟩ := Option.map_eq_some_iff.mp h
      obtain ⟨hocc,hfirst⟩ := ih hk
      refine ⟨hocc,?_⟩
      rintro (_|j) hj hpre
      · exact hp (List.isPrefixOf_iff_prefix.mpr hpre)
      · exact hfirst j (by omega) hpre

/-- Nothing found means no occurrence at any position. -/
theorem findSub_none {needle bs : Bytes} (h : findSub needle bs=none) (i : ℕ) :
    needle≠[] ∧ ¬needle<+:bs.drop i := by
  induction bs generalizing i with
  | nil =>
    rw [findSub] at h
    split at h
    · cases h
    · rename_i hn
      refine ⟨hn,fun hp => hn ?_⟩
      rw [List.drop_nil,List.prefix_nil] at hp
      exact hp
  | cons b bs ih =>
    rw [findSub] at h
    split at h
    · cases h
    · rename_i hp
      have ht := ih (Option.map_eq_none_iff.mp h)
      refine ⟨(ht 0).1,?_⟩
      cases i with
      | zero => exact fun hpre => hp (List.isPrefixOf_iff_prefix.mpr hpre)
      | succ i => exact (ht i).2

/-- The first occurrence is the position found. -/
theorem findSub_eq_some {needle bs : Bytes} {i : ℕ} (hocc : needle<+:bs.drop i)
    (hfirst : ∀ j < i,¬needle<+:bs.drop j) : findSub needle bs=some i := by
  cases hf : findSub needle bs with
  | none => exact absurd hocc (findSub_none hf i).2
  | some k =>
    obtain ⟨hk,hkf⟩ := findSub_some hf
    rcases Nat.lt_trichotomy k i with hlt|heq|hgt
    · exact absurd hk (hfirst k hlt)
    · rw [heq]
    · exact absurd hocc (hkf i hgt)

/-- Something is found exactly in the bytes that contain it. -/
theorem findSub_isSome_iff (needle bs : Bytes) : (findSub needle bs).isSome=true ↔ needle<:+:bs := by
  constructor
  · intro h
    obtain ⟨i,hi⟩ := Option.isSome_iff_exists.mp h
    exact (findSub_some hi).1.isInfix.trans (List.drop_suffix i bs).isInfix
  · rintro ⟨front,back,rfl⟩
    by_contra hnone
    have hmiss := (findSub_none (Option.not_isSome_iff_eq_none.mp hnone) front.length).2
    rw [List.append_assoc,List.drop_left] at hmiss
    exact hmiss (List.prefix_append needle back)

/-- A NUL inside a text hides what is appended to it. -/
theorem cstr_append_of_mem {s : Bytes} (hs : (0 : Byte)∈s) (rest : Bytes) : cstr (s++rest)=cstr s := by
  induction s with
  | nil => exact absurd hs List.not_mem_nil
  | cons b s ih =>
    unfold cstr at ih ⊢
    rw [List.cons_append,List.takeWhile_cons,List.takeWhile_cons]
    split
    · rename_i hb
      have htail : (0 : Byte)∈s := by
        rcases List.mem_cons.mp hs with hz|hz
        · rw [←hz] at hb
          exact absurd hb (by decide)
        · exact hz
      rw [ih htail]
    · rfl

/-- Where memory holds a NUL its C string stands in front of one. -/
theorem exists_terminator {s : Bytes} (hs : (0 : Byte)∈s) : ∃ rest,s=cstr s++0::rest := by
  induction s with
  | nil => exact absurd hs List.not_mem_nil
  | cons b s ih =>
    by_cases hb : b=0
    · subst hb
      exact ⟨s,rfl⟩
    · obtain ⟨rest,hrest⟩ := ih ((List.mem_cons.mp hs).resolve_left (fun h => hb h.symm))
      have hcons : cstr (b::s)=b::cstr s := by simp [cstr,hb]
      refine ⟨rest,?_⟩
      rw [hcons,List.cons_append,←hrest]

/-- A NUL behind a text adds nothing to its C string. -/
theorem cstr_append_nul (s rest : Bytes) : cstr (s++0::rest)=cstr s := by
  by_cases hs : (0 : Byte)∈s
  · exact cstr_append_of_mem hs _
  · rw [cstr_terminated hs,cstr_self hs]

/-- An occurrence found stays the first one when bytes are appended. -/
theorem findSub_append {needle bs : Bytes} {i : ℕ} (h : findSub needle bs=some i) (rest : Bytes) :
    findSub needle (bs++rest)=some i := by
  have hfound := findSub_some h
  by_cases hempty : needle=[]
  · have hi : i=0 := by
      by_contra hne
      exact hfound.2 0 (by omega) (hempty ▸ List.nil_prefix)
    rw [hi]
    refine findSub_eq_some ?_ (fun j hj => absurd hj (Nat.not_lt_zero j))
    rw [hempty]
    exact List.nil_prefix
  · have hpos : 0<needle.length := List.length_pos_iff.mpr hempty
    have hlength := hfound.1.length_le
    rw [List.length_drop] at hlength
    refine findSub_eq_some ?_ ?_
    · rw [List.drop_append_of_le_length (by omega)]
      exact hfound.1.trans (List.prefix_append _ _)
    · intro j hj hocc
      rw [List.drop_append_of_le_length (by omega)] at hocc
      refine hfound.2 j hj (List.prefix_of_prefix_length_le hocc (List.prefix_append _ rest) ?_)
      rw [List.length_drop]
      omega

/-- An occurrence inside the front bytes is found without the bytes behind. -/
theorem findSub_of_append {needle bs rest : Bytes} {i : ℕ} (h : findSub needle (bs++rest)=some i)
    (hi : i+needle.length ≤ bs.length) : findSub needle bs=some i := by
  have hfound := findSub_some h
  have hocc := hfound.1
  rw [List.drop_append_of_le_length (by omega)] at hocc
  refine findSub_eq_some ?_ ?_
  · refine List.prefix_of_prefix_length_le hocc (List.prefix_append _ rest) ?_
    rw [List.length_drop]
    omega
  · intro j hj hpre
    refine hfound.2 j hj ?_
    rw [List.drop_append_of_le_length (by omega)]
    exact hpre.trans (List.prefix_append _ _)

/-- `strstr` finds inside a text what it finds when more bytes follow. -/
theorem strstr_append {needle s : Bytes} {i : ℕ} (h : strstr s needle=some i) (rest : Bytes) :
    strstr (s++rest) needle=some i := by
  unfold strstr at h ⊢
  by_cases hs : (0 : Byte)∈s
  · rw [cstr_append_of_mem hs]
    exact h
  · rw [cstr_self hs] at h
    rw [cstr_append hs]
    exact findSub_append h _

/-- What `strstr` finds inside the front bytes it finds without the rest. -/
theorem strstr_of_append {needle s rest : Bytes} {i : ℕ} (h : strstr (s++rest) needle=some i)
    (hi : i+needle.length ≤ s.length) : strstr s needle=some i := by
  unfold strstr at h ⊢
  by_cases hs : (0 : Byte)∈s
  · rwa [cstr_append_of_mem hs] at h
  · rw [cstr_append hs] at h
    rw [cstr_self hs]
    exact findSub_of_append h hi

/-- What `strstr` finds lies inside the text. -/
theorem strstr_length {needle s : Bytes} {i : ℕ} (h : strstr s needle=some i)
    (hneedle : needle≠[]) : i+needle.length ≤ s.length := by
  have hfound := findSub_some h
  have hpos : 0<needle.length := List.length_pos_iff.mpr hneedle
  have hlength := hfound.1.length_le
  have hfront := (cstr_front s).length_le
  rw [List.length_drop] at hlength
  omega

/-- A text that does not hold all of what `strstr` finds contains no NUL. -/
theorem zero_not_mem_of_strstr {needle s rest : Bytes} {i : ℕ} (h : strstr (s++rest) needle=some i)
    (hneedle : needle≠[]) (hi : s.length < i+needle.length) : (0 : Byte)∉s := by
  intro hs
  rw [strstr,cstr_append_of_mem hs,←strstr] at h
  have hlength := strstr_length h hneedle
  omega

/-- `toupper` in the C locale. -/
def toUpper (b : Byte) : Byte := if 97 ≤ b ∧ b ≤ 122 then b-32 else b

/-- The nonempty pieces between separators, with the piece read so far. -/
def tokensFrom (isSeparator : Byte → Bool) (current : Bytes) : Bytes → List Bytes
  | [] => if current=[] then [] else [current]
  | b::bs =>
    if isSeparator b then
      if current=[] then tokensFrom isSeparator [] bs else current::tokensFrom isSeparator [] bs
    else tokensFrom isSeparator (current++[b]) bs

/-- The tokens that repeated `strtok_r` calls return for a string. -/
def tokens (isSeparator : Byte → Bool) (bs : Bytes) : List Bytes := tokensFrom isSeparator [] bs

/-- A token is a piece of the text it is cut from. -/
theorem infix_of_mem_tokensFrom {isSeparator : Byte → Bool} {token : Bytes} (current bs : Bytes)
    (h : token∈tokensFrom isSeparator current bs) : token<:+:current++bs := by
  induction bs generalizing current with
  | nil =>
    rw [tokensFrom] at h
    split at h
    · exact absurd h List.not_mem_nil
    · rw [List.mem_singleton.mp h]
      exact List.infix_append [] current []
  | cons b bs ih =>
    have htail : ∀ t : Bytes,t<:+:bs → t<:+:current++b::bs := by
      intro t ht
      have hsuffix : bs<:+current++b::bs := by
        refine ⟨current++[b],?_⟩
        rw [List.append_assoc,List.singleton_append]
      exact ht.trans hsuffix.isInfix
    rw [tokensFrom] at h
    split at h
    · split at h
      · exact htail token (ih [] h)
      · rcases List.mem_cons.mp h with h|h
        · rw [h]
          exact (List.prefix_append current (b::bs)).isInfix
        · exact htail token (ih [] h)
    · have hstep := ih (current++[b]) h
      rwa [List.append_assoc,List.singleton_append] at hstep

/-- A text without separators is its only token. -/
theorem tokensFrom_whole {isSeparator : Byte → Bool} {current bs : Bytes}
    (hbs : ∀ b∈bs,isSeparator b=false) (hne : current++bs≠[]) :
    tokensFrom isSeparator current bs=[current++bs] := by
  induction bs generalizing current with
  | nil =>
    rw [List.append_nil] at hne ⊢
    rw [tokensFrom,if_neg hne]
  | cons b bs ih =>
    have hb := hbs b List.mem_cons_self
    have hlonger : (current++[b])++bs≠[] := by
      rw [List.append_assoc]
      exact hne
    have hrest := ih (fun c hc => hbs c (List.mem_cons_of_mem _ hc)) hlonger
    rw [tokensFrom,hb,if_neg Bool.false_ne_true,hrest,List.append_assoc,List.singleton_append]

/-- A byte that is no separator behind a text makes its last piece longer. -/
theorem tokensFrom_snoc {isSeparator : Byte → Bool} {b : Byte} (hb : isSeparator b=false)
    (current bs : Bytes) : ∃ front last,
      tokensFrom isSeparator current (bs++[b])=front++[last++[b]] ∧
        tokensFrom isSeparator current bs=front++(if last=[] then [] else [last]) := by
  induction bs generalizing current with
  | nil =>
    have hall : ∀ c∈[b],isSeparator c=false := by
      intro c hc
      rw [List.mem_singleton.mp hc]
      exact hb
    have hne : current++[b]≠[] := by
      intro h
      exact List.cons_ne_nil b [] (List.append_eq_nil_iff.mp h).2
    exact ⟨[],current,tokensFrom_whole hall hne,rfl⟩
  | cons c bs ih =>
    rw [List.cons_append,tokensFrom,tokensFrom]
    by_cases hc : isSeparator c
    · have hrest := ih []
      rcases hrest with ⟨front,last,hlong,hshort⟩
      rw [if_pos hc,if_pos hc,hlong,hshort]
      by_cases hcurrent : current=[]
      · rw [if_pos hcurrent,if_pos hcurrent]
        exact ⟨front,last,rfl,rfl⟩
      · rw [if_neg hcurrent,if_neg hcurrent]
        exact ⟨current::front,last,rfl,rfl⟩
    · rw [if_neg hc,if_neg hc]
      exact ih (current++[c])

/-- White space of `isspace` in the C locale. -/
def isSpace (b : Byte) : Bool := b=32 || 9 ≤ b && b ≤ 13

/-- A decimal digit. -/
def isDigit (b : Byte) : Bool := 48 ≤ b && b ≤ 57

/-- The digit run at the front of a position, after the value read so far. -/
def digitsValue (acc : ℕ) : Bytes → ℕ
  | [] => acc
  | b::bs => if isDigit b then digitsValue (acc*10+(b.toNat-48)) bs else acc

/-- Conversion of a mathematical integer to `int`. -/
def toInt32 (z : ℤ) : ℤ := z.bmod (2^32)

/-- `atoi` as `(int)strtol(s, NULL, 10)`: skip white space, read a sign and a
digit run, saturate at the range of `long`, convert to `int`. -/
def atoi (memory : Bytes) : ℤ :=
  match memory.dropWhile isSpace with
  | b::bs =>
    if b=45 then toInt32 (-(min (digitsValue 0 bs) (2^63) : ℕ))
    else if b=43 then toInt32 (min (digitsValue 0 bs) (2^63-1) : ℕ)
    else toInt32 (min (digitsValue 0 (b::bs)) (2^63-1) : ℕ)
  | [] => 0

/-- A digit run ends at a byte that is no digit. -/
theorem digitsValue_stop {b : Byte} (hb : isDigit b=false) (acc : ℕ) (bs rest : Bytes) :
    digitsValue acc (bs++b::rest)=digitsValue acc bs := by
  induction bs generalizing acc with
  | nil =>
    rw [List.nil_append,digitsValue,digitsValue,hb]
    rfl
  | cons c bs ih => rw [List.cons_append,digitsValue,digitsValue,ih]

/-- `atoi` reads no further than a byte that is no white space, no sign and no digit. -/
theorem atoi_stop {b : Byte} (hspace : isSpace b=false) (hdigit : isDigit b=false)
    (hsign : b≠45 ∧ b≠43) (bs rest : Bytes) : atoi (bs++b::rest)=atoi bs := by
  have hskip : (b::rest).dropWhile isSpace=b::rest := by
    rw [List.dropWhile_cons,hspace]
    rfl
  unfold atoi
  rw [List.dropWhile_append,hskip]
  cases bs.dropWhile isSpace with
  | nil =>
    have hzero : digitsValue 0 (b::rest)=0 := digitsValue_stop hdigit 0 [] rest
    have hnone : toInt32 (min 0 (2^63-1) : ℕ)=0 := by decide
    simp only [List.isEmpty_nil,if_true]
    rw [if_neg hsign.1,if_neg hsign.2,hzero,hnone]
  | cons c rs =>
    have hfirst := digitsValue_stop hdigit 0 (c::rs) rest
    rw [List.cons_append] at hfirst
    simp only [List.isEmpty_cons,Bool.false_eq_true,if_false,List.cons_append]
    rw [hfirst,digitsValue_stop hdigit]

/-- `%zu` and `%llu`: the decimal digits without leading zeros. -/
def decimal (n : ℕ) : Bytes :=
  if n=0 then [48] else (Nat.digits 10 n).reverse.map (fun d => UInt8.ofNat (48+d))

/-- `%d`: a minus sign for negative values, then the decimal digits. -/
def decimalInt (z : ℤ) : Bytes := if z<0 then 45::decimal z.natAbs else decimal z.natAbs

/-- Every byte of a decimal number is a digit. -/
theorem isDigit_of_mem_decimal {n : ℕ} {b : Byte} (hb : b∈decimal n) : isDigit b=true := by
  unfold decimal at hb
  split at hb
  · rw [List.mem_singleton.mp hb]
    decide
  · obtain ⟨d,hd,rfl⟩ := List.mem_map.mp hb
    have hlt := Nat.digits_lt_base (by decide : 1<10) (List.mem_reverse.mp hd)
    interval_cases d <;> decide

/-- A decimal number has at least one digit. -/
theorem decimal_ne_nil (n : ℕ) : decimal n≠[] := by
  unfold decimal
  split
  · exact List.cons_ne_nil _ _
  · rename_i hn
    simpa only [ne_eq,List.map_eq_nil_iff,List.reverse_eq_nil_iff] using
      Nat.digits_ne_nil_iff_ne_zero.mpr hn

/-- Reading a digit run that a non-digit ends accumulates its digits. -/
theorem digitsValue_append (ds : List ℕ) (hds : ∀ d∈ds,d<10) (acc : ℕ) {rest : Bytes}
    (hrest : ∀ b∈rest.head?,isDigit b=false) :
    digitsValue acc (ds.map (fun d => UInt8.ofNat (48+d))++rest)=
      ds.foldl (fun v d => v*10+d) acc := by
  induction ds generalizing acc with
  | nil =>
    cases rest with
    | nil => rfl
    | cons b bs =>
      have hb := hrest b (by simp only [List.head?_cons,Option.mem_def])
      simp only [List.map_nil,List.nil_append,digitsValue,hb,Bool.false_eq_true,if_false,List.foldl_nil]
  | cons d ds ih =>
    have hd := hds d List.mem_cons_self
    have hdigit : isDigit (UInt8.ofNat (48+d))=true ∧ (UInt8.ofNat (48+d)).toNat-48=d := by
      interval_cases d <;> decide
    rw [List.map_cons,List.cons_append,digitsValue,if_pos hdigit.1,hdigit.2,List.foldl_cons]
    exact ih (fun e he => hds e (List.mem_cons_of_mem _ he)) _

/-- Reading back a printed number gives the number. -/
theorem digitsValue_decimal (n : ℕ) {rest : Bytes} (hrest : ∀ b∈rest.head?,isDigit b=false) :
    digitsValue 0 (decimal n++rest)=n := by
  unfold decimal
  split
  · rename_i hn
    subst hn
    exact digitsValue_append [0] (by simp) 0 hrest
  · rw [digitsValue_append _ ?_ 0 hrest,List.foldl_reverse]
    · have h := Nat.ofDigits_digits 10 n
      rw [Nat.ofDigits_eq_foldr] at h
      simpa only [Nat.cast_id,Nat.mul_comm,Nat.add_comm] using h
    · intro d hd
      exact Nat.digits_lt_base (by decide) (List.mem_reverse.mp hd)

/-- Reading a printed number at the end of a text gives the number. -/
theorem digitsValue_decimal_self (n : ℕ) : digitsValue 0 (decimal n)=n := by
  have h : digitsValue 0 (decimal n++[])=n := digitsValue_decimal n (fun b hb => by cases hb)
  rwa [List.append_nil] at h

/-- A number below a power of ten has at most that many digits. -/
theorem length_decimal_le {n k : ℕ} (hk : 0<k) (hn : n<10^k) : (decimal n).length ≤ k := by
  unfold decimal
  split
  · exact hk
  · rw [List.length_map,List.length_reverse]
    exact (Nat.digits_length_le_iff (by decide) n).mpr hn

/-- A decimal number starts with a digit. -/
theorem decimal_cons (n : ℕ) : ∃ b tail,decimal n=b::tail ∧ isDigit b=true := by
  cases hdecimal : decimal n with
  | nil => exact absurd hdecimal (decimal_ne_nil n)
  | cons b tail =>
    have hmem : b∈decimal n := by
      rw [hdecimal]
      exact List.mem_cons_self
    exact ⟨b,tail,rfl,isDigit_of_mem_decimal hmem⟩

/-- A digit is neither a line end nor NUL nor white space nor a sign. -/
theorem digit_bounds {b : Byte} (h : isDigit b=true) :
    b≠0 ∧ b≠13 ∧ isSpace b=false ∧ b≠45 ∧ b≠43 := by
  unfold isDigit at h
  simp only [Bool.and_eq_true,decide_eq_true_eq] at h
  have hlow := UInt8.le_iff_toNat_le.mp h.1
  have hhigh := UInt8.le_iff_toNat_le.mp h.2
  change 48 ≤ b.toNat at hlow
  change b.toNat ≤ 57 at hhigh
  have hne : ∀ c : Byte,c.toNat<48 → b≠c := by
    intro c hc heq
    rw [heq] at hlow
    omega
  refine ⟨hne 0 (by decide),hne 13 (by decide),?_,hne 45 (by decide),hne 43 (by decide)⟩
  unfold isSpace
  rw [Bool.or_eq_false_iff,Bool.and_eq_false_iff]
  refine ⟨decide_eq_false (hne 32 (by decide)),Or.inr (decide_eq_false ?_)⟩
  intro hle
  have hle' := UInt8.le_iff_toNat_le.mp hle
  change b.toNat ≤ 13 at hle'
  omega

/-- `atoi` of a printed number with a byte behind it that is no digit. -/
theorem atoi_decimal {n : ℕ} (hn : n<2^31) {rest : Bytes} (hrest : ∀ b∈rest.head?,isDigit b=false) :
    atoi (decimal n++rest)=n := by
  have hvalue := digitsValue_decimal n hrest
  have hcons := decimal_cons n
  rcases hcons with ⟨b,tail,hdecimal,hdigit⟩
  have hb := digit_bounds hdigit
  rw [hdecimal,List.cons_append] at hvalue ⊢
  unfold atoi
  rw [List.dropWhile_cons,hb.2.2.1]
  simp only [Bool.false_eq_true,if_false]
  rw [if_neg hb.2.2.2.1,if_neg hb.2.2.2.2,hvalue]
  have hmin : min n (2^63-1)=n := by omega
  rw [hmin,toInt32]
  exact Int.bmod_eq_of_le (by omega) (by omega)

/-- The first CR LF behind bytes that contain neither CR LF nor NUL. -/
theorem strstr_unbroken {line : Bytes} (hzero : (0 : Byte)∉line) (hline : ¬crlf<:+:line)
    (rest : Bytes) : strstr (line++crlf++rest) crlf=some line.length := by
  have hvisible : (0 : Byte)∉line++crlf := by
    intro h
    rcases List.mem_append.mp h with h|h
    · exact hzero h
    · exact absurd h (by decide)
  rw [strstr,cstr_append hvisible]
  refine findSub_eq_some ?_ ?_
  · rw [List.append_assoc,List.drop_left]
    exact List.prefix_append _ _
  · intro j hj hocc
    rw [List.append_assoc,List.drop_append_of_le_length (by omega)] at hocc
    have hlength : (line.drop j).length=line.length-j := List.length_drop
    match hdrop : line.drop j with
    | [] =>
      rw [hdrop,List.length_nil] at hlength
      omega
    | [b] =>
      rw [hdrop] at hocc
      have hsecond := (List.cons_prefix_cons.mp (List.cons_prefix_cons.mp hocc).2).1
      exact absurd hsecond (by decide)
    | b::c::more =>
      rw [hdrop] at hocc
      have hfirst := List.cons_prefix_cons.mp hocc
      have hsecond := List.cons_prefix_cons.mp hfirst.2
      refine hline ⟨line.take j,more,?_⟩
      have hsplit := List.take_append_drop j line
      rw [hdrop,←hfirst.1,←hsecond.1] at hsplit
      rw [List.append_assoc]
      exact hsplit

/-- The first CR LF behind bytes without CR and NUL. -/
theorem strstr_crlf {line : Bytes} (hline : ∀ b∈line,b≠0 ∧ b≠13) (rest : Bytes) :
    strstr (line++crlf++rest) crlf=some line.length := by
  refine strstr_unbroken (fun hmem => (hline 0 hmem).1 rfl) ?_ rest
  intro hocc
  exact (hline 13 (hocc.subset List.mem_cons_self)).2 rfl

/-- Texts joined by a byte: the byte stands in front of each text but the first. -/
theorem intercalate_cons (separator : Byte) (s : Bytes) (texts : List Bytes) :
    List.intercalate [separator] (s::texts)=s++texts.flatMap (fun t => separator::t) := by
  induction texts generalizing s with
  | nil => rw [List.intercalate_singleton,List.flatMap_nil,List.append_nil]
  | cons t texts ih => rw [List.intercalate_cons_cons,ih,List.flatMap_cons,List.append_assoc]; rfl

end HoneyDew.CText
