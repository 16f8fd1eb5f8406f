import Mathlib.Data.List.Basic

/-!
# The text between the quotes of a JSON string

Plain characters stand for themselves, the others are written as escapes of one
letter or of four hexadecimal digits. Reading a text gives its code units; only
texts of ASCII characters are read here.
-/

namespace HoneyDew.JsonString

/-- The characters that stand for themselves. -/
def Plain (b : UInt8) : Prop := 32≤b ∧ b<128 ∧ b≠34 ∧ b≠92

instance (b : UInt8) : Decidable (Plain b) :=
  inferInstanceAs (Decidable (32≤b ∧ b<128 ∧ b≠34 ∧ b≠92))

/-- The characters with a letter of their own, and their letters. -/
def shortEscapes : List (UInt8×UInt8) := [(34,34),(92,92),(8,98),(12,102),(10,110),(13,114),(9,116)]

/-- The code unit that a letter behind a backslash stands for; the solidus may stand
there as well. -/
def shortEscape (letter : UInt8) : Option ℕ :=
  if letter=47 then some 47
  else (shortEscapes.find? (fun entry => entry.2=letter)).map (fun entry => entry.1.toNat)

/-- The value of a hexadecimal digit. -/
def hexValue (digit : UInt8) : Option ℕ :=
  if 48≤digit ∧ digit≤57 then some (digit.toNat-48)
  else if 97≤digit ∧ digit≤102 then some (digit.toNat-87)
  else if 65≤digit ∧ digit≤70 then some (digit.toNat-55)
  else none

/-- The code unit of four hexadecimal digits. -/
def codeUnit (w x y z : UInt8) : Option ℕ :=
  match hexValue w,hexValue x,hexValue y,hexValue z with
  | some a,some b,some c,some d => some (((a*16+b)*16+c)*16+d)
  | _,_,_,_ => none

/-- The texts that may stand between the quotes. -/
inductive StringBody : List UInt8 → Prop
  /-- Nothing. -/
  | nil : StringBody []
  /-- A character that stands for itself. -/
  | plain {b : UInt8} {rest : List UInt8} : Plain b → StringBody rest → StringBody (b::rest)
  /-- An escape of one letter. -/
  | short {letter : UInt8} {rest : List UInt8} : (shortEscape letter).isSome → StringBody rest →
      StringBody (92::letter::rest)
  /-- An escape of four digits. -/
  | unicode {w x y z : UInt8} {rest : List UInt8} : (codeUnit w x y z).isSome → StringBody rest →
      StringBody (92::117::w::x::y::z::rest)

/-- The code units of a text, if it may stand between the quotes. -/
def unescape : List UInt8 → Option (List ℕ)
  | [] => some []
  | [b] => if Plain b then some [b.toNat] else none
  | b::letter::rest =>
    if b=92 then
      if letter=117 then
        match rest with
        | w::x::y::z::rest' => (codeUnit w x y z).bind (fun u => (unescape rest').map (u::·))
        | _ => none
      else (shortEscape letter).bind (fun u => (unescape rest).map (u::·))
    else if Plain b then (unescape (letter::rest)).map (b.toNat::·) else none

/-! ## Reading -/

/-- A plain character is its own code unit. -/
theorem unescape_plain {b : UInt8} (hb : Plain b) (rest : List UInt8) :
    unescape (b::rest)=(unescape rest).map (b.toNat::·) := by
  rw [unescape.eq_def]
  cases rest with
  | nil => exact if_pos hb
  | cons letter rest =>
    dsimp only
    rw [if_neg hb.2.2.2,if_pos hb]

/-- A character that is neither plain nor a backslash is not read. -/
theorem unescape_bad {b : UInt8} (hb : ¬Plain b) (hescape : b≠92) (rest : List UInt8) :
    unescape (b::rest)=none := by
  rw [unescape.eq_def]
  cases rest with
  | nil => exact if_neg hb
  | cons letter rest =>
    dsimp only
    rw [if_neg hescape,if_neg hb]

/-- The letter in front of four digits is no escape of its own. -/
theorem shortEscape_ne {letter : UInt8} {u : ℕ} (h : shortEscape letter=some u) : letter≠117 := by
  rintro rfl
  cases h

/-- A letter is read with its backslash. -/
theorem unescape_short {letter : UInt8} {u : ℕ} (h : shortEscape letter=some u)
    (rest : List UInt8) : unescape (92::letter::rest)=(unescape rest).map (u::·) := by
  rw [unescape.eq_def]
  dsimp only
  rw [if_pos rfl,if_neg (shortEscape_ne h),h]
  rfl

/-- Four digits are read with their backslash. -/
theorem unescape_unicode {w x y z : UInt8} {u : ℕ} (h : codeUnit w x y z=some u)
    (rest : List UInt8) :
    unescape (92::117::w::x::y::z::rest)=(unescape rest).map (u::·) := by
  rw [unescape,if_pos rfl,if_pos rfl,h]
  rfl

/-- What is read may stand between the quotes. -/
theorem stringBody_of_unescape {bs : List UInt8} {units : List ℕ} (h : unescape bs=some units) :
    StringBody bs := by
  induction bs using unescape.induct generalizing units with
  | case1 => exact .nil
  | case2 b hb => exact .plain hb .nil
  | case3 b hb =>
    rw [unescape.eq_def] at h
    dsimp only at h
    rw [if_neg hb] at h
    cases h
  | case4 w x y z rest ih =>
    rw [unescape,if_pos rfl,if_pos rfl] at h
    obtain ⟨u,hu,hrest⟩ := Option.bind_eq_some_iff.mp h
    obtain ⟨units',hunits,_⟩ := Option.map_eq_some_iff.mp hrest
    exact .unicode (Option.isSome_of_eq_some hu) (ih hunits)
  | case5 rest hrest =>
    rw [unescape.eq_def] at h
    dsimp only at h
    rw [if_pos rfl,if_pos rfl] at h
    split at h
    · exact absurd rfl (hrest _ _ _ _ _)
    · cases h
  | case6 letter rest hletter ih =>
    rw [unescape.eq_def] at h
    dsimp only at h
    rw [if_pos rfl,if_neg hletter] at h
    obtain ⟨u,hu,hrest⟩ := Option.bind_eq_some_iff.mp h
    obtain ⟨units',hunits,_⟩ := Option.map_eq_some_iff.mp hrest
    exact .short (Option.isSome_of_eq_some hu) (ih hunits)
  | case7 b letter rest hb hplain ih =>
    rw [unescape_plain hplain] at h
    obtain ⟨units',hunits,_⟩ := Option.map_eq_some_iff.mp h
    exact .plain hplain (ih hunits)
  | case8 b letter rest hb hplain =>
    rw [unescape_bad hplain hb] at h
    cases h

/-- What may stand between the quotes is read. -/
theorem unescape_of_stringBody {bs : List UInt8} (h : StringBody bs) : (unescape bs).isSome := by
  induction h with
  | nil => rfl
  | plain hb _ ih => rwa [unescape_plain hb,Option.isSome_map]
  | short hletter _ ih =>
    obtain ⟨u,hu⟩ := Option.isSome_iff_exists.mp hletter
    rwa [unescape_short hu,Option.isSome_map]
  | unicode hdigits _ ih =>
    obtain ⟨u,hu⟩ := Option.isSome_iff_exists.mp hdigits
    rwa [unescape_unicode hu,Option.isSome_map]

/-! ## Writing -/

/-- The letter that stands for a character behind a backslash. -/
def shortLetter (b : UInt8) : Option UInt8 :=
  (shortEscapes.find? (fun entry => entry.1=b)).map Prod.snd

/-- The symbol of a hexadecimal digit. -/
def hexDigit (n : ℕ) : UInt8 := if n<10 then UInt8.ofNat (48+n) else UInt8.ofNat (87+n)

/-- A character as it stands between the quotes, in the shortest way. -/
def escapeByte (b : UInt8) : List UInt8 :=
  match shortLetter b with
  | some letter => [92,letter]
  | none => if b<32 then [92,117,48,48,hexDigit (b.toNat/16),hexDigit (b.toNat%16)] else [b]

/-- A text as it stands between the quotes. -/
def escape (bs : List UInt8) : List UInt8 := bs.flatMap escapeByte

/-- A letter is read as the character it was written for. -/
theorem shortEscape_of_shortLetter {b letter : UInt8} (h : shortLetter b=some letter) :
    shortEscape letter=some b.toNat := by
  have hall : ∀ entry∈shortEscapes,shortEscape entry.2=some entry.1.toNat :=
    List.forall_iff_forall_mem.mp (by decide)
  obtain ⟨entry,hfind,hletter⟩ := Option.map_eq_some_iff.mp h
  have hentry := hall entry (List.mem_of_find?_eq_some hfind)
  have hb : entry.1=b := by simpa using List.find?_some hfind
  rwa [hletter,hb] at hentry

/-- A character without a letter is neither a quote nor a backslash. -/
theorem ne_of_shortLetter {b : UInt8} (h : shortLetter b=none) : b≠34 ∧ b≠92 := by
  constructor
  · rintro rfl
    cases h
  · rintro rfl
    cases h

/-- A digit is read as the number it was written for. -/
theorem hexValue_hexDigit {n : ℕ} (hn : n<16) : hexValue (hexDigit n)=some n := by
  have hall : ∀ n<16,hexValue (hexDigit n)=some n := by decide
  exact hall n hn

/-- Texts one behind the other are written one by one. -/
theorem escape_append (xs ys : List UInt8) : escape (xs++ys)=escape xs++escape ys :=
  List.flatMap_append

/-- The first character of a text is written first. -/
theorem escape_cons (b : UInt8) (bs : List UInt8) : escape (b::bs)=escapeByte b++escape bs :=
  List.flatMap_cons

/-- A character is read as it was written. -/
theorem unescape_escapeByte {b : UInt8} (hb : b<128) (rest : List UInt8) :
    unescape (escapeByte b++rest)=(unescape rest).map (b.toNat::·) := by
  unfold escapeByte
  cases hletter : shortLetter b with
  | some letter => exact unescape_short (shortEscape_of_shortLetter hletter) rest
  | none =>
    have hne := ne_of_shortLetter hletter
    dsimp only
    by_cases hcontrol : b<32
    · have hsize : b.toNat<256 := b.toNat_lt
      have hdigits : codeUnit 48 48 (hexDigit (b.toNat/16)) (hexDigit (b.toNat%16))=
          some b.toNat := by
        have hzero : hexValue 48=some 0 := rfl
        have hhigh := hexValue_hexDigit (show b.toNat/16<16 by omega)
        have hlow := hexValue_hexDigit (show b.toNat%16<16 by omega)
        unfold codeUnit
        rw [hzero,hhigh,hlow]
        dsimp only
        rw [Nat.zero_mul,Nat.zero_add,Nat.div_add_mod']
      rw [if_pos hcontrol]
      exact unescape_unicode hdigits rest
    · have hplain : Plain b := ⟨UInt8.not_lt.mp hcontrol,hb,hne.1,hne.2⟩
      rw [if_neg hcontrol]
      exact unescape_plain hplain rest

/-- A text in front is read as it was written. -/
theorem unescape_escape_append {bs : List UInt8} (h : ∀ b∈bs,b<128) (rest : List UInt8) :
    unescape (escape bs++rest)=(unescape rest).map (bs.map UInt8.toNat++·) := by
  induction bs with
  | nil => exact (congrFun Option.map_id _).symm
  | cons b bs ih =>
    have hrest := ih (fun c hc => h c (List.mem_cons_of_mem _ hc))
    have hsplit : escape (b::bs)++rest=escapeByte b++(escape bs++rest) := by
      rw [escape_cons,List.append_assoc]
    rw [hsplit,unescape_escapeByte (h b List.mem_cons_self),hrest,Option.map_map]
    rfl

/-- A text is read as it was written. -/
theorem unescape_escape {bs : List UInt8} (h : ∀ b∈bs,b<128) :
    unescape (escape bs)=some (bs.map UInt8.toNat) := by
  have hread := unescape_escape_append h []
  rw [List.append_nil] at hread
  rw [hread]
  exact congrArg some (List.append_nil _)

/-- Only a plain character takes no more than one place. -/
theorem length_escapeByte (b : UInt8) :
    1≤(escapeByte b).length ∧ ((escapeByte b).length=1 → b<128 → Plain b) := by
  unfold escapeByte
  cases hletter : shortLetter b with
  | some letter => exact ⟨Nat.le_add_left 1 1,fun h => absurd h (Nat.succ_ne_self 1)⟩
  | none =>
    have hne := ne_of_shortLetter hletter
    dsimp only
    by_cases hcontrol : b<32
    · rw [if_pos hcontrol]
      exact ⟨Nat.le_add_left 1 5,fun h => absurd (Nat.succ.inj h) (Nat.succ_ne_zero 4)⟩
    · rw [if_neg hcontrol]
      exact ⟨Nat.le_refl 1,fun _ hb => ⟨UInt8.not_lt.mp hcontrol,hb,hne.1,hne.2⟩⟩

/-- No text gets shorter. -/
theorem length_le_escape (bs : List UInt8) : bs.length≤(escape bs).length := by
  induction bs with
  | nil => exact Nat.le_refl _
  | cons b bs ih =>
    have hfirst := (length_escapeByte b).1
    rw [escape_cons,List.length_append,List.length_cons]
    omega

/-- A plain character is written as it is. -/
theorem escapeByte_plain {b : UInt8} (hb : Plain b) : escapeByte b=[b] := by
  have hall : ∀ entry∈shortEscapes,¬Plain entry.1 :=
    List.forall_iff_forall_mem.mp (by decide)
  have hletter : shortLetter b=none := by
    rw [shortLetter,Option.map_eq_none_iff,List.find?_eq_none]
    intro entry hentry heq
    rw [decide_eq_true_eq] at heq
    rw [← heq] at hb
    exact hall entry hentry hb
  unfold escapeByte
  rw [hletter]
  exact if_neg (UInt8.not_lt.mpr hb.1)

end HoneyDew.JsonString
