import HoneyDew.MailServices
import HoneyDew.QuotedText

/-!
# The arguments of the IMAP LOGIN command

A user name and a password come as atoms or as quoted strings. The parser takes
a quoted string to end at the next quote and leaves the escape symbols in it.
-/

namespace HoneyDew.ImapArguments

open CText MailServices QuotedText

/-- The characters that do not stand in an IMAP atom: parentheses, brace, blank,
list wildcards, quote, backslash, closing bracket, controls. -/
def isSpecial (c : Byte) : Bool :=
  c∈[40,41,123,32,37,42,34,92,93] || c<32 || c=127

/-- An argument as a quoted string. -/
def quoted (a : Bytes) : Bytes := 34::(escape 34 92 a++[34])

/-- How a client may send an argument. -/
inductive Encodes (a : Bytes) : Bytes → Prop
  /-- An argument without special characters as an atom. -/
  | atom (h : ∀ c∈a,isSpecial c=false) : Encodes a a
  /-- Any argument as a quoted string. -/
  | string : Encodes a (quoted a)

/-- An argument that is sent as a quoted string has nothing in it to escape, or
only backslashes at its end, which the array of 256 bytes cuts off again. -/
def ReadBack (a enc : Bytes) : Prop :=
  enc=quoted a → (34 : Byte)∉a ∧ ((92 : Byte)∉a ∨ a.length=255 ∧ EndsEscaping 92 a)

/-- An atom does not start with a quote. -/
theorem head_atom {a : Bytes} (h : ∀ c∈a,isSpecial c=false) (rest : Bytes) :
    (a++32::rest).head?≠some 34 ∧ a.head?≠some 34 := by
  cases a with
  | nil => simp
  | cons c a =>
    have hc := h c List.mem_cons_self
    have hne : c≠34 := by
      intro heq
      rw [heq] at hc
      exact absurd hc (by decide)
    simp [hne]

/-- An atom is not a quoted string. -/
theorem ne_quoted (a : Bytes) : a≠quoted a := by
  intro h
  have hlength := congrArg List.length h
  have hlong := length_le_escape 34 92 a
  rw [quoted,List.length_cons,List.length_append] at hlength
  omega

/-- Cut at the first occurrence of a byte. -/
theorem splitAtByte_append {b : Byte} {front : Bytes} (h : b∉front) (rest : Bytes) :
    splitAtByte b (front++b::rest)=some (front,rest) := by
  have hclean : ∀ c∈front,decide (c≠b)=true := by
    intro c hc
    rw [decide_eq_true_eq]
    intro heq
    rw [heq] at hc
    exact h hc
  rw [splitAtByte,if_pos (List.mem_append_right _ List.mem_cons_self),
    List.takeWhile_append_of_pos hclean,List.dropWhile_append_of_pos hclean,
    List.takeWhile_cons_of_neg (by simp),List.dropWhile_cons_of_neg (by simp),List.append_nil]
  rfl

/-! ## The two halves of the parser -/

/-- The user name and what the pointer to the password points to. -/
def nameAndPassword (args : Bytes) : Option (Bytes×Bytes) :=
  if args.head?=some 34 then
    (splitAtByte 34 (args.drop 1)).map (fun parts => (parts.1,parts.2.dropWhile (fun c => c=32)))
  else splitAtByte 32 args

/-- The password behind its pointer. -/
def passwordAt (pwStart : Bytes) : Bytes :=
  if pwStart.head?=some 34 then
    match splitAtByte 34 (pwStart.drop 1) with
    | none => []
    | some (password,_) => password.take 255
  else pwStart.take 255

/-- The parser is one half behind the other. -/
theorem imapParseLoginArgs_of_name {args username pwStart : Bytes}
    (h : nameAndPassword args=some (username,pwStart)) :
    imapParseLoginArgs args=(username.take 255,passwordAt pwStart) := by
  unfold nameAndPassword at h
  rw [imapParseLoginArgs,h]
  rfl

/-- The user name is read back under its condition, and then the pointer to the
password points behind the blanks. -/
theorem nameAndPassword_encoded {u eu : Bytes} (henc : Encodes u eu) (hlength : u.length≤255)
    (rest : Bytes) (hrest : rest.dropWhile (fun c => c=32)=rest) :
    ∃ username pwStart,nameAndPassword (eu++32::rest)=some (username,pwStart) ∧
      (username.take 255=u ↔ ReadBack u eu) ∧ (ReadBack u eu → pwStart=rest) := by
  cases henc with
  | atom h =>
    have hblank : (32 : Byte)∉u := fun hmem => absurd (h 32 hmem) (by decide)
    have hback : ReadBack u u := fun heq => absurd heq (ne_quoted u)
    refine ⟨u,rest,?_,?_,fun _ => rfl⟩
    · rw [nameAndPassword,if_neg (head_atom h rest).1,splitAtByte_append hblank]
    · rw [List.take_of_length_le hlength]
      exact ⟨fun _ => hback,fun _ => rfl⟩
  | string =>
    obtain ⟨kept,back,hcut,hkept,hiff,hback⟩ :=
      escape_cut (by decide : (34 : Byte)≠92) 255 hlength (32::rest)
    have hdrop : (quoted u++32::rest).drop 1=kept++34::back := by
      rw [quoted,List.cons_append,List.drop_succ_cons,List.drop_zero,List.append_assoc]
      exact hcut
    refine ⟨kept,back.dropWhile (fun c => c=32),?_,?_,?_⟩
    · rw [nameAndPassword,if_pos (by rfl),hdrop,splitAtByte_append hkept]
      rfl
    · rw [hiff]
      exact ⟨fun h _ => h,fun h => h rfl⟩
    · intro h
      rw [hback (h rfl).1,List.dropWhile_cons_of_pos (by decide),hrest]

/-- The password is read back under the same condition. -/
theorem passwordAt_encoded {p ep : Bytes} (henc : Encodes p ep) (hlength : p.length≤255) :
    passwordAt ep=p ↔ ReadBack p ep := by
  cases henc with
  | atom h =>
    rw [passwordAt,if_neg (head_atom h []).2,List.take_of_length_le hlength]
    exact ⟨fun _ heq => absurd heq (ne_quoted p),fun _ => rfl⟩
  | string =>
    obtain ⟨kept,back,hcut,hkept,hiff,_⟩ := escape_cut (by decide : (34 : Byte)≠92) 255 hlength []
    have hdrop : (quoted p).drop 1=kept++34::back := by
      rw [quoted,List.drop_succ_cons,List.drop_zero]
      exact hcut
    have hread : passwordAt (quoted p)=kept.take 255 := by
      rw [passwordAt,if_pos (by rfl),hdrop,splitAtByte_append hkept]
    rw [hread,hiff]
    exact ⟨fun h _ => h,fun h => h rfl⟩

/-- No encoding starts with a blank. -/
theorem dropWhile_encoded {p ep : Bytes} (henc : Encodes p ep) :
    ep.dropWhile (fun c => c=32)=ep := by
  cases henc with
  | string => rfl
  | atom h =>
    cases p with
    | nil => rfl
    | cons c p =>
      have hc := h c List.mem_cons_self
      rw [List.dropWhile_cons_of_neg]
      intro hblank
      rw [of_decide_eq_true hblank] at hc
      exact absurd hc (by decide)

/-- Two encoded arguments with a blank between them are read back exactly when
each of them can be. -/
theorem imapParseLoginArgs_encoded_iff {u p eu ep : Bytes} (hu : Encodes u eu) (hp : Encodes p ep)
    (hulength : u.length≤255) (hplength : p.length≤255) :
    imapParseLoginArgs (eu++32::ep)=(u,p) ↔ ReadBack u eu ∧ ReadBack p ep := by
  obtain ⟨username,pwStart,hname,huser,hpointer⟩ :=
    nameAndPassword_encoded hu hulength ep (dropWhile_encoded hp)
  rw [imapParseLoginArgs_of_name hname,Prod.mk.injEq,huser]
  constructor
  · intro h
    have hpass := h.2
    rw [hpointer h.1] at hpass
    exact ⟨h.1,(passwordAt_encoded hp hplength).mp hpass⟩
  · intro h
    rw [hpointer h.1]
    exact ⟨h.1,(passwordAt_encoded hp hplength).mpr h.2⟩

/-- A user name sent as an atom and a password with a blank in quotes. -/
theorem imapParseLoginArgs_encoded_anna :
    imapParseLoginArgs (text "anna"++32::quoted (text "to be"))=(text "anna",text "to be") ↔
      ReadBack (text "anna") (text "anna") ∧ ReadBack (text "to be") (quoted (text "to be")) :=
  imapParseLoginArgs_encoded_iff (.atom (List.forall_iff_forall_mem.mp (by decide))) .string
    (by decide) (by decide)

/-- A quote in a password ends it too early. -/
theorem not_imapParseLoginArgs_encoded :
    ¬∀ u p eu ep : Bytes,Encodes u eu → Encodes p ep → u.length≤255 → p.length≤255 →
      (∀ c∈u++p,c≠13 ∧ c≠10 ∧ c≠0) → imapParseLoginArgs (eu++32::ep)=(u,p) := by
  intro hall
  have hquote := hall [] [34] (quoted []) (quoted [34]) .string .string (by decide) (by decide)
    (List.forall_iff_forall_mem.mp (by decide))
  exact absurd hquote (by decide)

end HoneyDew.ImapArguments
