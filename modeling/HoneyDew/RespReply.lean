import HoneyDew.CText

/-!
# The grammar of Redis replies

A reply is a status line, an error line, an integer line, a bulk string whose
announced length is the number of its bytes, the nil bulk, or an array with as
many replies as announced. Replies form a prefix code, so a byte stream splits
into replies in at most one way.
-/

namespace HoneyDew.RespReply

open CText

/-- A byte that may stand inside a line. -/
def isLineByte (b : Byte) : Bool := b≠13 && b≠10

/-- The text of one line. -/
def LineText (s : Bytes) : Prop := ∀ b∈s,isLineByte b=true

instance (s : Bytes) : Decidable (LineText s) := decidable_of_iff (s.all isLineByte=true) List.all_eq_true

/-- A nonempty run of decimal digits. -/
def Digits (ds : Bytes) : Prop := ds≠[] ∧ ∀ b∈ds,isDigit b=true

instance (ds : Bytes) : Decidable (Digits ds) :=
  decidable_of_iff (ds.isEmpty=false ∧ ds.all isDigit=true)
    (and_congr List.isEmpty_eq_false_iff List.all_eq_true)

/-- An integer text: digits after an optional minus sign. -/
def IntegerText (s : Bytes) : Prop := Digits s ∨ ∃ ds,s=45::ds ∧ Digits ds

/-- One complete reply. -/
inductive IsReply : Bytes → Prop
  | simple {s : Bytes} (hline : LineText s) : IsReply (43::(s++crlf))
  | error {s : Bytes} (hline : LineText s) : IsReply (45::(s++crlf))
  | integer {s : Bytes} (hinteger : IntegerText s) : IsReply (58::(s++crlf))
  | bulk {ds s : Bytes} (hdigits : Digits ds) (hlength : digitsValue 0 ds=s.length) :
      IsReply (36::(ds++crlf++(s++crlf)))
  | nil : IsReply (36::([45,49]++crlf))
  | array {ds : Bytes} {items : List Bytes} (hdigits : Digits ds)
      (hlength : digitsValue 0 ds=items.length) (hitems : ∀ item∈items,IsReply item) :
      IsReply (42::(ds++crlf++items.flatten))

/-- Split off one line and its CR LF. -/
def takeLine (bs : Bytes) : Option (Bytes×Bytes) :=
  let after := bs.dropWhile isLineByte
  if after.take 2=crlf then some (bs.takeWhile isLineByte,after.drop 2) else none

/-- Split off bulk bytes of the announced length and their CR LF. -/
def takeBulk (n : ℕ) (bs : Bytes) : Option Bytes :=
  if (bs.drop n).take 2=crlf then some (bs.drop (n+2)) else none

/-- Split off a number of items one after the other. -/
def takeItems (take : Bytes → Option Bytes) : ℕ → Bytes → Option Bytes
  | 0,bs => some bs
  | k+1,bs => (take bs).bind (takeItems take k)

/-- Whether a text is an integer text. -/
def isIntegerText (s : Bytes) : Bool :=
  decide (Digits s) || match s with
    | 45::ds => decide (Digits ds)
    | _ => false

/-- Split off one reply; the fuel bounds the nesting of arrays. -/
def takeReply : ℕ → Bytes → Option Bytes
  | 0,_ => none
  | _+1,[] => none
  | fuel+1,b::bs => (takeLine bs).bind (fun line =>
    if b=43 ∨ b=45 then some line.2
    else if b=58 then (if isIntegerText line.1 then some line.2 else none)
    else if b=36 then
      if line.1=[45,49] then some line.2
      else if Digits line.1 then takeBulk (digitsValue 0 line.1) line.2 else none
    else if b=42 then
      if Digits line.1 then takeItems (takeReply fuel) (digitsValue 0 line.1) line.2 else none
    else none)

/-- A line is split off at its CR LF. -/
theorem takeLine_append {s : Bytes} (h : LineText s) (rest : Bytes) :
    takeLine (s++crlf++rest)=some (s,rest) := by
  have hdrop : (s++crlf++rest).dropWhile isLineByte=13::10::rest := by
    rw [List.append_assoc,List.dropWhile_append_of_pos h]
    rfl
  have htake : (s++crlf++rest).takeWhile isLineByte=s := by
    rw [List.append_assoc,List.takeWhile_append_of_pos h]
    exact List.append_nil s
  rw [takeLine,hdrop,htake]
  rfl

/-- A digit may stand inside a line. -/
theorem isLineByte_of_isDigit {b : Byte} (h : isDigit b=true) : isLineByte b=true := by
  unfold isDigit at h
  unfold isLineByte
  simp only [Bool.and_eq_true,decide_eq_true_eq] at h ⊢
  constructor <;> rintro rfl <;> exact absurd h (by decide)

/-- Digits are the text of a line. -/
theorem lineText_of_digits {ds : Bytes} (h : Digits ds) : LineText ds :=
  fun b hb => isLineByte_of_isDigit (h.2 b hb)

/-- An integer text is the text of a line. -/
theorem lineText_of_integerText {s : Bytes} (h : IntegerText s) : LineText s := by
  rcases h with h|⟨ds,rfl,h⟩
  · exact lineText_of_digits h
  · intro b hb
    rcases List.mem_cons.mp hb with hb|hb
    · rw [hb]
      decide
    · exact lineText_of_digits h b hb

/-- Integer texts are recognized. -/
theorem isIntegerText_of_integerText {s : Bytes} (h : IntegerText s) : isIntegerText s=true := by
  unfold isIntegerText
  rcases h with h|⟨ds,rfl,h⟩
  · rw [decide_eq_true h,Bool.true_or]
  · rw [Bool.or_eq_true]
    exact Or.inr (decide_eq_true h)

/-- A minus sign is not a digit, so the nil length is not a digit run. -/
theorem digits_ne_nil_length {ds : Bytes} (h : Digits ds) : ds≠[45,49] := by
  rintro rfl
  exact absurd (h.2 45 List.mem_cons_self) (by decide)

/-- A bulk of the announced length is split off. -/
theorem takeBulk_append (s rest : Bytes) : takeBulk s.length (s++crlf++rest)=some rest := by
  unfold takeBulk
  rw [List.append_assoc,List.drop_left,List.drop_append,List.drop_eq_nil_of_le (by omega),
    List.nil_append,Nat.add_sub_cancel_left]
  rfl

/-- Items that are split off one by one are split off together. -/
theorem takeItems_flatten {take : Bytes → Option Bytes} {items : List Bytes}
    (h : ∀ item∈items,∀ rest,take (item++rest)=some rest) (rest : Bytes) :
    takeItems take items.length (items.flatten++rest)=some rest := by
  induction items with
  | nil => rfl
  | cons item items ih =>
    have hitem := h item List.mem_cons_self (items.flatten++rest)
    have hitems := ih (fun i hi => h i (List.mem_cons_of_mem _ hi))
    rw [List.length_cons,List.flatten_cons,List.append_assoc,takeItems,hitem,Option.bind_some]
    exact hitems

/-- An item is no longer than the items together. -/
theorem length_le_flatten {items : List Bytes} {item : Bytes} (h : item∈items) :
    item.length ≤ items.flatten.length := by
  have hsub := List.sublist_flatten_of_mem h
  exact hsub.length_le

/-- A reply in front of any bytes is split off. -/
theorem takeReply_append {a : Bytes} (h : IsReply a) (rest : Bytes) {fuel : ℕ}
    (hfuel : a.length ≤ fuel) : takeReply fuel (a++rest)=some rest := by
  induction h generalizing rest fuel with
  | @simple s hline =>
    obtain ⟨fuel,rfl⟩ := Nat.exists_eq_add_of_lt (Nat.lt_of_lt_of_le (Nat.succ_pos _) hfuel)
    rw [Nat.zero_add,List.cons_append,takeReply,takeLine_append hline]
    rfl
  | @error s hline =>
    obtain ⟨fuel,rfl⟩ := Nat.exists_eq_add_of_lt (Nat.lt_of_lt_of_le (Nat.succ_pos _) hfuel)
    rw [Nat.zero_add,List.cons_append,takeReply,takeLine_append hline]
    rfl
  | @integer s hinteger =>
    have hline := lineText_of_integerText hinteger
    have htext := isIntegerText_of_integerText hinteger
    obtain ⟨fuel,rfl⟩ := Nat.exists_eq_add_of_lt (Nat.lt_of_lt_of_le (Nat.succ_pos _) hfuel)
    rw [Nat.zero_add,List.cons_append,takeReply,takeLine_append hline,Option.bind_some]
    dsimp only
    rw [htext]
    rfl
  | @bulk ds s hdigits hlength =>
    have hline := lineText_of_digits hdigits
    have hne := digits_ne_nil_length hdigits
    have hbulk := takeBulk_append s rest
    obtain ⟨fuel,rfl⟩ := Nat.exists_eq_add_of_lt (Nat.lt_of_lt_of_le (Nat.succ_pos _) hfuel)
    rw [Nat.zero_add,List.cons_append,takeReply,List.append_assoc,takeLine_append hline,
      Option.bind_some]
    dsimp only
    rw [if_neg (by decide),if_neg (by decide),if_pos rfl,if_neg hne,if_pos hdigits,hlength]
    exact hbulk
  | nil =>
    obtain ⟨fuel,rfl⟩ := Nat.exists_eq_add_of_lt (Nat.lt_of_lt_of_le (Nat.succ_pos _) hfuel)
    rfl
  | @array ds items hdigits hlength hitems ih =>
    have hline := lineText_of_digits hdigits
    have hlong : items.flatten.length+1 ≤ (42::(ds++crlf++items.flatten)).length := by
      rw [List.length_cons,List.length_append]
      omega
    obtain ⟨fuel,rfl⟩ := Nat.exists_eq_add_of_lt (Nat.lt_of_lt_of_le (Nat.succ_pos _) hfuel)
    have hitem : ∀ item∈items,∀ rest,takeReply (0+fuel) (item++rest)=some rest := by
      intro item hmem rest
      have hle := length_le_flatten hmem
      exact ih item hmem rest (by omega)
    have htake := takeItems_flatten hitem rest
    rw [List.cons_append,takeReply,List.append_assoc,takeLine_append hline,Option.bind_some]
    dsimp only
    rw [if_neg (by decide),if_neg (by decide),if_neg (by decide),if_pos rfl,if_pos hdigits,hlength]
    exact htake

/-- A line split off is a line text with its CR LF. -/
theorem takeLine_sound {bs line rest : Bytes} (h : takeLine bs=some (line,rest)) :
    bs=line++crlf++rest ∧ LineText line := by
  unfold takeLine at h
  dsimp only at h
  split at h
  · rename_i hcrlf
    have hpair := Option.some.inj h
    have hline : bs.takeWhile isLineByte=line := congrArg Prod.fst hpair
    have hrest : (bs.dropWhile isLineByte).drop 2=rest := congrArg Prod.snd hpair
    refine ⟨?_,?_⟩
    · rw [←hline,←hrest,←hcrlf,List.append_assoc,List.take_append_drop,List.takeWhile_append_dropWhile]
    · intro b hb
      rw [←hline] at hb
      exact List.mem_takeWhile_imp hb
  · cases h

/-- A bulk split off has the announced length. -/
theorem takeBulk_sound {n : ℕ} {bs rest : Bytes} (h : takeBulk n bs=some rest) :
    ∃ s,s.length=n ∧ bs=s++crlf++rest := by
  unfold takeBulk at h
  split at h
  · rename_i hcrlf
    have hrest := Option.some.inj h
    have htwo := congrArg List.length hcrlf
    rw [List.length_take,List.length_drop,show crlf.length=2 from rfl] at htwo
    refine ⟨bs.take n,?_,?_⟩
    · rw [List.length_take]
      omega
    · rw [←hrest,←hcrlf,List.append_assoc,←List.drop_drop,List.take_append_drop,
        List.take_append_drop]
  · cases h

/-- Items split off together are items. -/
theorem takeItems_sound {take : Bytes → Option Bytes} {good : Bytes → Prop}
    (htake : ∀ {bs rest},take bs=some rest → ∃ item,good item ∧ bs=item++rest) {k : ℕ}
    {bs rest : Bytes} (h : takeItems take k bs=some rest) :
    ∃ items : List Bytes,items.length=k ∧ (∀ item∈items,good item) ∧ bs=items.flatten++rest := by
  induction k generalizing bs with
  | zero => exact ⟨[],rfl,fun _ hm => absurd hm List.not_mem_nil,Option.some.inj h⟩
  | succ k ih =>
    rw [takeItems] at h
    obtain ⟨middle,hfirst,hothers⟩ := Option.bind_eq_some_iff.mp h
    obtain ⟨item,hgood,hbs⟩ := htake hfirst
    obtain ⟨items,hlength,hitems,hmiddle⟩ := ih hothers
    refine ⟨item::items,?_,?_,?_⟩
    · rw [List.length_cons,hlength]
    · intro i hi
      rcases List.mem_cons.mp hi with hi|hi
      · rw [hi]
        exact hgood
      · exact hitems i hi
    · rw [hbs,hmiddle,List.flatten_cons,List.append_assoc]

/-- Texts recognized as integers are integer texts. -/
theorem integerText_of_isIntegerText {s : Bytes} (h : isIntegerText s=true) : IntegerText s := by
  unfold isIntegerText at h
  rcases (Bool.or_eq_true _ _).mp h with h|h
  · exact Or.inl (of_decide_eq_true h)
  · split at h
    · exact Or.inr ⟨_,rfl,of_decide_eq_true h⟩
    · cases h

/-- What is split off is a reply. -/
theorem takeReply_sound {fuel : ℕ} {a rest : Bytes} (h : takeReply fuel a=some rest) :
    ∃ reply,IsReply reply ∧ a=reply++rest := by
  induction fuel generalizing a rest with
  | zero => cases h
  | succ fuel ih =>
    cases a with
    | nil => cases h
    | cons b bs =>
      rw [takeReply] at h
      obtain ⟨⟨line,after⟩,hline,hbody⟩ := Option.bind_eq_some_iff.mp h
      clear h
      obtain ⟨hbs,htext⟩ := takeLine_sound hline
      dsimp only at hbody
      split at hbody
      · rename_i hb
        have hrest := Option.some.inj hbody
        refine ⟨b::(line++crlf),?_,?_⟩
        · rcases hb with rfl|rfl
          · exact .simple htext
          · exact .error htext
        · rw [hbs,hrest,List.cons_append]
      · split at hbody
        · rename_i hb
          subst hb
          split at hbody
          · rename_i hinteger
            have hrest := Option.some.inj hbody
            refine ⟨58::(line++crlf),.integer (integerText_of_isIntegerText hinteger),?_⟩
            rw [hbs,hrest,List.cons_append]
          · cases hbody
        · split at hbody
          · rename_i hb
            subst hb
            split at hbody
            · rename_i hnil
              have hrest := Option.some.inj hbody
              refine ⟨36::([45,49]++crlf),.nil,?_⟩
              rw [hbs,hnil,hrest]
              rfl
            · split at hbody
              · rename_i hdigits
                obtain ⟨s,hlength,hafter⟩ := takeBulk_sound hbody
                refine ⟨36::(line++crlf++(s++crlf)),.bulk hdigits hlength.symm,?_⟩
                rw [hbs,hafter,List.cons_append,List.append_assoc (line++crlf)]
              · cases hbody
          · split at hbody
            · rename_i hb
              subst hb
              split at hbody
              · rename_i hdigits
                obtain ⟨items,hlength,hitems,hafter⟩ := takeItems_sound ih hbody
                refine ⟨42::(line++crlf++items.flatten),.array hdigits hlength.symm hitems,?_⟩
                rw [hbs,hafter,List.cons_append,List.append_assoc (line++crlf)]
              · cases hbody
            · cases hbody

/-- Splitting off one reply decides whether bytes are a reply. -/
theorem isReply_iff_takeReply (a : Bytes) : IsReply a ↔ takeReply a.length a=some [] := by
  constructor
  · intro h
    have htake := takeReply_append h [] (Nat.le_refl _)
    rwa [List.append_nil] at htake
  · intro h
    obtain ⟨reply,hreply,ha⟩ := takeReply_sound h
    rw [ha,List.append_nil]
    exact hreply

instance (a : Bytes) : Decidable (IsReply a) :=
  decidable_of_iff (takeReply a.length a=some []) (isReply_iff_takeReply a).symm

/-- Replies form a prefix code. -/
theorem isReply_cancel {a b x y : Bytes} (ha : IsReply a) (hb : IsReply b) (h : a++x=b++y) :
    a=b ∧ x=y := by
  have htakea := takeReply_append ha x (Nat.le_max_left a.length b.length)
  have htakeb := takeReply_append hb y (Nat.le_max_right a.length b.length)
  rw [h,htakeb] at htakea
  have hrest := Option.some.inj htakea
  subst hrest
  exact ⟨List.append_cancel_right h,rfl⟩

/-- The bytes are exactly `n` complete replies. -/
def ParseAs (n : ℕ) (bs : Bytes) : Prop :=
  ∃ replies : List Bytes,replies.length=n ∧ (∀ reply∈replies,IsReply reply) ∧ replies.flatten=bs

/-- No bytes are no replies. -/
theorem parseAs_zero : ParseAs 0 [] := ⟨[],rfl,fun _ h => absurd h List.not_mem_nil,rfl⟩

/-- One more reply at the end. -/
theorem ParseAs.snoc {n : ℕ} {bs reply : Bytes} (h : ParseAs n bs) (hreply : IsReply reply) :
    ParseAs (n+1) (bs++reply) := by
  obtain ⟨replies,hlength,hreplies,hflatten⟩ := h
  refine ⟨replies++[reply],?_,?_,?_⟩
  · rw [List.length_append,hlength,List.length_singleton]
  · intro r hr
    rcases List.mem_append.mp hr with hr|hr
    · exact hreplies r hr
    · rw [List.mem_singleton.mp hr]
      exact hreply
  · rw [List.flatten_append,hflatten,List.flatten_singleton]

/-- The first replies of a stream are determined by the stream. -/
theorem replies_prefix {front back : List Bytes} {rest : Bytes}
    (hfront : ∀ reply∈front,IsReply reply) (hback : ∀ reply∈back,IsReply reply)
    (hlength : front.length ≤ back.length) (h : front.flatten++rest=back.flatten) :
    rest=(back.drop front.length).flatten := by
  induction front generalizing back with
  | nil => exact h
  | cons a front ih =>
    cases back with
    | nil => exact absurd hlength (Nat.not_succ_le_zero _)
    | cons b back =>
      rw [List.flatten_cons,List.flatten_cons,List.append_assoc] at h
      have hcancel := isReply_cancel (hfront a List.mem_cons_self) (hback b List.mem_cons_self) h
      rw [List.length_cons,List.drop_succ_cons]
      exact ih (fun r hr => hfront r (List.mem_cons_of_mem _ hr))
        (fun r hr => hback r (List.mem_cons_of_mem _ hr)) (Nat.le_of_succ_le_succ hlength) hcancel.2

/-- Behind `n` complete replies exactly one more reply makes `n+1`. -/
theorem parseAs_succ_iff {n : ℕ} {bs reply : Bytes} (h : ParseAs n bs) :
    ParseAs (n+1) (bs++reply) ↔ IsReply reply := by
  constructor
  · intro hall
    obtain ⟨front,hlength,hfront,hflatten⟩ := h
    obtain ⟨back,hlength',hback,hflatten'⟩ := hall
    have hrest := replies_prefix hfront hback (by omega) (by rw [hflatten,hflatten'])
    have hdrop : (back.drop front.length).length=1 := by
      rw [List.length_drop]
      omega
    obtain ⟨last,hlast⟩ := List.length_eq_one_iff.mp hdrop
    have hmem : last∈back := List.mem_of_mem_drop (hlast ▸ List.mem_singleton_self last)
    rw [hlast,List.flatten_singleton] at hrest
    rw [hrest]
    exact hback last hmem
  · exact h.snoc

/-- An error reply is one line. -/
theorem isReply_error_iff {s : Bytes} : IsReply (45::s) ↔ ∃ line,LineText line ∧ s=line++crlf := by
  constructor
  · intro h
    generalize he : (45 : Byte)::s=a at h
    cases h with
    | error hline => exact ⟨_,hline,(List.cons.inj he).2⟩
    | simple hline => exact absurd (List.cons.inj he).1 (by decide)
    | integer hinteger => exact absurd (List.cons.inj he).1 (by decide)
    | bulk hdigits hlength => exact absurd (List.cons.inj he).1 (by decide)
    | nil => exact absurd (List.cons.inj he).1 (by decide)
    | array hdigits hlength hitems => exact absurd (List.cons.inj he).1 (by decide)
  · rintro ⟨line,hline,rfl⟩
    exact .error hline

/-- The digits of a printed number are a digit run. -/
theorem digits_decimal (n : ℕ) : Digits (decimal n) :=
  ⟨decimal_ne_nil n,fun _ => isDigit_of_mem_decimal⟩

/-- A string behind its printed length is a bulk reply. -/
theorem isReply_bulk (s : Bytes) : IsReply (36::(decimal s.length++crlf++(s++crlf))) :=
  .bulk (digits_decimal s.length) (digitsValue_decimal_self s.length)

/-- A string formatted piece by piece behind its printed length is a bulk reply. -/
theorem isReply_bulk_text (s : Bytes) : IsReply (text "$"++decimal s.length++crlf++s++crlf) := by
  have hbulk := isReply_bulk s
  simp only [List.append_assoc] at hbulk ⊢
  exact hbulk

end HoneyDew.RespReply
