import Mathlib.Data.UInt
import Mathlib.Data.Nat.Notation

/-!
# Domain messages on the wire

A message is a header with four counts and as many questions and resource
records as the counts say. Names are sequences of labels that end in a zero or
in a pointer to a name that stands in front of the pointer.
-/

namespace HoneyDew.DnsWire

/-- The length of the header. -/
def headerSize : ℕ := 12

/-- The number in the two bytes at a position, nothing behind the message. -/
def number16 (m : List UInt8) (pos : ℕ) : ℕ :=
  (m.getD pos 0).toNat*2^8+(m.getD (pos+1) 0).toNat

/-- The bytes at a position are a name. The indices are the position, the
position behind the name and the length of the name without compression. -/
inductive NameAt (m : List UInt8) : ℕ → ℕ → ℕ → Prop
  /-- The root. -/
  | root {pos : ℕ} (hbyte : m[pos]?=some 0) : NameAt m pos (pos+1) 1
  /-- A label of 1 to 63 bytes in front of a name. -/
  | label {pos next size : ℕ} {l : UInt8} (hbyte : m[pos]?=some l) (hpositive : 0<l.toNat)
      (hshort : l.toNat<64) (hrest : NameAt m (pos+1+l.toNat) next size) :
      NameAt m pos next (1+l.toNat+size)
  /-- A pointer to a name behind the header that ends in front of the pointer. -/
  | pointer {pos next size : ℕ} {c d : UInt8} (hbyte : m[pos]?=some c) (hlow : m[pos+1]?=some d)
      (hpointer : 192 ≤ c.toNat) (hheader : headerSize ≤ (c.toNat-192)*2^8+d.toNat)
      (hname : NameAt m ((c.toNat-192)*2^8+d.toNat) next size) (hprior : next ≤ pos) :
      NameAt m pos (pos+2) size

/-- A question: a name of at most 255 bytes, type and class. -/
def QuestionAt (m : List UInt8) (pos next : ℕ) : Prop :=
  ∃ behind size,NameAt m pos behind size ∧ size ≤ 255 ∧ next=behind+4 ∧ next ≤ m.length

/-- A resource record: a name, type, class, time to live and as many bytes of
data as the last two bytes in front of them say. -/
def RecordAt (m : List UInt8) (pos next : ℕ) : Prop :=
  ∃ behind size,NameAt m pos behind size ∧ size ≤ 255 ∧ behind+10 ≤ m.length ∧
    next=behind+10+number16 m (behind+8) ∧ next ≤ m.length

/-- So many entries of one kind, each at the end of the one before. -/
def Entries (entryAt : ℕ → ℕ → Prop) : ℕ → ℕ → ℕ → Prop
  | 0,pos,next => pos=next
  | count+1,pos,next => ∃ mid,entryAt pos mid ∧ Entries entryAt count mid next

/-- The counts of the header describe exactly the bytes behind it. -/
def WellFormed (m : List UInt8) : Prop :=
  headerSize ≤ m.length ∧ ∃ answers authorities additional,
    Entries (QuestionAt m) (number16 m 4) headerSize answers ∧
    Entries (RecordAt m) (number16 m 6) answers authorities ∧
    Entries (RecordAt m) (number16 m 8) authorities additional ∧
    Entries (RecordAt m) (number16 m 10) additional m.length

section Names

variable {m m' : List UInt8} {pos next next' size size' : ℕ}

/-- A name has bytes. -/
theorem NameAt.lt (h : NameAt m pos next size) : pos<next := by
  induction h with
  | root hbyte => exact Nat.lt_succ_self _
  | label hbyte hpositive hshort hrest ih => omega
  | pointer hbyte hlow hpointer hheader hname hprior ih => exact Nat.lt_add_of_pos_right Nat.zero_lt_two

/-- A name without compression has bytes. -/
theorem NameAt.size_pos (h : NameAt m pos next size) : 0<size := by
  induction h with
  | root hbyte => exact Nat.zero_lt_one
  | label hbyte hpositive hshort hrest ih => omega
  | pointer hbyte hlow hpointer hheader hname hprior ih => exact ih

/-- A name takes at most one byte more than without compression. -/
theorem NameAt.next_le (h : NameAt m pos next size) : next ≤ pos+size+1 := by
  induction h with
  | root hbyte => exact Nat.le_succ _
  | label hbyte hpositive hshort hrest ih => omega
  | pointer hbyte hlow hpointer hheader hname hprior ih =>
    have hsize := hname.size_pos
    omega

/-- A name stands inside the message. -/
theorem NameAt.le_length (h : NameAt m pos next size) : next ≤ m.length := by
  induction h with
  | root hbyte => exact (List.getElem?_eq_some_iff.mp hbyte).1
  | label hbyte hpositive hshort hrest ih => exact ih
  | pointer hbyte hlow hpointer hheader hname hprior ih => exact (List.getElem?_eq_some_iff.mp hlow).1

/-- One name at most starts at a position. -/
theorem NameAt.unique (h : NameAt m pos next size) (h' : NameAt m pos next' size') :
    next=next' ∧ size=size' := by
  induction h generalizing next' size' with
  | root hbyte =>
    cases h' with
    | root hbyte' => exact ⟨rfl,rfl⟩
    | label hbyte' hpositive hshort hrest =>
      rw [hbyte,Option.some_inj] at hbyte'
      subst hbyte'
      exact absurd hpositive (by decide)
    | pointer hbyte' hlow hpointer hheader hname hprior =>
      rw [hbyte,Option.some_inj] at hbyte'
      subst hbyte'
      exact absurd hpointer (by decide)
  | label hbyte hpositive hshort hrest ih =>
    cases h' with
    | root hbyte' =>
      rw [hbyte,Option.some_inj] at hbyte'
      subst hbyte'
      exact absurd hpositive (by decide)
    | label hbyte' hpositive' hshort' hrest' =>
      rw [hbyte,Option.some_inj] at hbyte'
      subst hbyte'
      obtain ⟨rfl,rfl⟩ := ih hrest'
      exact ⟨rfl,rfl⟩
    | pointer hbyte' hlow hpointer hheader hname hprior =>
      rw [hbyte,Option.some_inj] at hbyte'
      subst hbyte'
      omega
  | pointer hbyte hlow hpointer hheader hname hprior ih =>
    cases h' with
    | root hbyte' =>
      rw [hbyte,Option.some_inj] at hbyte'
      subst hbyte'
      exact absurd hpointer (by decide)
    | label hbyte' hpositive hshort hrest =>
      rw [hbyte,Option.some_inj] at hbyte'
      subst hbyte'
      omega
    | pointer hbyte' hlow' hpointer' hheader' hname' hprior' =>
      rw [hbyte,Option.some_inj] at hbyte'
      rw [hlow,Option.some_inj] at hlow'
      subst hbyte' hlow'
      exact ⟨rfl,(ih hname').2⟩

/-- Behind the header two messages agree up to a position. -/
def Agree (m m' : List UInt8) (stop : ℕ) : Prop :=
  ∀ i,headerSize ≤ i → i<stop → m'[i]?=m[i]?

/-- A name is a name in every message that agrees up to its end. -/
theorem NameAt.agree {stop : ℕ} (h : NameAt m pos next size) (hagree : Agree m m' stop)
    (hpos : headerSize ≤ pos) (hstop : next ≤ stop) : NameAt m' pos next size := by
  induction h with
  | root hbyte => exact .root ((hagree _ hpos hstop).trans hbyte)
  | label hbyte hpositive hshort hrest ih =>
    have hlt := hrest.lt
    exact .label ((hagree _ hpos (by omega)).trans hbyte) hpositive hshort (ih (by omega) hstop)
  | pointer hbyte hlow hpointer hheader hname hprior ih =>
    exact .pointer ((hagree _ hpos (by omega)).trans hbyte)
      ((hagree _ (by omega) (by omega)).trans hlow) hpointer hheader
      (ih hheader (by omega)) hprior

end Names

section EntryLists

variable {entryAt entryAt' : ℕ → ℕ → Prop} {count pos next next' : ℕ}

/-- There are no entries, or there is a first one. -/
theorem Entries.first (h : Entries entryAt count pos next) :
    count=0 ∧ pos=next ∨ ∃ mid,entryAt pos mid := by
  cases count with
  | zero => exact .inl ⟨rfl,h⟩
  | succ count =>
    obtain ⟨mid,hentry,-⟩ := h
    exact .inr ⟨mid,hentry⟩

/-- Entries of a kind that moves on move on. -/
theorem Entries.le (hmoves : ∀ p n,entryAt p n → p<n) (h : Entries entryAt count pos next) :
    pos+count ≤ next := by
  induction count generalizing pos with
  | zero => exact Nat.le_of_eq h
  | succ count ih =>
    obtain ⟨mid,hentry,hrest⟩ := h
    have hfirst := hmoves pos mid hentry
    have hbehind := ih hrest
    omega

/-- Entries of a kind that is decided by the position end at one position. -/
theorem Entries.unique (hunique : ∀ p n n',entryAt p n → entryAt p n' → n=n')
    (h : Entries entryAt count pos next) (h' : Entries entryAt count pos next') : next=next' := by
  induction count generalizing pos with
  | zero => exact (show pos=next from h).symm.trans h'
  | succ count ih =>
    obtain ⟨mid,hentry,hrest⟩ := h
    obtain ⟨mid',hentry',hrest'⟩ := h'
    obtain rfl := hunique pos mid mid' hentry hentry'
    exact ih hrest hrest'

/-- Entries up to a position are entries of every kind that agrees up to there. -/
theorem Entries.mono (hmoves : ∀ p n,entryAt p n → p<n) {start : ℕ}
    (himp : ∀ p n,start ≤ p → n ≤ next → entryAt p n → entryAt' p n) (hstart : start ≤ pos)
    (h : Entries entryAt count pos next) : Entries entryAt' count pos next := by
  induction count generalizing pos with
  | zero => exact h
  | succ count ih =>
    obtain ⟨mid,hentry,hrest⟩ := h
    have hbehind := hrest.le hmoves
    have hfirst := hmoves pos mid hentry
    exact ⟨mid,himp pos mid hstart (by omega) hentry,ih (by omega) hrest⟩

end EntryLists

section EntriesOfMessages

variable {m m' : List UInt8} {pos next next' : ℕ}

/-- A question has bytes. -/
theorem QuestionAt.lt (h : QuestionAt m pos next) : pos<next := by
  obtain ⟨behind,size,hname,-,rfl,-⟩ := h
  have hlt := hname.lt
  omega

/-- A record has bytes. -/
theorem RecordAt.lt (h : RecordAt m pos next) : pos<next := by
  obtain ⟨behind,size,hname,-,-,rfl,-⟩ := h
  have hlt := hname.lt
  omega

/-- One question at most starts at a position. -/
theorem QuestionAt.unique (h : QuestionAt m pos next) (h' : QuestionAt m pos next') : next=next' := by
  obtain ⟨behind,size,hname,-,rfl,-⟩ := h
  obtain ⟨behind',size',hname',-,rfl,-⟩ := h'
  rw [(hname.unique hname').1]

/-- A question is a question in every message that agrees up to its end. -/
theorem QuestionAt.agree {stop : ℕ} (hagree : Agree m m' stop) (hlength : stop ≤ m'.length)
    (hpos : headerSize ≤ pos) (hstop : next ≤ stop) (h : QuestionAt m pos next) :
    QuestionAt m' pos next := by
  obtain ⟨behind,size,hname,hsize,rfl,-⟩ := h
  exact ⟨behind,size,hname.agree hagree hpos (by omega),hsize,rfl,by omega⟩

/-- Without records the questions of a message end at its end. -/
theorem WellFormed.questions (h : WellFormed m) (hanswers : number16 m 6=0)
    (hauthorities : number16 m 8=0) (hadditional : number16 m 10=0) :
    Entries (QuestionAt m) (number16 m 4) headerSize m.length := by
  obtain ⟨-,a,n,d,hquestions,ha,hn,hd⟩ := h
  rw [hanswers] at ha
  rw [hauthorities] at hn
  rw [hadditional] at hd
  obtain rfl : a=n := ha
  obtain rfl : a=d := hn
  obtain rfl : a=m.length := hd
  exact hquestions

/-- A message whose questions end at its end has no records. -/
theorem WellFormed.no_records (h : WellFormed m)
    (hquestions : Entries (QuestionAt m) (number16 m 4) headerSize m.length) :
    number16 m 6=0 ∧ number16 m 8=0 ∧ number16 m 10=0 := by
  obtain ⟨-,a,n,d,hquestions',ha,hn,hd⟩ := h
  have hunique : ∀ p n n',QuestionAt m p n → QuestionAt m p n' → n=n' :=
    fun _ _ _ hentry => hentry.unique
  obtain rfl := hquestions'.unique hunique hquestions
  have hfirst := ha.le (fun _ _ => RecordAt.lt)
  have hsecond := hn.le (fun _ _ => RecordAt.lt)
  have hthird := hd.le (fun _ _ => RecordAt.lt)
  omega

/-- A message is a header, or its first entry starts with a name and has four
bytes behind it. -/
theorem WellFormed.first_name (h : WellFormed m) :
    (m.length=headerSize ∧ Entries (QuestionAt m) (number16 m 4) headerSize m.length) ∨
      ∃ behind size,NameAt m headerSize behind size ∧ size ≤ 255 ∧ behind+4 ≤ m.length := by
  have hrecord : ∀ {p n},RecordAt m p n →
      ∃ behind size,NameAt m p behind size ∧ size ≤ 255 ∧ behind+4 ≤ m.length := by
    rintro p n ⟨behind,size,hname,hsize,hinside,-,-⟩
    exact ⟨behind,size,hname,hsize,by omega⟩
  obtain ⟨-,a,n,d,hquestions,ha,hn,hd⟩ := h
  rcases hquestions.first with ⟨-,rfl⟩|⟨mid,behind,size,hname,hsize,rfl,hinside⟩
  swap
  · exact .inr ⟨behind,size,hname,hsize,hinside⟩
  rcases ha.first with ⟨-,rfl⟩|⟨mid,hentry⟩
  swap
  · exact .inr (hrecord hentry)
  rcases hn.first with ⟨-,rfl⟩|⟨mid,hentry⟩
  swap
  · exact .inr (hrecord hentry)
  rcases hd.first with ⟨-,hend⟩|⟨mid,hentry⟩
  swap
  · exact .inr (hrecord hentry)
  rw [←hend]
  exact .inl ⟨rfl,hquestions⟩

end EntriesOfMessages

end HoneyDew.DnsWire
