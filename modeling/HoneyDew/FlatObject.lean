import Mathlib.Data.List.TakeWhile
import Mathlib.Data.Nat.Notation

/-!
# Objects of one line

A flat object in the manner of JSON names texts in quotes and numbers. The reader stops a
text at the first quote without a backslash in front, and so reads back every object whose
texts are closed: what stands in a text can then never end it or begin a field of its own.
It is more lenient than JSON: raw control bytes may stand in a text, and any byte behind a
backslash.
-/

namespace HoneyDew.FlatObject

/-- A value as it stands in an object. -/
inductive Value
  /-- A text between quotes. -/
  | str (body : List UInt8)
  /-- The digits of a number. -/
  | num (digits : List UInt8)
  deriving DecidableEq,Repr

/-- The names and values of an object. -/
abbrev Fields := List (List UInt8×Value)

/-! ## Writing -/

/-- A value on the line. -/
def Value.render : Value → List UInt8
  | .str body => 34::(body++[34])
  | .num digits => digits

/-- A name with its value on the line. -/
def renderField (field : List UInt8×Value) : List UInt8 := 34::(field.1++34::58::field.2.render)

/-- Fields behind the first one. -/
def renderMore : Fields → List UInt8
  | [] => [125]
  | field::fields => 44::(renderField field++renderMore fields)

/-- An object with a field. -/
def renderObject (field : List UInt8×Value) (fields : Fields) : List UInt8 :=
  123::(renderField field++renderMore fields)

/-! ## Reading -/

/-- The text up to the first quote without a backslash in front, and what follows the
quote. -/
def takeBody : List UInt8 → Option (List UInt8×List UInt8)
  | [] => none
  | [b] => if b=34 then some ([],[]) else none
  | b::c::rest =>
    if b=34 then some ([],c::rest)
    else if b=92 then (takeBody rest).map (fun found => (b::c::found.1,found.2))
    else (takeBody (c::rest)).map (fun found => (b::found.1,found.2))

/-- A digit of a number. -/
def isDigit (b : UInt8) : Bool := 48≤b && b≤57

/-- A value at the front of a text. -/
def takeValue : List UInt8 → Option (Value×List UInt8)
  | [] => none
  | b::rest =>
    if b=34 then (takeBody rest).map (fun found => (.str found.1,found.2))
    else if isDigit b=true then
      some (.num ((b::rest).takeWhile isDigit),(b::rest).dropWhile isDigit)
    else none

/-- What follows a byte at the front of a text. -/
def takeByte (b : UInt8) : List UInt8 → Option (List UInt8)
  | [] => none
  | c::rest => if c=b then some rest else none

/-- A name and its value at the front of a text. -/
def takeField (line : List UInt8) : Option ((List UInt8×Value)×List UInt8) := do
  let quoted ← takeByte 34 line
  let name ← takeBody quoted
  let behind ← takeByte 58 name.2
  let value ← takeValue behind
  some ((name.1,value.1),value.2)

/-- The fields behind the first one, in so many rounds at most. -/
def takeMore : ℕ → List UInt8 → Option Fields
  | 0,_ => none
  | fuel+1,line =>
    if line=[125] then some []
    else do
      let rest ← takeByte 44 line
      let field ← takeField rest
      let fields ← takeMore fuel field.2
      some (field.1::fields)

/-- The fields of a line. -/
def readObject (line : List UInt8) : Option Fields := do
  let rest ← takeByte 123 line
  let field ← takeField rest
  let fields ← takeMore line.length field.2
  some (field.1::fields)

/-! ## Texts that do not end by themselves -/

/-- A text with a letter behind every backslash and no other quote. -/
inductive Closed : List UInt8 → Prop
  /-- The empty text. -/
  | nil : Closed []
  /-- A byte that is neither quote nor backslash. -/
  | plain {b : UInt8} {rest : List UInt8} (hquote : b≠34) (hbackslash : b≠92) (h : Closed rest) :
      Closed (b::rest)
  /-- A byte behind a backslash. -/
  | escaped {c : UInt8} {rest : List UInt8} (h : Closed rest) : Closed (92::c::rest)

/-- Closed texts one behind the other. -/
theorem Closed.append {xs ys : List UInt8} (hx : Closed xs) (hy : Closed ys) : Closed (xs++ys) := by
  induction hx with
  | nil => exact hy
  | plain hquote hbackslash _ ih => exact .plain hquote hbackslash ih
  | escaped _ ih => exact .escaped ih

/-- Closed texts one behind the other, for every byte of a text. -/
theorem closed_flatMap {write : UInt8 → List UInt8} (h : ∀ b,Closed (write b)) (bs : List UInt8) :
    Closed (bs.flatMap write) := by
  induction bs with
  | nil => exact .nil
  | cons b bs ih =>
    rw [List.flatMap_cons]
    exact (h b).append ih

/-- A text without quote and backslash is closed. -/
theorem closed_of_free {bs : List UInt8} (h : ∀ b∈bs,b≠34 ∧ b≠92) : Closed bs := by
  induction bs with
  | nil => exact .nil
  | cons b bs ih =>
    obtain ⟨hquote,hbackslash⟩ := h b List.mem_cons_self
    exact .plain hquote hbackslash (ih (fun c hc => h c (List.mem_cons_of_mem _ hc)))

/-- A closed text is read up to the quote behind it. -/
theorem takeBody_closed {body : List UInt8} (h : Closed body) (rest : List UInt8) :
    takeBody (body++34::rest)=some (body,rest) := by
  induction h with
  | nil =>
    cases rest with
    | nil => rfl
    | cons c rest => rfl
  | @plain b body hquote hbackslash hbody ih =>
    obtain ⟨c,more,hmore⟩ : ∃ c more,body++34::rest=c::more := by
      cases body with
      | nil => exact ⟨34,rest,rfl⟩
      | cons c body => exact ⟨c,body++34::rest,rfl⟩
    rw [List.cons_append,hmore,takeBody,if_neg hquote,if_neg hbackslash,← hmore,ih]
    rfl
  | @escaped c body hbody ih =>
    rw [List.cons_append,List.cons_append,takeBody,if_neg (by decide),if_pos rfl,ih]
    rfl

/-! ## Objects that are read back -/

/-- A value that is read back in front of a comma or the end. -/
def Value.Good : Value → Prop
  | .str body => Closed body
  | .num digits => digits≠[] ∧ ∀ b∈digits,isDigit b=true

/-- A field that is read back. -/
def GoodField (field : List UInt8×Value) : Prop := Closed field.1 ∧ field.2.Good

/-- A value in front of a byte that is no digit. -/
theorem takeValue_render {value : Value} (h : value.Good) {d : UInt8} (hd : isDigit d=false)
    (rest : List UInt8) : takeValue (value.render++d::rest)=some (value,d::rest) := by
  cases value with
  | str body =>
    have hbody : Closed body := h
    rw [Value.render,List.cons_append,List.append_assoc,List.singleton_append,takeValue,if_pos rfl,
      takeBody_closed hbody]
    rfl
  | num digits =>
    obtain ⟨hne,hdigits⟩ := h
    cases digits with
    | nil => exact absurd rfl hne
    | cons b digits =>
      have hb := hdigits b List.mem_cons_self
      have hquote : b≠34 := by
        intro heq
        rw [heq] at hb
        exact absurd hb (by decide)
      have htake : (b::digits++d::rest).takeWhile isDigit=b::digits := by
        rw [List.takeWhile_append_of_pos hdigits,List.takeWhile_cons,hd,if_neg Bool.false_ne_true,
          List.append_nil]
      have hdrop : (b::digits++d::rest).dropWhile isDigit=d::rest := by
        rw [List.dropWhile_append_of_pos hdigits,List.dropWhile_cons,hd,if_neg Bool.false_ne_true]
      rw [List.cons_append] at htake hdrop
      rw [Value.render,List.cons_append,takeValue,if_neg hquote,if_pos hb,htake,hdrop]

/-- A byte is taken from the front. -/
theorem takeByte_cons (b : UInt8) (rest : List UInt8) : takeByte b (b::rest)=some rest := if_pos rfl

/-- A field in front of a byte that is no digit. -/
theorem takeField_render {field : List UInt8×Value} (h : GoodField field) {d : UInt8}
    (hd : isDigit d=false) (rest : List UInt8) :
    takeField (renderField field++d::rest)=some (field,d::rest) := by
  obtain ⟨hname,hvalue⟩ := h
  have hline : renderField field++d::rest=34::(field.1++34::(58::(field.2.render++d::rest))) := by
    rw [renderField,List.cons_append,List.append_assoc,List.cons_append,List.cons_append]
  have hbody := takeBody_closed hname (58::(field.2.render++d::rest))
  have hread := takeValue_render hvalue hd rest
  rw [hline,takeField,takeByte_cons,Option.bind_eq_bind,Option.bind_some,hbody,Option.bind_eq_bind,
    Option.bind_some,takeByte_cons,Option.bind_eq_bind,Option.bind_some,hread]
  rfl

/-- The fields behind the first one start with a byte that is no digit. -/
theorem renderMore_head (fields : Fields) : ∃ d rest,renderMore fields=d::rest ∧ isDigit d=false := by
  cases fields with
  | nil => exact ⟨125,[],rfl,rfl⟩
  | cons field fields => exact ⟨44,_,rfl,rfl⟩

/-- The fields behind the first one are read back in more rounds than there are fields. -/
theorem takeMore_render {fields : Fields} (h : ∀ field∈fields,GoodField field) {fuel : ℕ}
    (hfuel : fields.length<fuel) : takeMore fuel (renderMore fields)=some fields := by
  induction fields generalizing fuel with
  | nil =>
    obtain ⟨more,rfl⟩ := Nat.exists_eq_add_one_of_ne_zero (Nat.ne_zero_of_lt hfuel)
    rfl
  | cons field fields ih =>
    obtain ⟨more,rfl⟩ := Nat.exists_eq_add_one_of_ne_zero (Nat.ne_zero_of_lt hfuel)
    obtain ⟨d,rest,hmore,hd⟩ := renderMore_head fields
    have hlater := ih (fun f hf => h f (List.mem_cons_of_mem _ hf)) (Nat.lt_of_succ_lt_succ hfuel)
    have hread := takeField_render (h field List.mem_cons_self) hd rest
    rw [← hmore] at hread
    rw [renderMore,takeMore,if_neg (by simp),takeByte_cons,Option.bind_eq_bind,Option.bind_some,hread,
      Option.bind_eq_bind,Option.bind_some,hlater]
    rfl

/-- Every field takes a place on the line. -/
theorem length_renderMore (fields : Fields) : fields.length<(renderMore fields).length := by
  induction fields with
  | nil => exact Nat.zero_lt_one
  | cons field fields ih =>
    rw [renderMore,List.length_cons,List.length_cons,List.length_append]
    omega

/-- An object is read back. -/
theorem readObject_render {field : List UInt8×Value} {fields : Fields} (hfield : GoodField field)
    (h : ∀ f∈fields,GoodField f) : readObject (renderObject field fields)=some (field::fields) := by
  obtain ⟨d,rest,hmore,hd⟩ := renderMore_head fields
  have hread := takeField_render hfield hd rest
  have hfuel : fields.length<(renderObject field fields).length := by
    have hlength := length_renderMore fields
    rw [renderObject,List.length_cons,List.length_append]
    omega
  have hlater := takeMore_render h hfuel
  rw [← hmore] at hread
  generalize hline : renderObject field fields=line at hlater ⊢
  rw [renderObject] at hline
  have htake : takeByte 123 line=some (renderField field++renderMore fields) := by
    rw [← hline,takeByte_cons]
  rw [readObject,htake,Option.bind_eq_bind,Option.bind_some,hread,Option.bind_eq_bind,Option.bind_some,
    hlater]
  rfl

end HoneyDew.FlatObject
