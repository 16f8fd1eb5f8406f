import Mathlib.Data.List.Basic
import Mathlib.Data.List.Infix

/-!
# A terminal with a protected prompt

The row the cursor stands in, as the cells on both sides of the cursor. Glyphs
overwrite the cell under the cursor, and stepping back never enters the prompt.
-/

namespace HoneyDew.Terminal

/-- What a symbol does. -/
inductive Effect
  /-- It fills the cell under the cursor. -/
  | glyph
  /-- The cursor steps back. -/
  | back
  /-- The cursor goes to the front of its row. -/
  | home
  /-- The cursor goes to the next row. -/
  | feed
  /-- Nothing happens. -/
  | silent
  deriving DecidableEq,Repr

/-- A terminal: the symbols, the blank one and the protected text. -/
structure Display (α : Type*) where
  /-- What each symbol does. -/
  effect : α → Effect
  /-- The symbol of an empty cell. -/
  blank : α
  /-- The text that the cursor does not step back into. -/
  prompt : List α

/-- The row of the cursor. -/
structure Row (α : Type*) where
  /-- The cells in front of the cursor. -/
  left : List α
  /-- The cells from the cursor on. -/
  right : List α
  deriving DecidableEq,Repr

/-- A row that nothing stands in. -/
def Row.empty {α : Type*} : Row α := ⟨[],[]⟩

namespace Display

variable {α : Type*} [DecidableEq α] (t : Display α)

/-- One symbol is written. -/
def put (row : Row α) (a : α) : Row α :=
  match t.effect a with
  | .glyph => ⟨row.left++[a],row.right.tail⟩
  | .back =>
    if row.left=t.prompt then row else ⟨row.left.dropLast,row.left.getLast?.toList++row.right⟩
  | .home => ⟨[],row.left++row.right⟩
  | .feed => ⟨List.replicate row.left.length t.blank,[]⟩
  | .silent => row

/-- Symbols are written in order. -/
def write (row : Row α) (symbols : List α) : Row α := symbols.foldl t.put row

/-- The text from the prompt to the cursor, where nothing stands behind the cursor. -/
def typed (row : Row α) : Option (List α) :=
  if t.prompt<+:row.left ∧ ∀ a∈row.right,a=t.blank then some (row.left.drop t.prompt.length)
  else none

/-- The row that shows a text behind the prompt. -/
theorem typed_eq_some_iff (row : Row α) (line : List α) :
    t.typed row=some line ↔ row.left=t.prompt++line ∧ ∀ a∈row.right,a=t.blank := by
  unfold typed
  constructor
  · intro h
    split at h
    · rename_i hrow
      have hline := List.prefix_iff_eq_append.mp hrow.1
      rw [Option.some.inj h] at hline
      exact ⟨hline.symm,hrow.2⟩
    · cases h
  · intro h
    have hfront : t.prompt<+:row.left := ⟨line,h.1.symm⟩
    rw [if_pos ⟨hfront,h.2⟩,h.1,List.drop_left]

/-- Writing is done piece by piece. -/
theorem write_append (row : Row α) (xs ys : List α) :
    t.write row (xs++ys)=t.write (t.write row xs) ys := List.foldl_append

/-- Glyphs at the end of a row stand there. -/
theorem write_glyphs (left : List α) {glyphs : List α} (h : ∀ a∈glyphs,t.effect a=.glyph) :
    t.write ⟨left,[]⟩ glyphs=⟨left++glyphs,[]⟩ := by
  induction glyphs generalizing left with
  | nil => rw [List.append_nil]; rfl
  | cons a glyphs ih =>
    have ha := h a List.mem_cons_self
    have hrest := ih (left++[a]) (fun b hb => h b (List.mem_cons_of_mem _ hb))
    have hput : t.put ⟨left,[]⟩ a=⟨left++[a],[]⟩ := by
      unfold put
      rw [ha]
      rfl
    rw [List.append_assoc,List.singleton_append] at hrest
    rw [write,List.foldl_cons,hput]
    exact hrest

/-- A line break starts a new row, whatever stands in front of it. -/
theorem write_break (row : Row α) (symbols : List α) {cr lf : α} (hcr : t.effect cr=.home)
    (hlf : t.effect lf=.feed) : t.write row (symbols++[cr,lf])=.empty := by
  rw [write_append]
  generalize t.write row symbols=last
  have hhome : t.put last cr=⟨[],last.left++last.right⟩ := by
    unfold put
    rw [hcr]
  have hfeed : t.put ⟨[],last.left++last.right⟩ lf=.empty := by
    unfold put
    rw [hlf]
    rfl
  rw [write,List.foldl_cons,hhome,List.foldl_cons,hfeed]
  rfl

/-- Behind a line break the prompt stands alone. -/
theorem typed_prompt (row : Row α) (symbols : List α) {cr lf : α} (hcr : t.effect cr=.home)
    (hlf : t.effect lf=.feed) (hprompt : ∀ a∈t.prompt,t.effect a=.glyph) :
    t.typed (t.write (t.write row (symbols++[cr,lf])) t.prompt)=some [] := by
  rw [write_break t row symbols hcr hlf,Row.empty,write_glyphs t [] hprompt,typed_eq_some_iff]
  exact ⟨(List.append_nil _).symm,fun a ha => absurd ha List.not_mem_nil⟩

/-- A glyph joins the text. -/
theorem typed_glyph {row : Row α} {line : List α} {a : α} (ha : t.effect a=.glyph)
    (h : t.typed row=some line) : t.typed (t.write row [a])=some (line++[a]) := by
  rw [typed_eq_some_iff] at h
  have hput : t.write row [a]=⟨row.left++[a],row.right.tail⟩ := by
    rw [write,List.foldl_cons,put,ha]
    rfl
  rw [hput,typed_eq_some_iff]
  constructor
  · rw [h.1,List.append_assoc]
  · intro b hb
    exact h.2 b (List.mem_of_mem_tail hb)

/-- The cursor steps back over the last cell of a text. -/
theorem put_back (right : List α) (line : List α) {a b : α} (hb : t.effect b=.back) :
    t.put ⟨t.prompt++(line++[a]),right⟩ b=⟨t.prompt++line,a::right⟩ := by
  have hne : t.prompt++(line++[a])≠t.prompt := by
    intro h
    have hlength := congrArg List.length h
    rw [List.length_append,List.length_append,List.length_singleton] at hlength
    omega
  unfold put
  rw [hb]
  dsimp only
  rw [if_neg hne,← List.append_assoc,List.dropLast_concat,List.getLast?_concat]
  rfl

/-- Stepping back, a blank and stepping back again take the last cell away. -/
theorem typed_erase {row : Row α} {line : List α} {b : α} (hb : t.effect b=.back)
    (hblank : t.effect t.blank=.glyph) (h : t.typed row=some line) (hne : line≠[]) :
    t.typed (t.write row [b,t.blank,b])=some line.dropLast := by
  rw [typed_eq_some_iff] at h
  have hlast := List.dropLast_append_getLast hne
  have hrow : row=⟨t.prompt++(line.dropLast++[line.getLast hne]),row.right⟩ := by
    rw [hlast,← h.1]
  have hput : t.put ⟨t.prompt++line.dropLast,line.getLast hne::row.right⟩ t.blank=
      ⟨t.prompt++(line.dropLast++[t.blank]),row.right⟩ := by
    rw [put,hblank,← List.append_assoc]
    rfl
  have hwrite : t.write row [b,t.blank,b]=⟨t.prompt++line.dropLast,t.blank::row.right⟩ := by
    rw [hrow,write,List.foldl_cons,put_back t _ _ hb,List.foldl_cons,hput,List.foldl_cons,
      put_back t _ _ hb]
    rfl
  rw [hwrite,typed_eq_some_iff]
  constructor
  · rfl
  · intro a ha
    cases List.mem_cons.mp ha with
    | inl heq => exact heq
    | inr hmem => exact h.2 a hmem

end Display

end HoneyDew.Terminal
