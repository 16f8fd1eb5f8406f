import HoneyDew.TextLines

/-!
# Replies counted by their last lines

A server that answers in lines marks the last line of each answer, so that its
client can count the answers in what it receives. Texts of whole lines put one
behind the other have their answers one behind the other.
-/

namespace HoneyDew.ReplyLines

open TextLines

variable {β : Type*} {t : β} {xs ys : List β}

/-- A text without an unfinished line. -/
def WholeLines (t : β) (xs : List β) : Prop := ∀ b,xs.getLast?=some b → b=t

/-- Whole lines one behind the other. -/
theorem WholeLines.append (hx : WholeLines t xs) (hy : WholeLines t ys) : WholeLines t (xs++ys) := by
  intro b hb
  rw [List.getLast?_append] at hb
  cases hlast : ys.getLast? with
  | none =>
    rw [hlast,Option.none_or] at hb
    exact hx b hb
  | some c =>
    rw [hlast,Option.some_or] at hb
    exact hy b (hlast.trans hb)

/-- Terminated pieces are whole lines. -/
theorem wholeLines_terminated {α : Type*} (piece : α → List β) (inputs : List α) :
    WholeLines t (inputs.flatMap (fun x => piece x++[t])) := by
  induction inputs with
  | nil => exact fun _ h => absurd h (by simp)
  | cons x inputs ih =>
    rw [List.flatMap_cons]
    refine WholeLines.append ?_ ih
    intro b hb
    rw [List.getLast?_concat] at hb
    exact (Option.some.inj hb).symm

variable [DecidableEq β] {isLast : List β → Bool}

/-- The lines of a text in front of another one. -/
theorem linesFrom_append (h : WholeLines t xs) (hne : xs≠[]) (current ys : List β) :
    linesFrom t current (xs++ys)=linesFrom t current xs++linesFrom t [] ys := by
  induction xs generalizing current with
  | nil => exact absurd rfl hne
  | cons b bs ih =>
    rw [List.cons_append,linesFrom,linesFrom]
    by_cases hbs : bs=[]
    · have hb : b=t := h b (by rw [hbs]; rfl)
      rw [if_pos hb,if_pos hb,hbs]
      rfl
    · have hrest : WholeLines t bs := by
        intro b' hb'
        refine h b' ?_
        rw [List.getLast?_cons,hb']
        rfl
      split
      · rw [ih hrest hbs,List.cons_append]
      · exact ih hrest hbs _

/-- Whole lines in front of a text are its first lines. -/
theorem lines_append (h : WholeLines t xs) (ys : List β) : lines t (xs++ys)=lines t xs++lines t ys := by
  by_cases hne : xs=[]
  · rw [hne]
    rfl
  · exact linesFrom_append h hne [] ys

/-- A text of whole lines with so many answers. -/
structure Replies (t : β) (isLast : List β → Bool) (n : ℕ) (xs : List β) : Prop where
  /-- The last answer is complete. -/
  whole : WholeLines t xs
  /-- So many lines are the last lines of answers. -/
  count : (lines t xs).countP isLast=n

instance (t : β) (isLast : List β → Bool) (n : ℕ) (xs : List β) : Decidable (Replies t isLast n xs) :=
  decidable_of_iff (xs.getLast?.all (fun b => b=t) ∧ (lines t xs).countP isLast=n) (by
    rw [Option.all_eq_true]
    simp only [decide_eq_true_eq]
    exact ⟨fun h => ⟨h.1,h.2⟩,fun h => ⟨h.whole,h.count⟩⟩)

/-- No text, no answer. -/
theorem replies_nil : Replies t isLast 0 [] := ⟨fun _ h => absurd h (by simp),rfl⟩

/-- Answers one behind the other. -/
theorem Replies.append {m n : ℕ} (hx : Replies t isLast m xs) (hy : Replies t isLast n ys) :
    Replies t isLast (m+n) (xs++ys) := by
  refine ⟨hx.whole.append hy.whole,?_⟩
  rw [lines_append hx.whole,List.countP_append,hx.count,hy.count]

/-- One line without a terminator of its own. -/
theorem replies_line {line : List β} (h : t∉line) :
    Replies t isLast (if isLast line then 1 else 0) (line++[t]) := by
  refine ⟨?_,?_⟩
  · intro b hb
    rw [List.getLast?_concat] at hb
    exact (Option.some.inj hb).symm
  · have hone := linesFrom_terminated h [] []
    rw [lines,hone,List.nil_append,linesFrom,List.countP_singleton]

/-- The answers of texts that have equally many. -/
theorem replies_flatMap {α : Type*} {text : α → List β} {n : ℕ} {inputs : List α}
    (h : ∀ x∈inputs,Replies t isLast n (text x)) :
    Replies t isLast (inputs.length*n) (inputs.flatMap text) := by
  induction inputs with
  | nil =>
    rw [List.length_nil,Nat.zero_mul]
    exact replies_nil
  | cons x inputs ih =>
    have hrest := ih (fun y hy => h y (List.mem_cons_of_mem _ hy))
    have hall := (h x List.mem_cons_self).append hrest
    rw [List.flatMap_cons,List.length_cons,Nat.succ_mul,Nat.add_comm]
    exact hall

end HoneyDew.ReplyLines
