import Mathlib.Data.List.Infix
import Mathlib.Data.List.TakeWhile

/-!
# Lines that end with a pair of symbols

A text is cut behind every occurrence of a terminator of two different symbols.
What stands behind the last one is the unfinished rest. A piece of text is
unbroken when the terminator does not occur in it; a text is unbroken or splits
at its first terminator into an unbroken line and what follows.
-/

namespace HoneyDew.PairLines

variable {β : Type*}

/-- The next symbol completes a terminator. -/
def Completes (cr lf : β) (current : List β) (b : β) : Prop := b=lf ∧ current.getLast?=some cr

/-- The terminator does not occur. -/
def Unbroken (cr lf : β) (bs : List β) : Prop := ¬[cr,lf]<:+:bs

variable {cr lf : β}

/-- Nothing is unbroken. -/
theorem unbroken_nil : Unbroken cr lf [] := by
  simp [Unbroken]

/-- A text without the terminator's first symbol is unbroken. -/
theorem unbroken_of_not_mem {bs : List β} (h : cr∉bs) : Unbroken cr lf bs :=
  fun hocc => h (hocc.subset List.mem_cons_self)

/-- A part of an unbroken text is unbroken. -/
theorem Unbroken.part {bs part : List β} (h : Unbroken cr lf bs) (hpart : part<:+:bs) :
    Unbroken cr lf part := fun hocc => h (hocc.trans hpart)

/-- A symbol that completes a terminator breaks the text. -/
theorem not_completes {current : List β} {b : β} (h : Unbroken cr lf (current++[b])) :
    ¬Completes cr lf current b := by
  intro hc
  obtain ⟨hb,hlast⟩ := hc
  obtain ⟨front,hfront⟩ := List.getLast?_eq_some_iff.mp hlast
  apply h
  rw [hfront,hb,List.append_assoc]
  exact (List.suffix_append front _).isInfix

/-- A text stays unbroken when a symbol is added that completes nothing. -/
theorem Unbroken.concat {current : List β} {b : β} (h : Unbroken cr lf current)
    (hb : ¬Completes cr lf current b) : Unbroken cr lf (current++[b]) := by
  intro hocc
  obtain ⟨front,back,hsplit⟩ := hocc
  cases back using List.reverseRecOn with
  | nil =>
    rw [List.append_nil] at hsplit
    have hlong : front++[cr]++[lf]=current++[b] := by
      rw [List.append_assoc]
      exact hsplit
    obtain ⟨hcurrent,hlast⟩ := List.append_inj' hlong rfl
    have hbl : lf=b := List.cons.inj hlast |>.1
    exact hb ⟨hbl.symm,by rw [← hcurrent]; simp⟩
  | append_singleton back c _ =>
    have hlong : (front++[cr,lf]++back)++[c]=current++[b] := by
      rw [List.append_assoc]
      exact hsplit
    obtain ⟨hcurrent,_⟩ := List.append_inj' hlong rfl
    exact h ⟨front,back,hcurrent⟩

/-- The terminator's first symbol alone breaks nothing. -/
theorem Unbroken.concat_cr (hne : cr≠lf) {line : List β} (h : Unbroken cr lf line) :
    Unbroken cr lf (line++[cr]) := h.concat (fun hc => hne hc.1)

/-- The terminator behind an unbroken line completes it. -/
theorem completes_line (line : List β) : Completes cr lf (line++[cr]) lf := by
  simp [Completes]

/-- The first of several terminated lines, in front of all that follows. -/
theorem terminated_cons (line : List β) (front : List (List β)) (rest : List β) :
    (line::front).flatMap (fun line => line++[cr,lf])++rest=
      line++cr::lf::(front.flatMap (fun line => line++[cr,lf])++rest) := by
  rw [List.flatMap_cons,List.append_assoc,List.append_assoc]
  rfl

variable [DecidableEq β]

instance (cr lf : β) (current : List β) (b : β) : Decidable (Completes cr lf current b) :=
  inferInstanceAs (Decidable (_ ∧ _))

/-- The lines of a text whose first line has started with `current`, and the
unfinished rest. -/
def cutFrom (cr lf : β) (current : List β) : List β → List (List β)×List β
  | [] => ([],current)
  | b::bs =>
    if Completes cr lf current b then
      (current.dropLast::(cutFrom cr lf [] bs).1,(cutFrom cr lf [] bs).2)
    else cutFrom cr lf (current++[b]) bs

/-- The terminated lines of a text. -/
def lines (cr lf : β) (bs : List β) : List (List β) := (cutFrom cr lf [] bs).1

/-- What stands behind the last terminator. -/
def unfinished (cr lf : β) (bs : List β) : List β := (cutFrom cr lf [] bs).2

/-- An unbroken front is read into the current line. -/
theorem cutFrom_append {current front : List β} (h : Unbroken cr lf (current++front))
    (rest : List β) : cutFrom cr lf current (front++rest)=cutFrom cr lf (current++front) rest := by
  induction front generalizing current with
  | nil => simp
  | cons b front ih =>
    have hsplit : current++b::front=(current++[b])++front := by simp
    rw [hsplit] at h ⊢
    have hb : ¬Completes cr lf current b :=
      not_completes (h.part (List.prefix_append _ front).isInfix)
    rw [List.cons_append,cutFrom,if_neg hb]
    exact ih h

/-- An unbroken text has no line. -/
theorem cutFrom_unbroken {bs : List β} (h : Unbroken cr lf bs) : cutFrom cr lf [] bs=([],bs) := by
  have hfront : Unbroken cr lf ([]++bs) := h
  have hread := cutFrom_append hfront []
  rw [List.append_nil] at hread
  rw [hread]
  simp [cutFrom]

/-- The first line of a text. -/
theorem cutFrom_line (hne : cr≠lf) {line : List β} (h : Unbroken cr lf line) (rest : List β) :
    cutFrom cr lf [] (line++cr::lf::rest)=
      (line::(cutFrom cr lf [] rest).1,(cutFrom cr lf [] rest).2) := by
  have hfront : Unbroken cr lf ([]++(line++[cr])) := by simpa using h.concat_cr hne
  have hread := cutFrom_append hfront (lf::rest)
  have hsplit : line++cr::lf::rest=(line++[cr])++lf::rest := by simp
  rw [hsplit,hread,List.nil_append,cutFrom,if_pos (completes_line line)]
  simp

/-- The lines behind a first line. -/
theorem lines_line (hne : cr≠lf) {line : List β} (h : Unbroken cr lf line) (rest : List β) :
    lines cr lf (line++cr::lf::rest)=line::lines cr lf rest := by
  rw [lines,cutFrom_line hne h,lines]

/-- A first line does not change the unfinished rest. -/
theorem unfinished_line (hne : cr≠lf) {line : List β} (h : Unbroken cr lf line) (rest : List β) :
    unfinished cr lf (line++cr::lf::rest)=unfinished cr lf rest := by
  rw [unfinished,cutFrom_line hne h,unfinished]

/-- A text is unbroken or splits at its first terminator. -/
theorem unbroken_or_line (cr lf : β) (bs : List β) :
    Unbroken cr lf bs ∨ ∃ line rest, Unbroken cr lf line ∧ bs=line++cr::lf::rest := by
  induction bs using List.reverseRecOn with
  | nil => exact Or.inl unbroken_nil
  | append_singleton front b ih =>
    cases ih with
    | inl h =>
      by_cases hb : Completes cr lf front b
      · obtain ⟨line,hline⟩ := List.getLast?_eq_some_iff.mp hb.2
        rw [hline] at h
        right
        refine ⟨line,[],h.part (List.prefix_append line _).isInfix,?_⟩
        rw [hline,hb.1,List.append_assoc]
        rfl
      · exact Or.inl (h.concat hb)
    | inr h =>
      obtain ⟨line,rest,hline,hfront⟩ := h
      right
      refine ⟨line,rest++[b],hline,?_⟩
      rw [hfront]
      simp

/-- The lines and the rest make up the text, and none of them holds the
terminator. -/
theorem lines_spec (hne : cr≠lf) (bs : List β) :
    bs=(lines cr lf bs).flatMap (fun line => line++[cr,lf])++unfinished cr lf bs ∧
      (∀ line∈lines cr lf bs, Unbroken cr lf line) ∧ Unbroken cr lf (unfinished cr lf bs) := by
  generalize hn : bs.length=n
  induction n using Nat.strongRecOn generalizing bs with
  | ind n ih =>
    cases unbroken_or_line cr lf bs with
    | inl h =>
      have hlines : lines cr lf bs=[] := by rw [lines,cutFrom_unbroken h]
      have hrest : unfinished cr lf bs=bs := by rw [unfinished,cutFrom_unbroken h]
      rw [hlines,hrest]
      exact ⟨by simp,by simp,h⟩
    | inr h =>
      obtain ⟨line,rest,hline,hbs⟩ := h
      have hlength : rest.length<n := by
        rw [← hn,hbs,List.length_append,List.length_cons,List.length_cons]
        omega
      obtain ⟨hwhole,hunbroken,hleft⟩ := ih rest.length hlength rest rfl
      rw [hbs,lines_line hne hline,unfinished_line hne hline]
      refine ⟨?_,?_,hleft⟩
      · rw [List.flatMap_cons,List.append_assoc,← hwhole,List.append_assoc]
        rfl
      · intro other hother
        cases List.mem_cons.mp hother with
        | inl he =>
          rw [he]
          exact hline
        | inr he => exact hunbroken other he

/-- A text of unbroken terminated lines starts with these lines. -/
theorem lines_append (hne : cr≠lf) {front : List (List β)} (h : ∀ line∈front, Unbroken cr lf line)
    (rest : List β) :
    lines cr lf (front.flatMap (fun line => line++[cr,lf])++rest)=front++lines cr lf rest := by
  induction front with
  | nil => rfl
  | cons line front ih =>
    have hline := h line List.mem_cons_self
    have hrest := ih (fun other ho => h other (List.mem_cons_of_mem _ ho))
    rw [terminated_cons,lines_line hne hline,hrest,List.cons_append]

/-- Terminated lines in front do not change the unfinished rest. -/
theorem unfinished_append (hne : cr≠lf) {front : List (List β)}
    (h : ∀ line∈front, Unbroken cr lf line) (rest : List β) :
    unfinished cr lf (front.flatMap (fun line => line++[cr,lf])++rest)=unfinished cr lf rest := by
  induction front with
  | nil => rfl
  | cons line front ih =>
    have hline := h line List.mem_cons_self
    have hrest := ih (fun other ho => h other (List.mem_cons_of_mem _ ho))
    rw [terminated_cons,unfinished_line hne hline,hrest]

end HoneyDew.PairLines
