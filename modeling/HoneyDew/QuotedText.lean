import Mathlib.Data.List.TakeWhile

/-!
# Texts in quotes

In a quoted text the quote and the escape symbol stand behind an escape symbol.
A reader that looks for the next quote only, and keeps no more than some number
of symbols, gets back the texts that are told here.
-/

namespace HoneyDew.QuotedText

variable {β : Type*} {quote esc : β}

/-- Escape symbols from some point on. -/
def EndsEscaping (esc : β) (cs : List β) : Prop :=
  ∃ front k,esc∉front ∧ cs=front++List.replicate k esc

/-- A text that starts with the escape symbol holds nothing else. -/
theorem endsEscaping_cons_esc (cs : List β) :
    EndsEscaping esc (esc::cs) ↔ cs=List.replicate cs.length esc := by
  constructor
  · intro h
    obtain ⟨front,k,hfront,hsplit⟩ := h
    cases front with
    | cons c front => exact absurd (List.cons.inj hsplit).1 (fun heq => hfront (by simp [heq]))
    | nil =>
      cases k with
      | zero => cases hsplit
      | succ k =>
        rw [List.nil_append,List.replicate_succ] at hsplit
        rw [(List.cons.inj hsplit).2,List.length_replicate]
  · intro h
    refine ⟨[],cs.length+1,List.not_mem_nil,?_⟩
    rw [List.nil_append,List.replicate_succ,← h]

/-- Another symbol in front changes nothing. -/
theorem endsEscaping_cons {c : β} (hc : c≠esc) (cs : List β) :
    EndsEscaping esc (c::cs) ↔ EndsEscaping esc cs := by
  constructor
  · intro h
    obtain ⟨front,k,hfront,hsplit⟩ := h
    cases front with
    | nil =>
      cases k with
      | zero => cases hsplit
      | succ k => exact absurd (List.cons.inj hsplit).1 hc
    | cons d front =>
      exact ⟨front,k,fun hmem => hfront (List.mem_cons_of_mem _ hmem),(List.cons.inj hsplit).2⟩
  · intro h
    obtain ⟨front,k,hfront,hsplit⟩ := h
    refine ⟨c::front,k,?_,by rw [hsplit,List.cons_append]⟩
    intro hmem
    cases List.mem_cons.mp hmem with
    | inl heq => exact hc heq.symm
    | inr htail => exact hfront htail

variable [DecidableEq β]

/-- A text with its quotes and escape symbols escaped. -/
def escape (quote esc : β) : List β → List β
  | [] => []
  | c::cs => if c=quote ∨ c=esc then esc::c::escape quote esc cs else c::escape quote esc cs

/-- An escaped text is not shorter. -/
theorem length_le_escape (quote esc : β) (cs : List β) : cs.length≤(escape quote esc cs).length := by
  induction cs with
  | nil => exact Nat.le_refl _
  | cons c cs ih =>
    rw [escape]
    by_cases hc : c=quote ∨ c=esc
    · rw [if_pos hc]
      simp only [List.length_cons]
      omega
    · rw [if_neg hc]
      simp only [List.length_cons]
      omega

/-- Texts one behind the other are escaped one by one. -/
theorem escape_append (cs ds : List β) :
    escape quote esc (cs++ds)=escape quote esc cs++escape quote esc ds := by
  induction cs with
  | nil => rfl
  | cons c cs ih =>
    rw [List.cons_append,escape,escape]
    by_cases hc : c=quote ∨ c=esc
    · rw [if_pos hc,if_pos hc,ih]
      rfl
    · rw [if_neg hc,if_neg hc,ih]
      rfl

/-- Escaping brings no quotes. -/
theorem quote_not_mem_escape (hne : quote≠esc) {cs : List β} (h : quote∉cs) :
    quote∉escape quote esc cs := by
  induction cs with
  | nil => exact h
  | cons c cs ih =>
    simp only [List.mem_cons,not_or] at h
    rw [escape]
    by_cases hc : c=quote ∨ c=esc
    · rw [if_pos hc]
      simp only [List.mem_cons,not_or]
      exact ⟨hne,h.1,ih h.2⟩
    · rw [if_neg hc]
      simp only [List.mem_cons,not_or]
      exact ⟨h.1,ih h.2⟩

/-- A run of escape symbols is doubled. -/
theorem escape_replicate (k : ℕ) :
    escape quote esc (List.replicate k esc)=List.replicate (2*k) esc := by
  induction k with
  | zero => rfl
  | succ k ih =>
    rw [List.replicate_succ,escape,if_pos (Or.inr rfl),ih,Nat.mul_succ]
    rfl

/-! ## What a reader keeps -/

/-- The front of an escaped text behind escape symbols is the text only for a run
of escape symbols. -/
theorem eq_replicate_of_take {cs : List β} (k : ℕ)
    (h : (List.replicate (k+1) esc++escape quote esc cs).take cs.length=cs) :
    cs=List.replicate cs.length esc := by
  induction cs generalizing k with
  | nil => rfl
  | cons c cs ih =>
    rw [List.length_cons,List.replicate_succ,List.cons_append,List.take_succ_cons] at h
    obtain ⟨hc,hcs⟩ := List.cons.inj h
    rw [escape,if_pos (Or.inr hc.symm),← hc] at hcs
    have hshift : List.replicate k esc++esc::esc::escape quote esc cs=
        List.replicate (k+1+1) esc++escape quote esc cs := by
      rw [List.replicate_succ',List.replicate_succ',List.append_assoc,List.append_assoc]
      rfl
    rw [hshift] at hcs
    have htail := ih (k+1) hcs
    rw [List.length_cons,List.replicate_succ,← htail,hc]

/-- An escape symbol in front of an escaped text is kept exactly when the text
takes all the room and holds escape symbols only. -/
theorem take_esc_escape_iff (n : ℕ) {cs : List β} (hlength : cs.length≤n) :
    (esc::escape quote esc cs).take n=cs ↔ cs.length=n ∧ cs=List.replicate cs.length esc := by
  constructor
  · intro h
    have hlong := length_le_escape quote esc cs
    have htaken := congrArg List.length h
    rw [List.length_take,List.length_cons] at htaken
    have hroom : cs.length=n := by omega
    rw [← hroom] at h
    exact ⟨hroom,eq_replicate_of_take 0 h⟩
  · intro h
    obtain ⟨hroom,hrun⟩ := h
    rw [hrun,escape_replicate,← List.replicate_succ,List.take_replicate]
    congr 1
    omega

/-- A text without quotes is kept exactly when nothing in it is escaped, or when
it takes all the room and only escape symbols stand behind its first one. -/
theorem take_escape_iff (n : ℕ) {cs : List β} (hlength : cs.length≤n) (hquote : quote∉cs) :
    (escape quote esc cs).take n=cs ↔ esc∉cs ∨ cs.length=n ∧ EndsEscaping esc cs := by
  induction cs generalizing n with
  | nil => simp [escape]
  | cons c cs ih =>
    simp only [List.mem_cons,not_or] at hquote
    obtain ⟨m,hm⟩ : ∃ m,n=m+1 := ⟨n-1,by rw [List.length_cons] at hlength; omega⟩
    rw [hm,List.length_cons] at hlength
    have hroom : cs.length≤ m := by omega
    rw [hm,escape,List.length_cons,Nat.add_right_cancel_iff]
    by_cases hc : c=esc
    · rw [if_pos (Or.inr hc),hc,List.take_succ_cons,List.cons.injEq,endsEscaping_cons_esc,
        take_esc_escape_iff m hroom]
      simp
    · have hplain : ¬(c=quote ∨ c=esc) := fun h => h.elim (Ne.symm hquote.1) hc
      rw [if_neg hplain,List.take_succ_cons,List.cons.injEq,endsEscaping_cons hc,ih m hroom hquote.2,
        List.mem_cons,not_or]
      simp [Ne.symm hc]

/-- A reader that takes a quoted text to end at the next quote, and keeps some
number of symbols, gives it back exactly when it has no quote and nothing in it is
escaped, save for a run of escape symbols at the end of all the room. Without
quotes it reads up to the closing one. -/
theorem escape_cut (hne : quote≠esc) (n : ℕ) {cs : List β} (hlength : cs.length≤n) (rest : List β) :
    ∃ kept back,escape quote esc cs++quote::rest=kept++quote::back ∧ quote∉kept ∧
      (kept.take n=cs ↔ quote∉cs ∧ (esc∉cs ∨ cs.length=n ∧ EndsEscaping esc cs)) ∧
      (quote∉cs → back=rest) := by
  by_cases hquote : quote∈cs
  · obtain ⟨front,tail,hsplit,hfront⟩ := List.eq_append_cons_of_mem hquote
    have hkept : quote∉escape quote esc front++[esc] := by
      simp only [List.mem_append,List.mem_singleton,not_or]
      exact ⟨quote_not_mem_escape hne hfront,hne⟩
    refine ⟨escape quote esc front++[esc],escape quote esc tail++quote::rest,?_,hkept,?_,?_⟩
    · rw [hsplit,escape_append,escape,if_pos (Or.inl rfl)]
      simp only [List.append_assoc,List.cons_append,List.nil_append]
    · constructor
      · intro heq
        rw [← heq] at hquote
        exact absurd (List.mem_of_mem_take hquote) hkept
      · intro hcond
        exact absurd hquote hcond.1
    · intro hnone
      exact absurd hquote hnone
  · refine ⟨escape quote esc cs,rest,rfl,quote_not_mem_escape hne hquote,?_,fun _ => rfl⟩
    rw [take_escape_iff n hlength hquote]
    exact ⟨fun h => ⟨hquote,h⟩,fun h => h.2⟩

end HoneyDew.QuotedText
