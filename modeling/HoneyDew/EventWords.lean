import Mathlib.Data.List.Basic

/-!
# Words of events

Two languages over an alphabet of events. A bracketed word starts with its
only opening event and ends with its only closing event. A word of verdicts
agrees when it is a sequence of recorded attempts, each followed at once by the
answer that the record announces.
-/

namespace HoneyDew.EventWords

variable {ε : Type}

/-- One opening event first, one closing event last, neither in between. -/
def Bracketed (opens closes : ε → Prop) (word : List ε) : Prop :=
  ∃ first middle last,word=first::(middle++[last]) ∧ opens first ∧ closes last ∧
    ∀ e∈middle,¬opens e ∧ ¬closes e

/-- A word between an opening and a closing event is bracketed if it has
neither. -/
theorem bracketed_of_inner {opens closes : ε → Prop} {first last : ε} {middle : List ε}
    (hfirst : opens first) (hlast : closes last) (h : ∀ e∈middle,¬opens e ∧ ¬closes e) :
    Bracketed opens closes (first::(middle++[last])) :=
  ⟨first,middle,last,rfl,hfirst,hlast,h⟩

/-- A bracketed word has a closing event. -/
theorem Bracketed.exists_closes {opens closes : ε → Prop} {word : List ε}
    (h : Bracketed opens closes word) : ∃ e∈word,closes e := by
  rcases h with ⟨first,middle,last,hword,_,hlast,_⟩
  refine ⟨last,?_,hlast⟩
  rw [hword]
  exact List.mem_cons_of_mem _ (List.mem_append_right _ List.mem_cons_self)

/-- What happens to one attempt: it is recorded, then answered. -/
inductive Verdict (ε : Type)
  /-- The attempt is recorded as an event. -/
  | recorded (e : ε)
  /-- The peer is let in. -/
  | granted
  /-- The peer is turned away. -/
  | rejected
  deriving DecidableEq,Repr

/-- Every record is followed by the answer it announces, and there is no
answer without a record. -/
inductive Agrees (accepts rejects : ε → Prop) : List (Verdict ε) → Prop
  /-- Nothing is left. -/
  | nil : Agrees accepts rejects []
  /-- An attempt recorded as accepted is let in. -/
  | granted {e : ε} {word : List (Verdict ε)} (he : accepts e)
      (hword : Agrees accepts rejects word) : Agrees accepts rejects (.recorded e::.granted::word)
  /-- An attempt recorded as refused is turned away. -/
  | rejected {e : ε} {word : List (Verdict ε)} (he : rejects e)
      (hword : Agrees accepts rejects word) : Agrees accepts rejects (.recorded e::.rejected::word)

/-- Agreeing words follow each other. -/
theorem Agrees.append {accepts rejects : ε → Prop} {word more : List (Verdict ε)}
    (hword : Agrees accepts rejects word) (hmore : Agrees accepts rejects more) :
    Agrees accepts rejects (word++more) := by
  induction hword with
  | nil => exact hmore
  | granted he _ ih => exact .granted he ih
  | rejected he _ ih => exact .rejected he ih

/-- Where an attempt recorded as refused is let in, the word does not agree. -/
theorem not_agrees_of_granted {accepts rejects : ε → Prop} {word more : List (Verdict ε)} {e : ε}
    (hword : Agrees accepts rejects word) (he : ¬accepts e) :
    ¬Agrees accepts rejects (word++.recorded e::.granted::more) := by
  induction hword with
  | nil =>
    intro h
    cases h with
    | granted haccepts _ => exact he haccepts
  | granted _ _ ih =>
    intro h
    cases h with
    | granted _ hrest => exact ih hrest
  | rejected _ _ ih =>
    intro h
    cases h with
    | rejected _ hrest => exact ih hrest

/-- An answer that no record announces makes a word disagree. -/
theorem not_agrees_of_rejected {accepts rejects : ε → Prop} {word more : List (Verdict ε)}
    (hword : Agrees accepts rejects word) : ¬Agrees accepts rejects (word++.rejected::more) := by
  induction hword with
  | nil =>
    intro h
    cases h
  | granted _ _ ih =>
    intro h
    cases h with
    | granted _ hrest => exact ih hrest
  | rejected _ _ ih =>
    intro h
    cases h with
    | rejected _ hrest => exact ih hrest

end HoneyDew.EventWords
