import HoneyDew.TextLines

/-!
# First-in first-out queues of symbols

Symbols are pushed at the back and leave at the front, either a number of them
at once or one line up to a terminator. What has been pushed is always what has
left followed by what is queued, and the lines taken are the lines of the text
pushed as long as nothing else has left.
-/

namespace HoneyDew.ByteQueue

open TextLines

variable {β : Type*}

/-- One operation on a queue. -/
inductive Op (β : Type*)
  /-- Append symbols at the back. -/
  | push (xs : List β)
  /-- Remove this many symbols from the front, or all there are. -/
  | drop (n : ℕ)
  /-- Remove the first line with its terminator, if a whole line is queued. -/
  | takeLine
  deriving DecidableEq,Repr

/-- What has left a queue in one operation. -/
inductive Removal (β : Type*)
  /-- Symbols dropped without a look at them. -/
  | dropped (xs : List β)
  /-- A line, without its terminator. -/
  | line (segment : List β)
  deriving DecidableEq,Repr

/-- The symbols that a removal has taken from the front. -/
def Removal.symbols (terminator : β) : Removal β → List β
  | .dropped xs => xs
  | .line segment => segment++[terminator]

/-- The lines among the removals, in order. -/
def takenLines (removals : List (Removal β)) : List (List β) :=
  removals.filterMap (fun | .line segment => some segment | .dropped _ => none)

/-- A queue with the record of what has left it. -/
structure Queue (β : Type*) where
  /-- The symbols queued, the oldest first. -/
  contents : List β
  /-- What has left, the oldest first. -/
  removals : List (Removal β)
  deriving DecidableEq,Repr

/-- The queue nothing has been done to. -/
def Queue.empty : Queue β := ⟨[],[]⟩

/-- The symbols that operations push, one after the other. -/
def pushed (ops : List (Op β)) : List β :=
  ops.flatMap (fun | .push xs => xs | _ => [])

@[simp] theorem pushed_append (ops ops' : List (Op β)) :
    pushed (ops++ops')=pushed ops++pushed ops' := List.flatMap_append

@[simp] theorem takenLines_append (removals removals' : List (Removal β)) :
    takenLines (removals++removals')=takenLines removals++takenLines removals' :=
  List.filterMap_append

variable [DecidableEq β]

/-- The first line of a text without its terminator, and what stands behind. -/
def firstLine (terminator : β) : List β → Option (List β×List β)
  | [] => none
  | b::bs =>
    if b=terminator then some ([],bs)
    else (firstLine terminator bs).map (fun cut => (b::cut.1,cut.2))

/-- A text without the terminator has no first line. -/
theorem firstLine_eq_none {terminator : β} {bs : List β} :
    firstLine terminator bs=none ↔ terminator∉bs := by
  induction bs with
  | nil => simp [firstLine]
  | cons b bs ih =>
    rw [firstLine]
    by_cases hb : b=terminator
    · simp [hb]
    · have hne : terminator≠b := fun he => hb he.symm
      simp [hb,hne,ih]

/-- The first line ends at the first terminator. -/
theorem firstLine_terminated {terminator : β} {segment : List β} (h : terminator∉segment)
    (rest : List β) : firstLine terminator (segment++terminator::rest)=some (segment,rest) := by
  induction segment with
  | nil => rw [List.nil_append,firstLine,if_pos rfl]
  | cons b segment ih =>
    have hb : b≠terminator := fun he => h (he ▸ List.mem_cons_self)
    have hsegment := ih (fun hm => h (List.mem_cons_of_mem _ hm))
    rw [List.cons_append,firstLine,if_neg hb,hsegment,Option.map_some]

/-- A text is its first line, the terminator and the rest. -/
theorem firstLine_eq_some {terminator : β} {bs segment rest : List β}
    (h : firstLine terminator bs=some (segment,rest)) :
    terminator∉segment ∧ bs=segment++terminator::rest := by
  induction bs generalizing segment with
  | nil => simp [firstLine] at h
  | cons b bs ih =>
    rw [firstLine] at h
    by_cases hb : b=terminator
    · rw [if_pos hb] at h
      simp only [Option.some.injEq,Prod.mk.injEq] at h
      simp [←h.1,h.2,hb]
    · rw [if_neg hb] at h
      obtain ⟨cut,hcut,heq⟩ := Option.map_eq_some_iff.mp h
      simp only [Prod.mk.injEq] at heq
      have hcutEq : firstLine terminator bs=some (cut.1,rest) := by rw [hcut,←heq.2]
      have hrest := ih hcutEq
      have hne : terminator≠b := fun he => hb he.symm
      rw [←heq.1]
      exact ⟨by simp [hne,hrest.1],by rw [List.cons_append,←hrest.2]⟩

/-- Symbols behind a text do not change its first line. -/
theorem firstLine_append {terminator : β} {bs line rest : List β}
    (h : firstLine terminator bs=some (line,rest)) (more : List β) :
    firstLine terminator (bs++more)=some (line,rest++more) := by
  have hcut := firstLine_eq_some h
  rw [hcut.2,List.append_assoc,List.cons_append]
  exact firstLine_terminated hcut.1 _

/-- One operation on a queue whose lines end with `terminator`. -/
def Queue.step (terminator : β) (q : Queue β) : Op β → Queue β
  | .push xs => {q with contents := q.contents++xs}
  | .drop n => ⟨q.contents.drop n,q.removals++[.dropped (q.contents.take n)]⟩
  | .takeLine =>
    match firstLine terminator q.contents with
    | none => q
    | some (segment,rest) => ⟨rest,q.removals++[.line segment]⟩

/-- The operations one after the other. -/
def Queue.run (terminator : β) (q : Queue β) (ops : List (Op β)) : Queue β :=
  ops.foldl (Queue.step terminator) q

@[simp] theorem Queue.run_append (terminator : β) (q : Queue β) (ops ops' : List (Op β)) :
    q.run terminator (ops++ops')=(q.run terminator ops).run terminator ops' := List.foldl_append

/-- Everything that has passed through a queue up to now. -/
def Queue.passed (terminator : β) (q : Queue β) : List β :=
  q.removals.flatMap (Removal.symbols terminator)++q.contents

/-- An operation adds to what has passed through exactly what it pushes. -/
theorem Queue.step_passed (terminator : β) (q : Queue β) (op : Op β) :
    (q.step terminator op).passed terminator=q.passed terminator++pushed [op] := by
  cases op with
  | push xs => simp [Queue.step,Queue.passed,pushed]
  | drop n => simp [Queue.step,Queue.passed,Removal.symbols,pushed]
  | takeLine =>
    have hnone : pushed [(Op.takeLine : Op β)]=[] := rfl
    rw [Queue.step,hnone,List.append_nil]
    cases hfirst : firstLine terminator q.contents with
    | none => rfl
    | some cut =>
      have hcut := (firstLine_eq_some hfirst).2
      simp [Queue.passed,Removal.symbols,hcut]

/-- What has been pushed is what has left followed by what is queued. -/
theorem Queue.run_passed (terminator : β) (q : Queue β) (ops : List (Op β)) :
    (q.run terminator ops).passed terminator=q.passed terminator++pushed ops := by
  induction ops generalizing q with
  | nil => simp [Queue.run,pushed]
  | cons op ops ih =>
    have hsplit : pushed (op::ops)=pushed [op]++pushed ops := pushed_append [op] ops
    have hrest := ih (q.step terminator op)
    rw [Queue.step_passed,List.append_assoc,←hsplit] at hrest
    exact hrest

/-- No line taken contains the terminator. -/
def Queue.WholeLines (terminator : β) (q : Queue β) : Prop :=
  ∀ segment∈takenLines q.removals,terminator∉segment

/-- An operation takes one whole line at most. -/
theorem Queue.step_wholeLines {terminator : β} {q : Queue β} (h : q.WholeLines terminator)
    (op : Op β) : (q.step terminator op).WholeLines terminator := by
  cases op with
  | push xs => exact h
  | drop n => simpa [Queue.step,Queue.WholeLines,takenLines] using h
  | takeLine =>
    rw [Queue.step]
    cases hfirst : firstLine terminator q.contents with
    | none => exact h
    | some cut =>
      have hfree := (firstLine_eq_some hfirst).1
      intro segment hmem
      simp only [takenLines_append,List.mem_append] at hmem
      cases hmem with
      | inl hold => exact h segment hold
      | inr hnew =>
        have hsegment : segment=cut.1 := by simpa [takenLines] using hnew
        rw [hsegment]
        exact hfree

/-- The lines taken in a run are whole lines. -/
theorem Queue.run_wholeLines {terminator : β} {q : Queue β} (h : q.WholeLines terminator)
    (ops : List (Op β)) : (q.run terminator ops).WholeLines terminator := by
  induction ops generalizing q with
  | nil => exact h
  | cons op ops ih => exact ih (Queue.step_wholeLines h op)

/-- While nothing has been dropped, the lines taken are the front lines of all
that has passed through, and the others are still queued. -/
theorem Queue.lines_passed {terminator : β} {q : Queue β} (h : q.WholeLines terminator)
    (hkept : ∀ xs,Removal.dropped xs∉q.removals) :
    lines terminator (q.passed terminator)=
      takenLines q.removals++lines terminator q.contents := by
  obtain ⟨contents,removals⟩ := q
  induction removals with
  | nil => rfl
  | cons removal removals ih =>
    cases removal with
    | dropped xs => exact absurd List.mem_cons_self (hkept xs)
    | line segment =>
      have hfree : terminator∉segment := h segment (by simp [takenLines])
      have hrest := ih (fun s hs => h s (by simp only [takenLines] at hs ⊢; simp [hs]))
        (fun xs hx => hkept xs (List.mem_cons_of_mem _ hx))
      simp only [Queue.passed,List.flatMap_cons,Removal.symbols,List.append_assoc,
        List.singleton_append] at hrest ⊢
      rw [List.cons_append,lines,linesFrom_terminated hfree,List.nil_append]
      exact congrArg (segment::·) hrest

end HoneyDew.ByteQueue
