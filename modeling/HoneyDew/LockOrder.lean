import HoneyDew.StepSystem
import Mathlib.Data.Set.Insert
import Mathlib.Logic.Function.Basic
import Mathlib.Logic.Relation

/-!
# Threads that take locks in order

A thread is the list of lock operations it still has to do; a call of a routine
gives it new ones, and an interrupt puts the operations of a handler in front of
the others. Locks are not recursive. A thread waits for the owner of the lock
that it asks for. When each thread asks only for locks of a higher rank than those
it holds, no threads wait for each other in a circle.
-/

namespace HoneyDew.LockOrder

variable {θ ℓ : Type*}

/-- One operation on a lock. -/
inductive Instr (ℓ : Type*)
  /-- Wait until the lock is free and take it. -/
  | acquire (l : ℓ)
  /-- Give the lock back. -/
  | release (l : ℓ)
  deriving DecidableEq,Repr

/-- All threads and all locks at one moment. -/
structure Machine (θ ℓ : Type*) where
  /-- What each thread has still to do. -/
  code : θ → List (Instr ℓ)
  /-- The thread that holds a lock. -/
  owner : ℓ → Option θ

/-- Nothing has been called and no lock is taken. -/
def Machine.idle : Machine θ ℓ := ⟨fun _ => [],fun _ => none⟩

/-- One step of one thread. -/
inductive Label (θ ℓ : Type*)
  /-- A thread with nothing to do calls a routine. -/
  | call (t : θ) (path : List (Instr ℓ))
  /-- A thread does its next operation. -/
  | run (t : θ)
  /-- A handler runs on the thread before it goes on. -/
  | interrupt (t : θ) (path : List (Instr ℓ))

/-- A thread waits for another one, or for itself: it asks for a lock that the
other holds. -/
def WaitsFor (s : Machine θ ℓ) (t u : θ) : Prop :=
  ∃ l rest,s.code t=.acquire l::rest ∧ s.owner l=some u

/-- Some threads wait for each other in a circle. -/
def Deadlocked (s : Machine θ ℓ) : Prop := ∃ t,Relation.TransGen (WaitsFor s) t t

/-- The locks that a thread holds. -/
def held (s : Machine θ ℓ) (t : θ) : Set ℓ := {l | s.owner l=some t}

/-- Operations that, with these locks held, ask only for locks of a higher rank
than all that are held, give back only what is held, and leave nothing held. -/
def Ordered (rank : ℓ → ℕ) (locks : Set ℓ) : List (Instr ℓ) → Prop
  | [] => locks=∅
  | .acquire l::rest => (∀ m∈locks,rank m<rank l) ∧ Ordered rank (insert l locks) rest
  | .release l::rest => l∈locks ∧ Ordered rank (locks \ {l}) rest

/-- Every thread has ordered operations to do. -/
def AllOrdered (rank : ℓ → ℕ) (s : Machine θ ℓ) : Prop :=
  ∀ t,Ordered rank (held s t) (s.code t)

variable {rank : ℓ → ℕ}

/-- The idle machine is ordered. -/
theorem allOrdered_idle : AllOrdered rank (Machine.idle : Machine θ ℓ) := by
  intro t
  simp [Ordered,held,Machine.idle]

/-- In an ordered machine, a thread waits for a lock of a higher rank than all it
holds. -/
theorem rank_lt_of_waiting {s : Machine θ ℓ} (h : AllOrdered rank s) {t : θ} {l m : ℓ}
    {rest : List (Instr ℓ)} (hwait : s.code t=.acquire l::rest) (hheld : s.owner m=some t) :
    rank m<rank l := by
  have ht := h t
  rw [hwait] at ht
  exact ht.1 m hheld

/-- Along a chain of waiting threads, the ranks of the locks asked for grow. -/
theorem rank_lt_of_chain {s : Machine θ ℓ} (h : AllOrdered rank s) {t u : θ}
    (hchain : Relation.TransGen (WaitsFor s) t u) :
    ∃ l rest,s.code t=.acquire l::rest ∧
      ∀ m rest',s.code u=.acquire m::rest' → rank l<rank m := by
  induction hchain with
  | single hwait =>
    obtain ⟨l,rest,hcode,howner⟩ := hwait
    exact ⟨l,rest,hcode,fun m rest' hcode' => rank_lt_of_waiting h hcode' howner⟩
  | tail _ hwait ih =>
    obtain ⟨l,rest,hcode,hlater⟩ := ih
    obtain ⟨k,rest',hcode',howner⟩ := hwait
    have hlt := hlater k rest' hcode'
    exact ⟨l,rest,hcode,fun m rest'' hcode'' =>
      hlt.trans (rank_lt_of_waiting h hcode'' howner)⟩

/-- An ordered machine is not deadlocked. -/
theorem not_deadlocked_of_ordered {s : Machine θ ℓ} (h : AllOrdered rank s) : ¬Deadlocked s := by
  intro hdead
  obtain ⟨t,hcycle⟩ := hdead
  obtain ⟨l,rest,hcode,hlater⟩ := rank_lt_of_chain h hcycle
  exact Nat.lt_irrefl _ (hlater l rest hcode)

/-- Operations that may stand in front of any others without changing the locks
held at the end. -/
def Neutral (rank : ℓ → ℕ) (locks : Set ℓ) (path : List (Instr ℓ)) : Prop :=
  ∀ code,Ordered rank locks code → Ordered rank locks (path++code)

/-- Neutral operations one after the other. -/
theorem Neutral.append {locks : Set ℓ} {path path' : List (Instr ℓ)} (h : Neutral rank locks path)
    (h' : Neutral rank locks path') : Neutral rank locks (path++path') := by
  intro code hcode
  rw [List.append_assoc]
  exact h _ (h' _ hcode)

/-- Neutral operations any number of times. -/
theorem Neutral.replicate {locks : Set ℓ} {path : List (Instr ℓ)} (h : Neutral rank locks path)
    (n : ℕ) : Neutral rank locks (List.replicate n path).flatten := by
  induction n with
  | zero =>
    intro code hcode
    exact hcode
  | succ n ih =>
    rw [List.replicate_succ,List.flatten_cons]
    exact h.append ih

/-- A critical section is neutral where the lock outranks all that are held and
what is done inside is neutral there. -/
theorem Neutral.critical {locks : Set ℓ} {l : ℓ} {inner : List (Instr ℓ)}
    (hrank : ∀ m∈locks,rank m<rank l) (hinner : Neutral rank (insert l locks) inner) :
    Neutral rank locks (.acquire l::(inner++[.release l])) := by
  intro code hcode
  have hnot : l∉locks := fun hm => Nat.lt_irrefl _ (hrank l hm)
  have hback : insert l locks \ {l}=locks := by
    ext m
    by_cases hm : m=l <;> simp [hm,hnot]
  have hrelease : Ordered rank (insert l locks) (.release l::code) :=
    ⟨Set.mem_insert l locks,by rw [hback]; exact hcode⟩
  rw [List.cons_append,List.append_assoc,List.singleton_append]
  exact ⟨hrank,hinner _ hrelease⟩

/-- Doing nothing is neutral. -/
theorem neutral_nil (locks : Set ℓ) : Neutral rank locks [] := fun _ hcode => hcode

/-- Waiting on a condition variable gives back the only lock held and takes it
again. -/
theorem neutral_wait (l : ℓ) : Neutral rank {l} [.release l,.acquire l] := by
  intro code hcode
  have hempty : ({l} : Set ℓ) \ {l}=∅ := by
    ext m
    simp
  have hagain : insert l (∅ : Set ℓ)={l} := insert_empty_eq l
  refine ⟨Set.mem_singleton l,?_⟩
  rw [hempty]
  refine ⟨fun m hm => absurd hm (Set.notMem_empty m),?_⟩
  rw [hagain]
  exact hcode

/-- Neutral operations are ordered when nothing is held. -/
theorem Neutral.ordered {path : List (Instr ℓ)} (h : Neutral rank ∅ path) : Ordered rank ∅ path := by
  have hall := h [] rfl
  rwa [List.append_nil] at hall

section Steps

variable [DecidableEq θ] [DecidableEq ℓ]

/-- A thread gets other operations to do. -/
def Machine.setCode (s : Machine θ ℓ) (t : θ) (code : List (Instr ℓ)) : Machine θ ℓ :=
  {s with code := Function.update s.code t code}

/-- A lock gets another owner. -/
def Machine.setOwner (s : Machine θ ℓ) (l : ℓ) (owner : Option θ) : Machine θ ℓ :=
  {s with owner := Function.update s.owner l owner}

omit [DecidableEq ℓ] in
@[simp] theorem code_setCode (s : Machine θ ℓ) (t : θ) (code : List (Instr ℓ)) :
    (s.setCode t code).code t=code := Function.update_self ..

omit [DecidableEq ℓ] in
theorem code_setCode_of_ne (s : Machine θ ℓ) {t u : θ} (h : u≠t) (code : List (Instr ℓ)) :
    (s.setCode t code).code u=s.code u := Function.update_of_ne h ..

omit [DecidableEq ℓ] in
@[simp] theorem held_setCode (s : Machine θ ℓ) (t u : θ) (code : List (Instr ℓ)) :
    held (s.setCode t code) u=held s u := rfl

omit [DecidableEq θ] in
@[simp] theorem code_setOwner (s : Machine θ ℓ) (l : ℓ) (owner : Option θ) (u : θ) :
    (s.setOwner l owner).code u=s.code u := rfl

omit [DecidableEq θ] in
/-- A thread that becomes the owner of a lock holds it and its other locks. -/
theorem held_setOwner_self (s : Machine θ ℓ) (l : ℓ) (t : θ) :
    held (s.setOwner l (some t)) t=insert l (held s t) := by
  ext m
  by_cases hm : m=l <;> simp [held,Machine.setOwner,hm]

omit [DecidableEq θ] in
/-- A free lock is held by no one. -/
theorem held_setOwner_none (s : Machine θ ℓ) (l : ℓ) (t : θ) :
    held (s.setOwner l none) t=held s t \ {l} := by
  ext m
  by_cases hm : m=l <;> simp [held,Machine.setOwner,hm]

omit [DecidableEq θ] in
/-- A thread that neither held the lock nor gets it holds what it held. -/
theorem held_setOwner_of_ne (s : Machine θ ℓ) {l : ℓ} {owner : Option θ} {u : θ}
    (hbefore : s.owner l≠some u) (hafter : owner≠some u) :
    held (s.setOwner l owner) u=held s u := by
  ext m
  by_cases hm : m=l <;> simp [held,Machine.setOwner,hm,hbefore,hafter]

/-- One step; nothing when the thread cannot take it. -/
def step (s : Machine θ ℓ) : Label θ ℓ → Option (Machine θ ℓ)
  | .call t path =>
    match s.code t with
    | [] => some (s.setCode t path)
    | _::_ => none
  | .run t =>
    match s.code t with
    | [] => none
    | .acquire l::rest =>
      match s.owner l with
      | none => some ((s.setCode t rest).setOwner l (some t))
      | some _ => none
    | .release l::rest => some ((s.setCode t rest).setOwner l none)
  | .interrupt t path => some (s.setCode t (path++s.code t))

omit [DecidableEq ℓ] in
/-- A thread gets ordered operations while the locks stay. -/
theorem AllOrdered.setCode {s : Machine θ ℓ} (h : AllOrdered rank s) {t : θ}
    {code : List (Instr ℓ)} (hcode : Ordered rank (held s t) code) :
    AllOrdered rank (s.setCode t code) := by
  intro u
  by_cases hu : u=t
  · subst hu
    rw [held_setCode,code_setCode]
    exact hcode
  · rw [held_setCode,code_setCode_of_ne s hu]
    exact h u

/-- Taking a free lock keeps the machine ordered. -/
theorem AllOrdered.acquire {s : Machine θ ℓ} (h : AllOrdered rank s) {t : θ} {l : ℓ}
    {rest : List (Instr ℓ)} (hcode : s.code t=.acquire l::rest) (hfree : s.owner l=none) :
    AllOrdered rank ((s.setCode t rest).setOwner l (some t)) := by
  intro u
  have hu := h u
  by_cases hut : u=t
  · subst hut
    rw [hcode] at hu
    rw [held_setOwner_self,held_setCode,code_setOwner,code_setCode]
    exact hu.2
  · have hbefore : (s.setCode t rest).owner l≠some u := by
      rw [show (s.setCode t rest).owner l=none from hfree]
      exact (Option.some_ne_none u).symm
    have hafter : some t≠some u := fun he => hut (Option.some.inj he).symm
    rw [held_setOwner_of_ne _ hbefore hafter,held_setCode,code_setOwner,code_setCode_of_ne s hut]
    exact hu

/-- Giving a lock back keeps the machine ordered. -/
theorem AllOrdered.release {s : Machine θ ℓ} (h : AllOrdered rank s) {t : θ} {l : ℓ}
    {rest : List (Instr ℓ)} (hcode : s.code t=.release l::rest) :
    AllOrdered rank ((s.setCode t rest).setOwner l none) := by
  intro u
  have ht := h t
  have hu := h u
  rw [hcode] at ht
  by_cases hut : u=t
  · subst hut
    rw [held_setOwner_none,held_setCode,code_setOwner,code_setCode]
    exact ht.2
  · have howner : s.owner l=some t := ht.1
    have hbefore : (s.setCode t rest).owner l≠some u := by
      rw [show (s.setCode t rest).owner l=some t from howner]
      exact fun he => hut (Option.some.inj he).symm
    have hafter : none≠some u := (Option.some_ne_none u).symm
    rw [held_setOwner_of_ne _ hbefore hafter,held_setCode,code_setOwner,code_setCode_of_ne s hut]
    exact hu

/-- A step keeps the machine ordered if the routines called are ordered and the
handlers are neutral where they interrupt. -/
theorem AllOrdered.step {s s' : Machine θ ℓ} (h : AllOrdered rank s) {label : Label θ ℓ}
    (hcall : ∀ t path,label=.call t path → Ordered rank ∅ path)
    (hinterrupt : ∀ t path,label=.interrupt t path → Neutral rank (held s t) path)
    (hstep : LockOrder.step s label=some s') : AllOrdered rank s' := by
  cases label with
  | call t path =>
    rw [LockOrder.step] at hstep
    split at hstep
    · rename_i hcode
      rw [Option.some.injEq] at hstep
      rw [←hstep]
      have hnothing := h t
      rw [hcode] at hnothing
      exact h.setCode (by rw [show held s t=∅ from hnothing]; exact hcall t path rfl)
    · exact absurd hstep (by simp)
  | run t =>
    rw [LockOrder.step] at hstep
    split at hstep
    · exact absurd hstep (by simp)
    · rename_i l rest hcode
      split at hstep
      · rename_i hfree
        rw [Option.some.injEq] at hstep
        rw [←hstep]
        exact h.acquire hcode hfree
      · exact absurd hstep (by simp)
    · rename_i l rest hcode
      rw [Option.some.injEq] at hstep
      rw [←hstep]
      exact h.release hcode
  | interrupt t path =>
    rw [LockOrder.step,Option.some.injEq] at hstep
    rw [←hstep]
    exact h.setCode (hinterrupt t path rfl _ (h t))

end Steps

end HoneyDew.LockOrder
