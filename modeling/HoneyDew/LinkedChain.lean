import Mathlib.Data.List.Basic

/-!
# Singly linked chains in a memory

A memory is read as a partial function from addresses to a payload and a next
link, a null link being `none`. A chain predicate lists the nodes a link leads
to, by recursion on that list. What a chain says only depends on the addresses
in it, so a change elsewhere in memory keeps it.
-/

namespace HoneyDew.LinkedChain

variable {α : Type*}

/-- The link leads through exactly these nodes, with these payloads, to null. -/
def Chain (read : ℕ → Option (α×Option ℕ)) : Option ℕ → List (ℕ×α) → Prop
  | head,[] => head=none
  | head,(a,x)::rest => head=some a ∧ ∃ next, read a=some (x,next) ∧ Chain read next rest

/-- A null link is the empty chain. -/
@[simp] theorem chain_nil (read : ℕ → Option (α×Option ℕ)) (head : Option ℕ) :
    Chain read head [] ↔ head=none := by
  simp [Chain]

/-- A chain with a first node. -/
theorem chain_cons (read : ℕ → Option (α×Option ℕ)) (head : Option ℕ) (a : ℕ) (x : α)
    (rest : List (ℕ×α)) :
    Chain read head ((a,x)::rest) ↔
      head=some a ∧ ∃ next, read a=some (x,next) ∧ Chain read next rest := by
  simp [Chain]

/-- Two memories that agree on the nodes of a chain have the same chain. -/
theorem Chain.congr {read write : ℕ → Option (α×Option ℕ)} {head : Option ℕ}
    {entries : List (ℕ×α)} (h : Chain read head entries)
    (hagree : ∀ e∈entries, write e.1=read e.1) : Chain write head entries := by
  induction entries generalizing head with
  | nil => exact h
  | cons e rest ih =>
    obtain ⟨a,x⟩ := e
    obtain ⟨hhead,next,hread,hrest⟩ := (chain_cons read head a x rest).mp h
    have hfirst := hagree (a,x) List.mem_cons_self
    have htail := ih hrest (fun e he => hagree e (List.mem_cons_of_mem _ he))
    exact (chain_cons write head a x rest).mpr ⟨hhead,next,hfirst.trans hread,htail⟩

/-- Every node of a chain can be read, with the payload the chain says. -/
theorem Chain.reads {read : ℕ → Option (α×Option ℕ)} {head : Option ℕ} {entries : List (ℕ×α)}
    (h : Chain read head entries) {e : ℕ×α} (he : e∈entries) :
    ∃ next, read e.1=some (e.2,next) := by
  induction entries generalizing head with
  | nil => exact absurd he List.not_mem_nil
  | cons d rest ih =>
    obtain ⟨a,x⟩ := d
    obtain ⟨_,next,hread,hrest⟩ := (chain_cons read head a x rest).mp h
    cases List.mem_cons.mp he with
    | inl hd => exact ⟨next,by rw [hd]; exact hread⟩
    | inr hr => exact ih hrest hr

end HoneyDew.LinkedChain
