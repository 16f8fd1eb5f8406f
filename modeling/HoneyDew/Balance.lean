import Mathlib.Data.List.Range
import Mathlib.Data.List.Perm.Basic

/-!
# What is made, held and ended

Things are numbered as they are made. At every moment each of them has ended or is held in
one place. The places are the cells of a list, and a cell may hold several things.
-/

namespace HoneyDew.Balance

/-- Of so many things that have been made, some have ended, in order, and the others are held. -/
structure Balanced (made : ℕ) (ended held : List ℕ) : Prop where
  /-- Each of them is in one of the lists, once. -/
  perm : (List.range made).Perm (ended++held)

/-- Before the first thing is made. -/
theorem balanced_zero : Balanced 0 [] [] := ⟨List.Perm.refl _⟩

namespace Balanced

variable {made : ℕ} {ended held held' : List ℕ}

/-- A thing changes hands. -/
theorem move (h : Balanced made ended held) (hheld : held'.Perm held) : Balanced made ended held' :=
  ⟨h.perm.trans (hheld.symm.append_left ended)⟩

/-- The next thing is made and held. -/
theorem make (h : Balanced made ended held) (hheld : held'.Perm (made::held)) :
    Balanced (made+1) ended held' := by
  refine ⟨?_⟩
  rw [List.range_succ]
  have hlast : (List.range made++[made]).Perm (made::List.range made) :=
    List.perm_append_singleton _ _
  have hmiddle : (made::(ended++held)).Perm (ended++made::held) := List.perm_middle.symm
  exact hlast.trans ((h.perm.cons made).trans (hmiddle.trans (hheld.symm.append_left ended)))

/-- A thing that is held ends. -/
theorem finish (h : Balanced made ended held) {c : ℕ} (hheld : (c::held').Perm held) :
    Balanced made (ended++[c]) held' := by
  refine ⟨?_⟩
  rw [List.append_assoc,List.singleton_append]
  exact h.perm.trans (hheld.symm.append_left ended)

/-- When nothing is held, everything has ended. -/
theorem ended_perm (h : Balanced made ended []) : ended.Perm (List.range made) := by
  have hperm := h.perm
  rw [List.append_nil] at hperm
  exact hperm.symm

end Balanced

section Cells

variable {α : Type*} (f : α → List ℕ)

/-- A cell that is written gives up what it held for what it holds then. -/
theorem flatMap_set {cells : List α} {i : ℕ} {a : α} (h : cells[i]?=some a) (b : α) :
    (f a++(cells.set i b).flatMap f).Perm (f b++cells.flatMap f) := by
  induction cells generalizing i with
  | nil => cases h
  | cons x cells ih =>
    cases i with
    | zero =>
      obtain rfl : x=a := Option.some.inj h
      rw [List.set_cons_zero,List.flatMap_cons,List.flatMap_cons]
      exact List.perm_append_comm_assoc _ _ _
    | succ i =>
      have hrest := ih (List.getElem?_cons_succ ▸ h)
      rw [List.set_cons_succ,List.flatMap_cons,List.flatMap_cons]
      exact (List.perm_append_comm_assoc _ _ _).trans
        ((hrest.append_left (f x)).trans (List.perm_append_comm_assoc _ _ _))

/-- Writing a cell exchanges what it holds, also behind other places. -/
theorem append_flatMap_set {cells : List α} {i : ℕ} {a : α} (h : cells[i]?=some a) (b : α)
    (front : List ℕ) :
    (f a++(front++(cells.set i b).flatMap f)).Perm (f b++(front++cells.flatMap f)) := by
  have hcells := (flatMap_set f h b).append_left front
  exact (List.perm_append_comm_assoc _ _ _).trans
    (hcells.trans (List.perm_append_comm_assoc _ _ _))

/-- Writing a cell exchanges what it holds, also in front of other places. -/
theorem flatMap_set_append {cells : List α} {i : ℕ} {a : α} (h : cells[i]?=some a) (b : α)
    (back : List ℕ) :
    (f a++((cells.set i b).flatMap f++back)).Perm (f b++(cells.flatMap f++back)) := by
  have hcells := (flatMap_set f h b).append_right back
  rwa [List.append_assoc,List.append_assoc] at hcells

/-- A new cell holds what it was made with. -/
theorem append_flatMap_concat (cells : List α) (b : α) (front : List ℕ) :
    (front++(cells++[b]).flatMap f).Perm (f b++(front++cells.flatMap f)) := by
  rw [List.flatMap_append,List.flatMap_singleton,←List.append_assoc]
  exact List.perm_append_comm

/-- Cells that hold one thing at most hold as many as there are such cells, at most. -/
theorem length_flatMap_le {p : α → Bool} (hf : ∀ a,(f a).length ≤ if p a then 1 else 0)
    (cells : List α) : (cells.flatMap f).length ≤ cells.countP p := by
  induction cells with
  | nil => exact le_refl _
  | cons a cells ih =>
    have hhead := hf a
    rw [List.flatMap_cons,List.length_append,List.countP_cons]
    omega

end Cells

end HoneyDew.Balance
