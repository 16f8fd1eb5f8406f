import Mathlib.Algebra.Ring.Nat
import Mathlib.Tactic.Common

/-!
# Newline-terminated lines

A text is cut behind every occurrence of a terminator; what stands behind the
last one is not a line. A text written as terminated pieces has exactly these
pieces as its lines if and only if no piece contains the terminator.
-/

namespace HoneyDew.TextLines

variable {β : Type*} [DecidableEq β]

/-- The lines of a text whose first line has started with `current`. -/
def linesFrom (terminator : β) (current : List β) : List β → List (List β)
  | [] => []
  | b::bs =>
    if b=terminator then current::linesFrom terminator [] bs
    else linesFrom terminator (current++[b]) bs

/-- The terminated lines of a text. -/
def lines (terminator : β) (written : List β) : List (List β) := linesFrom terminator [] written

/-- There are as many lines as terminators. -/
theorem length_linesFrom (terminator : β) (current written : List β) :
    (linesFrom terminator current written).length=written.count terminator := by
  induction written generalizing current with
  | nil => rfl
  | cons b bs ih =>
    rw [linesFrom]
    by_cases hb : b=terminator
    · rw [if_pos hb,List.length_cons,ih,hb,List.count_cons_self]
    · rw [if_neg hb,ih,List.count_cons_of_ne hb]

/-- A piece without the terminator ends at the terminator behind it. -/
theorem linesFrom_terminated {terminator : β} {piece : List β} (h : terminator∉piece)
    (current rest : List β) :
    linesFrom terminator current (piece++terminator::rest)=
      (current++piece)::linesFrom terminator [] rest := by
  induction piece generalizing current with
  | nil => rw [List.nil_append,linesFrom,if_pos rfl,List.append_nil]
  | cons b piece ih =>
    have hb : b≠terminator := fun he => h (he ▸ List.mem_cons_self)
    have hpiece : terminator∉piece := fun hm => h (List.mem_cons_of_mem _ hm)
    rw [List.cons_append,linesFrom,if_neg hb,ih hpiece,List.append_assoc,List.singleton_append]

/-- The number of terminators in a text of terminated pieces. -/
theorem count_terminated {α : Type*} (terminator : β) (piece : α → List β) (xs : List α) :
    (xs.flatMap (fun x => piece x++[terminator])).count terminator=
      (xs.map (fun x => (piece x).count terminator)).sum+xs.length := by
  induction xs with
  | nil => rfl
  | cons x xs ih =>
    have hone : (piece x++[terminator]).count terminator=(piece x).count terminator+1 := by
      rw [List.count_append,List.count_singleton_self]
    rw [List.flatMap_cons,List.count_append,ih,hone,List.map_cons,List.sum_cons,List.length_cons]
    omega

/-- With no more terminators than pieces, no piece contains one. -/
theorem free_of_count {α : Type*} {terminator : β} {piece : α → List β} {xs : List α}
    (h : (xs.flatMap (fun x => piece x++[terminator])).count terminator=xs.length) :
    ∀ x∈xs,terminator∉piece x := by
  intro x hx hmem
  rw [count_terminated] at h
  have hzero : (xs.map (fun x => (piece x).count terminator)).sum=0 := by omega
  have hx0 := List.sum_eq_zero_iff_forall_eq_nat.mp hzero _ (List.mem_map_of_mem hx)
  exact List.count_eq_zero.mp hx0 hmem

/-- A text of terminated pieces has the pieces as its lines exactly when no
piece contains the terminator. -/
theorem lines_terminated {α : Type*} (terminator : β) (piece : α → List β) (xs : List α) :
    lines terminator (xs.flatMap (fun x => piece x++[terminator]))=xs.map piece ↔
      ∀ x∈xs,terminator∉piece x := by
  constructor
  · intro h
    have hlength := congrArg List.length h
    rw [lines,length_linesFrom,List.length_map] at hlength
    exact free_of_count hlength
  · intro h
    induction xs with
    | nil => rfl
    | cons x xs ih =>
      have hrest := ih (fun y hy => h y (List.mem_cons_of_mem _ hy))
      have hfirst := linesFrom_terminated (h x List.mem_cons_self) []
        (xs.flatMap (fun x => piece x++[terminator]))
      rw [List.flatMap_cons,List.append_assoc,List.singleton_append,lines,hfirst,List.nil_append,
        List.map_cons]
      exact congrArg _ hrest

/-- Terminated pieces have as many lines as pieces exactly when no piece holds a terminator.
-/
theorem length_lines_terminated {α : Type*} (terminator : β) (piece : α → List β) (xs : List α) :
    (lines terminator (xs.flatMap (fun x => piece x++[terminator]))).length=xs.length ↔
      ∀ x∈xs,terminator∉piece x := by
  constructor
  · intro h
    rw [lines,length_linesFrom] at h
    exact free_of_count h
  · intro h
    rw [(lines_terminated terminator piece xs).mpr h,List.length_map]

end HoneyDew.TextLines
