import Mathlib.Data.List.Infix

/-!
# Machines that answer every input at once

A machine takes its inputs one by one and puts out what it has to say about
each before it takes the next. What it puts out for the first inputs so stands
in front of what it puts out for all of them.
-/

namespace HoneyDew.Mealy

variable {σ α ω : Type*}

/-- The state and the output behind some inputs. -/
def feed (step : σ → α → σ×List ω) (q : σ) : List α → σ×List ω
  | [] => (q,[])
  | a::as =>
    let rest := feed step (step q a).1 as
    (rest.1,(step q a).2++rest.2)

variable (step : σ → α → σ×List ω)

@[simp] theorem feed_nil (q : σ) : feed step q []=(q,[]) := rfl

/-- The first input and the others. -/
theorem feed_cons (q : σ) (a : α) (as : List α) :
    feed step q (a::as)=((feed step (step q a).1 as).1,(step q a).2++(feed step (step q a).1 as).2) :=
  rfl

/-- Inputs one behind the other. -/
theorem feed_append (q : σ) (xs ys : List α) :
    feed step q (xs++ys)=
      ((feed step (feed step q xs).1 ys).1,(feed step q xs).2++(feed step (feed step q xs).1 ys).2) := by
  induction xs generalizing q with
  | nil => rfl
  | cons a xs ih => rw [List.cons_append,feed_cons,ih,feed_cons,List.append_assoc]

/-- A state that the inputs keep and in which they put out nothing. -/
theorem feed_silent {q : σ} {as : List α} (h : ∀ a∈as,step q a=(q,[])) : feed step q as=(q,[]) := by
  induction as with
  | nil => rfl
  | cons a as ih =>
    rw [feed_cons,h a List.mem_cons_self,ih (fun b hb => h b (List.mem_cons_of_mem _ hb))]
    rfl

/-- What a test finds in the inputs, each in the state it comes in. -/
def selected {γ : Type*} (test : σ → α → Option γ) (q : σ) : List α → List γ
  | [] => []
  | a::as => (test q a).toList++selected test (step q a).1 as

/-- A projection of the output that every step takes from the inputs found. -/
theorem flatMap_output {β γ : Type*} {test : σ → α → Option γ} {pick : ω → List β} {piece : γ → List β}
    (h : ∀ q a,(step q a).2.flatMap pick=(test q a).toList.flatMap piece) (q : σ) (as : List α) :
    (feed step q as).2.flatMap pick=(selected step test q as).flatMap piece := by
  induction as generalizing q with
  | nil => rfl
  | cons a as ih =>
    rw [feed_cons,selected,List.flatMap_append,List.flatMap_append,h,ih]

/-- Every input found is one of the inputs. -/
theorem mem_of_selected {γ : Type*} {test : σ → α → Option γ} {q : σ} {as : List α} {c : γ}
    (h : c∈selected step test q as) : ∃ q' a,a∈as ∧ test q' a=some c := by
  induction as generalizing q with
  | nil => exact absurd h List.not_mem_nil
  | cons a as ih =>
    rw [selected] at h
    rcases List.mem_append.mp h with hfirst|hlater
    · exact ⟨q,a,List.mem_cons_self,Option.mem_toList.mp hfirst⟩
    · obtain ⟨q',b,hb,htest⟩ := ih hlater
      exact ⟨q',b,List.mem_cons_of_mem _ hb,htest⟩

end HoneyDew.Mealy
