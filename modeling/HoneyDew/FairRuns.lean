import HoneyDew.StepSystem
import Mathlib.Data.Nat.Notation
import Mathlib.Data.Nat.Init

/-!
# Steps of one party and fair runs

Among the labels of a step system some belong to one party. A measure that this
party's steps lower and the others' do not raise counts the steps it has left. In an infinite
run that does not pass the party over forever, the measure comes down to zero.
-/

namespace HoneyDew.FairRuns

open StepSystem

variable {σ α : Type*}

/-- A measure of the steps that a party has left, under an invariant. -/
structure Measure (step : σ → α → Option σ) (own : α → Bool) (inv : σ → Prop) (m : σ → ℕ) : Prop where
  /-- Every step keeps the invariant. -/
  kept : ∀ s a t,inv s → step s a=some t → inv t
  /-- A step of another party does not raise the measure. -/
  other : ∀ s a t,inv s → own a=false → step s a=some t → m t ≤ m s
  /-- A step of the party lowers it while it is not zero. -/
  lowers : ∀ s a t,inv s → own a=true → step s a=some t → m t ≤ m s-1

section Finite

variable {step : σ → α → Option σ} {own : α → Bool} {inv : σ → Prop} {m : σ → ℕ}

/-- Every step of the party takes one off the measure. -/
theorem Measure.run (hm : Measure step own inv m) {s t : σ} {labels : List α} (hs : inv s)
    (hrun : execute step s labels=some t) : m t ≤ m s-labels.countP own := by
  induction labels generalizing s with
  | nil =>
    cases hrun
    exact Nat.le_refl _
  | cons a labels ih =>
    obtain ⟨u,hu,hrest⟩ := execute_cons hrun
    have hlater := ih (hm.kept s a u hs hu) hrest
    rw [List.countP_cons]
    cases hown : own a with
    | false =>
      have hle := hm.other s a u hs hown hu
      rw [if_neg Bool.false_ne_true]
      omega
    | true =>
      have hlt := hm.lowers s a u hs hown hu
      rw [if_pos rfl]
      omega

/-- Where each step of the party takes exactly one off and the others none, the steps
taken are the difference. -/
theorem countP_add_measure (hinv : ∀ s a t,inv s → step s a=some t → inv t)
    (hexact : ∀ s a t,inv s → step s a=some t → m t+(if own a=true then 1 else 0)=m s)
    {s t : σ} {labels : List α} (hs : inv s) (hrun : execute step s labels=some t) :
    labels.countP own+m t=m s := by
  induction labels generalizing s with
  | nil =>
    cases hrun
    exact Nat.zero_add _
  | cons a labels ih =>
    obtain ⟨u,hu,hrest⟩ := execute_cons hrun
    have hlater := ih (hinv s a u hs hu) hrest
    have hfirst := hexact s a u hs hu
    rw [List.countP_cons]
    omega

end Finite

/-- An infinite run; where there is no label the system rests. -/
structure Run (step : σ → α → Option σ) where
  /-- The state at every time. -/
  state : ℕ → σ
  /-- The label taken at every time. -/
  label : ℕ → Option α
  /-- A label leads to the next state. -/
  next : ∀ n a,label n=some a → step (state n) a=some (state (n+1))
  /-- Without a label the state stays. -/
  rest : ∀ n,label n=none → state (n+1)=state n

/-- The party is not passed over forever: where one of its labels is enabled at all
times from some time on, it takes a step. -/
def WeaklyFair {step : σ → α → Option σ} (run : Run step) (own : α → Bool) : Prop :=
  ∀ i,(∀ j,i ≤ j → ∃ a,own a=true ∧ (step (run.state j) a).isSome=true) →
    ∃ j a,i ≤ j ∧ run.label j=some a ∧ own a=true

namespace Run

variable {step : σ → α → Option σ} (run : Run step)

/-- What every step keeps holds from then on. -/
theorem invariant {inv : σ → Prop} (hstep : ∀ s a t,inv s → step s a=some t → inv t) {i j : ℕ}
    (hij : i ≤ j) (hi : inv (run.state i)) : inv (run.state j) := by
  induction j,hij using Nat.le_induction with
  | base => exact hi
  | succ j _ ih =>
    cases hlabel : run.label j with
    | none =>
      rw [run.rest j hlabel]
      exact ih
    | some a => exact hstep _ a _ ih (run.next j a hlabel)

/-- The labels taken between two times. -/
def labels (run : Run step) (i : ℕ) : ℕ → List α
  | 0 => []
  | k+1 => (run.label i).toList++labels run (i+1) k

/-- A stretch of a run is an execution. -/
theorem execute_labels (i k : ℕ) :
    execute step (run.state i) (run.labels i k)=some (run.state (i+k)) := by
  induction k generalizing i with
  | zero => rfl
  | succ k ih =>
    have hlater := ih (i+1)
    rw [Nat.add_right_comm] at hlater
    rw [labels]
    cases hlabel : run.label i with
    | none =>
      rw [← run.rest i hlabel]
      exact hlater
    | some a =>
      rw [Option.toList_some,List.singleton_append,execute,run.next i a hlabel]
      exact hlater

end Run

/-- The front of an execution is one. -/
theorem execute_take {step : σ → α → Option σ} {s t : σ} {labels : List α}
    (h : execute step s labels=some t) (n : ℕ) : ∃ u,execute step s (labels.take n)=some u := by
  induction labels generalizing s n with
  | nil => exact ⟨s,by rw [List.take_nil]; rfl⟩
  | cons a labels ih =>
    obtain ⟨u,hu,hrest⟩ := execute_cons h
    cases n with
    | zero => exact ⟨s,rfl⟩
    | succ n =>
      obtain ⟨v,hv⟩ := ih hrest n
      exact ⟨v,by rw [List.take_succ_cons,execute,hu]; exact hv⟩

/-- A finite execution and then rest. -/
def Run.resting {step : σ → α → Option σ} {s t : σ} {labels : List α}
    (h : execute step s labels=some t) : Run step where
  state n := (execute step s (labels.take n)).getD t
  label n := labels[n]?
  next := by
    intro n a hlabel
    obtain ⟨u,hu⟩ := execute_take h n
    obtain ⟨v,hv⟩ := execute_take h (n+1)
    have hlast := hv
    rw [List.take_add_one,hlabel,Option.toList_some,execute_append hu] at hlast
    obtain ⟨w,hw,hend⟩ := execute_cons hlast
    rw [hu,hv,Option.getD_some,Option.getD_some,hw]
    exact hend
  rest := by
    intro n hlabel
    rw [List.take_add_one,hlabel,Option.toList_none,List.append_nil]

/-- A run that rests at its end is fair to a party that can do nothing there. -/
theorem fair_resting {step : σ → α → Option σ} {own : α → Bool} {s t : σ} {labels : List α}
    (h : execute step s labels=some t) (hend : ∀ a,own a=true → step t a=none) :
    WeaklyFair (Run.resting h) own := by
  intro i henabled
  obtain ⟨a,hown,hstep⟩ := henabled (i+labels.length) (Nat.le_add_right _ _)
  have hlast : (Run.resting h).state (i+labels.length)=t := by
    change (execute step s (labels.take (i+labels.length))).getD t=t
    rw [List.take_of_length_le (Nat.le_add_left _ _),h,Option.getD_some]
  rw [hlast,hend a hown] at hstep
  cases hstep

/-- In a fair run a measure comes down to zero, where the party can always move while
the measure is positive. -/
theorem eventually_zero {step : σ → α → Option σ} {own : α → Bool} {inv : σ → Prop} {m : σ → ℕ}
    (hm : Measure step own inv m) (henabled : ∀ s,inv s → 0 < m s →
      ∃ a,own a=true ∧ (step s a).isSome=true) {run : Run step} (hfair : WeaklyFair run own)
    {i : ℕ} (hi : inv (run.state i)) : ∃ j,i ≤ j ∧ m (run.state j)=0 := by
  induction hvalue : m (run.state i) using Nat.strongRecOn generalizing i with
  | ind value ih =>
    by_cases hzero : value=0
    · exact ⟨i,Nat.le_refl i,by omega⟩
    have hinv : ∀ j,i ≤ j → inv (run.state j) := fun j hij => run.invariant hm.kept hij hi
    by_cases hlower : ∃ j,i ≤ j ∧ m (run.state j)<value
    · obtain ⟨j,hij,hlt⟩ := hlower
      obtain ⟨k,hjk,hk⟩ := ih _ hlt (hinv j hij) rfl
      exact ⟨k,by omega,hk⟩
    · -- Otherwise the party could always move, so that it does once, which lowers the measure.
      have hhigh : ∀ j,i ≤ j → value ≤ m (run.state j) := by
        intro j hij
        by_contra hlt
        exact hlower ⟨j,hij,by omega⟩
      obtain ⟨j,a,hij,hlabel,hown⟩ := hfair i (fun j hij =>
        henabled _ (hinv j hij) (by have hge := hhigh j hij; omega))
      have hle : m (run.state j) ≤ value := by
        have hrun := run.execute_labels i (j-i)
        have hsum : i+(j-i)=j := by omega
        rw [hsum] at hrun
        have hmeasure := hm.run hi hrun
        omega
      have hdown := hm.lowers _ a _ (hinv j hij) hown (run.next j a hlabel)
      have hge := hhigh (j+1) (by omega)
      omega

end HoneyDew.FairRuns
