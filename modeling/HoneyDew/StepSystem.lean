import Mathlib.Data.List.Basic

/-!
# Labelled step systems and guarded executions

A step function computes the successor of a state for one label, or nothing
when the label is disabled there. Every scheduling choice is part of the
label, so an interleaving is exactly a list of labels. Executions whose every
step meets a guard keep each invariant that the guarded steps keep.
-/

namespace HoneyDew.StepSystem

variable {σ α : Type*}

/-- Run the labels in order; one disabled label leaves no final state. -/
def execute (step : σ → α → Option σ) : σ → List α → Option σ
  | s,[] => some s
  | s,a::as => match step s a with
    | some t => execute step t as
    | none => none

/-- Every label meets the guard in the state it is taken from. Labels after a
disabled one are never taken and carry no obligation. -/
def Guarded (step : σ → α → Option σ) (guard : σ → α → Prop) : σ → List α → Prop
  | _,[] => True
  | s,a::as => guard s a ∧ match step s a with
    | some t => Guarded step guard t as
    | none => True

instance decidableGuarded (step : σ → α → Option σ) (guard : σ → α → Prop)
    [∀ s a, Decidable (guard s a)] : ∀ s as, Decidable (Guarded step guard s as)
  | _,[] => inferInstanceAs (Decidable True)
  | s,a::as =>
    have : Decidable (match step s a with
        | some t => Guarded step guard t as
        | none => True) := by
      cases step s a with
      | none => exact inferInstanceAs (Decidable True)
      | some t => exact decidableGuarded step guard t as
    inferInstanceAs (Decidable (guard s a ∧ _))

@[simp] theorem execute_nil (step : σ → α → Option σ) (s : σ) : execute step s []=some s := rfl

@[simp] theorem guarded_nil (step : σ → α → Option σ) (guard : σ → α → Prop) (s : σ) :
    Guarded step guard s [] := trivial

/-- The first step of a nonempty execution is enabled, and the rest continues
from the state it reaches. -/
theorem execute_cons {step : σ → α → Option σ} {s u : σ} {a : α} {as : List α}
    (h : execute step s (a::as)=some u) : ∃ t, step s a=some t ∧ execute step t as=some u := by
  unfold execute at h
  cases ht : step s a with
  | none => rw [ht] at h; exact absurd h (by simp only [reduceCtorEq,not_false_eq_true])
  | some t => rw [ht] at h; exact ⟨t,rfl,h⟩

/-- Executions one behind the other. -/
theorem execute_append {step : σ → α → Option σ} {s t : σ} {as : List α}
    (h : execute step s as=some t) (later : List α) :
    execute step s (as++later)=execute step t later := by
  induction as generalizing s with
  | nil =>
    cases h
    rfl
  | cons a as ih =>
    obtain ⟨u,hu,hrest⟩ := execute_cons h
    rw [List.cons_append,execute,hu]
    exact ih hrest

/-- A guarded execution splits at its first enabled step in the same way. -/
theorem guarded_cons {step : σ → α → Option σ} {guard : σ → α → Prop} {s t : σ} {a : α}
    {as : List α} (h : Guarded step guard s (a::as)) (ht : step s a=some t) :
    guard s a ∧ Guarded step guard t as := by
  unfold Guarded at h
  rw [ht] at h
  exact h

/-- Every execution meets the trivial guard. -/
theorem guarded_true (step : σ → α → Option σ) (s : σ) (as : List α) :
    Guarded step (fun _ _ => True) s as := by
  induction as generalizing s with
  | nil => trivial
  | cons a as ih =>
    refine ⟨trivial,?_⟩
    cases step s a with
    | none => trivial
    | some t => exact ih t

/-- The guarded induction rule: what every guarded step keeps holds after
every guarded execution from a state where it holds. -/
theorem guarded_invariant {step : σ → α → Option σ} {guard : σ → α → Prop} {inv : σ → Prop}
    (hstep : ∀ s a t, inv s → guard s a → step s a=some t → inv t)
    {s u : σ} {as : List α} (hs : inv s) (hguard : Guarded step guard s as)
    (hrun : execute step s as=some u) : inv u := by
  induction as generalizing s with
  | nil => cases hrun; exact hs
  | cons a as ih =>
    obtain ⟨t,ht,hrest⟩ := execute_cons hrun
    obtain ⟨hg,hgs⟩ := guarded_cons hguard ht
    exact ih (hstep s a t hs hg ht) hgs hrest

/-- The guarded rule for an invariant that also speaks of the labels taken so
far, in the order they were taken. -/
theorem guarded_trace_invariant {step : σ → α → Option σ} {guard : σ → α → Prop}
    {inv : List α → σ → Prop}
    (hstep : ∀ as s a t, inv as s → guard s a → step s a=some t → inv (as++[a]) t)
    {s u : σ} {past as : List α} (hs : inv past s) (hguard : Guarded step guard s as)
    (hrun : execute step s as=some u) : inv (past++as) u := by
  induction as generalizing s past with
  | nil => cases hrun; rw [List.append_nil]; exact hs
  | cons a as ih =>
    obtain ⟨t,ht,hrest⟩ := execute_cons hrun
    obtain ⟨hg,hgs⟩ := guarded_cons hguard ht
    have h := ih (hstep past s a t hs hg ht) hgs hrest
    rwa [List.append_assoc,List.singleton_append] at h

/-- The unguarded rule is the guarded one under the trivial guard. -/
theorem execute_invariant {step : σ → α → Option σ} {inv : σ → Prop}
    (hstep : ∀ s a t, inv s → step s a=some t → inv t)
    {s u : σ} {as : List α} (hs : inv s) (hrun : execute step s as=some u) : inv u :=
  guarded_invariant (fun s a t hi _ ht => hstep s a t hi ht) hs (guarded_true step s as) hrun

/-- The unguarded rule for an invariant that speaks of the labels taken. -/
theorem execute_trace_invariant {step : σ → α → Option σ} {inv : List α → σ → Prop}
    (hstep : ∀ as s a t, inv as s → step s a=some t → inv (as++[a]) t)
    {s u : σ} {past as : List α} (hs : inv past s) (hrun : execute step s as=some u) :
    inv (past++as) u :=
  guarded_trace_invariant (fun as s a t hi _ ht => hstep as s a t hi ht) hs (guarded_true step s as)
    hrun

/-- The progress rule: when a guarded step from a state where the invariant
holds is always enabled and keeps it, a guarded execution never gets stuck. The
invariant may need a bound on the labels taken. -/
theorem guarded_trace_progress {step : σ → α → Option σ} {guard : σ → α → Prop}
    {inv : List α → σ → Prop} {bound : ℕ}
    (hstep : ∀ as s a, as.length<bound → inv as s → guard s a →
      ∃ t, step s a=some t ∧ inv (as++[a]) t)
    {s : σ} {past as : List α} (hs : inv past s) (hbound : past.length+as.length ≤ bound)
    (hguard : Guarded step guard s as) : ∃ u, execute step s as=some u ∧ inv (past++as) u := by
  induction as generalizing s past with
  | nil => exact ⟨s,rfl,by rw [List.append_nil]; exact hs⟩
  | cons a as ih =>
    rw [List.length_cons] at hbound
    obtain ⟨t,ht,hinv⟩ := hstep past s a (by omega) hs hguard.1
    have hrest := (guarded_cons hguard ht).2
    have hlength : (past++[a]).length+as.length ≤ bound := by
      rw [List.length_append,List.length_singleton]
      omega
    obtain ⟨u,hu,hend⟩ := ih hinv hlength hrest
    rw [List.append_assoc,List.singleton_append] at hend
    exact ⟨u,by rw [execute,ht]; exact hu,hend⟩

end HoneyDew.StepSystem
