import HoneyDew.AuditTrail
import HoneyDew.FairRuns

/-!
# How long an accepted event waits

The flush thread needs at most two of its steps to write what the ring holds, and behind
the shutdown at most three to return. It waits only for an empty ring of a running trail.
What is accepted behind its last drain is never written.
-/

namespace HoneyDew.AuditDrain

open CText RingQueue StepSystem FairRuns AuditTrail

/-- The label is a step of the flush thread. -/
def isFlush : AuditLabel → Bool
  | .test => true
  | .batch _ => true
  | .finalDrain _ => true
  | _ => false

/-- The steps to the return of a thread that finds the running flag cleared. -/
def stepsLeft : FlushPhase → ℕ
  | .waiting => 3
  | .testing => 2
  | .leaving => 1
  | .finished => 0

/-- The steps until so many records have been written. -/
def debt (n : ℕ) (s : AuditRun) : ℕ :=
  if n ≤ s.handed.length then 0 else if s.flush=.testing then 2 else 1

/-- One locked pass over the ring, in the loop or behind it. -/
structure Drains (s t : AuditRun) : Prop where
  /-- The loop goes on behind a batch, and the thread returns behind the last pass. -/
  phase : s.flush=.waiting ∧ t.flush=.testing ∨ s.flush=.leaving ∧ t.flush=.finished
  /-- Nothing is accepted meanwhile. -/
  accepted : t.accepted=s.accepted
  /-- The ring is empty behind it. -/
  count : t.trail.count=0
  /-- The running flag stays. -/
  running : t.trail.running=s.trail.running
  /-- What was written stays written. -/
  handed : s.handed<+:t.handed

/-- A step of a recording thread or of the shutdown. -/
structure Leaves (s t : AuditRun) : Prop where
  /-- The flush thread stands where it stood. -/
  flush : t.flush=s.flush
  /-- Nothing is written. -/
  handed : t.handed=s.handed
  /-- Accepted events stay accepted. -/
  accepted : s.accepted<+:t.accepted
  /-- A stopped trail is not started again. -/
  running : s.trail.running=false → t.trail.running=false

variable {localtime : ℤ → Bytes} {logFile : Bytes}

section Steps

variable {past : List AuditLabel} {s t : AuditRun} {a : AuditLabel}

/-- What a step can do to the flush thread. -/
theorem step_cases (h : auditStep localtime s a=some t) :
    isFlush a=false ∧ Leaves s t ∨
      isFlush a=true ∧ s.flush=.testing ∧
        t={s with flush := if s.trail.running=true then .waiting else .leaving} ∨
      isFlush a=true ∧ Drains s t := by
  cases a with
  | record now e =>
    rw [auditStep,auditRecordEvent] at h
    by_cases hfull : s.trail.capacity ≤ s.trail.count
    · rw [if_pos hfull] at h
      cases h
      exact Or.inl ⟨rfl,rfl,rfl,List.prefix_refl _,fun hstopped => hstopped⟩
    · rw [if_neg hfull] at h
      cases h
      exact Or.inl ⟨rfl,rfl,rfl,List.prefix_append _ _,fun hstopped => hstopped⟩
  | test =>
    rw [auditStep] at h
    by_cases hphase : s.flush=.testing
    · rw [if_pos hphase] at h
      cases h
      exact Or.inr (Or.inl ⟨rfl,hphase,rfl⟩)
    · rw [if_neg hphase] at h
      cases h
  | batch reopened =>
    rw [auditStep] at h
    by_cases hphase : s.flush=.waiting ∧ (0<s.trail.count ∨ s.trail.running=false)
    · rw [if_pos hphase] at h
      cases h
      exact Or.inr (Or.inr ⟨rfl,Or.inl ⟨hphase.1,rfl⟩,rfl,rfl,rfl,List.prefix_append _ _⟩)
    · rw [if_neg hphase] at h
      cases h
  | shutdown =>
    cases h
    exact Or.inl ⟨rfl,rfl,rfl,List.prefix_refl _,fun _ => rfl⟩
  | finalDrain reopened =>
    rw [auditStep] at h
    by_cases hphase : s.flush=.leaving
    · rw [if_pos hphase] at h
      cases h
      exact Or.inr (Or.inr ⟨rfl,Or.inr ⟨hphase,rfl⟩,rfl,rfl,rfl,List.prefix_append _ _⟩)
    · rw [if_neg hphase] at h
      cases h

/-- Every accepted event has been written or waits in the ring. -/
theorem length_accepted (hs : Consistent localtime logFile past s) :
    s.handed.length+s.trail.count=s.accepted.length := by
  have hlengths := congrArg List.length hs.stored
  rwa [List.length_map,List.length_append,List.length_mapIdx,pending,length_contents] at hlengths

/-- Behind a pass everything accepted has been written. -/
theorem Drains.written (h : Drains s t) (ht : Consistent localtime logFile past t) :
    s.accepted.length=t.handed.length := by
  have hlength := length_accepted ht
  rw [h.count,h.accepted] at hlength
  omega

/-- Written records and accepted events only become more, and a stopped trail is not
started again. -/
theorem grows (h : auditStep localtime s a=some t) :
    s.handed<+:t.handed ∧ s.accepted<+:t.accepted ∧
      (s.trail.running=false → t.trail.running=false) := by
  rcases step_cases h with ⟨_,hleaves⟩|⟨_,_,rfl⟩|⟨_,hdrains⟩
  · exact ⟨hleaves.handed ▸ List.prefix_refl _,hleaves.accepted,hleaves.running⟩
  · exact ⟨List.prefix_refl _,List.prefix_refl _,fun hstopped => hstopped⟩
  · exact ⟨hdrains.handed,hdrains.accepted ▸ List.prefix_refl _,
      fun hstopped => hdrains.running.trans hstopped⟩

/-- A thread that has returned writes no more. -/
theorem finished_step (hfinished : s.flush=.finished) (h : auditStep localtime s a=some t) :
    t.flush=.finished ∧ t.handed=s.handed := by
  rcases step_cases h with ⟨_,hleaves⟩|⟨_,hphase,_⟩|⟨_,hdrains⟩
  · exact ⟨hleaves.flush.trans hfinished,hleaves.handed⟩
  · rw [hfinished] at hphase
    cases hphase
  · rcases hdrains.phase with ⟨hphase,_⟩|⟨hphase,_⟩
    · rw [hfinished] at hphase
      cases hphase
    · rw [hfinished] at hphase
      cases hphase

/-- A step of the thread is possible unless it waits for an empty ring of a running
trail or has returned. -/
theorem blocked_iff (s : AuditRun) :
    (∀ a,isFlush a=true → auditStep localtime s a=none) ↔
      s.flush=.finished ∨ s.flush=.waiting ∧ s.trail.count=0 ∧ s.trail.running=true := by
  constructor
  · intro h
    have htest := h .test rfl
    have hbatch := h (.batch (fun _ => none)) rfl
    have hfinal := h (.finalDrain (fun _ => none)) rfl
    rw [auditStep] at htest
    rw [auditStep] at hbatch
    rw [auditStep] at hfinal
    cases hphase : s.flush with
    | testing =>
      rw [if_pos hphase] at htest
      cases htest
    | leaving =>
      rw [if_pos hphase] at hfinal
      cases hfinal
    | finished => exact Or.inl rfl
    | waiting =>
      by_cases hready : 0<s.trail.count ∨ s.trail.running=false
      · rw [if_pos ⟨hphase,hready⟩] at hbatch
        cases hbatch
      · rw [not_or,Bool.not_eq_false] at hready
        exact Or.inr ⟨rfl,by omega,hready.2⟩
  · intro hphase a ha
    cases hstep : auditStep localtime s a with
    | none => rfl
    | some t =>
      cases a with
      | record now e => cases ha
      | shutdown => cases ha
      | test =>
        rw [auditStep] at hstep
        rcases hphase with hphase|⟨hphase,_⟩ <;> rw [hphase,if_neg (by decide)] at hstep <;>
          cases hstep
      | finalDrain reopened =>
        rw [auditStep] at hstep
        rcases hphase with hphase|⟨hphase,_⟩ <;> rw [hphase,if_neg (by decide)] at hstep <;>
          cases hstep
      | batch reopened =>
        rw [auditStep] at hstep
        rcases hphase with hphase|⟨hphase,hcount,hrunning⟩
        · rw [hphase,if_neg (by simp)] at hstep
          cases hstep
        · rw [hcount,hrunning,if_neg (by simp)] at hstep
          cases hstep

end Steps

/-- The thread can move unless it is blocked. -/
theorem exists_enabled {s : AuditRun} (hopen : s.flush≠.finished)
    (hready : s.trail.count≠0 ∨ s.trail.running=false) :
    ∃ a,isFlush a=true ∧ (auditStep localtime s a).isSome=true := by
  by_contra hnone
  have hblocked : ∀ a,isFlush a=true → auditStep localtime s a=none := by
    intro a ha
    by_contra hstep
    exact hnone ⟨a,ha,Option.isSome_iff_ne_none.mpr hstep⟩
  rcases (blocked_iff s).mp hblocked with hfinished|⟨_,hcount,hrunning⟩
  · exact hopen hfinished
  · rcases hready with hcount'|hstopped
    · exact hcount' hcount
    · rw [hstopped] at hrunning
      cases hrunning

/-! ## Steps left -/

/-- A consistent state that has written so many records, or has accepted as many events
and will drain again. -/
def Owes (localtime : ℤ → Bytes) (logFile : Bytes) (n : ℕ) (s : AuditRun) : Prop :=
  (∃ past,Consistent localtime logFile past s) ∧
    (n ≤ s.handed.length ∨ n ≤ s.accepted.length ∧ s.flush≠.finished)

/-- The steps until so many records have been written. -/
theorem measure_debt (n : ℕ) :
    Measure (auditStep localtime) isFlush (Owes localtime logFile n) (debt n) where
  kept := by
    rintro s a t ⟨⟨past,hpast⟩,howed⟩ h
    have ht := consistent_step localtime hpast h
    have hgrows := grows h
    refine ⟨⟨past++[a],ht⟩,?_⟩
    rcases howed with hwritten|⟨haccepted,hphase⟩
    · exact Or.inl (Nat.le_trans hwritten hgrows.1.length_le)
    rcases step_cases h with ⟨_,hleaves⟩|⟨_,_,rfl⟩|⟨_,hdrains⟩
    · exact Or.inr ⟨Nat.le_trans haccepted hgrows.2.1.length_le,hleaves.flush ▸ hphase⟩
    · refine Or.inr ⟨haccepted,?_⟩
      dsimp only
      split <;> decide
    · exact Or.inl (hdrains.written ht ▸ haccepted)
  other := by
    rintro s a t ⟨_,_⟩ hother h
    rcases step_cases h with ⟨_,hleaves⟩|⟨hown,_⟩|⟨hown,_⟩
    · rw [debt,debt,hleaves.handed,hleaves.flush]
    · rw [hother] at hown
      cases hown
    · rw [hother] at hown
      cases hown
  lowers := by
    rintro s a t ⟨⟨past,hpast⟩,howed⟩ hown h
    have ht := consistent_step localtime hpast h
    have hgrows := (grows h).1.length_le
    by_cases hwritten : n ≤ s.handed.length
    · rw [debt,if_pos (by omega)]
      exact Nat.zero_le _
    have haccepted := (howed.resolve_left hwritten).1
    rw [debt,debt,if_neg hwritten]
    rcases step_cases h with ⟨hother,_⟩|⟨_,hphase,rfl⟩|⟨_,hdrains⟩
    · rw [hother] at hown
      cases hown
    · have hleft : (if s.trail.running=true then FlushPhase.waiting else .leaving)≠.testing := by
        split <;> decide
      rw [if_pos hphase,if_neg hwritten,if_neg hleft]
    · rw [if_pos (hdrains.written ht ▸ haccepted)]
      exact Nat.zero_le _

/-- The trail has been stopped. -/
def Stopped (s : AuditRun) : Prop := s.trail.running=false

/-- A stopped trail stays stopped. -/
theorem stopped_step (s : AuditRun) (a : AuditLabel) (t : AuditRun) (hs : Stopped s)
    (h : auditStep localtime s a=some t) : Stopped t := (grows h).2.2 hs

/-- Behind the shutdown every step of the thread brings it nearer to its return. -/
theorem stepsLeft_step (s : AuditRun) (a : AuditLabel) (t : AuditRun) (hs : Stopped s)
    (h : auditStep localtime s a=some t) :
    stepsLeft t.flush+(if isFlush a=true then 1 else 0)=stepsLeft s.flush := by
  rcases step_cases h with ⟨hother,hleaves⟩|⟨hown,hphase,rfl⟩|⟨hown,hdrains⟩
  · rw [hother,hleaves.flush]
    rfl
  · have hleaving : ¬s.trail.running=true := by
      rw [show s.trail.running=false from hs]
      exact Bool.false_ne_true
    dsimp only
    rw [hown,hphase,if_neg hleaving]
    rfl
  · rw [hown]
    rcases hdrains.phase with ⟨hbefore,hbehind⟩|⟨hbefore,hbehind⟩
    · rw [hbefore,hbehind]
      rfl
    · rw [hbefore,hbehind]
      rfl

/-- The records that the thread has written when it returns. -/
def WroteAt (localtime : ℤ → Bytes) (logFile : Bytes) (past : List AuditLabel) (t : AuditRun) : Prop :=
  ∃ before reopened later u,past=before++.finalDrain reopened::later ∧
    execute (auditStep localtime) (.initial logFile) before=some u ∧
    t.handed.map AuditRecord.view=u.accepted.mapIdx acceptedEntry

/-- What a state says about the last drain. -/
def KnowsDrain (localtime : ℤ → Bytes) (logFile : Bytes) (past : List AuditLabel) (s : AuditRun) : Prop :=
  execute (auditStep localtime) (.initial logFile) past=some s ∧
    (s.flush=.finished → WroteAt localtime logFile past s)

/-- Every step keeps what is known of the last drain. -/
theorem knowsDrain_step (past : List AuditLabel) (s : AuditRun) (a : AuditLabel) (t : AuditRun)
    (hs : KnowsDrain localtime logFile past s) (h : auditStep localtime s a=some t) :
    KnowsDrain localtime logFile (past++[a]) t := by
  obtain ⟨hrun,hknown⟩ := hs
  have hstep : execute (auditStep localtime) s [a]=some t := by
    rw [execute,h]
    exact execute_nil _ t
  have hrun' : execute (auditStep localtime) (.initial logFile) (past++[a])=some t :=
    (execute_append hrun [a]).trans hstep
  refine ⟨hrun',?_⟩
  intro hfinished
  by_cases hbefore : s.flush=.finished
  · obtain ⟨before,reopened,later,u,hpast,hu,hwrote⟩ := hknown hbefore
    refine ⟨before,reopened,later++[a],u,?_,hu,?_⟩
    · rw [hpast,List.append_assoc,List.cons_append]
    · rw [(finished_step hbefore h).2,hwrote]
  · have ht := consistent_run localtime hrun'
    cases a with
    | finalDrain reopened =>
      refine ⟨past,reopened,[],s,rfl,hrun,?_⟩
      rcases step_cases h with ⟨hother,_⟩|⟨_,_,rfl⟩|⟨_,hdrains⟩
      · cases hother
      · dsimp only at hfinished
        split at hfinished <;> cases hfinished
      · have hstored := ht.stored
        rw [pending,hdrains.count,contents,List.append_nil,hdrains.accepted] at hstored
        exact hstored
    | record now e =>
      rcases step_cases h with ⟨_,hleaves⟩|⟨hown,_⟩|⟨hown,_⟩
      · exact absurd (hleaves.flush.symm.trans hfinished) hbefore
      · cases hown
      · cases hown
    | shutdown =>
      rcases step_cases h with ⟨_,hleaves⟩|⟨hown,_⟩|⟨hown,_⟩
      · exact absurd (hleaves.flush.symm.trans hfinished) hbefore
      · cases hown
      · cases hown
    | test =>
      rw [auditStep] at h
      split at h
      · cases h
        dsimp only at hfinished
        split at hfinished <;> cases hfinished
      · cases h
    | batch reopened =>
      rw [auditStep] at h
      split at h
      · cases h
        cases hfinished
      · cases h

/-- Accepted events stay accepted at their places. -/
theorem accepted_run {labels : List AuditLabel} (h : execute (auditStep localtime) s labels=some t) :
    s.accepted<+:t.accepted := by
  have hstep : ∀ u a v,s.accepted<+:u.accepted → auditStep localtime u a=some v →
      s.accepted<+:v.accepted := fun u a v hu hv => hu.trans (grows hv).2.1
  exact execute_invariant hstep (List.prefix_refl _) h

/-- An event accepted at the place of a written record stands there in the log. -/
theorem event_written (ht : Consistent localtime logFile past t) {events : List (ℤ×AuditEvent)}
    (hgrown : events<+:t.accepted) {k : ℕ} {event : ℤ×AuditEvent} (hevent : events[k]?=some event)
    (hwritten : k<t.handed.length) :
    ∃ record,t.handed[k]?=some record ∧ record.view=acceptedEntry k event ∧
      t.trail.currentLogFile=some (logFile++t.handed.flatMap (renderRecord localtime)) := by
  have hk := (List.getElem?_eq_some_iff.mp hevent).1
  have hthere : t.accepted[k]?=some event := by
    obtain ⟨later,hlater⟩ := hgrown
    rw [← hlater,List.getElem?_append_left hk,hevent]
  have hentry := congrArg (fun entries => entries[k]?) ht.stored
  refine ⟨t.handed[k],List.getElem?_eq_getElem hwritten,?_,ht.logged⟩
  rw [List.map_append,List.getElem?_append_left (by rwa [List.length_map]),List.getElem?_map,
    List.getElem?_eq_getElem hwritten,Option.map_some,List.getElem?_mapIdx,hthere,Option.map_some]
    at hentry
  exact Option.some.inj hentry

/-- From every reachable state on, two steps of the flush thread suffice to write every event
accepted up to there at its place, however the others' steps come between; so does its
return. Behind the shutdown it returns after exactly the steps it has left, and it is blocked
only by an empty ring of a running trail. When it has returned, the log holds what had been
accepted at its last drain, and nothing that came later. -/
theorem drained_within_two_steps (past : List AuditLabel) {s : AuditRun}
    (hrun : execute (auditStep localtime) (.initial logFile) past=some s) :
    (∀ labels t,execute (auditStep localtime) s labels=some t → s.flush≠.finished →
      2 ≤ labels.countP isFlush ∨ t.flush=.finished → ∀ k event,s.accepted[k]?=some event →
        ∃ record,t.handed[k]?=some record ∧ record.view=acceptedEntry k event ∧
          t.trail.currentLogFile=some (logFile++t.handed.flatMap (renderRecord localtime))) ∧
    (∀ labels t,execute (auditStep localtime) s labels=some t → s.trail.running=false →
      labels.countP isFlush+stepsLeft t.flush=stepsLeft s.flush) ∧
    ((∀ a,isFlush a=true → auditStep localtime s a=none) ↔
      s.flush=.finished ∨ s.flush=.waiting ∧ s.trail.count=0 ∧ s.trail.running=true) ∧
    (s.flush=.finished → WroteAt localtime logFile past s) := by
  have hs := consistent_run localtime hrun
  refine ⟨?_,?_,blocked_iff s,?_⟩
  · intro labels t hlabels hphase henough k event hevent
    have howes : Owes localtime logFile s.accepted.length s :=
      ⟨⟨past,hs⟩,Or.inr ⟨Nat.le_refl _,hphase⟩⟩
    have hmeasure : Measure (auditStep localtime) isFlush (Owes localtime logFile s.accepted.length)
        (debt s.accepted.length) := measure_debt s.accepted.length
    obtain ⟨⟨_,ht⟩,howed⟩ := execute_invariant hmeasure.kept howes hlabels
    have hdebt := hmeasure.run howes hlabels
    have hwritten : s.accepted.length ≤ t.handed.length := by
      rcases henough with htwo|hfinished
      · have hfirst : debt s.accepted.length s ≤ 2 := by
          unfold debt
          split
          · exact Nat.zero_le _
          · split <;> decide
        by_contra hmissing
        have hlast : 1 ≤ debt s.accepted.length t := by
          rw [debt,if_neg hmissing]
          split <;> decide
        omega
      · exact howed.resolve_right (fun hopen => hopen.2 hfinished)
    have hk := (List.getElem?_eq_some_iff.mp hevent).1
    exact event_written ht (accepted_run hlabels) hevent (Nat.lt_of_lt_of_le hk hwritten)
  · intro labels t hlabels hstopped
    exact countP_add_measure stopped_step stepsLeft_step hstopped hlabels
  · have hinitial : KnowsDrain localtime logFile [] (.initial logFile) := ⟨rfl,nofun⟩
    have hknown := execute_trace_invariant knowsDrain_step hinitial hrun
    exact hknown.2

/-- A run whose last event comes behind the last drain. -/
def lateLabels : List AuditLabel :=
  [.record 0 ⟨.connection,.low,13,none,6379,none,none,text "PING"⟩,.shutdown,.test,
    .finalDrain (fun _ => none),
    .record 0 ⟨.disconnection,.low,13,none,6379,none,none,text "QUIT"⟩]

/-- In the run with a late event that event is accepted and not written. -/
theorem late_event_not_written :
    ∃ s,execute (auditStep (fun _ => text "1970-01-01")) (.initial []) lateLabels=some s ∧
      WroteAt (fun _ => text "1970-01-01") [] lateLabels s ∧ s.accepted.length=2 ∧
      s.handed.length=1 :=
  ⟨_,rfl,(drained_within_two_steps lateLabels rfl).2.2.2 rfl,rfl,rfl⟩

/-! ## Fair runs -/

/-- A thread that has returned stays so with what it has written. -/
theorem finished_run (run : Run (auditStep localtime)) {j l : ℕ} (hjl : j ≤ l)
    (hj : (run.state j).flush=.finished) :
    (run.state l).flush=.finished ∧ (run.state l).handed=(run.state j).handed := by
  have hkept : ∀ s a t,s.flush=.finished ∧ s.handed=(run.state j).handed →
      auditStep localtime s a=some t → t.flush=.finished ∧ t.handed=(run.state j).handed := by
    rintro s a t ⟨hs,hhanded⟩ h
    obtain ⟨hflush,hsame⟩ := finished_step hs h
    exact ⟨hflush,hsame.trans hhanded⟩
  exact run.invariant hkept hjl ⟨hj,rfl⟩

/-- In every infinite run in which the flush thread is not passed over forever, each
event accepted before its return gets into the log at its place, and behind the shutdown
the thread returns for good. -/
theorem flush_thread_live (run : Run (auditStep localtime)) (hinit : run.state 0=.initial logFile)
    (hfair : WeaklyFair run isFlush) :
    (∀ i k event,(run.state i).flush≠.finished → (run.state i).accepted[k]?=some event →
      ∃ j record,i ≤ j ∧ (run.state j).handed[k]?=some record ∧ record.view=acceptedEntry k event ∧
        (run.state j).trail.currentLogFile=
          some (logFile++(run.state j).handed.flatMap (renderRecord localtime))) ∧
    ∀ i,(run.state i).trail.running=false → ∃ j,i ≤ j ∧ ∀ l,j ≤ l →
      (run.state l).flush=.finished ∧ (run.state l).handed=(run.state j).handed := by
  have hconsistent : ∀ i,∃ past,Consistent localtime logFile past (run.state i) := by
    intro i
    have hrun := run.execute_labels 0 i
    rw [hinit,Nat.zero_add] at hrun
    exact ⟨_,consistent_run localtime hrun⟩
  constructor
  · intro i k event hphase hevent
    have hk : k<(run.state i).accepted.length := by
      by_contra hlong
      rw [List.getElem?_eq_none (Nat.le_of_not_lt hlong)] at hevent
      cases hevent
    have howes : Owes localtime logFile (k+1) (run.state i) :=
      ⟨hconsistent i,Or.inr ⟨hk,hphase⟩⟩
    have henabled : ∀ s,Owes localtime logFile (k+1) s → 0<debt (k+1) s →
        ∃ a,isFlush a=true ∧ (auditStep localtime s a).isSome=true := by
      rintro s ⟨⟨past,hs⟩,howed⟩ hdebt
      have hmissing : ¬k+1 ≤ s.handed.length := by
        intro hwritten
        rw [debt,if_pos hwritten] at hdebt
        exact Nat.lt_irrefl 0 hdebt
      obtain ⟨haccepted,hopen⟩ := howed.resolve_left hmissing
      have hlength := length_accepted hs
      exact exists_enabled hopen (Or.inl (by omega))
    obtain ⟨j,hij,hzero⟩ := eventually_zero (measure_debt (k+1)) henabled hfair howes
    have hwritten : k<(run.state j).handed.length := by
      by_contra hmissing
      rw [debt,if_neg (show ¬k+1 ≤ (run.state j).handed.length from hmissing)] at hzero
      split at hzero <;> cases hzero
    obtain ⟨past,hj⟩ := hconsistent j
    have hstep : ∀ s a t,(run.state i).accepted<+:s.accepted → auditStep localtime s a=some t →
        (run.state i).accepted<+:t.accepted := fun s a t hs h => hs.trans (grows h).2.1
    have hgrown : (run.state i).accepted<+:(run.state j).accepted :=
      run.invariant hstep hij (List.prefix_refl _)
    obtain ⟨record,hrecord⟩ := event_written hj hgrown hevent hwritten
    exact ⟨j,record,hij,hrecord⟩
  · intro i hstopped
    have hmeasure : Measure (auditStep localtime) isFlush Stopped (fun s => stepsLeft s.flush) := by
      refine ⟨stopped_step,?_,?_⟩
      · intro s a t hs hother h
        have hexact := stepsLeft_step s a t hs h
        rw [hother] at hexact
        exact Nat.le_of_eq hexact
      · intro s a t hs hown h
        have hexact := stepsLeft_step s a t hs h
        rw [if_pos hown] at hexact
        omega
    have henabled : ∀ s,Stopped s → 0<stepsLeft s.flush →
        ∃ a,isFlush a=true ∧ (auditStep localtime s a).isSome=true := by
      intro s hs hleft
      refine exists_enabled ?_ (Or.inr hs)
      intro hfinished
      rw [hfinished] at hleft
      exact Nat.lt_irrefl 0 hleft
    obtain ⟨j,hij,hzero⟩ := eventually_zero hmeasure henabled hfair hstopped
    have hfinished : (run.state j).flush=.finished := by
      cases hphase : (run.state j).flush with
      | finished => rfl
      | testing | waiting | leaving =>
        rw [hphase] at hzero
        cases hzero
    exact ⟨j,hij,fun l hjl => finished_run run hjl hfinished⟩

/-- The thread of a run that rests behind its labels returns. -/
theorem late_run_live :
    ∃ run : Run (auditStep (fun _ => text "1970-01-01")),run.state 0=.initial [] ∧
      (run.state 2).trail.running=false ∧ ∃ j,2 ≤ j ∧ (run.state j).flush=.finished := by
  have hexecuted : ∃ s,execute (auditStep (fun _ => text "1970-01-01")) (.initial []) lateLabels=some s ∧
      s.flush=.finished := ⟨_,rfl,rfl⟩
  obtain ⟨s,hs,hfinished⟩ := hexecuted
  have hfair := fair_resting hs ((blocked_iff s).mpr (Or.inl hfinished))
  have hstopped : ((Run.resting hs).state 2).trail.running=false := rfl
  obtain ⟨j,hj,hreturned⟩ := (flush_thread_live (Run.resting hs) rfl hfair).2 2 hstopped
  exact ⟨Run.resting hs,rfl,hstopped,j,hj,(hreturned j (Nat.le_refl j)).1⟩

end HoneyDew.AuditDrain
