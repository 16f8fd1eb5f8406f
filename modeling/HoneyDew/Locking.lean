import HoneyDew.LockOrder

/-!
# The mutexes of the program and the signals that interrupt it

Every routine that takes a mutex is the path of its lock operations, nested as in
its source. Threads call routines in any order. SIGINT and SIGTERM run a handler
that logs on whatever thread they are delivered to, also on one that is logging.
-/

namespace HoneyDew.Locking

open StepSystem LockOrder

/-- The mutexes; every connection has one. -/
inductive Lock
  /-- `s_log_mutex` of the logger. -/
  | log
  /-- `mutex` of the audit trail. -/
  | audit
  /-- `lock` of the session table. -/
  | table
  /-- `mutex` of a connection. -/
  | conn (i : ℕ)
  /-- `mutex` of the connection semaphore. -/
  | semaphore
  deriving DecidableEq,Repr

/-- The routines that take a mutex. The numbers count what depends on the data: the
waits on a condition variable and the log lines written with the mutex held. -/
inductive Routine
  | utilitiesLog
  | utilitiesEnableFileLogging
  | auditRecordEvent
  | auditShutdown
  /-- One round of the flush thread, with the log files that it opens. -/
  | flushThreadFunc (waits openings : ℕ)
  | sessionTableAdd
  | sessionTableGet
  | sessionTableRemove
  | sessionTableDestroy
  | connectionAppendData (i : ℕ)
  | connectionConsumeBuffer (i : ℕ)
  | extractLine (i : ℕ)
  | handleHttp (i : ℕ)
  | handleSsh (i logs : ℕ)
  /-- The count of connections in `run_mysql_service`. -/
  | runMysqlService (i : ℕ)
  | connSemaphoreAcquire (waits : ℕ)
  | connSemaphoreRelease
  deriving DecidableEq,Repr

/-- What stands between the lock and the unlock of a mutex, with both. -/
def critical (l : Lock) (inner : List (Instr Lock)) : List (Instr Lock) :=
  .acquire l::(inner++[.release l])

/-- `utilities_log`. -/
def logging : List (Instr Lock) := critical .log []

/-- The operations of a path, so many times. -/
def times (n : ℕ) (path : List (Instr Lock)) : List (Instr Lock) := (List.replicate n path).flatten

/-- `pthread_cond_wait` and `pthread_cond_timedwait` with a mutex. -/
def condWait (l : Lock) : List (Instr Lock) := [.release l,.acquire l]

/-- The lock operations of a routine, in order. -/
def Routine.path : Routine → List (Instr Lock)
  | .utilitiesLog => logging
  | .utilitiesEnableFileLogging => critical .log []
  | .auditRecordEvent => critical .audit []
  | .auditShutdown => critical .audit []
  | .flushThreadFunc waits openings =>
    critical .audit (times waits (condWait .audit)++times openings logging)
  | .sessionTableAdd => critical .table []
  | .sessionTableGet => critical .table []
  | .sessionTableRemove => critical .table []
  | .sessionTableDestroy => critical .table []
  | .connectionAppendData i => critical (.conn i) []
  | .connectionConsumeBuffer i => critical (.conn i) []
  | .extractLine i => critical (.conn i) []
  | .handleHttp i => critical (.conn i) []
  | .handleSsh i logs => critical (.conn i) (times logs logging)
  | .runMysqlService i => critical (.conn i) []
  | .connSemaphoreAcquire waits => critical .semaphore (times waits (condWait .semaphore))
  | .connSemaphoreRelease => critical .semaphore []

/-- The lock operations of `signal_handler`. -/
def signalHandler : List (Instr Lock) := logging

/-- What happens to a thread. -/
inductive Act
  /-- A thread outside of all routines calls one. -/
  | call (t : ℕ) (r : Routine)
  /-- A thread goes on by one lock operation. -/
  | run (t : ℕ)
  /-- SIGINT or SIGTERM is delivered to a thread. -/
  | signal (t : ℕ)
  deriving DecidableEq,Repr

/-- An act as a step of the machine of threads and locks. -/
def Act.label : Act → Label ℕ Lock
  | .call t r => .call t r.path
  | .run t => .run t
  | .signal t => .interrupt t signalHandler

/-- One act; nothing when the thread cannot do it. -/
def step (s : Machine ℕ Lock) (a : Act) : Option (Machine ℕ Lock) := LockOrder.step s a.label

/-- Before any thread has called anything. -/
def initial : Machine ℕ Lock := Machine.idle

/-- A signal is not delivered to a thread that holds `s_log_mutex`. -/
def Calm (s : Machine ℕ Lock) : Act → Prop
  | .signal t => s.owner .log≠some t
  | _ => True

/-- The logger's mutex is taken last. -/
def rank : Lock → ℕ
  | .log => 1
  | _ => 0

/-- Logging is neutral when the logger's mutex is not held. -/
theorem neutral_logging {locks : Set Lock} (h : Lock.log∉locks) :
    Neutral rank locks logging := by
  have hrank : ∀ m∈locks,rank m<rank .log := by
    intro m hm
    cases m with
    | log => exact absurd hm h
    | _ => exact Nat.zero_lt_one
  exact Neutral.critical hrank (neutral_nil _)

/-- A critical section is ordered when nothing is held before. -/
theorem ordered_critical {l : Lock} {inner : List (Instr Lock)}
    (h : Neutral rank {l} inner) : Ordered rank ∅ (critical l inner) := by
  have hrank : ∀ m∈(∅ : Set Lock),rank m<rank l := fun m hm => absurd hm (Set.notMem_empty m)
  have hinner : Neutral rank (insert l ∅) inner := by
    rw [insert_empty_eq]
    exact h
  exact (Neutral.critical hrank hinner).ordered

/-- Every routine is ordered. -/
theorem ordered_path (r : Routine) : Ordered rank ∅ r.path := by
  have hplain : ∀ l,Ordered rank ∅ (critical l []) := fun l => ordered_critical (neutral_nil _)
  cases r with
  | flushThreadFunc waits openings =>
    have hwaits : Neutral rank {Lock.audit} (times waits (condWait .audit)) :=
      (neutral_wait Lock.audit).replicate waits
    have hlogs : Neutral rank {Lock.audit} (times openings logging) :=
      (neutral_logging (by simp)).replicate openings
    exact ordered_critical (hwaits.append hlogs)
  | handleSsh i logs =>
    have hlogs : Neutral rank {Lock.conn i} (times logs logging) :=
      (neutral_logging (by simp)).replicate logs
    exact ordered_critical hlogs
  | connSemaphoreAcquire waits =>
    exact ordered_critical ((neutral_wait Lock.semaphore).replicate waits)
  | _ => exact hplain _

/-- An act keeps the machine ordered unless it interrupts the logger. -/
theorem step_ordered (s : Machine ℕ Lock) (a : Act) (s' : Machine ℕ Lock)
    (h : AllOrdered rank s) (hcalm : Calm s a) (hstep : step s a=some s') : AllOrdered rank s' := by
  refine h.step ?_ ?_ hstep
  · intro t path hlabel
    cases a with
    | call t' r =>
      rw [Act.label,Label.call.injEq] at hlabel
      rw [←hlabel.2]
      exact ordered_path r
    | run t' => exact absurd hlabel (by simp [Act.label])
    | signal t' => exact absurd hlabel (by simp [Act.label])
  · intro t path hlabel
    cases a with
    | call t' r => exact absurd hlabel (by simp [Act.label])
    | run t' => exact absurd hlabel (by simp [Act.label])
    | signal t' =>
      rw [Act.label,Label.interrupt.injEq] at hlabel
      rw [←hlabel.2,←hlabel.1]
      exact neutral_logging hcalm

/-- A signal that interrupts the logger leaves the thread waiting for itself. -/
theorem deadlocked_of_signal {s s' : Machine ℕ Lock} {t : ℕ} (howner : s.owner .log=some t)
    (hstep : step s (.signal t)=some s') : Deadlocked s' := by
  rw [step,Act.label,LockOrder.step,Option.some.injEq] at hstep
  rw [←hstep]
  have hcode : (s.setCode t (signalHandler++s.code t)).code t=
      .acquire .log::(.release .log::s.code t) := code_setCode ..
  exact ⟨t,.single ⟨.log,_,hcode,howner⟩⟩

/-- The act leads to no deadlock. -/
def Safe (s : Machine ℕ Lock) (a : Act) : Prop := ∀ s',step s a=some s' → ¬Deadlocked s'

/-- From an ordered machine, an act leads to no deadlock exactly when it does not
interrupt the logger. -/
theorem safe_iff {s : Machine ℕ Lock} (h : AllOrdered rank s) (a : Act) : Safe s a ↔ Calm s a := by
  constructor
  · intro hsafe
    cases a with
    | call t r => trivial
    | run t => trivial
    | signal t =>
      intro howner
      exact hsafe _ rfl (deadlocked_of_signal howner rfl)
  · intro hcalm s' hstep
    exact not_deadlocked_of_ordered (step_ordered s a s' h hcalm hstep)

/-- A run from an ordered machine leads to no deadlock exactly when it does not interrupt
the logger. -/
theorem guarded_safe_iff {s : Machine ℕ Lock} (h : AllOrdered rank s) (acts : List Act) :
    Guarded step Safe s acts ↔ Guarded step Calm s acts := by
  induction acts generalizing s with
  | nil => exact Iff.rfl
  | cons a acts ih =>
    have hfirst := safe_iff h a
    cases hstep : step s a with
    | none =>
      simp only [Guarded,hstep]
      exact and_congr_left' hfirst
    | some s' =>
      simp only [Guarded,hstep]
      constructor
      · intro hsafe
        have hcalm := hfirst.mp hsafe.1
        exact ⟨hcalm,(ih (step_ordered s a s' h hcalm hstep)).mp hsafe.2⟩
      · intro hcalm
        exact ⟨hfirst.mpr hcalm.1,(ih (step_ordered s a s' h hcalm.1 hstep)).mpr hcalm.2⟩

/-- For any number of threads and every interleaving of their routines with
signals: no state of a run is deadlocked exactly when no signal of the run is
delivered to a thread while it holds the logger's mutex. -/
theorem runs_free_of_deadlock (acts : List Act) :
    Guarded step Safe initial acts ↔ Guarded step Calm initial acts :=
  guarded_safe_iff allOrdered_idle acts

/-- The main thread is interrupted while it logs, and its handler waits for the
mutex that the thread itself holds. -/
theorem signal_in_logger :
    ∃ s,execute step initial [.call 0 .utilitiesLog,.run 0,.signal 0]=some s ∧
      WaitsFor s 0 0 ∧ Deadlocked s := by
  have hwait : WaitsFor ((((initial.setCode 0 logging).setCode 0 [.release .log]).setOwner .log
      (some 0)).setCode 0 (signalHandler++[.release .log])) 0 0 :=
    ⟨.log,[.release .log,.release .log],rfl,rfl⟩
  exact ⟨_,rfl,hwait,0,.single hwait⟩

end HoneyDew.Locking
