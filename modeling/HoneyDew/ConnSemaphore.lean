import HoneyDew.StepSystem
import Mathlib.Algebra.Ring.Int.Defs
import Mathlib.Data.List.Count

/-!
# The connection semaphore shared by listeners and handlers

A listener acquires the semaphore for every accepted connection. It gives the
slot back on its two error paths, or leaves that to the handler thread it
starts. The counter and the queue of the condition variable are only touched
with the mutex held, so each critical section is one step here: the wait
releases the mutex and blocks in one go, and a signal is sent before the
releasing thread unlocks.
-/

namespace HoneyDew.ConnSemaphore

open StepSystem

/-- The counters of `conn_semaphore_t`. -/
structure ConnSemaphoreT where
  /-- Slots in use. -/
  count : ℤ
  /-- Slots there are. -/
  max : ℤ
  deriving DecidableEq,Repr

/-- `conn_semaphore_init`. -/
def connSemaphoreInit (max : ℤ) : ConnSemaphoreT := ⟨0,max⟩

/-- One evaluation of the loop condition of `conn_semaphore_acquire` and, when
it is false, the rest of the function. Nothing is returned when the thread has
to wait. -/
def connSemaphoreAcquire (s : ConnSemaphoreT) : Option ConnSemaphoreT :=
  if s.count ≥ s.max then none else some {s with count := s.count+1}

/-- The counter after `conn_semaphore_release`. -/
def connSemaphoreRelease (s : ConnSemaphoreT) : ConnSemaphoreT := {s with count := s.count-1}

/-- Where a listener thread stands. -/
inductive ListenerPhase
  /-- At the loop head or in `accept`. -/
  | accepting
  /-- Called `conn_semaphore_acquire`, condition not tested yet. -/
  | acquiring
  /-- Blocked in `pthread_cond_wait`. -/
  | blocked
  /-- Woken, condition not tested again yet. -/
  | woken
  /-- Holds a slot and has neither released it nor started a handler. -/
  | acquired
  /-- Has left `listener_thread`. -/
  | returned
  deriving DecidableEq,Repr

/-- Where a started handler thread stands. -/
inductive HandlerPhase
  /-- Started, slot not released. -/
  | running
  /-- Has called `conn_semaphore_release`. -/
  | released
  deriving DecidableEq,Repr

/-- The semaphore, the listeners and every handler thread ever started. -/
structure Threads where
  /-- The shared semaphore. -/
  sem : ConnSemaphoreT
  /-- The listener threads. -/
  listeners : List ListenerPhase
  /-- The handler threads in the order they were started. -/
  handlers : List HandlerPhase
  deriving DecidableEq,Repr

/-- The state in which `main` has initialised the semaphore and `n` listeners
are about to enter their loops. -/
def Threads.initial (n max : ℕ) : Threads :=
  ⟨connSemaphoreInit max,List.replicate n .accepting,[]⟩

/-- Why a listener gives its slot back itself. -/
inductive ErrorPath
  /-- `malloc` of the thread arguments failed. -/
  | malloc
  /-- `pthread_create` failed. -/
  | pthreadCreate
  deriving DecidableEq,Repr

/-- One scheduling choice. A release carries the waiters its signal wakes. -/
inductive ThreadLabel
  /-- `accept` returns an error and listener `i` tries again. -/
  | acceptFails (i : ℕ)
  /-- `accept` returns a connection and listener `i` calls the acquire. -/
  | accept (i : ℕ)
  /-- Listener `i` evaluates the loop condition of the acquire. -/
  | test (i : ℕ)
  /-- A spurious wake-up of listener `i`. -/
  | wake (i : ℕ)
  /-- Listener `i` takes an error path and releases its slot. -/
  | fails (i : ℕ) (path : ErrorPath) (signalled : List ℕ)
  /-- Listener `i` starts a handler thread. -/
  | start (i : ℕ)
  /-- Handler `j` returns from its service and releases its slot. -/
  | release (j : ℕ) (signalled : List ℕ)
  /-- Listener `i` sees the cleared flag, or fails to set up, and returns. -/
  | returns (i : ℕ)
  deriving DecidableEq,Repr

/-- Move one listener from one phase to another. -/
def moveListener (listeners : List ListenerPhase) (i : ℕ) (src dst : ListenerPhase) :
    Option (List ListenerPhase) :=
  if listeners[i]?=some src then some (listeners.set i dst) else none

/-- Wake listener `i` if it is blocked. -/
def wakeOne (listeners : List ListenerPhase) (i : ℕ) : List ListenerPhase :=
  if listeners[i]?=some .blocked then listeners.set i .woken else listeners

/-- `pthread_cond_signal` waking the given threads: at least one of them is
blocked unless no thread is. -/
def pthreadCondSignal (signalled : List ℕ) (listeners : List ListenerPhase) :
    Option (List ListenerPhase) :=
  if .blocked∈listeners ∧ ¬∃ i∈signalled, listeners[i]?=some .blocked then none
  else some (signalled.foldl wakeOne listeners)

/-- `conn_semaphore_release` with the threads its signal wakes. -/
def releaseSlot (s : Threads) (signalled : List ℕ) : Option Threads :=
  (pthreadCondSignal signalled s.listeners).map
    (fun listeners => {s with sem := connSemaphoreRelease s.sem,listeners})

/-- Listener `i`, standing in the given phase, evaluates the loop condition. -/
def testCondition (s : Threads) (i : ℕ) (src : ListenerPhase) : Option Threads :=
  match connSemaphoreAcquire s.sem with
  | none => (moveListener s.listeners i src .blocked).map (fun listeners => {s with listeners})
  | some sem => (moveListener s.listeners i src .acquired).map
      (fun listeners => {s with sem,listeners})

/-- One step of the threads. -/
def threadStep (s : Threads) : ThreadLabel → Option Threads
  | .acceptFails i =>
    (moveListener s.listeners i .accepting .accepting).map (fun listeners => {s with listeners})
  | .accept i =>
    (moveListener s.listeners i .accepting .acquiring).map (fun listeners => {s with listeners})
  | .test i =>
    if s.listeners[i]?=some .acquiring then testCondition s i .acquiring
    else testCondition s i .woken
  | .wake i =>
    (moveListener s.listeners i .blocked .woken).map (fun listeners => {s with listeners})
  | .fails i _ signalled =>
    (moveListener s.listeners i .acquired .accepting).bind
      (fun listeners => releaseSlot {s with listeners} signalled)
  | .start i =>
    (moveListener s.listeners i .acquired .accepting).map
      (fun listeners => {s with listeners,handlers := s.handlers++[.running]})
  | .release j signalled =>
    if s.handlers[j]?=some .running then
      releaseSlot {s with handlers := s.handlers.set j .released} signalled
    else none
  | .returns i =>
    (moveListener s.listeners i .accepting .returned).map (fun listeners => {s with listeners})

/-- Listeners in one phase. -/
def Threads.inPhase (s : Threads) (p : ListenerPhase) : ℕ := s.listeners.count p

/-- Handler threads that have not released their slot. -/
def Threads.running (s : Threads) : ℕ := s.handlers.count .running

/-- What the semaphore guarantees in every state of every interleaving. -/
structure SlotsAccounted (s : Threads) : Prop where
  /-- The counter never falls below zero. -/
  nonneg : 0 ≤ s.sem.count
  /-- The counter never exceeds the number of slots. -/
  le_max : s.sem.count ≤ s.sem.max
  /-- Every slot in use is held by one listener or one handler. -/
  held : s.sem.count=(s.inPhase .acquired : ℤ)+s.running
  /-- While a listener is blocked, every free slot has a woken waiter that has
  not tested the condition again. -/
  awake : 0<s.inPhase .blocked → s.sem.max-s.sem.count ≤ s.inPhase .woken

/-! ## Counting phases -/

/-- Replacing one entry of a list moves one unit from the count of the old
value to the count of the new one. -/
theorem count_set_add {α : Type*} [DecidableEq α] {l : List α} {i : ℕ} {a : α}
    (h : l[i]?=some a) (b c : α) :
    (l.set i b).count c+(if a=c then 1 else 0)=l.count c+(if b=c then 1 else 0) := by
  obtain ⟨hi,ha⟩ := List.getElem?_eq_some_iff.mp h
  have hset := List.count_set (a := b) (b := c) hi
  rw [ha] at hset
  have hpos : a=c → 0<l.count c := by
    intro hac
    apply List.count_pos_iff.mpr
    rw [← hac,← ha]
    exact List.getElem_mem hi
  simp only [beq_iff_eq] at hset
  by_cases hac : a=c
  · have hcount := hpos hac
    simp only [hac,if_true] at hset ⊢
    omega
  · simp only [hac,if_false] at hset ⊢
    omega

/-- A move shifts one listener between the counts of the two phases. -/
theorem moveListener_count {listeners moved : List ListenerPhase} {i : ℕ} {src dst : ListenerPhase}
    (h : moveListener listeners i src dst=some moved) (p : ListenerPhase) :
    moved.count p+(if src=p then 1 else 0)=listeners.count p+(if dst=p then 1 else 0) := by
  unfold moveListener at h
  by_cases hi : listeners[i]?=some src
  · rw [if_pos hi] at h
    have hm : listeners.set i dst=moved := Option.some.inj h
    rw [← hm]
    exact count_set_add hi dst p
  · rw [if_neg hi] at h
    exact absurd h (by simp)

/-- What waking some of the blocked listeners does to the counts. -/
structure Wakes (before after : List ListenerPhase) : Prop where
  /-- No slot changes hands. -/
  acquired : after.count .acquired=before.count .acquired
  /-- Who leaves the queue is woken. -/
  total : after.count .blocked+after.count .woken=before.count .blocked+before.count .woken
  /-- Nobody enters the queue. -/
  le : after.count .blocked ≤ before.count .blocked

/-- Waking nobody. -/
theorem Wakes.refl (listeners : List ListenerPhase) : Wakes listeners listeners :=
  ⟨rfl,rfl,le_refl _⟩

/-- Waking some and then some more. -/
theorem Wakes.trans {a b c : List ListenerPhase} (hab : Wakes a b) (hbc : Wakes b c) :
    Wakes a c :=
  ⟨hbc.acquired.trans hab.acquired,hbc.total.trans hab.total,le_trans hbc.le hab.le⟩

/-- Waking one listener takes it off the queue if it is there. -/
theorem wakeOne_wakes (listeners : List ListenerPhase) (i : ℕ) :
    Wakes listeners (wakeOne listeners i) := by
  by_cases hi : listeners[i]?=some .blocked
  · have hacquired := count_set_add hi .woken .acquired
    have hblocked := count_set_add hi .woken .blocked
    have hwoken := count_set_add hi .woken .woken
    rw [wakeOne,if_pos hi]
    simp only [reduceCtorEq,if_true,if_false] at hacquired hblocked hwoken
    exact ⟨by omega,by omega,by omega⟩
  · rw [wakeOne,if_neg hi]
    exact Wakes.refl listeners

/-- A blocked listener that is woken leaves the queue. -/
theorem wakeOne_lt {listeners : List ListenerPhase} {i : ℕ} (hi : listeners[i]?=some .blocked) :
    (wakeOne listeners i).count .blocked<listeners.count .blocked := by
  have hblocked := count_set_add hi .woken .blocked
  rw [wakeOne,if_pos hi]
  simp only [reduceCtorEq,if_true,if_false] at hblocked
  omega

/-- Waking another listener leaves this one where it is. -/
theorem wakeOne_other (listeners : List ListenerPhase) {i j : ℕ} (h : j≠i) :
    (wakeOne listeners j)[i]?=listeners[i]? := by
  unfold wakeOne
  split
  · exact List.getElem?_set_ne h
  · rfl

/-- A signal only moves listeners from the queue to the woken ones. -/
theorem foldl_wakes (signalled : List ℕ) (listeners : List ListenerPhase) :
    Wakes listeners (signalled.foldl wakeOne listeners) := by
  induction signalled generalizing listeners with
  | nil => exact Wakes.refl listeners
  | cons i rest ih =>
    rw [List.foldl_cons]
    exact (wakeOne_wakes listeners i).trans (ih _)

/-- A signal sent to a blocked listener shortens the queue. -/
theorem foldl_lt {signalled : List ℕ} {listeners : List ListenerPhase} {i : ℕ}
    (hmem : i∈signalled) (hi : listeners[i]?=some .blocked) :
    (signalled.foldl wakeOne listeners).count .blocked<listeners.count .blocked := by
  induction signalled generalizing listeners with
  | nil => exact absurd hmem List.not_mem_nil
  | cons j rest ih =>
    rw [List.foldl_cons]
    by_cases hj : j=i
    · rw [hj]
      have hle := (foldl_wakes rest (wakeOne listeners i)).le
      have hlt := wakeOne_lt hi
      omega
    · have hrest : i∈rest := (List.mem_cons.mp hmem).resolve_left (fun he => hj he.symm)
      have hlt := ih hrest (by rw [wakeOne_other listeners hj]; exact hi)
      have hle := (wakeOne_wakes listeners j).le
      omega

/-- The signal wakes at least one thread when one is blocked, and does nothing
else. -/
theorem pthreadCondSignal_wakes {signalled : List ℕ} {before after : List ListenerPhase}
    (h : pthreadCondSignal signalled before=some after) :
    Wakes before after ∧
      (0<before.count .blocked → after.count .blocked<before.count .blocked) := by
  unfold pthreadCondSignal at h
  by_cases hnone : .blocked∈before ∧ ¬∃ i∈signalled, before[i]?=some .blocked
  · rw [if_pos hnone] at h
    exact absurd h (by simp)
  · rw [if_neg hnone] at h
    have hafter : signalled.foldl wakeOne before=after := Option.some.inj h
    rw [← hafter]
    refine ⟨foldl_wakes signalled before,?_⟩
    intro hpos
    have hsome : ∃ i∈signalled, before[i]?=some .blocked := by
      by_contra hno
      exact hnone ⟨List.count_pos_iff.mp hpos,hno⟩
    obtain ⟨i,hmem,hi⟩ := hsome
    exact foldl_lt hmem hi

/-! ## One step keeps the account -/

/-- Before the first step nothing is in use and nobody waits. -/
theorem slotsAccounted_initial (n max : ℕ) : SlotsAccounted (.initial n max) := by
  have hacquired : (List.replicate n ListenerPhase.accepting).count .acquired=0 := by
    simp [List.count_replicate]
  have hblocked : (List.replicate n ListenerPhase.accepting).count .blocked=0 := by
    simp [List.count_replicate]
  refine ⟨Int.le_refl 0,Int.natCast_nonneg max,?_,?_⟩
  · simp [Threads.initial,connSemaphoreInit,Threads.inPhase,Threads.running,hacquired]
  · intro hpos
    simp only [Threads.initial,Threads.inPhase,hblocked] at hpos
    omega

/-- A listener that moves without touching the counter keeps the account when
it holds no slot before or after, and does not enter the queue. -/
theorem move_accounted {s : Threads} {i : ℕ} {src dst : ListenerPhase}
    {listeners : List ListenerPhase} (hs : SlotsAccounted s)
    (hmove : moveListener s.listeners i src dst=some listeners)
    (hsrc : src≠.acquired ∧ src≠.woken) (hdst : dst≠.acquired ∧ dst≠.blocked) :
    SlotsAccounted {s with listeners} := by
  have hacquired := moveListener_count hmove .acquired
  have hblocked := moveListener_count hmove .blocked
  have hwoken := moveListener_count hmove .woken
  simp only [hsrc.1,hdst.1,if_false] at hacquired
  simp only [hdst.2,if_false] at hblocked
  simp only [hsrc.2,if_false] at hwoken
  obtain ⟨hnonneg,hle,hheld,hawake⟩ := hs
  simp only [Threads.inPhase,Threads.running] at hheld hawake
  refine ⟨hnonneg,hle,?_,?_⟩
  · simp only [Threads.inPhase,Threads.running]
    omega
  · simp only [Threads.inPhase]
    intro hpos
    omega

/-- A listener that tests the condition and waits finds no free slot. One that
passes takes a slot, and if it was woken its wake-up is used up with the slot. -/
theorem test_accounted {s t : Threads} {i : ℕ} {src : ListenerPhase} (hs : SlotsAccounted s)
    (hsrc : src=.acquiring ∨ src=.woken) (h : testCondition s i src=some t) :
    SlotsAccounted t ∧ t.sem.max=s.sem.max := by
  obtain ⟨hnonneg,hle,hheld,hawake⟩ := hs
  simp only [Threads.inPhase,Threads.running] at hheld hawake
  unfold testCondition connSemaphoreAcquire at h
  by_cases hfull : s.sem.count ≥ s.sem.max
  · rw [if_pos hfull] at h
    obtain ⟨listeners,hmove,ht⟩ := Option.map_eq_some_iff.mp h
    have hacquired := moveListener_count hmove .acquired
    have hne : src≠.acquired := by rcases hsrc with he|he <;> simp [he]
    simp only [hne,reduceCtorEq,if_false] at hacquired
    rw [← ht]
    refine ⟨⟨hnonneg,hle,?_,?_⟩,rfl⟩
    · simp only [Threads.inPhase,Threads.running]
      omega
    · simp only [Threads.inPhase]
      intro _
      omega
  · rw [if_neg hfull] at h
    obtain ⟨listeners,hmove,ht⟩ := Option.map_eq_some_iff.mp h
    have hacquired := moveListener_count hmove .acquired
    have hblocked := moveListener_count hmove .blocked
    have hwoken := moveListener_count hmove .woken
    have hne : src≠.acquired ∧ src≠.blocked := by rcases hsrc with he|he <;> simp [he]
    simp only [hne.1,if_true,if_false] at hacquired
    simp only [hne.2,reduceCtorEq,if_false] at hblocked
    simp only [reduceCtorEq,if_false] at hwoken
    rw [← ht]
    refine ⟨⟨?_,?_,?_,?_⟩,rfl⟩
    · dsimp only
      omega
    · dsimp only
      omega
    · simp only [Threads.inPhase,Threads.running]
      omega
    · simp only [Threads.inPhase]
      intro hpos
      split at hwoken <;> omega

/-- A release by a thread whose slot is no longer counted among the holders:
the account balances again, and the signal pays for the slot set free. -/
theorem release_accounted {s t : Threads} {signalled : List ℕ} (hle : s.sem.count ≤ s.sem.max)
    (hheld : s.sem.count=(s.inPhase .acquired : ℤ)+s.running+1)
    (hawake : 0<s.inPhase .blocked → s.sem.max-s.sem.count ≤ s.inPhase .woken)
    (h : releaseSlot s signalled=some t) : SlotsAccounted t ∧ t.sem.max=s.sem.max := by
  obtain ⟨listeners,hsignal,ht⟩ := Option.map_eq_some_iff.mp h
  obtain ⟨hwakes,hlt⟩ := pthreadCondSignal_wakes hsignal
  have hacquired := hwakes.acquired
  have htotal := hwakes.total
  simp only [Threads.inPhase,Threads.running] at hheld hawake
  rw [← ht]
  refine ⟨⟨?_,?_,?_,?_⟩,rfl⟩
  · simp only [connSemaphoreRelease]
    omega
  · simp only [connSemaphoreRelease]
    omega
  · simp only [connSemaphoreRelease,Threads.inPhase,Threads.running]
    omega
  · simp only [connSemaphoreRelease,Threads.inPhase]
    intro hpos
    have hblocked : 0<s.listeners.count .blocked := by
      have hshorter := hwakes.le
      omega
    have hshort := hlt hblocked
    have hfree := hawake hblocked
    omega

/-- Every step keeps the account and the number of slots. -/
theorem threadStep_accounted {s t : Threads} {a : ThreadLabel} (hs : SlotsAccounted s)
    (h : threadStep s a=some t) : SlotsAccounted t ∧ t.sem.max=s.sem.max := by
  cases a with
  | acceptFails i | accept i | wake i | returns i =>
    obtain ⟨listeners,hmove,ht⟩ := Option.map_eq_some_iff.mp h
    rw [← ht]
    exact ⟨move_accounted hs hmove (by simp) (by simp),rfl⟩
  | test i =>
    rw [threadStep] at h
    split at h
    · exact test_accounted hs (Or.inl rfl) h
    · exact test_accounted hs (Or.inr rfl) h
  | start i =>
    obtain ⟨listeners,hmove,ht⟩ := Option.map_eq_some_iff.mp h
    have hacquired := moveListener_count hmove .acquired
    have hblocked := moveListener_count hmove .blocked
    have hwoken := moveListener_count hmove .woken
    simp only [reduceCtorEq,if_true,if_false] at hacquired hblocked hwoken
    obtain ⟨hnonneg,hle,hheld,hawake⟩ := hs
    simp only [Threads.inPhase,Threads.running] at hheld hawake
    rw [← ht]
    refine ⟨⟨hnonneg,hle,?_,?_⟩,rfl⟩
    · simp only [Threads.inPhase,Threads.running,List.count_append,List.count_singleton_self]
      omega
    · simp only [Threads.inPhase]
      intro hpos
      omega
  | fails i path signalled =>
    obtain ⟨listeners,hmove,hrelease⟩ := Option.bind_eq_some_iff.mp h
    have hacquired := moveListener_count hmove .acquired
    have hblocked := moveListener_count hmove .blocked
    have hwoken := moveListener_count hmove .woken
    simp only [reduceCtorEq,if_true,if_false] at hacquired hblocked hwoken
    obtain ⟨_,hle,hheld,hawake⟩ := hs
    simp only [Threads.inPhase,Threads.running] at hheld hawake
    apply release_accounted (s := {s with listeners}) hle ?_ ?_ hrelease
    · simp only [Threads.inPhase,Threads.running]
      omega
    · simp only [Threads.inPhase]
      intro hpos
      omega
  | release j signalled =>
    rw [threadStep] at h
    by_cases hj : s.handlers[j]?=some .running
    · rw [if_pos hj] at h
      have hrunning := count_set_add hj .released .running
      simp only [reduceCtorEq,if_true,if_false] at hrunning
      obtain ⟨_,hle,hheld,hawake⟩ := hs
      simp only [Threads.running] at hheld
      apply release_accounted (s := {s with handlers := s.handlers.set j .released}) hle ?_ hawake h
      simp only [Threads.inPhase,Threads.running] at hheld ⊢
      omega
    · rw [if_neg hj] at h
      exact absurd h (by simp)

/-- The connection semaphore: in every state any interleaving reaches, the
counter is the number of slots held, it stays within its bounds, no more than
`max` handlers run, and no wake-up is lost. -/
theorem semaphore_accounts_slots {n max : ℕ} {labels : List ThreadLabel} {s : Threads}
    (h : execute threadStep (.initial n max) labels=some s) :
    s.sem.max=max ∧ 0 ≤ s.sem.count ∧ s.sem.count ≤ s.sem.max ∧
      s.sem.count=(s.inPhase .acquired : ℤ)+s.running ∧ s.running ≤ max ∧
      (0<s.inPhase .blocked → s.sem.max-s.sem.count ≤ s.inPhase .woken) := by
  have hstep : ∀ (t : Threads) (a : ThreadLabel) (u : Threads),
      (SlotsAccounted t ∧ t.sem.max=max) → threadStep t a=some u →
        (SlotsAccounted u ∧ u.sem.max=max) := by
    intro t a u ht hu
    have hnext := threadStep_accounted ht.1 hu
    exact ⟨hnext.1,hnext.2.trans ht.2⟩
  have hinv := execute_invariant hstep ⟨slotsAccounted_initial n max,rfl⟩ h
  obtain ⟨⟨hnonneg,hle,hheld,hawake⟩,hmax⟩ := hinv
  refine ⟨hmax,hnonneg,hle,hheld,?_,hawake⟩
  omega

/-- One slot and two listeners: the woken listener 1 loses the slot to
listener 0 and waits again. -/
theorem semaphore_accounts_stolen_slot :
    let s : Threads := ⟨⟨1,1⟩,[.acquired,.blocked],[.released]⟩
    s.sem.max=1 ∧ 0 ≤ s.sem.count ∧ s.sem.count ≤ s.sem.max ∧
      s.sem.count=(s.inPhase .acquired : ℤ)+s.running ∧ s.running ≤ 1 ∧
      (0<s.inPhase .blocked → s.sem.max-s.sem.count ≤ s.inPhase .woken) := by
  have hrun : execute threadStep (.initial 2 1)
      [.accept 0,.test 0,.start 0,.accept 1,.test 1,.accept 0,.release 0 [1],.test 0,.test 1]=
        some ⟨⟨1,1⟩,[.acquired,.blocked],[.released]⟩ := by decide
  exact semaphore_accounts_slots hrun

end HoneyDew.ConnSemaphore
