import HoneyDew.Balance
import HoneyDew.ConnSemaphore

/-!
# What the listeners take and give back

A listener accepts a descriptor, waits for a slot and allocates the arguments of the handler
thread. It hands both over with the thread, or gives them back on an error path. In every
interleaving each descriptor is closed once and each block of arguments is freed once, and
the descriptors that are open are at most as many as the slots and the listeners.

The close of a protocol handler is one step here. That a handler closes its descriptor once
before it returns is `ClosingActs.closes_once` for all but the SSH handler, which leaves the
close to libssh and is taken to close once as well.
-/

namespace HoneyDew.ListenerThread

open StepSystem ConnSemaphore Balance

/-- What a listener has in its variables. Descriptors count in the order of the accepts,
blocks in the order of the allocations. -/
inductive Hand
  /-- Nothing to give back. -/
  | nothing
  /-- `client_fd`. -/
  | descriptor (clientFd : ℕ)
  /-- `client_fd` and `args`. -/
  | arguments (clientFd args : ℕ)
  /-- It has closed `client_fd` and still has its slot, and `args` if there are any. -/
  | refused (args : Option ℕ)
  /-- It has released its slot and still has `args`. -/
  | leftover (args : ℕ)
  deriving DecidableEq,Repr

/-- How far a handler thread has got. -/
inductive Stage
  /-- The protocol handler has the descriptor open. -/
  | serving
  /-- The protocol handler has closed it. -/
  | closed
  /-- The slot is released. -/
  | released
  /-- The arguments are freed. -/
  | finished
  deriving DecidableEq,Repr

/-- A handler thread with the fields of its arguments. -/
structure Worker where
  /-- The descriptor in `client_fd`. -/
  clientFd : ℕ
  /-- The block that its arguments stand in. -/
  args : ℕ
  /-- How far it has got. -/
  stage : Stage
  deriving DecidableEq,Repr

/-- The threads with what they have taken. -/
structure Listening where
  /-- The semaphore and the phases of all threads. -/
  threads : Threads
  /-- What each listener has in hand. -/
  hands : List Hand
  /-- The handler threads in the order they were started. -/
  workers : List Worker
  /-- So many descriptors were accepted. -/
  accepted : ℕ
  /-- The descriptors that were closed, in order. -/
  closed : List ℕ
  /-- So many blocks were allocated. -/
  allocated : ℕ
  /-- The blocks that were freed, in order. -/
  freed : List ℕ
  deriving DecidableEq,Repr

/-- The state before the first accept. -/
def Listening.initial (n max : ℕ) : Listening :=
  ⟨.initial n max,List.replicate n .nothing,[],0,[],0,[]⟩

/-- One scheduling choice with the outcome of a call. -/
inductive ListenLabel
  /-- `accept` fails for listener `i`. -/
  | acceptFails (i : ℕ)
  /-- `accept` gives listener `i` a descriptor. -/
  | accept (i : ℕ)
  /-- Listener `i` evaluates the loop condition of the acquire. -/
  | test (i : ℕ)
  /-- A spurious wake-up of listener `i`. -/
  | wake (i : ℕ)
  /-- Listener `i` calls `malloc`, and closes its descriptor if that fails. -/
  | malloc (i : ℕ) (granted : Bool)
  /-- Listener `i` calls `pthread_create`, and closes its descriptor if that fails. -/
  | create (i : ℕ) (created : Bool)
  /-- Listener `i` releases its slot on an error path. -/
  | giveBack (i : ℕ) (signalled : List ℕ)
  /-- Listener `i` frees the arguments that no thread was started for. -/
  | free (i : ℕ)
  /-- Listener `i` leaves its loop. -/
  | returns (i : ℕ)
  /-- The protocol handler of thread `j` closes the descriptor, which it does once. -/
  | close (j : ℕ)
  /-- Thread `j` releases its slot. -/
  | release (j : ℕ) (signalled : List ℕ)
  /-- Thread `j` frees its arguments and ends. -/
  | finish (j : ℕ)
  deriving DecidableEq,Repr

/-- A step of the threads that takes nothing and gives nothing back. -/
def Listening.thread (s : Listening) (a : ThreadLabel) : Option Listening :=
  (threadStep s.threads a).map (fun threads => {s with threads})

/-- One step. -/
def listenStep (s : Listening) : ListenLabel → Option Listening
  | .acceptFails i => if s.hands[i]?=some .nothing then s.thread (.acceptFails i) else none
  | .accept i =>
    if s.hands[i]?=some .nothing then
      (s.thread (.accept i)).map (fun t =>
        {t with hands := t.hands.set i (.descriptor t.accepted),accepted := t.accepted+1})
    else none
  | .test i => s.thread (.test i)
  | .wake i => s.thread (.wake i)
  | .malloc i granted => match s.hands[i]? with
    | some (.descriptor c) =>
      if s.threads.listeners[i]?=some .acquired then
        if granted then some {s with
          hands := s.hands.set i (.arguments c s.allocated),allocated := s.allocated+1}
        else some {s with hands := s.hands.set i (.refused none),closed := s.closed++[c]}
      else none
    | _ => none
  | .create i created => match s.hands[i]? with
    | some (.arguments c a) =>
      if created then (s.thread (.start i)).map (fun t =>
        {t with hands := t.hands.set i .nothing,workers := t.workers++[⟨c,a,.serving⟩]})
      else some {s with hands := s.hands.set i (.refused (some a)),closed := s.closed++[c]}
    | _ => none
  | .giveBack i signalled => match s.hands[i]? with
    | some (.refused none) => (s.thread (.fails i .malloc signalled)).map (fun t =>
        {t with hands := t.hands.set i .nothing})
    | some (.refused (some a)) => (s.thread (.fails i .pthreadCreate signalled)).map (fun t =>
        {t with hands := t.hands.set i (.leftover a)})
    | _ => none
  | .free i => match s.hands[i]? with
    | some (.leftover a) => some {s with hands := s.hands.set i .nothing,freed := s.freed++[a]}
    | _ => none
  | .returns i => if s.hands[i]?=some .nothing then s.thread (.returns i) else none
  | .close j => match s.workers[j]? with
    | some ⟨c,a,.serving⟩ =>
      some {s with workers := s.workers.set j ⟨c,a,.closed⟩,closed := s.closed++[c]}
    | _ => none
  | .release j signalled => match s.workers[j]? with
    | some ⟨c,a,.closed⟩ => (s.thread (.release j signalled)).map (fun t =>
        {t with workers := t.workers.set j ⟨c,a,.released⟩})
    | _ => none
  | .finish j => match s.workers[j]? with
    | some ⟨c,a,.released⟩ =>
      some {s with workers := s.workers.set j ⟨c,a,.finished⟩,freed := s.freed++[a]}
    | _ => none

/-! ## What is open and what is allocated -/

/-- The descriptor that a listener has open. -/
def Hand.opened : Hand → List ℕ
  | descriptor c => [c]
  | arguments c _ => [c]
  | _ => []

/-- The arguments that a listener has. -/
def Hand.blocks : Hand → List ℕ
  | arguments _ a => [a]
  | refused args => args.toList
  | leftover a => [a]
  | _ => []

/-- The descriptor that a handler thread has open. -/
def Worker.opened (w : Worker) : List ℕ := if w.stage=.serving then [w.clientFd] else []

/-- The arguments that a handler thread has. -/
def Worker.blocks (w : Worker) : List ℕ := if w.stage=.finished then [] else [w.args]

/-- The phase of a handler thread for the semaphore. -/
def Worker.phase (w : Worker) : HandlerPhase :=
  if w.stage=.serving ∨ w.stage=.closed then .running else .released

/-- The descriptors that are open. -/
def opened (s : Listening) : List ℕ := s.hands.flatMap Hand.opened++s.workers.flatMap Worker.opened

/-- The blocks that are allocated. -/
def blocks (s : Listening) : List ℕ := s.hands.flatMap Hand.blocks++s.workers.flatMap Worker.blocks

/-- What holds in every state. -/
structure Accounted (n max : ℕ) (s : Listening) : Prop where
  /-- The semaphore keeps its account. -/
  slots : SlotsAccounted s.threads
  /-- The number of slots stays. -/
  max_eq : s.threads.sem.max=max
  /-- The number of listeners stays. -/
  length_hands : s.hands.length=n
  /-- The handler threads are those that the semaphore counts. -/
  handlers : s.threads.handlers=s.workers.map Worker.phase
  /-- Every descriptor that was accepted is closed, or open in one place. -/
  descriptors : Balanced s.accepted s.closed (opened s)
  /-- Every block that was allocated is freed, or kept in one place. -/
  arguments : Balanced s.allocated s.freed (blocks s)

section Steps

variable {s t : Listening}

/-- Writing what stands there changes nothing. -/
theorem set_same {α : Type*} {l : List α} {i : ℕ} {a : α} (h : l[i]?=some a) : l.set i a=l := by
  obtain ⟨hi,hself⟩ := List.getElem?_eq_some_iff.mp h
  rw [←hself]
  exact List.set_getElem_self hi

/-- What a thread step does to the handler threads. -/
def handlersBehind (handlers : List HandlerPhase) : ThreadLabel → List HandlerPhase
  | .start _ => handlers++[.running]
  | .release j _ => handlers.set j .released
  | _ => handlers

/-- A release of a slot leaves the handler threads alone. -/
theorem handlers_releaseSlot {u v : Threads} {signalled : List ℕ}
    (h : releaseSlot u signalled=some v) : v.handlers=u.handlers := by
  obtain ⟨listeners,_,rfl⟩ := Option.map_eq_some_iff.mp h
  rfl

/-- A test of the condition leaves the handler threads alone. -/
theorem handlers_testCondition {u v : Threads} {i : ℕ} {src : ListenerPhase}
    (h : testCondition u i src=some v) : v.handlers=u.handlers := by
  unfold testCondition at h
  split at h
  all_goals
    obtain ⟨listeners,_,rfl⟩ := Option.map_eq_some_iff.mp h
    rfl

/-- A thread step concerns the handler threads when one is started or released. -/
theorem handlers_threadStep {u v : Threads} {a : ThreadLabel} (h : threadStep u a=some v) :
    v.handlers=handlersBehind u.handlers a := by
  cases a with
  | acceptFails i =>
    obtain ⟨listeners,_,rfl⟩ := Option.map_eq_some_iff.mp h
    rfl
  | accept i =>
    obtain ⟨listeners,_,rfl⟩ := Option.map_eq_some_iff.mp h
    rfl
  | test i =>
    rw [threadStep] at h
    split at h
    · exact handlers_testCondition h
    · exact handlers_testCondition h
  | wake i =>
    obtain ⟨listeners,_,rfl⟩ := Option.map_eq_some_iff.mp h
    rfl
  | fails i path signalled =>
    obtain ⟨listeners,_,hrelease⟩ := Option.bind_eq_some_iff.mp h
    exact (handlers_releaseSlot hrelease).trans rfl
  | start i =>
    obtain ⟨listeners,_,rfl⟩ := Option.map_eq_some_iff.mp h
    rfl
  | release j signalled =>
    rw [threadStep] at h
    split at h
    · exact handlers_releaseSlot h
    · cases h
  | returns i =>
    obtain ⟨listeners,_,rfl⟩ := Option.map_eq_some_iff.mp h
    rfl

/-- A thread step keeps everything but the threads. -/
theorem thread_cases {a : ThreadLabel} (h : s.thread a=some t) :
    ∃ threads,threadStep s.threads a=some threads ∧ t={s with threads} := by
  obtain ⟨threads,hstep,ht⟩ := Option.map_eq_some_iff.mp h
  exact ⟨threads,hstep,ht.symm⟩

/-- What a step can do, with the tests it passes. -/
inductive Steps (s : Listening) : ListenLabel → Listening → Prop
  /-- An accept that fails. -/
  | acceptFails {i : ℕ} {threads : Threads} (hi : s.hands[i]?=some .nothing)
    (hstep : threadStep s.threads (.acceptFails i)=some threads) :
    Steps s (.acceptFails i) {s with threads}
  /-- A new descriptor. -/
  | accept {i : ℕ} {threads : Threads} (hi : s.hands[i]?=some .nothing)
    (hstep : threadStep s.threads (.accept i)=some threads) :
    Steps s (.accept i) {s with
      threads,hands := s.hands.set i (.descriptor s.accepted),accepted := s.accepted+1}
  /-- A test of the condition. -/
  | test {i : ℕ} {threads : Threads} (hstep : threadStep s.threads (.test i)=some threads) :
    Steps s (.test i) {s with threads}
  /-- A spurious wake-up. -/
  | wake {i : ℕ} {threads : Threads} (hstep : threadStep s.threads (.wake i)=some threads) :
    Steps s (.wake i) {s with threads}
  /-- A new block. -/
  | malloc {i c : ℕ} (hi : s.hands[i]?=some (.descriptor c))
    (hphase : s.threads.listeners[i]?=some .acquired) :
    Steps s (.malloc i true) {s with
      hands := s.hands.set i (.arguments c s.allocated),allocated := s.allocated+1}
  /-- No block, and the descriptor is closed. -/
  | mallocFails {i c : ℕ} (hi : s.hands[i]?=some (.descriptor c))
    (hphase : s.threads.listeners[i]?=some .acquired) :
    Steps s (.malloc i false) {s with
      hands := s.hands.set i (.refused none),closed := s.closed++[c]}
  /-- A new thread, which takes over. -/
  | create {i c a : ℕ} {threads : Threads} (hi : s.hands[i]?=some (.arguments c a))
    (hstep : threadStep s.threads (.start i)=some threads) :
    Steps s (.create i true) {s with
      threads,hands := s.hands.set i .nothing,workers := s.workers++[⟨c,a,.serving⟩]}
  /-- No thread, and the descriptor is closed. -/
  | createFails {i c a : ℕ} (hi : s.hands[i]?=some (.arguments c a)) :
    Steps s (.create i false) {s with
      hands := s.hands.set i (.refused (some a)),closed := s.closed++[c]}
  /-- A slot that is released without arguments in hand. -/
  | giveBack {i : ℕ} {signalled : List ℕ} {threads : Threads}
    (hi : s.hands[i]?=some (.refused none))
    (hstep : threadStep s.threads (.fails i .malloc signalled)=some threads) :
    Steps s (.giveBack i signalled) {s with threads,hands := s.hands.set i .nothing}
  /-- A slot that is released with them. -/
  | giveBackFirst {i a : ℕ} {signalled : List ℕ} {threads : Threads}
    (hi : s.hands[i]?=some (.refused (some a)))
    (hstep : threadStep s.threads (.fails i .pthreadCreate signalled)=some threads) :
    Steps s (.giveBack i signalled) {s with threads,hands := s.hands.set i (.leftover a)}
  /-- Arguments that no thread took. -/
  | free {i a : ℕ} (hi : s.hands[i]?=some (.leftover a)) :
    Steps s (.free i) {s with hands := s.hands.set i .nothing,freed := s.freed++[a]}
  /-- The end of a listener. -/
  | returns {i : ℕ} {threads : Threads} (hi : s.hands[i]?=some .nothing)
    (hstep : threadStep s.threads (.returns i)=some threads) : Steps s (.returns i) {s with threads}
  /-- The close of a protocol handler. -/
  | close {j c a : ℕ} (hj : s.workers[j]?=some ⟨c,a,.serving⟩) :
    Steps s (.close j) {s with
      workers := s.workers.set j ⟨c,a,.closed⟩,closed := s.closed++[c]}
  /-- The release of a handler thread. -/
  | release {j c a : ℕ} {signalled : List ℕ} {threads : Threads}
    (hj : s.workers[j]?=some ⟨c,a,.closed⟩)
    (hstep : threadStep s.threads (.release j signalled)=some threads) :
    Steps s (.release j signalled) {s with threads,workers := s.workers.set j ⟨c,a,.released⟩}
  /-- The end of a handler thread. -/
  | finish {j c a : ℕ} (hj : s.workers[j]?=some ⟨c,a,.released⟩) :
    Steps s (.finish j) {s with
      workers := s.workers.set j ⟨c,a,.finished⟩,freed := s.freed++[a]}

/-- A step does one of these. -/
theorem listenStep_cases {a : ListenLabel} (h : listenStep s a=some t) : Steps s a t := by
  cases a with
  | acceptFails i =>
    rw [listenStep] at h
    split at h
    · rename_i hi
      obtain ⟨threads,hstep,rfl⟩ := thread_cases h
      exact .acceptFails hi hstep
    · cases h
  | accept i =>
    rw [listenStep] at h
    split at h
    · rename_i hi
      obtain ⟨u,hu,rfl⟩ := Option.map_eq_some_iff.mp h
      obtain ⟨threads,hstep,rfl⟩ := thread_cases hu
      exact .accept hi hstep
    · cases h
  | test i =>
    obtain ⟨threads,hstep,rfl⟩ := thread_cases h
    exact .test hstep
  | wake i =>
    obtain ⟨threads,hstep,rfl⟩ := thread_cases h
    exact .wake hstep
  | malloc i granted =>
    rw [listenStep] at h
    split at h
    · rename_i c hi
      split at h
      · rename_i hphase
        cases granted with
        | true =>
          cases h
          exact .malloc hi hphase
        | false =>
          cases h
          exact .mallocFails hi hphase
      · cases h
    · cases h
  | create i created =>
    rw [listenStep] at h
    split at h
    · rename_i c a hi
      cases created with
      | true =>
        obtain ⟨u,hu,rfl⟩ := Option.map_eq_some_iff.mp h
        obtain ⟨threads,hstep,rfl⟩ := thread_cases hu
        exact .create hi hstep
      | false =>
        cases h
        exact .createFails hi
    · cases h
  | giveBack i signalled =>
    rw [listenStep] at h
    split at h
    · rename_i hi
      obtain ⟨u,hu,rfl⟩ := Option.map_eq_some_iff.mp h
      obtain ⟨threads,hstep,rfl⟩ := thread_cases hu
      exact .giveBack hi hstep
    · rename_i a hi
      obtain ⟨u,hu,rfl⟩ := Option.map_eq_some_iff.mp h
      obtain ⟨threads,hstep,rfl⟩ := thread_cases hu
      exact .giveBackFirst hi hstep
    · cases h
  | free i =>
    rw [listenStep] at h
    split at h
    · rename_i a hi
      cases h
      exact .free hi
    · cases h
  | returns i =>
    rw [listenStep] at h
    split at h
    · rename_i hi
      obtain ⟨threads,hstep,rfl⟩ := thread_cases h
      exact .returns hi hstep
    · cases h
  | close j =>
    rw [listenStep] at h
    split at h
    · rename_i c a hj
      cases h
      exact .close hj
    · cases h
  | release j signalled =>
    rw [listenStep] at h
    split at h
    · rename_i c a hj
      obtain ⟨u,hu,rfl⟩ := Option.map_eq_some_iff.mp h
      obtain ⟨threads,hstep,rfl⟩ := thread_cases hu
      exact .release hj hstep
    · cases h
  | finish j =>
    rw [listenStep] at h
    split at h
    · rename_i c a hj
      cases h
      exact .finish hj
    · cases h

end Steps

/-! ## The account -/

section Account

variable {n max : ℕ} {s t : Listening}

/-- Before the first accept nothing is open. -/
theorem accounted_initial (n max : ℕ) : Accounted n max (.initial n max) := by
  have hopened : (List.replicate n Hand.nothing).flatMap Hand.opened=[] :=
    List.flatMap_eq_nil_iff.mpr (fun h hh => by rw [List.eq_of_mem_replicate hh]; rfl)
  have hblocks : (List.replicate n Hand.nothing).flatMap Hand.blocks=[] :=
    List.flatMap_eq_nil_iff.mpr (fun h hh => by rw [List.eq_of_mem_replicate hh]; rfl)
  refine ⟨slotsAccounted_initial n max,rfl,List.length_replicate,rfl,?_,?_⟩
  · rw [opened,Listening.initial,hopened]
    exact balanced_zero
  · rw [blocks,Listening.initial,hblocks]
    exact balanced_zero

/-- A thread step that starts and releases no handler keeps the account. -/
theorem Accounted.thread (hs : Accounted n max s) {a : ThreadLabel} {threads : Threads}
    (hstep : threadStep s.threads a=some threads)
    (hhandlers : handlersBehind s.threads.handlers a=s.threads.handlers) :
    Accounted n max {s with threads} := by
  obtain ⟨hslots,hmax⟩ := threadStep_accounted hs.slots hstep
  exact ⟨hslots,hmax.trans hs.max_eq,hs.length_hands,
    (handlers_threadStep hstep).trans (hhandlers.trans hs.handlers),hs.descriptors,hs.arguments⟩

/-- A listener that takes something in hand or puts it down keeps the account. -/
theorem Accounted.hand (hs : Accounted n max s) (i : ℕ) (b : Hand) {accepted allocated : ℕ}
    {closed freed : List ℕ}
    (hdescriptors : Balanced accepted closed (opened {s with hands := s.hands.set i b}))
    (harguments : Balanced allocated freed (blocks {s with hands := s.hands.set i b})) :
    Accounted n max ⟨s.threads,s.hands.set i b,s.workers,accepted,closed,allocated,freed⟩ :=
  ⟨hs.slots,hs.max_eq,List.length_set.trans hs.length_hands,hs.handlers,hdescriptors,harguments⟩

/-- What is open behind a write to a hand. -/
theorem opened_hand {i : ℕ} {a : Hand} (h : s.hands[i]?=some a) (b : Hand) :
    (a.opened++opened {s with hands := s.hands.set i b}).Perm (b.opened++opened s) :=
  flatMap_set_append Hand.opened h b _

/-- What is allocated behind a write to a hand. -/
theorem blocks_hand {i : ℕ} {a : Hand} (h : s.hands[i]?=some a) (b : Hand) :
    (a.blocks++blocks {s with hands := s.hands.set i b}).Perm (b.blocks++blocks s) :=
  flatMap_set_append Hand.blocks h b _

/-- What is open behind a step of a handler thread. -/
theorem opened_worker {j : ℕ} {a : Worker} (h : s.workers[j]?=some a) (b : Worker) :
    (a.opened++opened {s with workers := s.workers.set j b}).Perm (b.opened++opened s) :=
  append_flatMap_set Worker.opened h b _

/-- What is allocated behind a step of a handler thread. -/
theorem blocks_worker {j : ℕ} {a : Worker} (h : s.workers[j]?=some a) (b : Worker) :
    (a.blocks++blocks {s with workers := s.workers.set j b}).Perm (b.blocks++blocks s) :=
  append_flatMap_set Worker.blocks h b _

/-- The phases behind a step of a handler thread that does not release its slot. -/
theorem phases_set {j : ℕ} {a : Worker} (h : s.workers[j]?=some a) {b : Worker}
    (hphase : b.phase=a.phase) : (s.workers.set j b).map Worker.phase=s.workers.map Worker.phase := by
  rw [List.map_set]
  refine set_same ?_
  rw [List.getElem?_map,h,hphase]
  rfl

/-- Every step keeps the account. -/
theorem accounted_step (hs : Accounted n max s) {a : ListenLabel} (h : listenStep s a=some t) :
    Accounted n max t := by
  cases listenStep_cases h with
  | acceptFails hi hstep => exact hs.thread hstep rfl
  | accept hi hstep =>
    exact (hs.thread hstep rfl).hand _ _ (hs.descriptors.make (opened_hand hi _))
      (hs.arguments.move (blocks_hand hi _))
  | test hstep => exact hs.thread hstep rfl
  | wake hstep => exact hs.thread hstep rfl
  | @malloc i c hi hphase =>
    have hopened := opened_hand hi (.arguments c s.allocated)
    exact hs.hand i _ (hs.descriptors.move ((List.perm_cons c).mp hopened))
      (hs.arguments.make (blocks_hand hi _))
  | @mallocFails i c hi hphase =>
    exact hs.hand i _ (hs.descriptors.finish (opened_hand hi (.refused none)))
      (hs.arguments.move (blocks_hand hi (.refused none)))
  | create hi hstep =>
    obtain ⟨hslots,hmax⟩ := threadStep_accounted hs.slots hstep
    refine ⟨hslots,hmax.trans hs.max_eq,List.length_set.trans hs.length_hands,?_,?_,?_⟩
    · dsimp only
      rw [handlers_threadStep hstep,hs.handlers,List.map_append]
      rfl
    · exact hs.descriptors.move ((append_flatMap_concat Worker.opened s.workers _ _).trans
        (opened_hand hi .nothing))
    · exact hs.arguments.move ((append_flatMap_concat Worker.blocks s.workers _ _).trans
        (blocks_hand hi .nothing))
  | @createFails i c a hi =>
    have hblocks := blocks_hand hi (.refused (some a))
    exact hs.hand i _ (hs.descriptors.finish (opened_hand hi (.refused (some a))))
      (hs.arguments.move ((List.perm_cons a).mp hblocks))
  | giveBack hi hstep =>
    exact (hs.thread hstep rfl).hand _ _ (hs.descriptors.move (opened_hand hi _))
      (hs.arguments.move (blocks_hand hi _))
  | @giveBackFirst i a signalled threads hi hstep =>
    have hblocks := blocks_hand hi (.leftover a)
    exact (hs.thread hstep rfl).hand i _ (hs.descriptors.move (opened_hand hi (.leftover a)))
      (hs.arguments.move ((List.perm_cons a).mp hblocks))
  | free hi =>
    exact hs.hand _ _ (hs.descriptors.move (opened_hand hi .nothing))
      (hs.arguments.finish (blocks_hand hi .nothing))
  | returns hi hstep => exact hs.thread hstep rfl
  | @close j c a hj =>
    have hphases := phases_set hj (b := ⟨c,a,.closed⟩) rfl
    have hblocks := blocks_worker hj ⟨c,a,.closed⟩
    exact ⟨hs.slots,hs.max_eq,hs.length_hands,hs.handlers.trans hphases.symm,
      hs.descriptors.finish (opened_worker hj ⟨c,a,.closed⟩),
      hs.arguments.move ((List.perm_cons a).mp hblocks)⟩
  | @release j c a signalled threads hj hstep =>
    obtain ⟨hslots,hmax⟩ := threadStep_accounted hs.slots hstep
    have hblocks := blocks_worker hj ⟨c,a,.released⟩
    refine ⟨hslots,hmax.trans hs.max_eq,hs.length_hands,?_,
      hs.descriptors.move (opened_worker hj ⟨c,a,.released⟩),
      hs.arguments.move ((List.perm_cons a).mp hblocks)⟩
    dsimp only
    rw [handlers_threadStep hstep,hs.handlers,List.map_set]
    rfl
  | @finish j c a hj =>
    have hphases := phases_set hj (b := ⟨c,a,.finished⟩) rfl
    exact ⟨hs.slots,hs.max_eq,hs.length_hands,hs.handlers.trans hphases.symm,
      hs.descriptors.move (opened_worker hj ⟨c,a,.finished⟩),
      hs.arguments.finish (blocks_worker hj ⟨c,a,.finished⟩)⟩

/-- Every run keeps the account. -/
theorem accounted_run {labels : List ListenLabel}
    (hrun : execute listenStep (.initial n max) labels=some s) : Accounted n max s :=
  execute_invariant (fun _ _ _ hs hstep => accounted_step hs hstep) (accounted_initial n max) hrun

/-- At most every listener and every slot has a descriptor open. -/
theorem Accounted.length_opened (hs : Accounted n max s) : (opened s).length ≤ n+max := by
  have hhands : (s.hands.flatMap Hand.opened).length ≤ n := by
    have hone : ∀ h : Hand,h.opened.length ≤ if true=true then 1 else 0 := by
      intro h
      cases h <;> simp [Hand.opened]
    have hcount := length_flatMap_le Hand.opened (p := fun _ => true) hone s.hands
    rwa [List.countP_true,hs.length_hands] at hcount
  have hworkers : (s.workers.flatMap Worker.opened).length ≤ s.threads.running := by
    have hone : ∀ w : Worker,
        w.opened.length ≤ if (w.phase==HandlerPhase.running)=true then 1 else 0 := by
      intro w
      cases w with
      | mk c a stage => cases stage <;> simp [Worker.opened,Worker.phase]
    have hcount := length_flatMap_le Worker.opened (p := fun w => w.phase==.running) hone s.workers
    rw [Threads.running,hs.handlers,List.count,List.countP_map]
    exact hcount
  have hheld := hs.slots.held
  have hle := hs.slots.le_max
  have hmax := hs.max_eq
  rw [opened,List.length_append]
  omega

end Account

/-! ## The phases of the listeners -/

/-- The phases in which a listener has that in hand. -/
def Hand.Fits : Hand → ListenerPhase → Prop
  | nothing,p => p=.accepting ∨ p=.returned
  | descriptor _,p => p≠.accepting ∧ p≠.returned
  | arguments _ _,p => p=.acquired
  | refused _,p => p=.acquired
  | leftover _,p => p=.accepting

/-- Every listener has in hand what its phase says. -/
structure Paired (hands : List Hand) (listeners : List ListenerPhase) : Prop where
  /-- There is a hand for every listener. -/
  length : listeners.length=hands.length
  /-- What a listener has in hand fits its phase. -/
  fits : ∀ (i : ℕ) (h : Hand) (p : ListenerPhase),hands[i]?=some h → listeners[i]?=some p → h.Fits p

section Phases

variable {n max : ℕ} {hands : List Hand} {listeners moved : List ListenerPhase} {s t : Listening}

/-- A listener moves and takes in hand what fits. -/
theorem Paired.move (hs : Paired hands listeners) {i : ℕ} {src dst : ListenerPhase}
    (hmove : moveListener listeners i src dst=some moved) {b : Hand} (hfits : b.Fits dst) :
    Paired (hands.set i b) moved := by
  unfold moveListener at hmove
  split at hmove
  · obtain rfl := Option.some.inj hmove
    refine ⟨by rw [List.length_set,List.length_set,hs.length],?_⟩
    intro j h p hj hp
    rw [List.getElem?_set] at hj hp
    by_cases hij : i=j
    · rw [if_pos hij] at hj hp
      split at hj
      · split at hp
        · rw [←Option.some.inj hj,←Option.some.inj hp]
          exact hfits
        · cases hp
      · cases hj
    · rw [if_neg hij] at hj hp
      exact hs.fits j h p hj hp
  · cases hmove

/-- A listener moves with what it has in hand. -/
theorem Paired.keep (hs : Paired hands listeners) {i : ℕ} {src dst : ListenerPhase}
    (hmove : moveListener listeners i src dst=some moved)
    (hfits : ∀ h : Hand,hands[i]?=some h → h.Fits src → h.Fits dst) : Paired hands moved := by
  have hsrc : listeners[i]?=some src := by
    unfold moveListener at hmove
    split at hmove
    · assumption
    · cases hmove
  obtain ⟨hi,_⟩ := List.getElem?_eq_some_iff.mp hsrc
  obtain ⟨h,hhand⟩ : ∃ h,hands[i]?=some h := ⟨_,List.getElem?_eq_getElem (hs.length ▸ hi)⟩
  have hmoved := hs.move hmove (hfits h hhand (hs.fits i h src hhand hsrc))
  rwa [set_same hhand] at hmoved

/-- A listener takes something else in hand. -/
theorem Paired.hand (hs : Paired hands listeners) {i : ℕ} {a b : Hand} (hi : hands[i]?=some a)
    (hfits : ∀ p,listeners[i]?=some p → a.Fits p → b.Fits p) : Paired (hands.set i b) listeners := by
  refine ⟨by rw [List.length_set,hs.length],?_⟩
  intro j h p hj hp
  rw [List.getElem?_set] at hj
  by_cases hij : i=j
  · rw [if_pos hij] at hj
    split at hj
    · rw [←Option.some.inj hj]
      rw [←hij] at hp
      exact hfits p hp (hs.fits i a p hi hp)
    · cases hj
  · rw [if_neg hij] at hj
    exact hs.fits j h p hj hp

/-- A listener that is woken keeps what it has in hand. -/
theorem woken_fits {i : ℕ} (h : Hand) (_ : hands[i]?=some h) (hfits : h.Fits .blocked) :
    h.Fits .woken := by
  cases h with
  | nothing => exact hfits.elim nofun nofun
  | descriptor c => exact ⟨nofun,nofun⟩
  | arguments c a => cases hfits
  | refused args => cases hfits
  | leftover a => cases hfits

/-- The hands still fit when a signal may have woken a listener. -/
theorem Paired.wake (hs : Paired hands listeners) (i : ℕ) : Paired hands (wakeOne listeners i) := by
  unfold wakeOne
  split
  · rename_i hblocked
    have hmove : moveListener listeners i .blocked .woken=some (listeners.set i .woken) :=
      if_pos hblocked
    exact hs.keep hmove woken_fits
  · exact hs

/-- The hands still fit behind all that a signal wakes. -/
theorem Paired.wakes (hs : Paired hands listeners) (signalled : List ℕ) :
    Paired hands (signalled.foldl wakeOne listeners) := by
  induction signalled generalizing listeners with
  | nil => exact hs
  | cons i rest ih => exact ih (hs.wake i)

/-- The hands still fit behind the release of a slot. -/
theorem Paired.release {u v : Threads} (hs : Paired hands u.listeners) {signalled : List ℕ}
    (h : releaseSlot u signalled=some v) : Paired hands v.listeners := by
  obtain ⟨ls,hsignal,rfl⟩ := Option.map_eq_some_iff.mp h
  unfold pthreadCondSignal at hsignal
  split at hsignal
  · cases hsignal
  · obtain rfl := Option.some.inj hsignal
    exact hs.wakes signalled

/-- A listener that tests the condition has a descriptor in hand before and after. -/
theorem Paired.test {u v : Threads} (hs : Paired hands u.listeners) {i : ℕ} {src : ListenerPhase}
    (hsrc : src=.acquiring ∨ src=.woken) (h : testCondition u i src=some v) :
    Paired hands v.listeners := by
  have hfits : ∀ (dst : ListenerPhase),dst=.blocked ∨ dst=.acquired →
      ∀ h : Hand,hands[i]?=some h → h.Fits src → h.Fits dst := by
    intro dst hdst h _ hfit
    cases h with
    | descriptor c => rcases hdst with rfl|rfl <;> exact ⟨nofun,nofun⟩
    | nothing => rcases hsrc with rfl|rfl <;> exact hfit.elim nofun nofun
    | arguments c a => rcases hsrc with rfl|rfl <;> cases hfit
    | refused args => rcases hsrc with rfl|rfl <;> cases hfit
    | leftover a => rcases hsrc with rfl|rfl <;> cases hfit
  unfold testCondition at h
  split at h
  · obtain ⟨ls,hmove,rfl⟩ := Option.map_eq_some_iff.mp h
    exact hs.keep hmove (hfits _ (.inl rfl))
  · obtain ⟨ls,hmove,rfl⟩ := Option.map_eq_some_iff.mp h
    exact hs.keep hmove (hfits _ (.inr rfl))

/-- Every step keeps the pairing. -/
theorem paired_step (hs : Paired s.hands s.threads.listeners) {a : ListenLabel}
    (h : listenStep s a=some t) : Paired t.hands t.threads.listeners := by
  cases listenStep_cases h with
  | acceptFails hi hstep =>
    obtain ⟨ls,hmove,rfl⟩ := Option.map_eq_some_iff.mp hstep
    exact hs.keep hmove (fun _ _ hfits => hfits)
  | accept hi hstep =>
    obtain ⟨ls,hmove,rfl⟩ := Option.map_eq_some_iff.mp hstep
    exact hs.move hmove ⟨nofun,nofun⟩
  | test hstep =>
    rw [threadStep] at hstep
    split at hstep
    · exact hs.test (.inl rfl) hstep
    · exact hs.test (.inr rfl) hstep
  | wake hstep =>
    obtain ⟨ls,hmove,rfl⟩ := Option.map_eq_some_iff.mp hstep
    exact hs.keep hmove woken_fits
  | malloc hi hphase =>
    exact hs.hand hi (fun p hp _ => (Option.some.inj (hphase.symm.trans hp)).symm)
  | mallocFails hi hphase =>
    exact hs.hand hi (fun p hp _ => (Option.some.inj (hphase.symm.trans hp)).symm)
  | create hi hstep =>
    obtain ⟨ls,hmove,rfl⟩ := Option.map_eq_some_iff.mp hstep
    exact hs.move hmove (.inl rfl)
  | createFails hi => exact hs.hand hi (fun p _ hfits => hfits)
  | @giveBack i signalled threads hi hstep =>
    obtain ⟨ls,hmove,hrelease⟩ := Option.bind_eq_some_iff.mp hstep
    have hmoved : Paired (s.hands.set i .nothing) ls := hs.move hmove (.inl rfl)
    exact hmoved.release hrelease
  | @giveBackFirst i a signalled threads hi hstep =>
    obtain ⟨ls,hmove,hrelease⟩ := Option.bind_eq_some_iff.mp hstep
    have hmoved : Paired (s.hands.set i (.leftover a)) ls := hs.move hmove rfl
    exact hmoved.release hrelease
  | free hi => exact hs.hand hi (fun p _ hfits => .inl hfits)
  | returns hi hstep =>
    obtain ⟨ls,hmove,rfl⟩ := Option.map_eq_some_iff.mp hstep
    refine hs.keep hmove ?_
    intro h hh _
    rw [←Option.some.inj (hi.symm.trans hh)]
    exact .inr rfl
  | close hj => exact hs
  | @release j c a signalled threads hj hstep =>
    rw [threadStep] at hstep
    split at hstep
    · exact Paired.release
        (u := ⟨s.threads.sem,s.threads.listeners,s.threads.handlers.set j .released⟩) hs hstep
    · cases hstep
  | finish hj => exact hs

/-- In every run every listener has in hand what its phase says. -/
theorem paired_run {labels : List ListenLabel}
    (hrun : execute listenStep (.initial n max) labels=some s) :
    Paired s.hands s.threads.listeners := by
  refine execute_invariant (fun _ _ _ hs hstep => paired_step hs hstep) ⟨?_,?_⟩ hrun
  · exact List.length_replicate.trans List.length_replicate.symm
  · intro i h p hh hp
    rw [List.eq_of_mem_replicate (List.mem_of_getElem? hh),
      List.eq_of_mem_replicate (List.mem_of_getElem? hp)]
    exact .inl rfl

/-- No listener has a slot when none has anything in hand. -/
theorem Paired.inPhase_acquired (hs : Paired hands listeners) (hidle : ∀ h∈hands,h=.nothing) :
    listeners.count .acquired=0 := by
  refine List.count_eq_zero.mpr ?_
  intro hmem
  obtain ⟨i,hi⟩ := List.mem_iff_getElem?.mp hmem
  obtain ⟨hlt,_⟩ := List.getElem?_eq_some_iff.mp hi
  obtain ⟨h,hhand⟩ : ∃ h,hands[i]?=some h := ⟨_,List.getElem?_eq_getElem (hs.length ▸ hlt)⟩
  have hfits := hs.fits i h _ hhand hi
  rw [hidle h (List.mem_of_getElem? hhand)] at hfits
  exact hfits.elim nofun nofun

/-- Nothing is in use. -/
structure Idle (s : Listening) : Prop where
  /-- No listener has anything in hand. -/
  hands : ∀ h∈s.hands,h=.nothing
  /-- The handler threads have ended. -/
  workers : ∀ w∈s.workers,w.stage=.finished

/-- When nothing is in use no descriptor is open and no block is allocated. -/
theorem Idle.held_nil (h : Idle s) : opened s=[] ∧ blocks s=[] := by
  have hopened : s.hands.flatMap Hand.opened=[] :=
    List.flatMap_eq_nil_iff.mpr (fun g hg => by rw [h.hands g hg]; rfl)
  have hblocks : s.hands.flatMap Hand.blocks=[] :=
    List.flatMap_eq_nil_iff.mpr (fun g hg => by rw [h.hands g hg]; rfl)
  have hserved : s.workers.flatMap Worker.opened=[] :=
    List.flatMap_eq_nil_iff.mpr (fun w hw => if_neg (by rw [h.workers w hw]; nofun))
  have hkept : s.workers.flatMap Worker.blocks=[] :=
    List.flatMap_eq_nil_iff.mpr (fun w hw => if_pos (h.workers w hw))
  exact ⟨by rw [opened,hopened,hserved]; rfl,by rw [blocks,hblocks,hkept]; rfl⟩

/-- When nothing is in use no slot is taken. -/
theorem Idle.count_eq_zero (h : Idle s) (hs : Accounted n max s)
    (hpaired : Paired s.hands s.threads.listeners) : s.threads.sem.count=0 := by
  have hacquired := hpaired.inPhase_acquired h.hands
  have hrunning : s.threads.handlers.count .running=0 := by
    refine List.count_eq_zero.mpr ?_
    rw [hs.handlers]
    intro hmem
    obtain ⟨w,hw,hphase⟩ := List.mem_map.mp hmem
    rw [Worker.phase,h.workers w hw] at hphase
    exact nomatch hphase
  have hheld := hs.slots.held
  rw [Threads.inPhase,Threads.running,hacquired,hrunning] at hheld
  exact hheld

end Phases

/-- In every interleaving of the listeners and the handler threads, with calls of `accept`,
`malloc` and `pthread_create` that fail at any time: each descriptor that was accepted is
closed once or open in one place, each block of arguments is freed once or kept in one place,
and at most every slot and every listener has a descriptor open. When nothing is in use,
all of them are closed and freed, and no slot is taken. -/
theorem listeners_give_back {n max : ℕ} {labels : List ListenLabel} {s : Listening}
    (hrun : execute listenStep (.initial n max) labels=some s) :
    (s.closed++opened s).Perm (List.range s.accepted) ∧
    (s.freed++blocks s).Perm (List.range s.allocated) ∧
    (opened s).length ≤ n+max ∧
    (Idle s → s.closed.Perm (List.range s.accepted) ∧ s.freed.Perm (List.range s.allocated) ∧
      s.threads.sem.count=0) := by
  have hs := accounted_run hrun
  have hpaired := paired_run hrun
  refine ⟨hs.descriptors.perm.symm,hs.arguments.perm.symm,hs.length_opened,?_⟩
  intro hidle
  obtain ⟨hopened,hblocks⟩ := hidle.held_nil
  have hdescriptors := hs.descriptors
  have harguments := hs.arguments
  rw [hopened] at hdescriptors
  rw [hblocks] at harguments
  exact ⟨hdescriptors.ended_perm,harguments.ended_perm,hidle.count_eq_zero hs hpaired⟩

/-- One listener with one slot: two calls fail, then a client is served while the next one
waits for the slot. -/
def failingLabels : List ListenLabel :=
  [.accept 0,.test 0,.malloc 0 false,.giveBack 0 [],.accept 0,.test 0,.malloc 0 true,.create 0 false,
    .giveBack 0 [],.free 0,.accept 0,.test 0,.malloc 0 true,.create 0 true,.accept 0,.test 0,.close 0,
    .release 0 [0],.finish 0,.test 0,.malloc 0 false,.giveBack 0 [],.returns 0]

/-- Four descriptors and two blocks are given back. -/
theorem listeners_give_back_failing :
    ∃ s,execute listenStep (.initial 1 1) failingLabels=some s ∧ s.closed.Perm (List.range 4) ∧
      s.freed.Perm (List.range 2) ∧ s.threads.sem.count=0 := by
  have hrun : execute listenStep (.initial 1 1) failingLabels=
      some ⟨⟨⟨0,1⟩,[.returned],[.released]⟩,[.nothing],[⟨2,1,.finished⟩],4,[0,1,2,3],2,[0,1]⟩ := by
    decide
  exact ⟨_,hrun,(listeners_give_back hrun).2.2.2 ⟨by decide,by decide⟩⟩

end HoneyDew.ListenerThread
