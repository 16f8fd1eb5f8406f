import HoneyDew.ConnectionLifecycle

/-!
# The shutdown sequence of the main thread

The main thread joins every listener, destroys the session table, stops the
flush thread, frees the audit ring and destroys its mutex. Handler threads are
detached and are not waited for. Each label states which shared objects it
uses, so that a use of an object already destroyed is visible in the state
it happens in.
-/

namespace HoneyDew.Shutdown

open StepSystem SessionTable ConnectionLifecycle

/-- How far `main` has got after starting the listeners. -/
inductive Teardown
  /-- Waiting in `pthread_join` for the listeners. -/
  | joining
  /-- All listeners have been joined. -/
  | joined
  /-- `session_table_destroy` has returned. -/
  | tableDestroyed
  /-- `audit_shutdown` has cleared `running` and joined the flush thread. -/
  | flushJoined
  /-- The ring buffer has been freed. -/
  | ringFreed
  /-- The audit mutex and condition have been destroyed. -/
  | mutexDestroyed
  deriving DecidableEq,Repr

/-- Position in the teardown order. -/
def Teardown.rank : Teardown → ℕ
  | .joining => 0
  | .joined => 1
  | .tableDestroyed => 2
  | .flushJoined => 3
  | .ringFreed => 4
  | .mutexDestroyed => 5

/-- The whole process: handler threads, listeners, stop flag, main thread. -/
structure Server where
  /-- Handler threads, session table and destroyed connections. -/
  handlers : Handlers
  /-- Listener threads that have not returned. -/
  listeners : ℕ
  /-- The flag `g_running`. -/
  running : Bool
  /-- The main thread. -/
  main : Teardown

/-- The state after `main` has started the given number of listeners. -/
def Server.initial (listeners : ℕ) : Server := ⟨.initial,listeners,true,.joining⟩

/-- One scheduling choice of the whole process. -/
inductive ServerLabel
  /-- A handler step, or an accept by one of the listeners. -/
  | handler (a : HandlerLabel)
  /-- The handler of thread `i` records an audit event. -/
  | audit (i : ℕ)
  /-- The stop signal is delivered. -/
  | signal
  /-- A listener sees the cleared flag and returns. -/
  | listenerReturn
  /-- The main thread takes its next teardown step. -/
  | teardown
  deriving DecidableEq,Repr

/-- Objects that the teardown or a removal ends the life of. -/
inductive SharedObject
  /-- Connection object of one handler. -/
  | connection (i : ℕ)
  /-- The session table and its lock. -/
  | sessionTable
  /-- The ring buffer of the audit trail. -/
  | auditRing
  /-- The mutex of the audit trail. -/
  | auditMutex
  deriving DecidableEq,Repr

/-- Destroy every connection left in the table and free the table. -/
def destroyTable (s : Handlers) : Handlers :=
  {s with
    table := sessionTableCreate
    destroyed := s.destroyed++(sessionTableDestroy s.table).map ConnectionRef.object}

/-- The main thread's next step. -/
def teardownStep (s : Server) : Option Server := match s.main with
  | .joining => if s.listeners=0 then some {s with main := .joined} else none
  | .joined => some {s with handlers := destroyTable s.handlers,main := .tableDestroyed}
  | .tableDestroyed => some {s with main := .flushJoined}
  | .flushJoined => some {s with main := .ringFreed}
  | .ringFreed => some {s with main := .mutexDestroyed}
  | .mutexDestroyed => none

/-- One step of the process. A listener may still accept after the flag is
cleared, since it tests the flag only between accepts. -/
def serverStep (s : Server) : ServerLabel → Option Server
  | .handler (.accept fd) =>
    if s.listeners=0 then none
    else (handlerStep s.handlers (.accept fd)).map (fun t => {s with handlers := t})
  | .handler a => (handlerStep s.handlers a).map (fun t => {s with handlers := t})
  | .audit i => (handlerStep s.handlers (.use i)).map (fun _ => s)
  | .signal => some {s with running := false}
  | .listenerReturn =>
    if s.running=false ∧ 0<s.listeners then some {s with listeners := s.listeners-1} else none
  | .teardown => teardownStep s

/-- The connection that the removal of a handler takes out of the table and destroys. -/
def removedBy (s : Handlers) (i : ℕ) : Option ConnectionRef :=
  s.threads[i]?.bind (fun h => (sessionTableRemove s.table h.clientFd).2)

/-- The shared objects a step of a handler uses. -/
def uses (s : Server) : ServerLabel → List SharedObject
  | .handler (.add i) => [.connection i,.sessionTable]
  | .handler (.use i) => [.connection i]
  | .handler (.close i) => [.connection i]
  | .handler (.remove i) =>
    .sessionTable::(removedBy s.handlers i).toList.map (fun c => .connection c.object)
  | .audit i => [.connection i,.auditMutex,.auditRing]
  | _ => []

/-- The object has already been destroyed or freed. -/
def Dead (s : Server) : SharedObject → Prop
  | .connection i => i∈s.handlers.destroyed
  | .sessionTable => Teardown.rank .tableDestroyed ≤ s.main.rank
  | .auditRing => Teardown.rank .ringFreed ≤ s.main.rank
  | .auditMutex => Teardown.rank .mutexDestroyed ≤ s.main.rank

instance (s : Server) (o : SharedObject) : Decidable (Dead s o) := by
  cases o <;> unfold Dead <;> infer_instance

/-- Every handler started so far has returned from `session_table_remove`. -/
def AllRemoved (s : Server) : Prop := ∀ h∈s.handlers.threads,h.phase=.removed

/-- The condition on one step: the table is destroyed only after every handler
is done with it, and removals come while their connection is the newest. -/
def OrderlyStep (s : Server) : ServerLabel → Prop
  | .handler a => RemovesNewest s.handlers a
  | .teardown => s.main=.joined → AllRemoved s
  | _ => True

instance (s : Server) (a : ServerLabel) : Decidable (OrderlyStep s a) := by
  cases a <;> unfold OrderlyStep <;> try unfold AllRemoved
  all_goals infer_instance

/-- What orderly runs keep: the handlers own their connections, no listener is
left once they are joined, and no handler is left once the table is gone. -/
structure Orderly (s : Server) : Prop where
  /-- The handlers' own invariant. -/
  owned : Owned s.handlers
  /-- The joined listeners have all returned. -/
  no_listener : 1 ≤ s.main.rank → s.listeners=0
  /-- The table is destroyed after the last handler's removal. -/
  no_handler : 2 ≤ s.main.rank → AllRemoved s

/-- The invariant holds once the listeners are started. -/
theorem orderly_initial (n : ℕ) : Orderly (.initial n) where
  owned := owned_initial
  no_listener := by intro h; simp [Server.initial,Teardown.rank] at h
  no_handler := by intro h; simp [Server.initial,Teardown.rank] at h

/-- With every handler removed the table holds nothing to destroy. -/
theorem destroyTable_empty {s : Handlers} (hs : Owned s)
    (hall : ∀ h∈s.threads,h.phase=.removed) : sessionTableDestroy s.table=[] := by
  rw [List.eq_nil_iff_forall_not_mem]
  intro c hc
  rw [mem_sessionTableDestroy] at hc
  obtain ⟨h,hh,_,_,htracked⟩ := hs.tracked.mp hc
  simp [Handler.isTracked,hall h (List.mem_of_getElem? hh)] at htracked

/-- Destroying an empty table keeps the handlers' invariant. -/
theorem owned_destroyTable {s : Handlers} (hs : Owned s)
    (hall : ∀ h∈s.threads,h.phase=.removed) : Owned (destroyTable s) := by
  have hempty := destroyTable_empty hs hall
  have hstack : ∀ fd, stack s.table fd=[] := by
    intro fd
    rw [List.eq_nil_iff_forall_not_mem]
    intro c hc
    have hd := stack_descriptor hc
    have hm := (mem_sessionTableDestroy s.table c).mpr (hd.symm ▸ hc)
    rw [hempty] at hm
    cases hm
  have hkeep : destroyTable s={s with table := sessionTableCreate} := by
    unfold destroyTable
    rw [hempty,List.map_nil,List.append_nil]
  rw [hkeep]
  refine ⟨hs.earlier_closed,?_,?_,hs.destroyed_iff,hs.destroyed_once⟩
  · intro fd c
    rw [←hs.tracked,hstack]
    exact Iff.rfl
  · intro fd
    exact List.Pairwise.nil

/-- Removed handlers take no further step. -/
theorem no_step_of_allRemoved {s t : Handlers} {a : HandlerLabel} (ha : ∀ fd, a≠.accept fd)
    (hall : ∀ h∈s.threads,h.phase=.removed) (h : handlerStep s a=some t) : False := by
  have hphase : ∀ {i} {g : Handler}, s.threads[i]?=some g → g.phase=.removed :=
    fun hg => hall _ (List.mem_of_getElem? hg)
  cases a with
  | accept fd => exact ha fd rfl
  | add i =>
    obtain ⟨g,hg,hp,_⟩ := add_cases h
    rw [hphase hg] at hp
    cases hp
  | use i =>
    obtain ⟨g,hg,hp,_⟩ := use_cases h
    simp [Handler.isTracked,hphase hg] at hp
  | close i =>
    obtain ⟨g,hg,hp,_⟩ := close_cases h
    rw [hphase hg] at hp
    cases hp
  | remove i =>
    obtain ⟨g,hg,hp,_⟩ := remove_cases h
    rw [hphase hg] at hp
    cases hp

/-- A handler step of the process is the step of its handler system; an
accept also needs a listener that has not returned. -/
theorem handler_step_cases {s t : Server} {a : HandlerLabel}
    (h : serverStep s (.handler a)=some t) :
    ∃ u, handlerStep s.handlers a=some u ∧ t={s with handlers := u} ∧
      ((∃ fd, a=.accept fd) → s.listeners≠0) := by
  cases a with
  | accept fd =>
    rw [serverStep] at h
    split at h
    · cases h
    · rename_i hl
      obtain ⟨u,hu,ht⟩ := Option.map_eq_some_iff.mp h
      exact ⟨u,hu,ht.symm,fun _ => hl⟩
  | add i | use i | close i | remove i =>
    obtain ⟨u,hu,ht⟩ := Option.map_eq_some_iff.mp h
    exact ⟨u,hu,ht.symm,by simp⟩

/-- Recording an audit event is a use of the connection and changes nothing
the handlers share. -/
theorem audit_step_cases {s t : Server} {i : ℕ} (h : serverStep s (.audit i)=some t) :
    (∃ g, s.handlers.threads[i]?=some g ∧ g.isTracked=true) ∧ t=s := by
  obtain ⟨u,hu,ht⟩ := Option.map_eq_some_iff.mp h
  obtain ⟨g,hg,hp,_⟩ := use_cases hu
  exact ⟨⟨g,hg,hp⟩,ht.symm⟩

/-- Handler steps keep the orderly invariant: a live listener excludes the
teardown, and a live handler excludes the destroyed table. -/
theorem orderly_handler {s t : Server} {a : HandlerLabel} (hs : Orderly s)
    (hguard : RemovesNewest s.handlers a) (h : serverStep s (.handler a)=some t) : Orderly t := by
  obtain ⟨u,hu,rfl,hl⟩ := handler_step_cases h
  refine ⟨owned_step hs.owned hguard hu,hs.no_listener,?_⟩
  intro hr
  dsimp only at hr
  by_cases ha : ∃ fd, a=.accept fd
  · exact absurd (hs.no_listener (by omega)) (hl ha)
  · exact absurd hu (fun hu => no_step_of_allRemoved (fun fd he => ha ⟨fd,he⟩) (hs.no_handler hr) hu)

/-- A teardown step keeps the orderly invariant, provided the table is only
destroyed after the last removal. -/
theorem orderly_teardown {s t : Server} (hs : Orderly s) (hguard : s.main=.joined → AllRemoved s)
    (h : teardownStep s=some t) : Orderly t := by
  obtain ⟨handlers,listeners,running,main⟩ := s
  cases main with
  | joining =>
    simp only [teardownStep] at h
    split at h
    · rename_i hl
      cases h
      exact ⟨hs.owned,fun _ => hl,fun hr => by simp [Teardown.rank] at hr⟩
    · cases h
  | joined =>
    have hall := hguard rfl
    cases h
    exact ⟨owned_destroyTable hs.owned hall,fun _ => hs.no_listener (by simp [Teardown.rank]),
      fun _ => hall⟩
  | tableDestroyed | flushJoined | ringFreed =>
    cases h
    exact ⟨hs.owned,fun _ => hs.no_listener (by simp [Teardown.rank]),
      fun _ => hs.no_handler (by simp [Teardown.rank])⟩
  | mutexDestroyed => cases h

/-- Every step that meets the condition keeps the orderly invariant. -/
theorem orderly_step {s t : Server} {a : ServerLabel} (hs : Orderly s) (hguard : OrderlyStep s a)
    (h : serverStep s a=some t) : Orderly t := by
  cases a with
  | handler a => exact orderly_handler hs hguard h
  | audit i =>
    obtain ⟨_,rfl⟩ := audit_step_cases h
    exact hs
  | signal =>
    cases h
    exact ⟨hs.owned,hs.no_listener,hs.no_handler⟩
  | listenerReturn =>
    rw [serverStep] at h
    split at h
    · rename_i hl
      cases h
      refine ⟨hs.owned,fun hr => ?_,hs.no_handler⟩
      have hz := hs.no_listener hr
      dsimp only
      omega
    · cases h
  | teardown => exact orderly_teardown hs hguard h

/-- A tracked connection is alive in every orderly state. -/
theorem tracked_alive {s : Server} {i : ℕ} {g : Handler} (hs : Orderly s)
    (hg : s.handlers.threads[i]?=some g) (hp : g.phase≠.removed) : ¬Dead s (.connection i) := by
  intro hd
  obtain ⟨x,hx,hxp⟩ := hs.owned.destroyed_iff.mp hd
  rw [hg] at hx
  cases hx
  exact hp hxp

/-- While a handler is not done, nothing of the teardown beyond the joins has
happened in an orderly state. -/
theorem rank_le_of_unremoved {s : Server} {i : ℕ} {g : Handler} (hs : Orderly s)
    (hg : s.handlers.threads[i]?=some g) (hp : g.phase≠.removed) : s.main.rank ≤ 1 := by
  by_contra hr
  exact hp (hs.no_handler (by omega) g (List.mem_of_getElem? hg))

/-- A removal, of whatever connection, destroys one that is alive in an orderly state. -/
theorem removedBy_alive {s : Server} {i : ℕ} {c : ConnectionRef} (hs : Orderly s)
    (hc : removedBy s.handlers i=some c) : ¬Dead s (.connection c.object) := by
  obtain ⟨g,_,hremoved⟩ := Option.bind_eq_some_iff.mp hc
  rw [(stack_remove_self s.handlers.table g.clientFd).2] at hremoved
  obtain ⟨x,hx,_,_,htracked⟩ := hs.owned.tracked.mp (List.mem_of_head? hremoved)
  refine tracked_alive hs hx ?_
  intro hphase
  simp [Handler.isTracked,hphase] at htracked

/-- Every enabled step of an orderly state uses live objects only. -/
theorem uses_alive {s t : Server} {a : ServerLabel} (hs : Orderly s) (h : serverStep s a=some t) :
    ∀ o∈uses s a,¬Dead s o := by
  have halive : ∀ {i} {g : Handler}, s.handlers.threads[i]?=some g → g.phase≠.removed →
      ¬Dead s (.connection i) ∧ ¬Dead s .sessionTable ∧ ¬Dead s .auditRing ∧
        ¬Dead s .auditMutex := by
    intro i g hg hp
    have hr := rank_le_of_unremoved hs hg hp
    refine ⟨tracked_alive hs hg hp,fun h => ?_,fun h => ?_,fun h => ?_⟩
    · have hd : 2 ≤ s.main.rank := h
      omega
    · have hd : 4 ≤ s.main.rank := h
      omega
    · have hd : 5 ≤ s.main.rank := h
      omega
  have htracked : ∀ {g : Handler}, g.isTracked=true → g.phase≠.removed := by
    intro g hg hp
    simp [Handler.isTracked,hp] at hg
  intro o ho
  cases a with
  | handler a =>
    obtain ⟨u,hu,_⟩ := handler_step_cases h
    cases a with
    | accept fd => simp [uses] at ho
    | add i =>
      obtain ⟨g,hg,hp,_⟩ := add_cases hu
      have ha := halive hg (by rw [hp]; decide)
      simp only [uses,List.mem_cons,List.not_mem_nil,or_false] at ho
      rcases ho with rfl|rfl
      · exact ha.1
      · exact ha.2.1
    | use i =>
      obtain ⟨g,hg,hp,_⟩ := use_cases hu
      simp only [uses,List.mem_singleton] at ho
      exact ho ▸ (halive hg (htracked hp)).1
    | close i =>
      obtain ⟨g,hg,hp,_⟩ := close_cases hu
      simp only [uses,List.mem_singleton] at ho
      exact ho ▸ (halive hg (by rw [hp]; decide)).1
    | remove i =>
      obtain ⟨g,hg,hp,_⟩ := remove_cases hu
      simp only [uses,List.mem_cons,List.mem_map,Option.mem_toList] at ho
      rcases ho with rfl|⟨c,hc,rfl⟩
      · exact (halive hg (by rw [hp]; decide)).2.1
      · exact removedBy_alive hs hc
  | audit i =>
    obtain ⟨⟨g,hg,hp⟩,_⟩ := audit_step_cases h
    have ha := halive hg (htracked hp)
    simp only [uses,List.mem_cons,List.not_mem_nil,or_false] at ho
    rcases ho with rfl|rfl|rfl
    · exact ha.1
    · exact ha.2.2.2
    · exact ha.2.2.1
  | signal | listenerReturn | teardown => simp [uses] at ho

/-- Destroying the table under an unfinished handler leaves that handler with
an enabled step that uses a destroyed object. -/
theorem destroy_under_handler {s t : Server} (hs : Orderly s) (hmain : s.main=.joined)
    (hlive : ¬AllRemoved s) (h : serverStep s .teardown=some t) :
    ∃ a, serverStep t a≠none ∧ ∃ o∈uses t a,Dead t o := by
  obtain ⟨handlers,listeners,running,main⟩ := s
  cases hmain
  cases h
  obtain ⟨g,hg,hp⟩ : ∃ g∈handlers.threads,g.phase≠.removed := by
    by_contra hne
    exact hlive (fun g hg => by_contra (fun hp => hne ⟨g,hg,hp⟩))
  obtain ⟨i,hi⟩ := List.mem_iff_getElem?.mp hg
  have hdead : g.isTracked=true → i∈(destroyTable handlers).destroyed := by
    intro htr
    have hc : (⟨i,g.clientFd⟩ : ConnectionRef)∈stack handlers.table g.clientFd :=
      hs.owned.tracked.mpr ⟨g,hi,rfl,rfl,htr⟩
    refine List.mem_append_right _ (List.mem_map.mpr ⟨⟨i,g.clientFd⟩,?_,rfl⟩)
    exact (mem_sessionTableDestroy _ _).mpr hc
  have hi' : (destroyTable handlers).threads[i]?=some g := hi
  cases hphase : g.phase with
  | accepted =>
    refine ⟨.handler (.add i),?_,.sessionTable,by simp [uses],by simp [Dead,Teardown.rank]⟩
    simp only [serverStep,handlerStep,hi',hphase,if_true,Option.map_some,ne_eq,reduceCtorEq,
      not_false_eq_true]
  | serving | closed =>
    have htr : g.isTracked=true := by simp [Handler.isTracked,hphase]
    refine ⟨.handler (.use i),?_,.connection i,by simp [uses],hdead htr⟩
    simp only [serverStep,handlerStep,hi',htr,if_true,Option.map_some,ne_eq,reduceCtorEq,
      not_false_eq_true]
  | removed => exact absurd hphase hp

/-- In every run in which `main` destroys the session table only after every
started handler has returned from its removal, and removals come while their
connection is the newest of its descriptor, no enabled step of a reached
state uses a destroyed connection, table, ring or mutex, and no connection is
destroyed twice. Where such a run has joined the listeners but not the
handlers, destroying the table enables a step that uses a destroyed object. -/
theorem orderly_shutdown_uses_live_objects (n : ℕ) (labels : List ServerLabel) {s : Server}
    (hguard : Guarded serverStep OrderlyStep (.initial n) labels)
    (hrun : execute serverStep (.initial n) labels=some s) :
    (∀ a t, serverStep s a=some t → ∀ o∈uses s a,¬Dead s o) ∧ s.handlers.destroyed.Nodup ∧
      (s.main=.joined → ¬AllRemoved s → ∀ t, serverStep s .teardown=some t →
        ∃ a, serverStep t a≠none ∧ ∃ o∈uses t a,Dead t o) := by
  have hs : Orderly s :=
    guarded_invariant (fun _ _ _ h hg ht => orderly_step h hg ht) (orderly_initial n) hguard hrun
  exact ⟨fun _ _ => uses_alive hs,hs.owned.destroyed_once,
    fun hmain hlive _ => destroy_under_handler hs hmain hlive⟩

/-- One session that ends before the stop signal, with its full teardown. -/
theorem orderly_shutdown_single_session :
    ∃ s, execute serverStep (.initial 1)
        [.handler (.accept 5),.handler (.add 0),.audit 0,.handler (.close 0),
          .handler (.remove 0),.signal,.listenerReturn,.teardown,.teardown,.teardown,
          .teardown,.teardown]=some s ∧ s.handlers.destroyed.Nodup :=
  ⟨_,rfl,(orderly_shutdown_uses_live_objects 1
    [.handler (.accept 5),.handler (.add 0),.audit 0,.handler (.close 0),
      .handler (.remove 0),.signal,.listenerReturn,.teardown,.teardown,.teardown,
      .teardown,.teardown] (by decide) rfl).2.1⟩

/-- The stop signal arrives while a session is being served: the table is
destroyed under the handler, whose next use of its connection and whose
later removal then touch freed memory. -/
theorem shutdown_destroys_served_connection :
    (execute serverStep (.initial 1)
      [.handler (.accept 5),.handler (.add 0),.signal,.listenerReturn,.teardown,.teardown]).map
        (fun s => ((serverStep s (.handler (.use 0))).isSome,decide (Dead s (.connection 0)),
          decide (Dead s .sessionTable)))=
      some (true,true,true) := by decide

end HoneyDew.Shutdown
