import HoneyDew.StepSystem
import HoneyDew.SessionTable
import Mathlib.Tactic.Common

/-!
# Connection handlers sharing the session table

Handler threads are numbered in accept order, and handler `i` owns connection
object `i`. A label takes one handler through one of its steps: accept may
reuse every descriptor number that is closed at that moment, the protocol
handler closes its descriptor before the table entry is removed, and the
removal looks the entry up by descriptor number only.
-/

namespace HoneyDew.ConnectionLifecycle

open StepSystem SessionTable

/-- How far `connection_handler` has got. -/
inductive HandlerPhase
  /-- The thread is started and its descriptor is open. -/
  | accepted
  /-- `connection_create` and `session_table_add` are done. -/
  | serving
  /-- The protocol handler has closed the descriptor. -/
  | closed
  /-- `session_table_remove` has returned. -/
  | removed
  deriving DecidableEq,Repr

/-- One `connection_handler` thread. -/
structure Handler where
  /-- The accepted descriptor, `client_fd`. -/
  clientFd : ℤ
  /-- The thread's position. -/
  phase : HandlerPhase
  deriving DecidableEq,Repr

/-- The handler's descriptor is still open. -/
def Handler.isOpen (h : Handler) : Bool := h.phase=.accepted || h.phase=.serving

/-- The handler's connection has been added and not yet removed. -/
def Handler.isTracked (h : Handler) : Bool := h.phase=.serving || h.phase=.closed

/-- All handler threads and the memory they share. -/
structure Handlers where
  /-- Threads in accept order. -/
  threads : List Handler
  /-- The session table. -/
  table : SessionTableT
  /-- Connection objects passed to `connection_destroy` so far, in order. -/
  destroyed : List ℕ

/-- The state before the first accept. -/
def Handlers.initial : Handlers := ⟨[],sessionTableCreate,[]⟩

/-- One scheduling choice. -/
inductive HandlerLabel
  /-- The kernel hands out a descriptor and the listener starts a thread. -/
  | accept (fd : ℤ)
  /-- Thread `i` creates its connection and adds it to the table. -/
  | add (i : ℕ)
  /-- The protocol handler of thread `i` uses its connection. -/
  | use (i : ℕ)
  /-- The protocol handler of thread `i` closes its descriptor. -/
  | close (i : ℕ)
  /-- Thread `i` calls `session_table_remove`. -/
  | remove (i : ℕ)
  deriving DecidableEq,Repr

/-- Move thread `i` to another position. -/
def Handlers.setPhase (s : Handlers) (i : ℕ) (h : Handler) (phase : HandlerPhase) : List Handler :=
  s.threads.set i ⟨h.clientFd,phase⟩

/-- One step of the threads. Accept is enabled for every number that no
handler holds open; a connection may still be used after its close, as the
handlers that record their disconnection late do. -/
def handlerStep (s : Handlers) : HandlerLabel → Option Handlers
  | .accept fd =>
    if s.threads.any (fun h => h.isOpen && h.clientFd=fd) then none
    else some {s with threads := s.threads++[⟨fd,.accepted⟩]}
  | .add i => match s.threads[i]? with
    | some h =>
      if h.phase=.accepted then
        some {s with
          threads := s.setPhase i h .serving
          table := sessionTableAdd s.table ⟨i,h.clientFd⟩}
      else none
    | none => none
  | .use i => match s.threads[i]? with
    | some h => if h.isTracked then some s else none
    | none => none
  | .close i => match s.threads[i]? with
    | some h =>
      if h.phase=.serving then some {s with threads := s.setPhase i h .closed} else none
    | none => none
  | .remove i => match s.threads[i]? with
    | some h =>
      if h.phase=.closed then
        let removal := sessionTableRemove s.table h.clientFd
        some ⟨s.setPhase i h .removed,removal.1,
          s.destroyed++removal.2.toList.map ConnectionRef.object⟩
      else none
    | none => none

/-- No later connection on the same descriptor number is in the table. -/
def NewestOnDescriptor (s : Handlers) (i : ℕ) : Prop :=
  ∀ h∈s.threads[i]?,∀ j<s.threads.length,i<j → ∀ g∈s.threads[j]?,
    g.clientFd=h.clientFd → g.isTracked=false

instance (s : Handlers) (i : ℕ) : Decidable (NewestOnDescriptor s i) := by
  unfold NewestOnDescriptor
  infer_instance

/-- The condition on one step: a removal comes only while its own connection
is the newest of its descriptor; every other step is free. -/
def RemovesNewest (s : Handlers) : HandlerLabel → Prop
  | .remove i => NewestOnDescriptor s i
  | _ => True

instance (s : Handlers) (a : HandlerLabel) : Decidable (RemovesNewest s a) := by
  cases a <;> unfold RemovesNewest <;> infer_instance

/-- What guarded runs keep: at most the last handler of a descriptor is open,
each stack lists the tracked handlers newest first, and exactly the removed
handlers' connections have been destroyed, each once. -/
structure Owned (s : Handlers) : Prop where
  /-- An earlier handler of a reused descriptor has closed it. -/
  earlier_closed : ∀ {i j : ℕ} {hi hj : Handler},i<j → s.threads[i]?=some hi → s.threads[j]?=some hj →
    hi.clientFd=hj.clientFd → hi.isOpen=false
  /-- The table holds exactly the tracked connections. -/
  tracked : ∀ {fd c},c∈stack s.table fd ↔
    ∃ h, s.threads[c.object]?=some h ∧ h.clientFd=fd ∧ c.socketFileDescriptor=fd ∧ h.isTracked=true
  /-- Newer connections stand above older ones. -/
  newest_first : ∀ fd, (stack s.table fd).Pairwise (fun c d => d.object<c.object)
  /-- A connection is destroyed exactly when its own removal is done. -/
  destroyed_iff : ∀ {i},i∈s.destroyed ↔ ∃ h, s.threads[i]?=some h ∧ h.phase=.removed
  /-- No connection is destroyed twice. -/
  destroyed_once : s.destroyed.Nodup

/-- The invariant holds before the first accept. -/
theorem owned_initial : Owned .initial where
  earlier_closed := by
    intro i j hi hj _ h
    simp only [Handlers.initial,List.getElem?_nil,reduceCtorEq] at h
  tracked := by simp [Handlers.initial]
  newest_first := by simp [Handlers.initial]
  destroyed_iff := by simp [Handlers.initial]
  destroyed_once := List.nodup_nil

/-- An accept appends one thread whose number nobody holds open. -/
theorem accept_cases {s t : Handlers} {fd : ℤ} (h : handlerStep s (.accept fd)=some t) :
    (∀ g∈s.threads,g.isOpen=true → g.clientFd≠fd) ∧
      t={s with threads := s.threads++[⟨fd,.accepted⟩]} := by
  rw [handlerStep] at h
  split at h
  · cases h
  · rename_i hfree
    refine ⟨?_,(Option.some.inj h).symm⟩
    intro g hg ho he
    refine hfree (List.any_eq_true.mpr ⟨g,hg,?_⟩)
    simp only [ho,he,decide_true,Bool.and_self]

/-- An add moves its accepted thread on and pushes its connection. -/
theorem add_cases {s t : Handlers} {i : ℕ} (h : handlerStep s (.add i)=some t) :
    ∃ g, s.threads[i]?=some g ∧ g.phase=.accepted ∧
      t={s with threads := s.setPhase i g .serving,table := sessionTableAdd s.table ⟨i,g.clientFd⟩} := by
  rw [handlerStep] at h
  split at h
  · rename_i g hg
    split at h
    · rename_i hp
      exact ⟨g,hg,hp,(Option.some.inj h).symm⟩
    · cases h
  · cases h

/-- A use changes nothing and needs a tracked thread. -/
theorem use_cases {s t : Handlers} {i : ℕ} (h : handlerStep s (.use i)=some t) :
    ∃ g, s.threads[i]?=some g ∧ g.isTracked=true ∧ t=s := by
  rw [handlerStep] at h
  split at h
  · rename_i g hg
    split at h
    · rename_i hp
      exact ⟨g,hg,hp,(Option.some.inj h).symm⟩
    · cases h
  · cases h

/-- A close moves its serving thread on and touches nothing else. -/
theorem close_cases {s t : Handlers} {i : ℕ} (h : handlerStep s (.close i)=some t) :
    ∃ g, s.threads[i]?=some g ∧ g.phase=.serving ∧
      t={s with threads := s.setPhase i g .closed} := by
  rw [handlerStep] at h
  split at h
  · rename_i g hg
    split at h
    · rename_i hp
      exact ⟨g,hg,hp,(Option.some.inj h).symm⟩
    · cases h
  · cases h

/-- A removal pops the table by descriptor and destroys what it popped. -/
theorem remove_cases {s t : Handlers} {i : ℕ} (h : handlerStep s (.remove i)=some t) :
    ∃ g, s.threads[i]?=some g ∧ g.phase=.closed ∧
      t=⟨s.setPhase i g .removed,(sessionTableRemove s.table g.clientFd).1,
        s.destroyed++(sessionTableRemove s.table g.clientFd).2.toList.map ConnectionRef.object⟩ := by
  rw [handlerStep] at h
  split at h
  · rename_i g hg
    split at h
    · rename_i hp
      exact ⟨g,hg,hp,(Option.some.inj h).symm⟩
    · cases h
  · cases h

/-- Reading a thread after one phase change: the changed thread keeps its
descriptor, every other thread is the old one. -/
theorem setPhase_get {s : Handlers} {i k : ℕ} {g : Handler} {phase : HandlerPhase}
    (hg : s.threads[i]?=some g) (x : Handler) :
    (s.setPhase i g phase)[k]?=some x ↔
      (k=i ∧ x=⟨g.clientFd,phase⟩) ∨ (k≠i ∧ s.threads[k]?=some x) := by
  have hlen : i<s.threads.length := (List.getElem?_eq_some_iff.mp hg).1
  unfold Handlers.setPhase
  by_cases hk : k=i
  · subst hk
    rw [List.getElem?_set_self hlen]
    simp only [Option.some.injEq,true_and,ne_eq,not_true_eq_false,false_and,or_false,eq_comm]
  · rw [List.getElem?_set_ne (fun h => hk h.symm)]
    simp only [hk,false_and,ne_eq,not_false_eq_true,true_and,false_or]

/-- A phase change that opens nothing keeps reused descriptors in order. -/
theorem earlier_closed_setPhase {s : Handlers} {i : ℕ} {g : Handler} {phase : HandlerPhase}
    (hs : Owned s) (hg : s.threads[i]?=some g)
    (hopen : (Handler.mk g.clientFd phase).isOpen=true → g.isOpen=true)
    {a b : ℕ} {ha hb : Handler} (hab : a<b) (hga : (s.setPhase i g phase)[a]?=some ha)
    (hgb : (s.setPhase i g phase)[b]?=some hb) (hfd : ha.clientFd=hb.clientFd) :
    ha.isOpen=false := by
  rw [setPhase_get hg] at hga hgb
  have hb' : ∃ hb', s.threads[b]?=some hb' ∧ hb'.clientFd=hb.clientFd := by
    rcases hgb with ⟨rfl,rfl⟩|⟨_,hgb⟩
    · exact ⟨g,hg,rfl⟩
    · exact ⟨hb,hgb,rfl⟩
  obtain ⟨hb',hgb',hfd'⟩ := hb'
  rcases hga with ⟨rfl,rfl⟩|⟨_,hga⟩
  · have hc := hs.earlier_closed hab hg hgb' (hfd.trans hfd'.symm)
    by_contra hne
    rw [hopen (Bool.eq_true_of_not_eq_false hne)] at hc
    cases hc
  · exact hs.earlier_closed hab hga hgb' (hfd.trans hfd'.symm)

/-- Threads after an accept: the old ones, and the new one at the end. -/
theorem append_get (threads : List Handler) (x y : Handler) (k : ℕ) :
    (threads++[x])[k]?=some y ↔ threads[k]?=some y ∨ (k=threads.length ∧ y=x) := by
  rcases Nat.lt_trichotomy k threads.length with hk|hk|hk
  · rw [List.getElem?_append_left hk]
    simp only [hk.ne,false_and,or_false]
  · subst hk
    rw [List.getElem?_concat_length,List.getElem?_eq_none (Nat.le_refl _)]
    simp only [Option.some.injEq,reduceCtorEq,true_and,false_or,eq_comm]
  · rw [List.getElem?_eq_none (by simp only [List.length_append,List.length_singleton]; omega),
      List.getElem?_eq_none hk.le]
    simp only [reduceCtorEq,hk.ne',false_and,or_false]

/-- Accepting keeps the invariant: the number was closed by all its users. -/
theorem owned_accept {s t : Handlers} {fd : ℤ} (hs : Owned s)
    (h : handlerStep s (.accept fd)=some t) : Owned t := by
  obtain ⟨hfree,rfl⟩ := accept_cases h
  refine ⟨?_,?_,hs.newest_first,?_,hs.destroyed_once⟩
  · intro i j hi hj hij hgi hgj hfd
    dsimp only at hgi hgj
    rw [append_get] at hgi hgj
    rcases hgi with hgi|⟨rfl,rfl⟩
    · rcases hgj with hgj|⟨rfl,rfl⟩
      · exact hs.earlier_closed hij hgi hgj hfd
      · by_contra hne
        exact hfree hi (List.mem_of_getElem? hgi) (Bool.eq_true_of_not_eq_false hne) hfd
    · rcases hgj with hgj|⟨rfl,rfl⟩
      · have hlt := (List.getElem?_eq_some_iff.mp hgj).1
        omega
      · omega
  · intro fd' c
    rw [hs.tracked]
    constructor
    · rintro ⟨g,hg,hrest⟩
      exact ⟨g,(append_get _ _ _ _).mpr (Or.inl hg),hrest⟩
    · rintro ⟨g,hg,hfd,hc,htracked⟩
      rcases (append_get _ _ _ _).mp hg with hg|⟨_,rfl⟩
      · exact ⟨g,hg,hfd,hc,htracked⟩
      · simp [Handler.isTracked] at htracked
  · intro i
    rw [hs.destroyed_iff]
    constructor
    · rintro ⟨g,hg,hp⟩
      exact ⟨g,(append_get _ _ _ _).mpr (Or.inl hg),hp⟩
    · rintro ⟨g,hg,hp⟩
      rcases (append_get _ _ _ _).mp hg with hg|⟨_,rfl⟩
      · exact ⟨g,hg,hp⟩
      · cases hp

/-- A phase change between two phases that are not `removed` keeps the set of
removed threads. -/
theorem removed_setPhase {s : Handlers} {i : ℕ} {g : Handler} {phase : HandlerPhase}
    (hg : s.threads[i]?=some g) (hold : g.phase≠.removed) (hnew : phase≠.removed) (k : ℕ) :
    (∃ h, (s.setPhase i g phase)[k]?=some h ∧ h.phase=.removed) ↔
      ∃ h, s.threads[k]?=some h ∧ h.phase=.removed := by
  constructor
  · rintro ⟨h,hk,hp⟩
    rcases (setPhase_get hg h).mp hk with ⟨_,rfl⟩|⟨_,hk⟩
    · exact absurd hp hnew
    · exact ⟨h,hk,hp⟩
  · rintro ⟨h,hk,hp⟩
    refine ⟨h,(setPhase_get hg h).mpr (Or.inr ⟨?_,hk⟩),hp⟩
    rintro rfl
    rw [hg] at hk
    cases hk
    exact hold hp

/-- Adding pushes the connection of its thread, and its thread becomes tracked. -/
theorem tracked_add {s : Handlers} {i : ℕ} {g : Handler} (hs : Owned s) (hg : s.threads[i]?=some g)
    (hfresh : g.isTracked=false) (fd : ℤ) (c : ConnectionRef) :
    c∈stack (sessionTableAdd s.table ⟨i,g.clientFd⟩) fd ↔
      ∃ h, (s.setPhase i g .serving)[c.object]?=some h ∧ h.clientFd=fd ∧
        c.socketFileDescriptor=fd ∧ h.isTracked=true := by
  have hcell : (∃ h, (s.setPhase i g .serving)[c.object]?=some h ∧ h.clientFd=fd ∧
      c.socketFileDescriptor=fd ∧ h.isTracked=true) ↔
      c=⟨i,g.clientFd⟩ ∧ fd=g.clientFd ∨ c∈stack s.table fd := by
    rw [hs.tracked]
    constructor
    · rintro ⟨h,hk,hfd,hc,htr⟩
      rcases (setPhase_get hg h).mp hk with ⟨hi,rfl⟩|⟨_,hk⟩
      · left
        cases c
        simp only at hi hfd hc ⊢
        exact ⟨by rw [hi,hc,hfd],hfd.symm⟩
      · exact Or.inr ⟨h,hk,hfd,hc,htr⟩
    · rintro (⟨rfl,rfl⟩|⟨h,hk,hfd,hc,htr⟩)
      · exact ⟨⟨g.clientFd,.serving⟩,(setPhase_get hg _).mpr (Or.inl ⟨rfl,rfl⟩),rfl,rfl,rfl⟩
      · refine ⟨h,(setPhase_get hg h).mpr (Or.inr ⟨?_,hk⟩),hfd,hc,htr⟩
        rintro hi
        rw [hi,hg] at hk
        cases hk
        rw [hfresh] at htr
        cases htr
  rw [hcell]
  by_cases hfd : g.clientFd=fd
  · subst hfd
    rw [stack_add_self s.table ⟨i,g.clientFd⟩,List.mem_cons]
    simp only [and_true]
  · rw [stack_add_of_ne s.table ⟨i,g.clientFd⟩ hfd]
    have hne : ¬fd=g.clientFd := fun he => hfd he.symm
    simp only [hne,and_false,false_or]

/-- The pushed connection is the newest of its descriptor, since its thread still
holds the descriptor open. -/
theorem newest_add {s : Handlers} {i : ℕ} {g : Handler} (hs : Owned s) (hg : s.threads[i]?=some g)
    (hfresh : g.isTracked=false) (hopen : g.isOpen=true) (fd : ℤ) :
    (stack (sessionTableAdd s.table ⟨i,g.clientFd⟩) fd).Pairwise (fun c d => d.object<c.object) := by
  by_cases hfd : g.clientFd=fd
  · subst hfd
    rw [stack_add_self s.table ⟨i,g.clientFd⟩,List.pairwise_cons]
    refine ⟨?_,hs.newest_first _⟩
    intro c hc
    obtain ⟨h,hk,hfd,_,htr⟩ := hs.tracked.mp hc
    rcases Nat.lt_trichotomy c.object i with hlt|heq|hgt
    · exact hlt
    · rw [heq,hg] at hk
      cases hk
      rw [hfresh] at htr
      cases htr
    · rw [hs.earlier_closed hgt hg hk hfd.symm] at hopen
      cases hopen
  · rw [stack_add_of_ne s.table ⟨i,g.clientFd⟩ hfd]
    exact hs.newest_first fd

/-- Adding keeps the invariant. -/
theorem owned_add {s t : Handlers} {i : ℕ} (hs : Owned s)
    (h : handlerStep s (.add i)=some t) : Owned t := by
  obtain ⟨g,hg,hp,rfl⟩ := add_cases h
  have hopen : g.isOpen=true := by simp [Handler.isOpen,hp]
  have hfresh : g.isTracked=false := by simp [Handler.isTracked,hp]
  refine ⟨?_,?_,newest_add hs hg hfresh hopen,?_,hs.destroyed_once⟩
  · intro a b ha hb hab
    exact earlier_closed_setPhase hs hg (fun _ => hopen) hab
  · intro fd c
    exact tracked_add hs hg hfresh fd c
  · intro k
    dsimp only
    rw [removed_setPhase hg (by rw [hp]; decide) (by decide)]
    exact hs.destroyed_iff

/-- Closing keeps the invariant: the connection stays tracked. -/
theorem owned_close {s t : Handlers} {i : ℕ} (hs : Owned s)
    (h : handlerStep s (.close i)=some t) : Owned t := by
  obtain ⟨g,hg,hp,rfl⟩ := close_cases h
  have htracked : g.isTracked=true := by simp [Handler.isTracked,hp]
  refine ⟨?_,?_,hs.newest_first,?_,hs.destroyed_once⟩
  · intro a b ha hb hab
    exact earlier_closed_setPhase hs hg (fun h => by simp [Handler.isOpen] at h) hab
  · intro fd c
    rw [hs.tracked]
    constructor
    · rintro ⟨h,hk,hfd,hc,htr⟩
      by_cases hi : c.object=i
      · rw [hi,hg] at hk
        cases hk
        exact ⟨⟨g.clientFd,.closed⟩,(setPhase_get hg _).mpr (Or.inl ⟨hi,rfl⟩),hfd,hc,rfl⟩
      · exact ⟨h,(setPhase_get hg h).mpr (Or.inr ⟨hi,hk⟩),hfd,hc,htr⟩
    · rintro ⟨h,hk,hfd,hc,htr⟩
      rcases (setPhase_get hg h).mp hk with ⟨hi,rfl⟩|⟨_,hk⟩
      · exact ⟨g,hi ▸ hg,hfd,hc,htracked⟩
      · exact ⟨h,hk,hfd,hc,htr⟩
  · intro k
    dsimp only
    rw [removed_setPhase hg (by rw [hp]; decide) (by decide)]
    exact hs.destroyed_iff

/-- The top of a closed thread's stack is its own connection exactly when no
later connection on the same descriptor number is in the table. -/
theorem top_iff_newest {s : Handlers} {i : ℕ} {g : Handler} (hs : Owned s)
    (hg : s.threads[i]?=some g) (hp : g.phase=.closed) :
    (stack s.table g.clientFd).head?=some ⟨i,g.clientFd⟩ ↔ NewestOnDescriptor s i := by
  have hmem : (⟨i,g.clientFd⟩ : ConnectionRef)∈stack s.table g.clientFd :=
    hs.tracked.mpr ⟨g,hg,rfl,rfl,by simp [Handler.isTracked,hp]⟩
  have hsorted := hs.newest_first g.clientFd
  constructor
  · intro htop h hk j _ hij x hx hfd
    rw [hg] at hk
    cases hk
    by_contra hne
    have hj : (⟨j,g.clientFd⟩ : ConnectionRef)∈stack s.table g.clientFd :=
      hs.tracked.mpr ⟨x,hx,hfd,rfl,Bool.eq_true_of_not_eq_false hne⟩
    cases hc : stack s.table g.clientFd with
    | nil => rw [hc] at hj; cases hj
    | cons top rest =>
      rw [hc] at htop hj hsorted
      cases htop
      rcases List.mem_cons.mp hj with he|hrest
      · cases he
        omega
      · have hlt := (List.pairwise_cons.mp hsorted).1 _ hrest
        dsimp only at hlt
        omega
  · intro hnewest
    cases hc : stack s.table g.clientFd with
    | nil => rw [hc] at hmem; cases hmem
    | cons top rest =>
      rw [hc] at hmem hsorted
      rw [List.head?_cons]
      rcases List.mem_cons.mp hmem with he|hrest
      · rw [he]
      · have hlt := (List.pairwise_cons.mp hsorted).1 _ hrest
        obtain ⟨x,hx,hfd,_,htr⟩ := hs.tracked.mp (hc ▸ List.mem_cons_self : top∈stack s.table g.clientFd)
        have hlen := (List.getElem?_eq_some_iff.mp hx).1
        rw [hnewest g hg top.object hlen hlt x hx hfd] at htr
        cases htr

/-- After popping the top, the rest of a stack is the stack without it. -/
theorem mem_tail_iff {c top : ConnectionRef} {chain : List ConnectionRef}
    (hsorted : chain.Pairwise (fun c d => d.object<c.object)) (htop : chain.head?=some top) :
    c∈chain.tail ↔ c∈chain ∧ c≠top := by
  cases chain with
  | nil => cases htop
  | cons x rest =>
    cases htop
    rw [List.tail_cons,List.mem_cons]
    have hlt := (List.pairwise_cons.mp hsorted).1
    constructor
    · intro hc
      refine ⟨Or.inr hc,?_⟩
      rintro rfl
      exact absurd (hlt _ hc) (Nat.lt_irrefl _)
    · rintro ⟨rfl|hc,hne⟩
      · exact absurd rfl hne
      · exact hc

/-- Removing the newest connection of a descriptor leaves the others tracked. -/
theorem tracked_remove {s : Handlers} {i : ℕ} {g : Handler} (hs : Owned s)
    (hg : s.threads[i]?=some g) (htop : (stack s.table g.clientFd).head?=some ⟨i,g.clientFd⟩) (fd : ℤ)
    (c : ConnectionRef) :
    c∈stack (sessionTableRemove s.table g.clientFd).1 fd ↔
      ∃ h, (s.setPhase i g .removed)[c.object]?=some h ∧ h.clientFd=fd ∧
        c.socketFileDescriptor=fd ∧ h.isTracked=true := by
  have hcell : (∃ h, (s.setPhase i g .removed)[c.object]?=some h ∧ h.clientFd=fd ∧
      c.socketFileDescriptor=fd ∧ h.isTracked=true) ↔ c.object≠i ∧ c∈stack s.table fd := by
    rw [hs.tracked]
    constructor
    · rintro ⟨h,hk,hrest⟩
      rcases (setPhase_get hg h).mp hk with ⟨_,rfl⟩|⟨hi,hk⟩
      · simp [Handler.isTracked] at hrest
      · exact ⟨hi,h,hk,hrest⟩
    · rintro ⟨hi,h,hk,hrest⟩
      exact ⟨h,(setPhase_get hg h).mpr (Or.inr ⟨hi,hk⟩),hrest⟩
  rw [hcell]
  by_cases hfd : fd=g.clientFd
  · subst hfd
    rw [(stack_remove_self s.table g.clientFd).1,mem_tail_iff (hs.newest_first _) htop,and_comm]
    refine and_congr_left (fun hc => not_congr ?_)
    have hd := stack_descriptor hc
    cases c
    dsimp only at hd
    rw [hd]
    simp only [ConnectionRef.mk.injEq,and_true]
  · rw [stack_remove_of_ne s.table hfd]
    refine ⟨fun hc => ⟨?_,hc⟩,And.right⟩
    rintro rfl
    obtain ⟨x,hx,hxfd,_⟩ := hs.tracked.mp hc
    rw [hg] at hx
    cases hx
    exact hfd hxfd.symm

/-- A removal that comes while its connection is the newest keeps the
invariant and destroys exactly its own connection. -/
theorem owned_remove {s t : Handlers} {i : ℕ} (hs : Owned s) (hnewest : NewestOnDescriptor s i)
    (h : handlerStep s (.remove i)=some t) : Owned t ∧ t.destroyed=s.destroyed++[i] := by
  obtain ⟨g,hg,hp,rfl⟩ := remove_cases h
  have htop := (top_iff_newest hs hg hp).mpr hnewest
  obtain ⟨htail,hout⟩ := stack_remove_self s.table g.clientFd
  rw [htop] at hout
  have hlast : s.destroyed++(sessionTableRemove s.table g.clientFd).2.toList.map
      ConnectionRef.object=s.destroyed++[i] := by rw [hout]; rfl
  have hnot : i∉s.destroyed := by
    intro hi
    obtain ⟨x,hx,hxp⟩ := hs.destroyed_iff.mp hi
    rw [hg] at hx
    cases hx
    rw [hp] at hxp
    cases hxp
  refine ⟨⟨?_,?_,?_,?_,?_⟩,hlast⟩
  · intro a b ha hb hab
    exact earlier_closed_setPhase hs hg (fun h => by simp [Handler.isOpen] at h) hab
  · intro fd c
    exact tracked_remove hs hg htop fd c
  · intro fd
    dsimp only
    by_cases hfd : fd=g.clientFd
    · subst hfd
      rw [htail]
      exact (hs.newest_first _).tail
    · rw [stack_remove_of_ne s.table hfd]
      exact hs.newest_first fd
  · intro k
    dsimp only
    rw [hlast,List.mem_append,List.mem_singleton,hs.destroyed_iff]
    constructor
    · rintro (⟨x,hx,hxp⟩|rfl)
      · refine ⟨x,(setPhase_get hg x).mpr (Or.inr ⟨?_,hx⟩),hxp⟩
        rintro rfl
        exact hnot (hs.destroyed_iff.mpr ⟨x,hx,hxp⟩)
      · exact ⟨_,(setPhase_get hg _).mpr (Or.inl ⟨rfl,rfl⟩),rfl⟩
    · rintro ⟨x,hx,hxp⟩
      rcases (setPhase_get hg x).mp hx with ⟨hi,_⟩|⟨_,hx⟩
      · exact Or.inr hi
      · exact Or.inl ⟨x,hx,hxp⟩
  · dsimp only
    rw [hlast]
    refine List.Nodup.append hs.destroyed_once (List.nodup_singleton i) ?_
    intro a ha hb
    rw [List.mem_singleton.mp hb] at ha
    exact hnot ha

/-- Every guarded step keeps the invariant. -/
theorem owned_step {s t : Handlers} {a : HandlerLabel} (hs : Owned s) (hguard : RemovesNewest s a)
    (h : handlerStep s a=some t) : Owned t := by
  cases a with
  | accept fd => exact owned_accept hs h
  | add i => exact owned_add hs h
  | use i =>
    obtain ⟨_,_,_,rfl⟩ := use_cases h
    exact hs
  | close i => exact owned_close hs h
  | remove i => exact (owned_remove hs hguard h).1

/-- Only a removal destroys connections. -/
theorem destroyed_of_not_remove {s t : Handlers} {a : HandlerLabel}
    (ha : ∀ i, a≠.remove i) (h : handlerStep s a=some t) : t.destroyed=s.destroyed := by
  cases a with
  | accept fd =>
    obtain ⟨_,rfl⟩ := accept_cases h
    rfl
  | add i =>
    obtain ⟨_,_,_,rfl⟩ := add_cases h
    rfl
  | use i =>
    obtain ⟨_,_,_,rfl⟩ := use_cases h
    rfl
  | close i =>
    obtain ⟨_,_,_,rfl⟩ := close_cases h
    rfl
  | remove i => exact absurd rfl (ha i)

/-- The threads whose removal a run has taken, in order. -/
def removals (labels : List HandlerLabel) : List ℕ :=
  labels.filterMap (fun | .remove i => some i | _ => none)

/-- Along a guarded run the invariant holds, and the connections destroyed
are those of the removing handlers, in the order of their removals. -/
theorem guarded_run {labels : List HandlerLabel} {s : Handlers}
    (hguard : Guarded handlerStep RemovesNewest .initial labels)
    (hrun : execute handlerStep .initial labels=some s) :
    Owned s ∧ s.destroyed=removals labels := by
  have hstep : ∀ past u a t,(Owned u ∧ u.destroyed=removals past) → RemovesNewest u a →
      handlerStep u a=some t → Owned t ∧ t.destroyed=removals (past++[a]) := by
    intro past u a t hu ha ht
    refine ⟨owned_step hu.1 ha ht,?_⟩
    rw [removals,List.filterMap_append,←removals,←hu.2]
    cases a with
    | remove i => exact (owned_remove hu.1 ha ht).2
    | accept fd | add i | use i | close i =>
      rw [destroyed_of_not_remove (by simp) ht]
      exact (List.append_nil _).symm
  have hinitial : Owned .initial ∧ Handlers.initial.destroyed=removals [] := ⟨owned_initial,rfl⟩
  exact guarded_trace_invariant hstep hinitial hguard hrun

/-- In every run whose removals come while their connection is the newest on
its descriptor number, each removal destroys exactly its own handler's
connection, no connection dies before its handler's removal and none dies
twice. In each state reached that condition is also necessary for the next
removal to hit its own connection. -/
theorem removal_destroys_own_connection (labels : List HandlerLabel) {s : Handlers}
    (hguard : Guarded handlerStep RemovesNewest .initial labels)
    (hrun : execute handlerStep .initial labels=some s) :
    s.destroyed=removals labels ∧ s.destroyed.Nodup ∧
      (∀ i∈s.destroyed,∃ h, s.threads[i]?=some h ∧ h.phase=.removed) ∧
      ∀ i h, s.threads[i]?=some h → h.phase=.closed →
        ((sessionTableRemove s.table h.clientFd).2=some ⟨i,h.clientFd⟩ ↔ NewestOnDescriptor s i) := by
  obtain ⟨hs,hd⟩ := guarded_run hguard hrun
  refine ⟨hd,hs.destroyed_once,fun i => hs.destroyed_iff.mp,?_⟩
  intro i h hi hp
  rw [(stack_remove_self s.table h.clientFd).2]
  exact top_iff_newest hs hi hp

/-- A descriptor reused after both of its users are done with the table. -/
theorem removal_destroys_own_connection_reuse :
    ∃ s, execute handlerStep .initial
        [.accept 5,.add 0,.close 0,.accept 5,.remove 0,.add 1,.close 1,.remove 1]=some s ∧
      s.destroyed=[0,1] :=
  ⟨_,rfl,(removal_destroys_own_connection
    [.accept 5,.add 0,.close 0,.accept 5,.remove 0,.add 1,.close 1,.remove 1]
    (by decide) rfl).1⟩

/-- The first handler has closed descriptor 5, the kernel hands the number to
a second connection, and the first handler's removal destroys the second
connection while its handler is still serving it. -/
theorem reused_descriptor_destroys_other_connection :
    (execute handlerStep .initial
      [.accept 5,.add 0,.close 0,.accept 5,.add 1,.remove 0]).map
        (fun s => (s.destroyed,s.threads.map Handler.phase))=
      some ([1],[.removed,.serving]) := by decide

end HoneyDew.ConnectionLifecycle
