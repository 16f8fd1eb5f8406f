import HoneyDew.ClosingActs
import HoneyDew.ConnectionLifecycle
import HoneyDew.Producers

/-!
# What the peers of the handlers receive

The handlers share one descriptor table, in which the kernel gives a number out again as
soon as it is closed, even while the handler that closed it still runs. A send goes to
whatever connection its number names at that moment. In every interleaving it names the
handler's own: each peer receives what its own handler sends, in order and nothing else.
A handler has returned before its connection is destroyed as long as each removal destroys
its own connection, which reuse of a number can break. The SSH handler, which writes and
closes through libssh, is left out.
-/

namespace HoneyDew.Wires

open CText Service StepSystem SessionTable ConnectionLifecycle Producers ClosingActs

/-- The handlers with the descriptors they work on. -/
structure Net where
  /-- The threads and the session table. -/
  handlers : Handlers
  /-- What the protocol handler of a thread still has to do. -/
  rest : ℕ → List Action
  /-- The connection that a descriptor number names. -/
  socket : ℤ → Option ℕ
  /-- What was handed to the connections, in the order of the sends. -/
  wire : List (ℕ×Bytes)

/-- The state before the first accept. -/
def Net.initial (acts : ℕ → List Action) : Net := ⟨.initial,acts,fun _ => none,[]⟩

/-- One scheduling choice. -/
inductive NetLabel
  /-- `accept` gives out a free number, and the listener starts a thread. -/
  | accept (fd : ℤ)
  /-- Thread `i` adds its connection to the session table. -/
  | add (i : ℕ)
  /-- The protocol handler of thread `i` performs its next act. -/
  | act (i : ℕ)
  /-- The protocol handler of thread `i` has returned, and the thread removes its connection. -/
  | remove (i : ℕ)
  deriving DecidableEq,Repr

/-- Connections receive what is sent to a number that names them. -/
def deliver (socket : ℤ → Option ℕ) (fd : ℤ) : Action → List (ℕ×Bytes)
  | .send bytes => (socket fd).toList.map (fun j => (j,bytes))
  | _ => []

/-- The descriptor table behind an act on a number. -/
def socketBehind (socket : ℤ → Option ℕ) (fd : ℤ) : Action → ℤ → Option ℕ
  | .close => Function.update socket fd none
  | _ => socket

/-- The threads behind an act of one of them. -/
def handlersBehind (s : Handlers) (i : ℕ) (h : Handler) : Action → Handlers
  | .close => {s with threads := s.setPhase i h .closed}
  | _ => s

/-- One step. A number is free when it names nothing, whoever closed it. -/
def netStep (n : Net) : NetLabel → Option Net
  | .accept fd => match n.socket fd with
    | some _ => none
    | none => some {n with
        handlers := {n.handlers with threads := n.handlers.threads++[⟨fd,.accepted⟩]}
        socket := Function.update n.socket fd (some n.handlers.threads.length)}
  | .add i => (handlerStep n.handlers (.add i)).map (fun handlers => {n with handlers})
  | .act i => match n.handlers.threads[i]?,n.rest i with
    | some h,a::as =>
      if h.isTracked then
        some ⟨handlersBehind n.handlers i h a,Function.update n.rest i as,
          socketBehind n.socket h.clientFd a,n.wire++deliver n.socket h.clientFd a⟩
      else none
    | _,_ => none
  | .remove i =>
    if n.rest i=[] then (handlerStep n.handlers (.remove i)).map (fun handlers => {n with handlers})
    else none

/-- The step of the threads that a step is. -/
def handlerLabel (n : Net) : NetLabel → HandlerLabel
  | .accept fd => .accept fd
  | .add i => .add i
  | .act i => match n.rest i with
    | .close::_ => .close i
    | _ => .use i
  | .remove i => .remove i

/-- A removal comes only while its own connection is the newest of its number. -/
def RemovesOwn (n : Net) (a : NetLabel) : Prop := RemovesNewest n.handlers (handlerLabel n a)

instance (n : Net) (a : NetLabel) : Decidable (RemovesOwn n a) := by
  unfold RemovesOwn
  infer_instance

/-! ## The steps -/

section Steps

variable {n t : Net}

/-- An accept takes a free number. -/
theorem accept_cases {fd : ℤ} (h : netStep n (.accept fd)=some t) :
    n.socket fd=none ∧ t={n with
      handlers := {n.handlers with threads := n.handlers.threads++[⟨fd,.accepted⟩]}
      socket := Function.update n.socket fd (some n.handlers.threads.length)} := by
  rw [netStep] at h
  split at h
  · cases h
  · rename_i hfree
    exact ⟨hfree,(Option.some.inj h).symm⟩

/-- An add only concerns the threads. -/
theorem add_cases {i : ℕ} (h : netStep n (.add i)=some t) :
    ∃ handlers,handlerStep n.handlers (.add i)=some handlers ∧ t={n with handlers} := by
  obtain ⟨handlers,hstep,ht⟩ := Option.map_eq_some_iff.mp h
  exact ⟨handlers,hstep,ht.symm⟩

/-- An act is the next one of a thread in its protocol handler. -/
theorem act_cases {i : ℕ} (h : netStep n (.act i)=some t) :
    ∃ g a as,n.handlers.threads[i]?=some g ∧ n.rest i=a::as ∧ g.isTracked=true ∧
      t=⟨handlersBehind n.handlers i g a,Function.update n.rest i as,
        socketBehind n.socket g.clientFd a,n.wire++deliver n.socket g.clientFd a⟩ := by
  rw [netStep] at h
  split at h
  · rename_i g a as hg hrest
    split at h
    · rename_i htracked
      exact ⟨g,a,as,hg,hrest,htracked,(Option.some.inj h).symm⟩
    · cases h
  · cases h

/-- A removal comes behind the return of its protocol handler. -/
theorem remove_cases {i : ℕ} (h : netStep n (.remove i)=some t) :
    n.rest i=[] ∧ ∃ handlers,handlerStep n.handlers (.remove i)=some handlers ∧
      t={n with handlers} := by
  rw [netStep] at h
  split at h
  · rename_i hrest
    obtain ⟨handlers,hstep,ht⟩ := Option.map_eq_some_iff.mp h
    exact ⟨hrest,handlers,hstep,ht.symm⟩
  · cases h

end Steps

/-! ## The invariant -/

/-- The numbers name the connections of the threads that have them open, and each
connection has received what its own handler has sent. -/
structure Wired (acts : ℕ → List Action) (n : Net) : Prop where
  /-- A number names the one connection that is open on it. -/
  named : ∀ fd i,n.socket fd=some i ↔
    ∃ h,n.handlers.threads[i]?=some h ∧ h.clientFd=fd ∧ h.isOpen=true
  /-- What is handed over and what is still to come make up the sends of a handler. -/
  produced : Produced (fun i => sends (acts i)) (fun i => sends (n.rest i)) n.wire
  /-- A handler that closes its number still has that to do while the number is open. -/
  closing : ∀ i,.close∈acts i → (∀ h,n.handlers.threads[i]?=some h → h.isOpen=true) →
    .close∈n.rest i
  /-- Behind its close, a handler will leave the number alone. -/
  ahead : ∀ i,QuietBehindClose (n.rest i)
  /-- Once it has closed, a handler leaves the number alone. -/
  behind : ∀ i h,n.handlers.threads[i]?=some h → h.isOpen=false → Quiet (n.rest i)
  /-- Behind its removal a handler does nothing. -/
  done : ∀ i h,n.handlers.threads[i]?=some h → h.phase=.removed → n.rest i=[]

section Invariant

variable {acts : ℕ → List Action} {n t : Net}

/-- The state before the first accept. -/
theorem wired_initial (hacts : ∀ i,QuietBehindClose (acts i)) : Wired acts (.initial acts) where
  named := by simp [Net.initial,Handlers.initial]
  produced := produced_initial _
  closing := fun _ hclose _ => hclose
  ahead := hacts
  behind := by simp [Net.initial,Handlers.initial]
  done := by simp [Net.initial,Handlers.initial]

/-- A free number is open in no thread. -/
theorem Wired.free (hn : Wired acts n) {fd : ℤ} (hfree : n.socket fd=none) :
    ∀ g∈n.handlers.threads,g.isOpen=true → g.clientFd≠fd := by
  intro g hg hopen hfd
  obtain ⟨i,hi⟩ := List.getElem?_of_mem hg
  rw [(hn.named fd i).mpr ⟨g,hi,hfd,hopen⟩] at hfree
  cases hfree

/-- A handler that sends or closes has its number open. -/
theorem Wired.opened (hn : Wired acts n) {i : ℕ} {g : Handler} {a : Action} {as : List Action}
    (hg : n.handlers.threads[i]?=some g) (hrest : n.rest i=a::as) (ha : isQuiet a=false) :
    g.isOpen=true := by
  by_contra hclosed
  have hquiet := hn.behind i g hg (Bool.eq_false_of_not_eq_true hclosed) a
  rw [hrest,ha] at hquiet
  exact Bool.false_ne_true (hquiet List.mem_cons_self)

/-- A step is one of the threads. -/
theorem Wired.simulates (hn : Wired acts n) {a : NetLabel} (h : netStep n a=some t) :
    handlerStep n.handlers (handlerLabel n a)=some t.handlers := by
  cases a with
  | accept fd =>
    obtain ⟨hfree,rfl⟩ := accept_cases h
    have hnone := hn.free hfree
    have hany : ¬n.handlers.threads.any (fun g => g.isOpen && g.clientFd=fd)=true := by
      intro hany
      obtain ⟨g,hg,htest⟩ := List.any_eq_true.mp hany
      rw [Bool.and_eq_true,decide_eq_true_eq] at htest
      exact hnone g hg htest.1 htest.2
    rw [handlerLabel,handlerStep,if_neg hany]
  | add i =>
    obtain ⟨handlers,hstep,rfl⟩ := add_cases h
    exact hstep
  | remove i =>
    obtain ⟨_,handlers,hstep,rfl⟩ := remove_cases h
    exact hstep
  | act i =>
    obtain ⟨g,a,as,hg,hrest,htracked,rfl⟩ := act_cases h
    have huse : handlerStep n.handlers (.use i)=some n.handlers := by
      rw [handlerStep,hg]
      exact if_pos htracked
    rw [handlerLabel,hrest]
    cases a with
    | audit e => exact huse
    | log message => exact huse
    | send bytes => exact huse
    | close =>
      have hopen := hn.opened hg hrest rfl
      have hserving : g.phase=.serving := by
        cases hphase : g.phase <;> simp [Handler.isOpen,Handler.isTracked,hphase] at hopen htracked ⊢
      rw [handlerStep,hg]
      exact if_pos hserving

/-- An act of a handler hands over what it sends, if its number names its connection. -/
theorem produced_act {whole : ℕ → List Bytes} {rest : ℕ → List Action} {wire : List (ℕ×Bytes)}
    (hproduced : Produced whole (fun i => sends (rest i)) wire) {socket : ℤ → Option ℕ} {fd : ℤ} {i : ℕ}
    {a : Action} {as : List Action} (hrest : rest i=a::as)
    (hnamed : isQuiet a=false → socket fd=some i) :
    Produced whole (fun j => sends (Function.update rest i as j)) (wire++deliver socket fd a) := by
  have hsilent : sends (a::as)=sends as →
      Produced whole (fun j => sends (Function.update rest i as j)) (wire++[]) := by
    intro hsame j
    dsimp only
    rw [List.append_nil,←hproduced j]
    dsimp only
    by_cases hj : j=i
    · rw [hj,Function.update_self,hrest,hsame]
    · rw [Function.update_of_ne hj]
  cases a with
  | audit e => exact hsilent rfl
  | log message => exact hsilent rfl
  | close => exact hsilent rfl
  | send bytes =>
    have hnext : (fun j => sends (rest j)) i=bytes::sends as := congrArg sends hrest
    have hstep := produced_step hproduced hnext
    have hupdate := Function.comp_update sends rest i as
    rw [deliver,hnamed rfl]
    rw [show (fun j => sends (Function.update rest i as j))=sends∘Function.update rest i as from rfl,
      hupdate]
    exact hstep

/-- A change of a thread that keeps its number and whether it is open keeps the names. -/
theorem named_setPhase (hn : Wired acts n) {i : ℕ} {g : Handler} {phase : HandlerPhase}
    (hg : n.handlers.threads[i]?=some g) (hopen : (Handler.mk g.clientFd phase).isOpen=g.isOpen)
    (fd : ℤ) (k : ℕ) : n.socket fd=some k ↔
      ∃ h,(n.handlers.setPhase i g phase)[k]?=some h ∧ h.clientFd=fd ∧ h.isOpen=true := by
  rw [hn.named]
  constructor
  · rintro ⟨h,hk,hfd,hk'⟩
    by_cases hik : k=i
    · rw [hik,hg] at hk
      cases hk
      exact ⟨_,(setPhase_get hg _).mpr (Or.inl ⟨hik,rfl⟩),hfd,hopen.trans hk'⟩
    · exact ⟨h,(setPhase_get hg h).mpr (Or.inr ⟨hik,hk⟩),hfd,hk'⟩
  · rintro ⟨h,hk,hfd,hk'⟩
    rcases (setPhase_get hg h).mp hk with ⟨hik,rfl⟩|⟨_,hk⟩
    · rw [hik]
      exact ⟨g,hg,hfd,hopen.symm.trans hk'⟩
    · exact ⟨h,hk,hfd,hk'⟩

/-- Accepting keeps the invariant. -/
theorem wired_accept (hn : Wired acts n) {fd : ℤ} (h : netStep n (.accept fd)=some t) :
    Wired acts t := by
  obtain ⟨hfree,rfl⟩ := accept_cases h
  refine ⟨?_,hn.produced,?_,hn.ahead,?_,?_⟩
  · intro fd' i
    dsimp only
    by_cases hfd : fd'=fd
    · rw [hfd,Function.update_self]
      constructor
      · intro hi
        cases hi
        exact ⟨_,(append_get _ _ _ _).mpr (Or.inr ⟨rfl,rfl⟩),rfl,rfl⟩
      · rintro ⟨g,hg,hgfd,hopen⟩
        rcases (append_get _ _ _ _).mp hg with hg|⟨hi,_⟩
        · exact absurd hgfd (hn.free hfree g (List.mem_of_getElem? hg) hopen)
        · rw [hi]
    · rw [Function.update_of_ne hfd,hn.named]
      constructor
      · rintro ⟨g,hg,hrest⟩
        exact ⟨g,(append_get _ _ _ _).mpr (Or.inl hg),hrest⟩
      · rintro ⟨g,hg,hgfd,hopen⟩
        rcases (append_get _ _ _ _).mp hg with hg|⟨_,rfl⟩
        · exact ⟨g,hg,hgfd,hopen⟩
        · exact absurd hgfd (fun heq => hfd heq.symm)
  · intro i hclose hopen
    exact hn.closing i hclose (fun g hg => hopen g ((append_get _ _ _ _).mpr (Or.inl hg)))
  · intro i g hg hclosed
    rcases (append_get _ _ _ _).mp hg with hg|⟨_,rfl⟩
    · exact hn.behind i g hg hclosed
    · cases hclosed
  · intro i g hg hphase
    rcases (append_get _ _ _ _).mp hg with hg|⟨_,rfl⟩
    · exact hn.done i g hg hphase
    · cases hphase

/-- Adding a connection keeps the numbers and what the peers have received. -/
theorem wired_add (hn : Wired acts n) {i : ℕ} (h : netStep n (.add i)=some t) : Wired acts t := by
  obtain ⟨handlers,hstep,rfl⟩ := add_cases h
  obtain ⟨g,hg,hphase,rfl⟩ := ConnectionLifecycle.add_cases hstep
  have hopen : g.isOpen=true := by simp [Handler.isOpen,hphase]
  refine ⟨named_setPhase hn hg hopen.symm,hn.produced,?_,hn.ahead,?_,?_⟩
  · intro k hclose hall
    refine hn.closing k hclose ?_
    intro x hx
    by_cases hk : k=i
    · rw [hk,hg] at hx
      cases hx
      exact hopen
    · exact hall x ((setPhase_get hg x).mpr (Or.inr ⟨hk,hx⟩))
  · intro k x hx hclosed
    rcases (setPhase_get hg x).mp hx with ⟨_,rfl⟩|⟨_,hx⟩
    · cases hclosed
    · exact hn.behind k x hx hclosed
  · intro k x hx hremoved
    rcases (setPhase_get hg x).mp hx with ⟨_,rfl⟩|⟨_,hx⟩
    · cases hremoved
    · exact hn.done k x hx hremoved

/-- Removing a connection keeps the numbers and what the peers have received. -/
theorem wired_remove (hn : Wired acts n) {i : ℕ} (h : netStep n (.remove i)=some t) :
    Wired acts t := by
  obtain ⟨hrest,handlers,hstep,rfl⟩ := remove_cases h
  obtain ⟨g,hg,hphase,rfl⟩ := ConnectionLifecycle.remove_cases hstep
  have hclosed : g.isOpen=false := by simp [Handler.isOpen,hphase]
  refine ⟨named_setPhase hn hg hclosed.symm,hn.produced,?_,hn.ahead,?_,?_⟩
  · intro k hclose hall
    refine hn.closing k hclose ?_
    intro x hx
    by_cases hk : k=i
    · have hdone := hall _ ((setPhase_get hg _).mpr (Or.inl ⟨hk,rfl⟩))
      cases hdone
    · exact hall x ((setPhase_get hg x).mpr (Or.inr ⟨hk,hx⟩))
  · intro k x hx hshut
    rcases (setPhase_get hg x).mp hx with ⟨hk,_⟩|⟨_,hx⟩
    · dsimp only
      rw [hk]
      exact hn.behind i g hg hclosed
    · exact hn.behind k x hx hshut
  · intro k x hx hremoved
    rcases (setPhase_get hg x).mp hx with ⟨hk,_⟩|⟨_,hx⟩
    · dsimp only
      rw [hk,hrest]
    · exact hn.done k x hx hremoved

/-- A close frees the number of its own connection only. -/
theorem named_close (hn : Wired acts n) {i : ℕ} {g : Handler} (hg : n.handlers.threads[i]?=some g)
    (hopen : g.isOpen=true) (fd : ℤ) (k : ℕ) :
    Function.update n.socket g.clientFd none fd=some k ↔
      ∃ h,(n.handlers.setPhase i g .closed)[k]?=some h ∧ h.clientFd=fd ∧ h.isOpen=true := by
  by_cases hfd : fd=g.clientFd
  · rw [hfd,Function.update_self]
    refine iff_of_false (fun heq => nomatch heq) ?_
    rintro ⟨h,hk,hown,hstill⟩
    rcases (setPhase_get hg h).mp hk with ⟨_,rfl⟩|⟨hne,hk⟩
    · cases hstill
    · -- Two connections with one open number would both be named by it.
      have hfirst := (hn.named g.clientFd i).mpr ⟨g,hg,rfl,hopen⟩
      rw [(hn.named g.clientFd k).mpr ⟨h,hk,hown,hstill⟩] at hfirst
      exact hne (Option.some.inj hfirst)
  · rw [Function.update_of_ne hfd,hn.named]
    constructor
    · rintro ⟨h,hk,hown,hstill⟩
      refine ⟨h,(setPhase_get hg h).mpr (Or.inr ⟨?_,hk⟩),hown,hstill⟩
      rintro rfl
      rw [hg] at hk
      cases hk
      exact hfd hown.symm
    · rintro ⟨h,hk,hown,hstill⟩
      rcases (setPhase_get hg h).mp hk with ⟨_,rfl⟩|⟨_,hk⟩
      · cases hstill
      · exact ⟨h,hk,hown,hstill⟩

/-- An act takes itself off what its handler still has to do. -/
theorem wired_act (hn : Wired acts n) {i : ℕ} (h : netStep n (.act i)=some t) : Wired acts t := by
  obtain ⟨g,a,as,hg,hrest,htracked,rfl⟩ := act_cases h
  have hnamed : isQuiet a=false → n.socket g.clientFd=some i := fun ha =>
    (hn.named _ _).mpr ⟨g,hg,rfl,hn.opened hg hrest ha⟩
  have hproduced := produced_act hn.produced hrest hnamed
  have hahead := hn.ahead i
  rw [hrest] at hahead
  have hlater : ∀ {p : List Action → Prop},p as → ∀ k,(k≠i → p (n.rest k)) →
      p (Function.update n.rest i as k) := by
    intro p hself k hother
    by_cases hk : k=i
    · rw [hk,Function.update_self]
      exact hself
    · rw [Function.update_of_ne hk]
      exact hother hk
  by_cases ha : a=.close
  · rw [ha] at hahead hnamed hrest ⊢
    have hquiet := quietBehindClose_close.mp hahead
    refine ⟨named_close hn hg (hn.opened hg hrest rfl),?_,?_,
      fun k => hlater hquiet.behindClose k (fun _ => hn.ahead k),?_,?_⟩
    · rw [ha] at hproduced
      exact hproduced
    · intro k hclose hall
      by_cases hk : k=i
      · have hdone := hall _ ((setPhase_get hg _).mpr (Or.inl ⟨hk,rfl⟩))
        cases hdone
      · dsimp only
        rw [Function.update_of_ne hk]
        exact hn.closing k hclose (fun x hx => hall x ((setPhase_get hg x).mpr (Or.inr ⟨hk,hx⟩)))
    · intro k x hx hclosed
      refine hlater hquiet k ?_
      intro hne
      rcases (setPhase_get hg x).mp hx with ⟨hk,_⟩|⟨_,hx⟩
      · exact absurd hk hne
      · exact hn.behind k x hx hclosed
    · intro k x hx hremoved
      rcases (setPhase_get hg x).mp hx with ⟨_,rfl⟩|⟨hne,hx⟩
      · cases hremoved
      · dsimp only
        rw [Function.update_of_ne hne]
        exact hn.done k x hx hremoved
  · have hhandlers : handlersBehind n.handlers i g a=n.handlers := by
      cases a <;> first | rfl | exact absurd rfl ha
    have hsocket : socketBehind n.socket g.clientFd a=n.socket := by
      cases a <;> first | rfl | exact absurd rfl ha
    rw [hhandlers,hsocket]
    refine ⟨hn.named,hproduced,?_,
      fun k => hlater ((quietBehindClose_cons ha).mp hahead) k (fun _ => hn.ahead k),?_,?_⟩
    · intro k hclose hall
      have hahead := hn.closing k hclose hall
      by_cases hk : k=i
      · rw [hk,hrest] at hahead
        dsimp only
        rw [hk,Function.update_self]
        exact (List.mem_cons.mp hahead).resolve_left (fun heq => ha heq.symm)
      · dsimp only
        rwa [Function.update_of_ne hk]
    · intro k x hx hclosed
      by_cases hk : k=i
      · rw [hk] at hx ⊢
        have hquiet := hn.behind i x hx hclosed
        rw [hrest] at hquiet
        dsimp only
        rw [Function.update_self]
        exact fun b hb => hquiet b (List.mem_cons_of_mem a hb)
      · dsimp only
        rw [Function.update_of_ne hk]
        exact hn.behind k x hx hclosed
    · intro k x hx hremoved
      have hk : k≠i := by
        rintro rfl
        rw [hg] at hx
        cases hx
        simp [Handler.isTracked,hremoved] at htracked
      dsimp only
      rw [Function.update_of_ne hk]
      exact hn.done k x hx hremoved

/-- Every step keeps the numbers and what the peers have received. -/
theorem wired_step {a : NetLabel} (hn : Wired acts n) (h : netStep n a=some t) : Wired acts t := by
  cases a with
  | accept fd => exact wired_accept hn h
  | add i => exact wired_add hn h
  | act i => exact wired_act hn h
  | remove i => exact wired_remove hn h

/-- A run keeps the numbers and what the peers have received, if the handlers leave their
numbers alone behind their close. -/
theorem wired_run (hacts : ∀ i,QuietBehindClose (acts i)) {labels : List NetLabel}
    (hrun : execute netStep (.initial acts) labels=some n) : Wired acts n :=
  execute_invariant (fun _ _ _ hs hstep => wired_step hs hstep) (wired_initial hacts) hrun

/-- A run whose removals destroy their own connections keeps the table in order. -/
theorem owned_net_run (hacts : ∀ i,QuietBehindClose (acts i)) {labels : List NetLabel}
    (hguard : Guarded netStep RemovesOwn (.initial acts) labels)
    (hrun : execute netStep (.initial acts) labels=some n) : Owned n.handlers := by
  have hstep : ∀ n a t,Wired acts n ∧ Owned n.handlers → RemovesOwn n a → netStep n a=some t →
      Wired acts t ∧ Owned t.handlers := by
    rintro n a t ⟨hwired,howned⟩ hown h
    exact ⟨wired_step hwired h,owned_step howned hown (hwired.simulates h)⟩
  exact (guarded_invariant hstep ⟨wired_initial hacts,owned_initial⟩ hguard hrun).2

end Invariant

/-- In every interleaving of the handlers that close their descriptors themselves (all but
SSH), with numbers given out again as soon as they are free: each peer has received a front
of what its own handler sends, and all of it when the handler has closed, which it has done
when it returns. A number names exactly the connection of the thread that has it open. If
each removal destroys its own connection, a handler does nothing behind the destruction of
its connection. -/
theorem peers_receive_own (runs : ℕ → SocketRun) (labels : List NetLabel) {n : Net}
    (hrun : execute netStep (.initial (fun i => (runs i).acts)) labels=some n) :
    (∀ i,itemsOf i n.wire<+:sends (runs i).acts) ∧
    (∀ i h,n.handlers.threads[i]?=some h → h.isOpen=false → itemsOf i n.wire=sends (runs i).acts) ∧
    (∀ i h,(runs i).Ended → n.handlers.threads[i]?=some h → n.rest i=[] → h.isOpen=false) ∧
    (∀ fd i,n.socket fd=some i ↔
      ∃ h,n.handlers.threads[i]?=some h ∧ h.clientFd=fd ∧ h.isOpen=true) ∧
    (Guarded netStep RemovesOwn (.initial (fun i => (runs i).acts)) labels →
      ∀ i∈n.handlers.destroyed,n.rest i=[]) := by
  have hquietAll := fun i => quietBehindClose_acts (runs i)
  have hn := wired_run hquietAll hrun
  refine ⟨hn.produced.front,?_,?_,hn.named,?_⟩
  · intro i h hi hclosed
    have hnothing : sends (n.rest i)=[] := by
      refine List.filterMap_eq_nil_iff.mpr ?_
      intro a ha
      have hquiet := hn.behind i h hi hclosed a ha
      cases a with
      | send bytes => cases hquiet
      | audit e => rfl
      | log message => rfl
      | close => rfl
    exact hn.produced.complete hnothing
  · intro i h hend hi hdone
    by_contra hopen
    have hall : ∀ x,n.handlers.threads[i]?=some x → x.isOpen=true := by
      intro x hx
      rw [hi] at hx
      cases hx
      exact Bool.eq_true_of_not_eq_false hopen
    have hahead := hn.closing i (close_mem_acts hend) hall
    rw [hdone] at hahead
    cases hahead
  · intro hguard i hi
    obtain ⟨h,hget,hremoved⟩ := (owned_net_run hquietAll hguard hrun).destroyed_iff.mp hi
    exact hn.done i h hget hremoved

/-- Two sessions whose clients leave at once. -/
def leavingRuns : ℕ → SocketRun
  | 0 => .recorded ⟨text "10.0.0.1",40001,text "a"⟩ (.pop3 []) (by decide)
  | _ => .recorded ⟨text "10.0.0.2",40002,text "b"⟩ (.imap []) (by decide)

/-- The second one gets the number of the first, whose thread still runs. -/
def reusingLabels : List NetLabel :=
  [.accept 5,.add 0,.act 0,.act 0,.act 0,.act 0,.accept 5,.remove 0,.add 1,.act 1,.act 1]

/-- Each peer has received its own greeting, and the first handler is done. -/
theorem peers_receive_own_reuse :
    ∃ n,execute netStep (.initial (fun i => (leavingRuns i).acts)) reusingLabels=some n ∧
      itemsOf 0 n.wire=[replyLine "+OK Dovecot ready."] ∧
      itemsOf 1 n.wire<+:sends (leavingRuns 1).acts ∧ n.socket 5=some 1 ∧ n.rest 0=[] := by
  have hguard : Guarded netStep RemovesOwn (.initial (fun i => (leavingRuns i).acts)) reusingLabels := by
    decide
  have hown := peers_receive_own leavingRuns reusingLabels rfl
  refine ⟨_,rfl,?_,hown.1 1,(hown.2.2.2.1 5 1).mpr ⟨_,rfl,rfl,rfl⟩,
    hown.2.2.2.2 hguard 0 (by decide)⟩
  rw [hown.2.1 0 _ rfl (hown.2.2.1 0 _ trivial rfl rfl)]
  rfl

end HoneyDew.Wires
