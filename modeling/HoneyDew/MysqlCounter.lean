import HoneyDew.StepSystem
import Mathlib.Algebra.Ring.Nat
import Mathlib.Data.Finset.Card
import Mathlib.Data.Finset.Range
import Mathlib.Logic.Function.Basic

/-!
# The connection counter of the MySQL service

All sessions count in one static variable. A session reads it and writes it back
incremented while it holds a mutex, but the mutex is the one of its own
connection, so that nothing keeps two sessions from counting at the same time.
-/

namespace HoneyDew.MysqlCounter

open StepSystem

/-- Where a session stands in `run_mysql_service`. -/
inductive Phase
  /-- In front of `pthread_mutex_lock`. -/
  | start
  /-- In front of the load of the counter. -/
  | locked
  /-- Between the load and the store. -/
  | loaded (value : ℕ)
  /-- In front of `pthread_mutex_unlock`. -/
  | stored (connId : ℕ)
  /-- In front of the greeting. -/
  | unlocked (connId : ℕ)
  /-- Behind the greeting. -/
  | greeted (connId : ℕ)
  deriving DecidableEq,Repr

/-- The sessions and what they share. -/
structure Sessions where
  /-- `connection_counter`, a `uint32_t`. -/
  connectionCounter : ℕ
  /-- The session that holds the mutex of a connection. -/
  mutex : ℕ → Option ℕ
  /-- Where each session stands. -/
  phase : ℕ → Phase
  /-- The sessions greeted and the `conn_id` in their greeting packets. -/
  greetings : List (ℕ×ℕ)

/-- Before any session has counted. -/
def initial : Sessions := ⟨0,fun _ => none,fun _ => .start,[]⟩

/-- The next step of session `i` on connection `i`; nothing when it is blocked or
has passed the greeting. -/
def sessionStep (s : Sessions) (i : ℕ) : Option Sessions :=
  match s.phase i with
  | .start =>
    match s.mutex i with
    | none => some {s with
        mutex := Function.update s.mutex i (some i), phase := Function.update s.phase i .locked}
    | some _ => none
  | .locked => some {s with phase := Function.update s.phase i (.loaded s.connectionCounter)}
  | .loaded value => some {s with
      connectionCounter := (value+1)%2^32,
      phase := Function.update s.phase i (.stored ((value+1)%2^32))}
  | .stored connId => some {s with
      mutex := Function.update s.mutex i none, phase := Function.update s.phase i (.unlocked connId)}
  | .unlocked connId => some {s with
      phase := Function.update s.phase i (.greeted connId), greetings := s.greetings++[(i,connId)]}
  | .greeted _ => none

/-- One step of one of `n` sessions. -/
def step (n : ℕ) (s : Sessions) (i : ℕ) : Option Sessions := if i<n then sessionStep s i else none

/-- The identifier that a session has or is about to store. -/
def Phase.connId : Phase → Option ℕ
  | .start => none
  | .locked => none
  | .loaded value => some ((value+1)%2^32)
  | .stored connId => some connId
  | .unlocked connId => some connId
  | .greeted connId => some connId

/-- A session loads the counter only when no other one stands between its load and
its store. -/
def Alone (s : Sessions) (i : ℕ) : Prop := s.phase i=.locked → ∀ j value,s.phase j≠.loaded value

/-- No two sessions have the same identifier. -/
def DistinctIds (s : Sessions) : Prop :=
  ∀ i j c,(s.phase i).connId=some c → (s.phase j).connId=some c → i=j

/-- How a step changes the sessions: it moves one of them to its next phase. -/
inductive Moves (s : Sessions) (i : ℕ) : Sessions → Prop
  /-- The session locks its own mutex. -/
  | lock (h : s.phase i=.start) (mutex : ℕ → Option ℕ) :
    Moves s i ⟨s.connectionCounter,mutex,Function.update s.phase i .locked,s.greetings⟩
  /-- The session loads the counter. -/
  | load (h : s.phase i=.locked) :
    Moves s i ⟨s.connectionCounter,s.mutex,
      Function.update s.phase i (.loaded s.connectionCounter),s.greetings⟩
  /-- The session stores the counter. -/
  | store {value : ℕ} (h : s.phase i=.loaded value) :
    Moves s i ⟨(value+1)%2^32,s.mutex,
      Function.update s.phase i (.stored ((value+1)%2^32)),s.greetings⟩
  /-- The session unlocks its mutex. -/
  | unlock {connId : ℕ} (h : s.phase i=.stored connId) (mutex : ℕ → Option ℕ) :
    Moves s i ⟨s.connectionCounter,mutex,Function.update s.phase i (.unlocked connId),s.greetings⟩
  /-- The session greets its client. -/
  | greet {connId : ℕ} (h : s.phase i=.unlocked connId) :
    Moves s i ⟨s.connectionCounter,s.mutex,Function.update s.phase i (.greeted connId),
      s.greetings++[(i,connId)]⟩

/-- Every step is a move of one of the sessions. -/
theorem moves_of_step {n : ℕ} {s s' : Sessions} {i : ℕ} (h : step n s i=some s') :
    i<n ∧ Moves s i s' := by
  rw [step] at h
  split at h
  · rename_i hi
    refine ⟨hi,?_⟩
    cases hphase : s.phase i with
    | start =>
      simp only [sessionStep,hphase] at h
      split at h
      · rw [Option.some.injEq] at h
        rw [←h]
        exact .lock hphase _
      · exact absurd h (by simp)
    | locked =>
      simp only [sessionStep,hphase,Option.some.injEq] at h
      rw [←h]
      exact .load hphase
    | loaded value =>
      simp only [sessionStep,hphase,Option.some.injEq] at h
      rw [←h]
      exact .store hphase
    | stored connId =>
      simp only [sessionStep,hphase,Option.some.injEq] at h
      rw [←h]
      exact .unlock hphase _
    | unlocked connId =>
      simp only [sessionStep,hphase,Option.some.injEq] at h
      rw [←h]
      exact .greet hphase
    | greeted connId =>
      simp only [sessionStep,hphase] at h
      exact absurd h (by simp)
  · exact absurd h (by simp)

/-- A move sets the phase of one session and keeps the identifier it may have. -/
theorem Moves.phase {s s' : Sessions} {i : ℕ} (h : Moves s i s') :
    ∃ p,s'.phase=Function.update s.phase i p ∧
      ∀ c,(s.phase i).connId=some c → p.connId=some c := by
  cases h with
  | lock hphase mutex => exact ⟨_,rfl,fun c hc => by rw [hphase] at hc; exact absurd hc (by simp [Phase.connId])⟩
  | load hphase => exact ⟨_,rfl,fun c hc => by rw [hphase] at hc; exact absurd hc (by simp [Phase.connId])⟩
  | store hphase => exact ⟨_,rfl,fun c hc => by rw [hphase] at hc; exact hc⟩
  | unlock hphase mutex => exact ⟨_,rfl,fun c hc => by rw [hphase] at hc; exact hc⟩
  | greet hphase => exact ⟨_,rfl,fun c hc => by rw [hphase] at hc; exact hc⟩

/-- A session keeps its identifier. -/
theorem connId_kept {s s' : Sessions} {i : ℕ} (h : Moves s i s') {j c : ℕ}
    (hc : (s.phase j).connId=some c) : (s'.phase j).connId=some c := by
  obtain ⟨p,hphase,hkept⟩ := h.phase
  rw [hphase]
  by_cases hj : j=i
  · subst hj
    rw [Function.update_self]
    exact hkept c hc
  · rw [Function.update_of_ne hj,hc]

/-- The sessions that have an identifier. -/
def numbered (n : ℕ) (s : Sessions) : Finset ℕ :=
  (Finset.range n).filter (fun i => (s.phase i).connId.isSome)

theorem mem_numbered {n : ℕ} {s : Sessions} {i : ℕ} :
    i∈numbered n s ↔ i<n ∧ (s.phase i).connId.isSome=true := by
  rw [numbered,Finset.mem_filter,Finset.mem_range]

/-- What holds while sessions count alone: the identifiers are the first numbers,
each given once, and the counter is the last one unless a session has yet to
store it. -/
structure Counted (n : ℕ) (s : Sessions) : Prop where
  /-- The identifiers given so far. -/
  range : ∀ i c,(s.phase i).connId=some c → 0<c ∧ c ≤ (numbered n s).card
  /-- Each is given once. -/
  distinct : DistinctIds s
  /-- The counter is up to date or is about to be stored by one session. -/
  counter : (∀ j value,s.phase j≠.loaded value) ∧ s.connectionCounter=(numbered n s).card ∨
    ∃ j,s.phase j=.loaded s.connectionCounter ∧ s.connectionCounter+1=(numbered n s).card ∧
      ∀ k value,s.phase k=.loaded value → k=j

/-- No session has counted at the start. -/
theorem counted_initial (n : ℕ) : Counted n initial := by
  have hnone : ∀ i,(initial.phase i).connId=none := fun _ => rfl
  have hzero : (numbered n initial).card=0 := by simp [numbered,hnone]
  refine ⟨?_,?_,Or.inl ⟨?_,?_⟩⟩
  · intro i c hc
    rw [hnone] at hc
    exact absurd hc (by simp)
  · intro i j c hc
    rw [hnone] at hc
    exact absurd hc (by simp)
  · intro j value hj
    exact absurd hj (by simp [initial])
  · rw [hzero]
    rfl

/-- A move that neither gives an identifier nor touches the counter. -/
theorem Counted.of_same {n : ℕ} {s s' : Sessions} (h : Counted n s)
    (hids : ∀ j,(s'.phase j).connId=(s.phase j).connId)
    (hcounter : s'.connectionCounter=s.connectionCounter)
    (hloaded : ∀ j value,s'.phase j=.loaded value ↔ s.phase j=.loaded value) : Counted n s' := by
  have hnumbered : numbered n s'=numbered n s := by simp only [numbered,hids]
  refine ⟨?_,?_,?_⟩
  · intro i c hc
    rw [hids] at hc
    rw [hnumbered]
    exact h.range i c hc
  · intro i j c hi hj
    rw [hids] at hi hj
    exact h.distinct i j c hi hj
  · rw [hnumbered,hcounter]
    simp only [hloaded,ne_eq]
    exact h.counter

/-- A phase without a loaded value in the place of another such phase. -/
theorem loaded_update {phase : ℕ → Phase} {i : ℕ} {p : Phase} (hold : ∀ value,phase i≠.loaded value)
    (hnew : ∀ value,p≠.loaded value) (j value : ℕ) :
    Function.update phase i p j=.loaded value ↔ phase j=.loaded value := by
  by_cases hj : j=i
  · subst hj
    rw [Function.update_self]
    exact ⟨fun h => absurd h (hnew value),fun h => absurd h (hold value)⟩
  · rw [Function.update_of_ne hj]

/-- The identifiers after a session has gone on with its own. -/
theorem connId_update {phase : ℕ → Phase} {i : ℕ} {p : Phase} (h : p.connId=(phase i).connId)
    (j : ℕ) : (Function.update phase i p j).connId=(phase j).connId := by
  by_cases hj : j=i
  · subst hj
    rw [Function.update_self,h]
  · rw [Function.update_of_ne hj]

/-- There are no more identifiers than sessions. -/
theorem card_numbered_le (n : ℕ) (s : Sessions) : (numbered n s).card ≤ n := by
  have hle := Finset.card_filter_le (Finset.range n) (fun i => ((s.phase i).connId.isSome : Prop))
  rwa [Finset.card_range] at hle

/-- A session without an identifier that gets one is counted. -/
theorem card_numbered_succ {n : ℕ} {s s' : Sessions} {i c : ℕ} (hi : i<n)
    (hnone : (s.phase i).connId=none) (hid : (s'.phase i).connId=some c)
    (hother : ∀ j,j≠i → s'.phase j=s.phase j) :
    (numbered n s').card=(numbered n s).card+1 := by
  have hinsert : numbered n s'=insert i (numbered n s) := by
    ext j
    rw [Finset.mem_insert,mem_numbered,mem_numbered]
    by_cases hj : j=i
    · rw [hj,hid]
      simp [hi]
    · rw [hother j hj]
      simp [hj]
  have hfresh : i∉numbered n s := by
    rw [mem_numbered,hnone]
    simp
  rw [hinsert,Finset.card_insert_of_notMem hfresh]

/-- Identifiers stay distinct when a session gets one that no other session has. -/
theorem DistinctIds.fresh {s s' : Sessions} (h : DistinctIds s) {i c : ℕ}
    (hid : (s'.phase i).connId=some c) (hother : ∀ j,j≠i → s'.phase j=s.phase j)
    (hfresh : ∀ j,(s.phase j).connId≠some c) : DistinctIds s' := by
  intro j k d hj hk
  by_cases hji : j=i
  · by_cases hki : k=i
    · rw [hji,hki]
    · rw [hji,hid] at hj
      rw [hother k hki,←hj] at hk
      exact absurd hk (hfresh k)
  · by_cases hki : k=i
    · rw [hki,hid] at hk
      rw [hother j hji,←hk] at hj
      exact absurd hj (hfresh j)
    · rw [hother j hji] at hj
      rw [hother k hki] at hk
      exact h j k d hj hk

/-- Loading alone gives the next number. -/
theorem Counted.load {n : ℕ} (hn : n<2^32) {s : Sessions} (h : Counted n s) {i : ℕ} (hi : i<n)
    (hphase : s.phase i=.locked) (halone : ∀ j value,s.phase j≠.loaded value) :
    Counted n ⟨s.connectionCounter,s.mutex,
      Function.update s.phase i (.loaded s.connectionCounter),s.greetings⟩ := by
  have hcounter : s.connectionCounter=(numbered n s).card := by
    cases h.counter with
    | inl hup => exact hup.2
    | inr hlate =>
      obtain ⟨j,hj,_⟩ := hlate
      exact absurd hj (halone j _)
  generalize hs' : (⟨s.connectionCounter,s.mutex,
    Function.update s.phase i (.loaded s.connectionCounter),s.greetings⟩ : Sessions)=s'
  have hself : s'.phase i=.loaded s.connectionCounter := by
    rw [←hs']
    exact Function.update_self ..
  have hother : ∀ j,j≠i → s'.phase j=s.phase j := by
    intro j hj
    rw [←hs']
    exact Function.update_of_ne hj ..
  have hnone : (s.phase i).connId=none := by rw [hphase,Phase.connId]
  have hloaded : (s'.phase i).connId=some ((s.connectionCounter+1)%2^32) := by rw [hself,Phase.connId]
  have hcard := card_numbered_succ hi hnone hloaded hother
  have hbound := card_numbered_le n s'
  have hid : (s'.phase i).connId=some ((numbered n s).card+1) := by
    rw [hloaded,hcounter,Nat.mod_eq_of_lt (by omega)]
  have hfresh : ∀ j,(s.phase j).connId≠some ((numbered n s).card+1) := by
    intro j hj
    have hold := h.range j _ hj
    omega
  refine ⟨?_,h.distinct.fresh hid hother hfresh,Or.inr ⟨i,?_,?_,?_⟩⟩
  · intro j c hc
    by_cases hj : j=i
    · rw [hj,hid,Option.some.injEq] at hc
      omega
    · rw [hother j hj] at hc
      have hold := h.range j c hc
      omega
  · rw [hself,←hs']
  · rw [hcard,←hcounter,←hs']
  · intro k value hk
    by_contra hki
    rw [hother k hki] at hk
    exact halone k value hk

/-- Storing brings the counter up to date. -/
theorem Counted.store {n : ℕ} (hn : n<2^32) {s : Sessions} (h : Counted n s) {i value : ℕ}
    (hphase : s.phase i=.loaded value) :
    Counted n ⟨(value+1)%2^32,s.mutex,
      Function.update s.phase i (.stored ((value+1)%2^32)),s.greetings⟩ := by
  have hids : ∀ j,(Function.update s.phase i (.stored ((value+1)%2^32)) j).connId=
      (s.phase j).connId := connId_update (by rw [hphase]; rfl)
  generalize hs' : (⟨(value+1)%2^32,s.mutex,
    Function.update s.phase i (.stored ((value+1)%2^32)),s.greetings⟩ : Sessions)=s'
  have hsame : ∀ j,(s'.phase j).connId=(s.phase j).connId := by
    rw [←hs']
    exact hids
  have hself : s'.phase i=.stored ((value+1)%2^32) := by
    rw [←hs']
    exact Function.update_self ..
  have hother : ∀ j,j≠i → s'.phase j=s.phase j := by
    intro j hj
    rw [←hs']
    exact Function.update_of_ne hj ..
  have hnumbered : numbered n s'=numbered n s := by simp only [numbered,hsame]
  have hbound := card_numbered_le n s
  cases h.counter with
  | inl hup => exact absurd hphase (hup.1 i value)
  | inr hlate =>
    obtain ⟨j,hj,hcard,hone⟩ := hlate
    have hij := hone i value hphase
    rw [←hij,hphase,Phase.loaded.injEq] at hj
    refine ⟨?_,?_,Or.inl ⟨?_,?_⟩⟩
    · intro k c hc
      rw [hsame] at hc
      rw [hnumbered]
      exact h.range k c hc
    · intro k l c hk hl
      rw [hsame] at hk hl
      exact h.distinct k l c hk hl
    · intro k w hk
      by_cases hki : k=i
      · rw [hki,hself] at hk
        exact absurd hk (by simp)
      · rw [hother k hki] at hk
        exact hki ((hone k w hk).trans hij.symm)
    · rw [hnumbered,←hcard,←hs',hj]
      exact Nat.mod_eq_of_lt (by omega)

/-- A step of a session that counts alone keeps the numbers in order. -/
theorem counted_step {n : ℕ} (hn : n<2^32) (s : Sessions) (i : ℕ) (s' : Sessions) (h : Counted n s)
    (halone : Alone s i) (hstep : step n s i=some s') : Counted n s' := by
  obtain ⟨hi,hmove⟩ := moves_of_step hstep
  cases hmove with
  | lock hphase mutex =>
    exact h.of_same (connId_update (by rw [hphase]; rfl)) rfl
      (loaded_update (by rw [hphase]; simp) (by simp))
  | load hphase => exact h.load hn hi hphase (halone hphase)
  | store hphase => exact h.store hn hphase
  | unlock hphase mutex =>
    exact h.of_same (connId_update (by rw [hphase]; rfl)) rfl
      (loaded_update (by rw [hphase]; simp) (by simp))
  | greet hphase =>
    exact h.of_same (connId_update (by rw [hphase]; rfl)) rfl
      (loaded_update (by rw [hphase]; simp) (by simp))

/-- A session that loads while another one is about to store gets its number. -/
theorem same_of_not_alone {n : ℕ} {s s' : Sessions} {i : ℕ} (h : Counted n s) (halone : ¬Alone s i)
    (hstep : step n s i=some s') :
    ∃ j c,j≠i ∧ (s'.phase i).connId=some c ∧ (s'.phase j).connId=some c := by
  have hmove := (moves_of_step hstep).2
  rw [Alone] at halone
  push Not at halone
  obtain ⟨hphase,j,value,hj⟩ := halone
  have hcounter : s.connectionCounter=value := by
    cases h.counter with
    | inl hup => exact absurd hj (hup.1 j value)
    | inr hlate =>
      obtain ⟨k,hk,_,hone⟩ := hlate
      rw [←hone j value hj,hj,Phase.loaded.injEq] at hk
      exact hk.symm
  have hji : j≠i := by
    intro he
    rw [he,hphase] at hj
    exact absurd hj (by simp)
  have hjid : (s.phase j).connId=some ((value+1)%2^32) := by
    rw [hj]
    rfl
  have hiid : (s'.phase i).connId=some ((value+1)%2^32) := by
    cases hmove with
    | load _ => simp only [Function.update_self,hcounter,Phase.connId]
    | lock h' mutex => exact absurd (hphase.symm.trans h') (by simp)
    | store h' => exact absurd (hphase.symm.trans h') (by simp)
    | unlock h' mutex => exact absurd (hphase.symm.trans h') (by simp)
    | greet h' => exact absurd (hphase.symm.trans h') (by simp)
  exact ⟨j,_,hji,hiid,connId_kept hmove hjid⟩

/-- An identifier is kept to the end of a run. -/
theorem connId_kept_run {n : ℕ} {s u : Sessions} {acts : List ℕ}
    (hrun : execute (step n) s acts=some u) {j c : ℕ} (hc : (s.phase j).connId=some c) :
    (u.phase j).connId=some c := by
  have hstep : ∀ (t : Sessions) (i : ℕ) (t' : Sessions),(t.phase j).connId=some c →
      step n t i=some t' → (t'.phase j).connId=some c :=
    fun _ _ _ hi ht => connId_kept (moves_of_step ht).2 hi
  exact execute_invariant hstep hc hrun

/-- In a run, the identifiers are distinct exactly when every session counts alone. -/
theorem distinctIds_iff {n : ℕ} (hn : n<2^32) {s u : Sessions} (h : Counted n s) {acts : List ℕ}
    (hrun : execute (step n) s acts=some u) :
    DistinctIds u ↔ Guarded (step n) Alone s acts := by
  constructor
  · intro hdistinct
    induction acts generalizing s with
    | nil => trivial
    | cons i acts ih =>
      obtain ⟨t,hstep,hrest⟩ := execute_cons hrun
      have halone : Alone s i := by
        by_contra hnot
        obtain ⟨j,c,hji,hi,hj⟩ := same_of_not_alone h hnot hstep
        have hsame := hdistinct i j c (connId_kept_run hrest hi) (connId_kept_run hrest hj)
        exact hji hsame.symm
      have htail := ih (counted_step hn s i t h halone hstep) hrest
      rw [Guarded,hstep]
      exact ⟨halone,htail⟩
  · intro hguard
    exact (guarded_invariant (counted_step hn) h hguard hrun).distinct

/-- The greetings sent are those of the sessions behind them, one for each. -/
structure Greeted (s : Sessions) : Prop where
  /-- The greeting carries the identifier of its session. -/
  phase : ∀ g∈s.greetings,s.phase g.1=.greeted g.2
  /-- No session greets twice. -/
  once : (s.greetings.map Prod.fst).Nodup

/-- A move of a session that has not greeted yet keeps the greetings. -/
theorem Greeted.of_move {s : Sessions} (h : Greeted s) {i : ℕ} (hi : ∀ c,s.phase i≠.greeted c)
    (p : Phase) : ∀ g∈s.greetings,Function.update s.phase i p g.1=.greeted g.2 := by
  intro g hg
  have hphase := h.phase g hg
  have hne : g.1≠i := by
    intro he
    rw [he] at hphase
    exact hi _ hphase
  rw [Function.update_of_ne hne,hphase]

/-- A step adds at most the greeting of its session. -/
theorem greeted_step {n : ℕ} (s : Sessions) (i : ℕ) (s' : Sessions) (h : Greeted s)
    (hstep : step n s i=some s') : Greeted s' := by
  have hmove := (moves_of_step hstep).2
  cases hmove with
  | lock hphase mutex => exact ⟨h.of_move (by rw [hphase]; simp) _,h.once⟩
  | load hphase => exact ⟨h.of_move (by rw [hphase]; simp) _,h.once⟩
  | store hphase => exact ⟨h.of_move (by rw [hphase]; simp) _,h.once⟩
  | unlock hphase mutex => exact ⟨h.of_move (by rw [hphase]; simp) _,h.once⟩
  | greet hphase =>
    rename_i connId
    have hold := h.of_move (p := .greeted connId) (by rw [hphase]; simp)
    have hfresh : i∉s.greetings.map Prod.fst := by
      intro hm
      obtain ⟨g,hg,hgi⟩ := List.mem_map.mp hm
      have hgreeted := h.phase g hg
      rw [hgi,hphase] at hgreeted
      exact absurd hgreeted (by simp)
    refine ⟨?_,?_⟩
    · intro g hg
      cases List.mem_append.mp hg with
      | inl hin => exact hold g hin
      | inr hnew =>
        rw [List.mem_singleton] at hnew
        rw [hnew]
        exact Function.update_self ..
    · rw [List.map_append,List.nodup_append]
      refine ⟨h.once,by simp,?_⟩
      intro a ha b hb
      have hbi : b=i := by simpa using hb
      rw [hbi]
      intro hai
      exact hfresh (hai ▸ ha)

/-- Distinct identifiers make distinct greetings. -/
theorem nodup_greetings {s : Sessions} (h : Greeted s) (hdistinct : DistinctIds s) :
    (s.greetings.map Prod.snd).Nodup := by
  refine List.Nodup.map_on ?_ (List.Nodup.of_map Prod.fst h.once)
  intro g hg g' hg' hsame
  have hid : (s.phase g.1).connId=some g.2 := by
    rw [h.phase g hg]
    rfl
  have hid' : (s.phase g'.1).connId=some g.2 := by
    rw [h.phase g' hg',hsame]
    rfl
  exact Prod.ext (hdistinct _ _ _ hid hid') hsame

/-- Nobody has been greeted at the start. -/
theorem greeted_initial : Greeted initial :=
  ⟨fun g hg => absurd hg (List.not_mem_nil (a := g)),List.nodup_nil⟩

/-- For any number of sessions below 2^32 and every interleaving: when each session
of a run loads the counter while no other one stands between its load and its
store, the greetings carry distinct identifiers, and otherwise two sessions have
the same one. -/
theorem greeting_ids_distinct {n : ℕ} (hn : n<2^32) {acts : List ℕ} {s : Sessions}
    (hrun : execute (step n) initial acts=some s) :
    (Guarded (step n) Alone initial acts → (s.greetings.map Prod.snd).Nodup) ∧
      (¬Guarded (step n) Alone initial acts →
        ∃ i j c,i≠j ∧ (s.phase i).connId=some c ∧ (s.phase j).connId=some c) := by
  have hgreeted : Greeted s := execute_invariant (greeted_step (n := n)) greeted_initial hrun
  have hiff := distinctIds_iff hn (counted_initial n) hrun
  constructor
  · intro halone
    exact nodup_greetings hgreeted (hiff.mpr halone)
  · intro hnot
    have hequal : ¬DistinctIds s := fun hd => hnot (hiff.mp hd)
    rw [DistinctIds] at hequal
    push Not at hequal
    obtain ⟨i,j,c,hi,hj,hne⟩ := hequal
    exact ⟨i,j,c,hne,hi,hj⟩

/-- Two sessions count one after the other. -/
theorem greeting_ids_distinct_in_turn :
    ∃ s,execute (step 2) initial [0,0,0,0,0,1,1,1,1,1]=some s ∧
      (Guarded (step 2) Alone initial [0,0,0,0,0,1,1,1,1,1] → (s.greetings.map Prod.snd).Nodup) ∧
      (¬Guarded (step 2) Alone initial [0,0,0,0,0,1,1,1,1,1] →
        ∃ i j c,i≠j ∧ (s.phase i).connId=some c ∧ (s.phase j).connId=some c) :=
  ⟨_,rfl,greeting_ids_distinct (by decide) rfl⟩

/-- Two sessions, each with its own mutex, load the counter before either stores
it, and greet with the same identifier. -/
theorem greeting_ids_equal :
    ∃ s,execute (step 2) initial [0,1,0,1,0,1,0,1,0,1]=some s ∧ s.greetings=[(0,1),(1,1)] ∧
      ¬(s.greetings.map Prod.snd).Nodup := by
  refine ⟨_,rfl,rfl,?_⟩
  decide

end HoneyDew.MysqlCounter
