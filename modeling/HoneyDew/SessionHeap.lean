import HoneyDew.LinkedChain
import HoneyDew.SessionStacks
import HoneyDew.StepSystem

/-!
# The session table as nodes in memory

The functions of the session table over a memory of nodes and connection
objects, with the pointer to the previous link that a removal writes through.
Reading or freeing an object that is not allocated is an error, so a run that
goes through has no access to a freed node or connection and no double free.
The bucket table of lists is what the chains of this memory stand for.
-/

namespace HoneyDew.SessionHeap

open StepSystem LinkedChain SessionTable SessionStacks

/-- A table node, `session_node_t`. -/
structure SessionNode where
  /-- Address of the connection object. -/
  connection : ℕ
  /-- The next node of the bucket, or null. -/
  next : Option ℕ
  deriving DecidableEq,Repr

/-- The table and the allocated objects it uses. Nodes and connections have a
map each: blocks that are allocated at the same time never overlap. -/
structure Memory where
  /-- The array `session_bucket`. -/
  sessionBucket : Fin sessionTableSize → Option ℕ
  /-- Allocated nodes by address. -/
  node : ℕ → Option SessionNode
  /-- The field `socket_file_descriptor` of the allocated connections. -/
  connection : ℕ → Option ℤ
  /-- Connections passed to `connection_destroy`, in order. -/
  destroyed : List ℕ
  /-- What the calls of `session_table_get` have returned, in order. -/
  returned : List (Option ℕ)

/-- `session_table_create`: all bucket heads are null. -/
def sessionTableCreate : Memory := ⟨fun _ => none,fun _ => none,fun _ => none,[],[]⟩

/-- `connection_create` at a given address. -/
def connectionCreate (m : Memory) (conn : ConnectionRef) : Memory :=
  {m with connection := Function.update m.connection conn.object (some conn.socketFileDescriptor)}

/-- `connection_destroy`, an error for an object that is not allocated. -/
def connectionDestroy (m : Memory) (conn : ℕ) : Option Memory :=
  if m.connection conn=none then none
  else some {m with
    connection := Function.update m.connection conn none
    destroyed := m.destroyed++[conn]}

/-- `free` of a node. -/
def freeNode (m : Memory) (node : ℕ) : Option Memory :=
  if m.node node=none then none else some {m with node := Function.update m.node node none}

/-- Follow a node to its connection and next link: `curr->connection`, the
descriptor there, and `curr->next`. -/
def readNode (m : Memory) (a : ℕ) : Option (ConnectionRef×Option ℕ) :=
  (m.node a).bind fun n => (m.connection n.connection).map fun fd => (⟨n.connection,fd⟩,n.next)

/-- `session_table_add` with the address `malloc` returns for the node. -/
def sessionTableAdd (m : Memory) (conn node : ℕ) : Option Memory :=
  (m.connection conn).map fun fd =>
    {m with
      sessionBucket := Function.update m.sessionBucket (hashInt fd) (some node)
      node := Function.update m.node node (some ⟨conn,m.sessionBucket (hashInt fd)⟩)}

/-- The loop of `session_table_get`. -/
def getLoop (m : Memory) (sockfd : ℤ) : ℕ → Option ℕ → Option (Option ℕ)
  | 0,_ => none
  | _+1,none => some none
  | fuel+1,some curr => (readNode m curr).bind fun n =>
    if n.1.socketFileDescriptor=sockfd then some (some n.1.object)
    else getLoop m sockfd fuel n.2

/-- `session_table_get`. -/
def sessionTableGet (fuel : ℕ) (m : Memory) (sockfd : ℤ) : Option (Option ℕ) :=
  getLoop m sockfd fuel (m.sessionBucket (hashInt sockfd))

/-- What `prev` points to: a bucket head or the next field of a node. -/
inductive NodeLink
  /-- `&table->session_bucket[b]`. -/
  | bucket (b : Fin sessionTableSize)
  /-- `&curr->next`. -/
  | next (a : ℕ)
  deriving DecidableEq,Repr

/-- Read a link. -/
def readLink (m : Memory) : NodeLink → Option (Option ℕ)
  | .bucket b => some (m.sessionBucket b)
  | .next a => (m.node a).map SessionNode.next

/-- Write a link: `*prev = link`. -/
def writeLink (m : Memory) (link : Option ℕ) : NodeLink → Option Memory
  | .bucket b => some {m with sessionBucket := Function.update m.sessionBucket b link}
  | .next a => (m.node a).map fun n =>
    {m with node := Function.update m.node a (some {n with next := link})}

/-- The body of the `if` in `session_table_remove`: unlink the node, destroy
its connection, free it. -/
def unlinkNode (m : Memory) (prev : NodeLink) (curr conn : ℕ) (link : Option ℕ) : Option Memory :=
  ((writeLink m link prev).bind fun m => connectionDestroy m conn).bind fun m => freeNode m curr

/-- The loop of `session_table_remove`. -/
def removeLoop (sockfd : ℤ) : ℕ → Memory → NodeLink → Option ℕ → Option Memory
  | 0,_,_,_ => none
  | _+1,m,_,none => some m
  | fuel+1,m,prev,some curr => (readNode m curr).bind fun n =>
    if n.1.socketFileDescriptor=sockfd then unlinkNode m prev curr n.1.object n.2
    else removeLoop sockfd fuel m (.next curr) n.2

/-- `session_table_remove`. -/
def sessionTableRemove (fuel : ℕ) (m : Memory) (sockfd : ℤ) : Option Memory :=
  removeLoop sockfd fuel m (.bucket (hashInt sockfd)) (m.sessionBucket (hashInt sockfd))

/-- The inner loop of `session_table_destroy`. -/
def destroyLoop : ℕ → Memory → Option ℕ → Option Memory
  | 0,_,_ => none
  | _+1,m,none => some m
  | fuel+1,m,some node => (m.node node).bind fun n =>
    ((connectionDestroy m n.connection).bind fun m => freeNode m node).bind fun m =>
      destroyLoop fuel m n.next

/-- The outer loop of `session_table_destroy` over the given buckets. -/
def destroyBuckets (fuel : ℕ) : Memory → List (Fin sessionTableSize) → Option Memory
  | m,[] => some m
  | m,b::bs => (destroyLoop fuel m (m.sessionBucket b)).bind fun m => destroyBuckets fuel m bs

/-- `session_table_destroy`, the table itself left aside. -/
def sessionTableDestroy (fuel : ℕ) (m : Memory) : Option Memory :=
  destroyBuckets fuel m (List.finRange sessionTableSize)

/-- One call of a sequence. -/
def sessionStep (fuel : ℕ) (m : Memory) : SessionCall → Option Memory
  | .add conn node => sessionTableAdd (connectionCreate m conn) conn.object node
  | .get sockfd => (sessionTableGet fuel m sockfd).map
      (fun conn => {m with returned := m.returned++[conn]})
  | .remove sockfd => sessionTableRemove fuel m sockfd

/-- `malloc` and `calloc` only return addresses that are not in use. -/
def AllocatesUnused (m : Memory) : SessionCall → Prop
  | .add conn node => m.connection conn.object=none ∧ m.node node=none
  | .get _ | .remove _ => True

instance (m : Memory) (call : SessionCall) : Decidable (AllocatesUnused m call) := by
  cases call with
  | add conn node => exact inferInstanceAs (Decidable (_ ∧ _))
  | get sockfd => exact inferInstanceAs (Decidable True)
  | remove sockfd => exact inferInstanceAs (Decidable True)

/-! ## Chains in the memory -/

/-- A node with its address and the connection it points to. -/
abbrev Entry : Type := ℕ×ConnectionRef

/-- Two entries share neither their node nor their connection. -/
def Apart (e d : Entry) : Prop := e.1≠d.1 ∧ e.2.object≠d.2.object

/-- A node can be read when it and its connection are allocated. -/
theorem readNode_eq_some_iff {m : Memory} {a : ℕ} {conn : ConnectionRef} {next : Option ℕ} :
    readNode m a=some (conn,next) ↔
      m.node a=some ⟨conn.object,next⟩ ∧ m.connection conn.object=some conn.socketFileDescriptor := by
  rw [readNode]
  constructor
  · intro h
    obtain ⟨n,hn,hconn⟩ := Option.bind_eq_some_iff.mp h
    obtain ⟨fd,hfd,heq⟩ := Option.map_eq_some_iff.mp hconn
    obtain ⟨hc,hnext⟩ := Prod.mk.injEq .. ▸ heq
    rw [← hc,← hnext]
    exact ⟨hn,hfd⟩
  · intro h
    rw [h.1,Option.bind_some,h.2]
    simp

/-- A chain stays when its nodes and connections stay. -/
theorem chain_frame {m t : Memory} {head : Option ℕ} {entries : List Entry}
    (h : Chain (readNode m) head entries) (hnode : ∀ e∈entries, t.node e.1=m.node e.1)
    (hconn : ∀ e∈entries, t.connection e.2.object=m.connection e.2.object) :
    Chain (readNode t) head entries := by
  apply h.congr
  intro e he
  obtain ⟨next,hread⟩ := h.reads he
  have hparts := readNode_eq_some_iff.mp hread
  rw [hread]
  apply readNode_eq_some_iff.mpr
  rw [hnode e he,hconn e he]
  exact hparts

/-- The walk of `session_table_get` finds the first match of the chain. -/
theorem getLoop_chain {m : Memory} {fuel : ℕ} {curr : Option ℕ} {entries : List Entry}
    (sockfd : ℤ) (h : Chain (readNode m) curr entries) (hfuel : entries.length<fuel) :
    getLoop m sockfd fuel curr=
      some ((findFirst sockfd (entries.map Prod.snd)).map ConnectionRef.object) := by
  induction entries generalizing fuel curr with
  | nil =>
    obtain ⟨fuel,hsucc⟩ := Nat.exists_eq_succ_of_ne_zero (Nat.ne_of_gt hfuel)
    rw [hsucc,(chain_nil _ _).mp h]
    rfl
  | cons e rest ih =>
    obtain ⟨a,conn⟩ := e
    obtain ⟨hcurr,next,hread,hrest⟩ := (chain_cons _ _ _ _ _).mp h
    rw [List.length_cons] at hfuel
    obtain ⟨fuel,hsucc⟩ := Nat.exists_eq_succ_of_ne_zero (Nat.ne_of_gt (Nat.zero_lt_of_lt hfuel))
    have hsmall : rest.length<fuel := by omega
    rw [hsucc,hcurr,getLoop,hread,Option.bind_some,List.map_cons,findFirst]
    split
    · rfl
    · exact ih hrest hsmall

/-! ## Unlinking one node -/

/-- What writing a link changes. -/
structure LinkWritten (m t : Memory) (prev : NodeLink) (link : Option ℕ) : Prop where
  /-- The link has the new value. -/
  reads : readLink t prev=some link
  /-- Other bucket heads stay. -/
  bucket : ∀ b, prev≠.bucket b → t.sessionBucket b=m.sessionBucket b
  /-- Nodes other than the owner of the link stay. -/
  node : ∀ a, prev≠.next a → t.node a=m.node a
  /-- The owner of the link keeps its connection. -/
  owner : ∀ a, prev=.next a → t.node a=(m.node a).map fun n => {n with next := link}
  /-- Connections stay. -/
  connection : t.connection=m.connection
  /-- Nothing is destroyed. -/
  destroyed : t.destroyed=m.destroyed
  /-- Nothing is returned. -/
  returned : t.returned=m.returned

/-- A link that can be read can be written. -/
theorem writeLink_written {m : Memory} {prev : NodeLink} {old : Option ℕ} (link : Option ℕ)
    (h : readLink m prev=some old) :
    ∃ t, writeLink m link prev=some t ∧ LinkWritten m t prev link := by
  cases prev with
  | bucket b =>
    refine ⟨_,rfl,⟨?_,?_,fun _ _ => rfl,fun _ he => absurd he (by simp),rfl,rfl,rfl⟩⟩
    · simp [readLink]
    · intro c hc
      have hne : c≠b := fun he => hc (by rw [he])
      exact Function.update_of_ne hne _ _
  | next a =>
    obtain ⟨n,hn,_⟩ := Option.map_eq_some_iff.mp h
    refine ⟨{m with node := Function.update m.node a (some {n with next := link})},?_,?_⟩
    · rw [writeLink,hn]
      rfl
    · refine ⟨?_,fun _ _ => rfl,?_,?_,rfl,rfl,rfl⟩
      · simp [readLink]
      · intro c hc
        have hne : c≠a := fun he => hc (by rw [he])
        exact Function.update_of_ne hne _ _
      · intro c hc
        have he : a=c := NodeLink.next.inj hc
        rw [← he,hn]
        simp

/-- What unlinking the first match does to a chain and what it leaves alone. -/
structure Unlinked (sockfd : ℤ) (m t : Memory) (prev : NodeLink) (entries : List Entry)
    (head : Option ℕ) (rest : List Entry) : Prop where
  /-- The link leads to the remaining nodes. -/
  chain : Chain (readNode t) head rest
  /-- The link the loop started from. -/
  link : readLink t prev=some head
  /-- The remaining nodes keep their places. -/
  sublist : rest.Sublist entries
  /-- The list of connections loses its first match. -/
  contents : rest.map Prod.snd=(unlinkFirst sockfd (entries.map Prod.snd)).1
  /-- The first match in the list of connections is destroyed. -/
  destroyed : t.destroyed=m.destroyed++
    ((unlinkFirst sockfd (entries.map Prod.snd)).2.map ConnectionRef.object).toList
  /-- Nothing is returned. -/
  returned : t.returned=m.returned
  /-- Other bucket heads stay. -/
  bucket : ∀ b, prev≠.bucket b → t.sessionBucket b=m.sessionBucket b
  /-- Nodes outside the chain stay, the owner of the link excepted. -/
  node : ∀ a, (∀ e∈entries, e.1≠a) → prev≠.next a → t.node a=m.node a
  /-- The owner of the link keeps its connection. -/
  owner : ∀ a, (∀ e∈entries, e.1≠a) → prev=.next a →
    t.node a=(m.node a).map fun n => {n with next := head}
  /-- Connections outside the chain stay. -/
  connection : ∀ c, (∀ e∈entries, e.2.object≠c) → t.connection c=m.connection c
  /-- A node that leaves the chain is freed and its connection destroyed. -/
  gone : ∀ e∈entries, e∉rest → t.node e.1=none ∧ t.connection e.2.object=none

/-- Unlinking the first node of a chain. -/
theorem unlinkNode_unlinked {m : Memory} {prev : NodeLink} {a : ℕ} {conn : ConnectionRef}
    {next : Option ℕ} {rest : List Entry} (hread : readNode m a=some (conn,next))
    (hrest : Chain (readNode m) next rest) (hlink : readLink m prev=some (some a))
    (hprev : ∀ e∈(a,conn)::rest, prev≠.next e.1) (happ : ∀ e∈rest, Apart (a,conn) e) :
    ∃ t, unlinkNode m prev a conn.object next=some t ∧
      Unlinked conn.socketFileDescriptor m t prev ((a,conn)::rest) next rest := by
  obtain ⟨w,hwrite,hw⟩ := writeLink_written next hlink
  obtain ⟨hnode,hconn⟩ := readNode_eq_some_iff.mp hread
  have hpa : prev≠.next a := hprev (a,conn) List.mem_cons_self
  have hwconn : w.connection conn.object≠none := by
    rw [hw.connection,hconn]
    simp
  have hwnode : w.node a≠none := by
    rw [hw.node a hpa,hnode]
    simp
  let t : Memory := {w with
    connection := Function.update w.connection conn.object none
    destroyed := w.destroyed++[conn.object]
    node := Function.update w.node a none}
  have hrun : unlinkNode m prev a conn.object next=some t := by
    rw [unlinkNode,hwrite,Option.bind_some,connectionDestroy,if_neg hwconn,Option.bind_some,freeNode,
      if_neg hwnode]
  have htnode : ∀ b, b≠a → t.node b=w.node b := fun b hb => Function.update_of_ne hb _ _
  have htconn : ∀ c, c≠conn.object → t.connection c=m.connection c := by
    intro c hc
    have hsame : t.connection c=w.connection c := Function.update_of_ne hc _ _
    rw [hsame,hw.connection]
  have hfind : unlinkFirst conn.socketFileDescriptor (((a,conn)::rest).map Prod.snd)=
      (rest.map Prod.snd,some conn) := by
    rw [List.map_cons,unlinkFirst,if_pos rfl]
  refine ⟨t,hrun,⟨?_,?_,List.sublist_cons_self _ _,?_,?_,?_,hw.bucket,?_,?_,?_,?_⟩⟩
  · apply chain_frame hrest
    · intro e he
      have hea : e.1≠a := fun h => (happ e he).1 h.symm
      rw [htnode e.1 hea]
      exact hw.node e.1 (hprev e (List.mem_cons_of_mem _ he))
    · intro e he
      exact htconn e.2.object (fun h => (happ e he).2 h.symm)
  · cases prev with
    | bucket b => exact hw.reads
    | next p =>
      have hne : p≠a := fun h => hpa (by rw [h])
      have hlinkw := hw.reads
      rw [readLink] at hlinkw ⊢
      rw [htnode p hne]
      exact hlinkw
  · rw [hfind]
  · rw [hfind]
    have hd : t.destroyed=w.destroyed++[conn.object] := rfl
    rw [hd,hw.destroyed]
    rfl
  · exact hw.returned
  · intro b hb hp
    have hne : b≠a := fun h => hb (a,conn) List.mem_cons_self h.symm
    rw [htnode b hne]
    exact hw.node b hp
  · intro b hb hp
    have hne : b≠a := fun h => hb (a,conn) List.mem_cons_self h.symm
    rw [htnode b hne]
    exact hw.owner b hp
  · intro c hc
    exact htconn c (fun h => hc (a,conn) List.mem_cons_self h.symm)
  · intro e he hout
    have hself : e=(a,conn) := (List.mem_cons.mp he).resolve_right hout
    rw [hself]
    exact ⟨Function.update_self _ _ _,Function.update_self _ _ _⟩

/-- What is unlinked behind a node with another descriptor is unlinked from the
chain that starts with the node. -/
theorem Unlinked.behind {sockfd : ℤ} {m t : Memory} {prev : NodeLink} {a : ℕ}
    {conn : ConnectionRef} {next head : Option ℕ} {rest left : List Entry}
    (ht : Unlinked sockfd m t (.next a) rest head left) (hfd : conn.socketFileDescriptor≠sockfd)
    (hread : readNode m a=some (conn,next)) (hlink : readLink m prev=some (some a))
    (hprev : ∀ e∈(a,conn)::rest, prev≠.next e.1) (hfirst : ∀ e∈rest, Apart (a,conn) e) :
    Unlinked sockfd m t prev ((a,conn)::rest) (some a) ((a,conn)::left) := by
  have hnode := (readNode_eq_some_iff.mp hread).1
  have hnota : ∀ e∈rest, e.1≠a := fun e he hn => (hfirst e he).1 hn.symm
  have hnotc : ∀ e∈rest, e.2.object≠conn.object := fun e he hn => (hfirst e he).2 hn.symm
  have hta : readNode t a=some (conn,head) := by
    apply readNode_eq_some_iff.mpr
    rw [ht.owner a hnota rfl,hnode,ht.connection conn.object hnotc]
    exact ⟨rfl,(readNode_eq_some_iff.mp hread).2⟩
  have hfind : unlinkFirst sockfd (((a,conn)::rest).map Prod.snd)=
      (conn::(unlinkFirst sockfd (rest.map Prod.snd)).1,
        (unlinkFirst sockfd (rest.map Prod.snd)).2) := by
    rw [List.map_cons,unlinkFirst,if_neg hfd]
  have hother : ∀ b, (∀ e∈(a,conn)::rest, e.1≠b) → t.node b=m.node b := by
    intro b hb
    have hab : a≠b := hb (a,conn) List.mem_cons_self
    exact ht.node b (fun e he => hb e (List.mem_cons_of_mem _ he))
      (fun hn => hab (NodeLink.next.inj hn))
  refine ⟨(chain_cons _ _ _ _ _).mpr ⟨rfl,head,hta,ht.chain⟩,?_,ht.sublist.cons_cons _,?_,?_,
    ht.returned,?_,fun b hb _ => hother b hb,?_,?_,?_⟩
  · cases prev with
    | bucket b =>
      rw [readLink] at hlink ⊢
      rw [ht.bucket b (by simp)]
      exact hlink
    | next p =>
      have hp : t.node p=m.node p :=
        hother p (fun e he hn => hprev e he (by rw [hn]))
      rw [readLink] at hlink ⊢
      rw [hp]
      exact hlink
  · rw [hfind,List.map_cons,ht.contents]
  · rw [hfind]
    exact ht.destroyed
  · intro b _
    exact ht.bucket b (by simp)
  · intro b hb hp
    rw [hp,readLink] at hlink
    obtain ⟨n,hn,hold⟩ := Option.map_eq_some_iff.mp hlink
    rw [hother b hb,hn,Option.map_some,← hold]
  · intro c hc
    exact ht.connection c (fun e he => hc e (List.mem_cons_of_mem _ he))
  · intro e he hout
    have hleft : e∉left := fun hl => hout (List.mem_cons_of_mem _ hl)
    have hrest : e∈rest := (List.mem_cons.mp he).resolve_left
      (fun hn => hout (by rw [hn]; exact List.mem_cons_self))
    exact ht.gone e hrest hleft

/-- The walk of `session_table_remove` unlinks the first match, wherever it
stands in the chain. -/
theorem removeLoop_unlinked {m : Memory} {fuel : ℕ} {prev : NodeLink} {curr : Option ℕ}
    {entries : List Entry} (sockfd : ℤ) (h : Chain (readNode m) curr entries)
    (hlink : readLink m prev=some curr) (hprev : ∀ e∈entries, prev≠.next e.1)
    (happ : entries.Pairwise Apart) (hfuel : entries.length<fuel) :
    ∃ t head rest, removeLoop sockfd fuel m prev curr=some t ∧
      Unlinked sockfd m t prev entries head rest := by
  induction entries generalizing fuel prev curr with
  | nil =>
    obtain ⟨fuel,hsucc⟩ := Nat.exists_eq_succ_of_ne_zero (Nat.ne_of_gt hfuel)
    have hcurr := (chain_nil _ _).mp h
    rw [hsucc,hcurr]
    rw [hcurr] at hlink
    refine ⟨m,none,[],rfl,⟨(chain_nil _ _).mpr rfl,hlink,List.Sublist.refl _,rfl,?_,rfl,
      fun _ _ => rfl,fun _ _ _ => rfl,?_,fun _ _ => rfl,fun _ he => absurd he List.not_mem_nil⟩⟩
    · simp [unlinkFirst]
    · intro a _ hp
      rw [hp,readLink] at hlink
      obtain ⟨n,hn,hnext⟩ := Option.map_eq_some_iff.mp hlink
      rw [hn,Option.map_some,← hnext]
  | cons e rest ih =>
    obtain ⟨a,conn⟩ := e
    obtain ⟨hcurr,next,hread,hrest⟩ := (chain_cons _ _ _ _ _).mp h
    obtain ⟨hfirst,htail⟩ := List.pairwise_cons.mp happ
    rw [List.length_cons] at hfuel
    obtain ⟨fuel,hsucc⟩ := Nat.exists_eq_succ_of_ne_zero (Nat.ne_of_gt (Nat.zero_lt_of_lt hfuel))
    rw [hsucc,hcurr,removeLoop,hread,Option.bind_some]
    rw [hcurr] at hlink
    by_cases hfd : conn.socketFileDescriptor=sockfd
    · rw [if_pos hfd,← hfd]
      obtain ⟨t,hrun,ht⟩ := unlinkNode_unlinked hread hrest hlink hprev hfirst
      exact ⟨t,next,rest,hrun,ht⟩
    · rw [if_neg hfd]
      have hnext : readLink m (.next a)=some next := by
        rw [readLink,(readNode_eq_some_iff.mp hread).1]
        rfl
      have hself : ∀ e∈rest, NodeLink.next a≠.next e.1 :=
        fun e he hn => (hfirst e he).1 (NodeLink.next.inj hn)
      have hsmall : rest.length<fuel := by omega
      obtain ⟨t,head,left,hrun,ht⟩ := ih hrest hnext hself htail hsmall
      exact ⟨t,some a,(a,conn)::left,hrun,ht.behind hfd hread hlink hprev hfirst⟩

/-! ## Destroying every bucket -/

/-- What freeing a list of entries does and what it leaves alone. -/
structure Freed (m t : Memory) (entries : List Entry) : Prop where
  /-- Their connections are destroyed in this order. -/
  destroyed : t.destroyed=m.destroyed++entries.map (fun e => e.2.object)
  /-- The bucket heads are not written. -/
  bucket : t.sessionBucket=m.sessionBucket
  /-- Other nodes stay. -/
  node : ∀ a, (∀ e∈entries, e.1≠a) → t.node a=m.node a
  /-- Other connections stay. -/
  connection : ∀ c, (∀ e∈entries, e.2.object≠c) → t.connection c=m.connection c
  /-- Their nodes and connections are no longer allocated. -/
  gone : ∀ e∈entries, t.node e.1=none ∧ t.connection e.2.object=none

/-- Freeing nothing. -/
theorem Freed.refl (m : Memory) : Freed m m [] :=
  ⟨by simp,rfl,fun _ _ => rfl,fun _ _ => rfl,fun _ he => absurd he List.not_mem_nil⟩

/-- Freeing some entries and then others that are apart from them. -/
theorem Freed.append {m t u : Memory} {first second : List Entry} (hfirst : Freed m t first)
    (hsecond : Freed t u second) (happ : ∀ e∈first, ∀ d∈second, Apart e d) :
    Freed m u (first++second) := by
  constructor
  · rw [hsecond.destroyed,hfirst.destroyed,List.map_append,List.append_assoc]
  · rw [hsecond.bucket,hfirst.bucket]
  · intro a ha
    rw [hsecond.node a (fun e he => ha e (List.mem_append_right _ he))]
    exact hfirst.node a (fun e he => ha e (List.mem_append_left _ he))
  · intro c hc
    rw [hsecond.connection c (fun e he => hc e (List.mem_append_right _ he))]
    exact hfirst.connection c (fun e he => hc e (List.mem_append_left _ he))
  · intro e he
    cases List.mem_append.mp he with
    | inl hl =>
      rw [hsecond.node e.1 (fun d hd hn => (happ e hl d hd).1 hn.symm),
        hsecond.connection e.2.object (fun d hd hn => (happ e hl d hd).2 hn.symm)]
      exact hfirst.gone e hl
    | inr hr => exact hsecond.gone e hr

/-- Destroying the connection of one node and freeing the node. -/
theorem destroyNode_freed {m : Memory} {a : ℕ} {conn : ConnectionRef} {next : Option ℕ}
    (hread : readNode m a=some (conn,next)) :
    ∃ t, (connectionDestroy m conn.object).bind (fun m => freeNode m a)=some t ∧
      Freed m t [(a,conn)] := by
  obtain ⟨hnode,hconn⟩ := readNode_eq_some_iff.mp hread
  have hlive : m.connection conn.object≠none := by simp [hconn]
  have hhas : m.node a≠none := by simp [hnode]
  refine ⟨_,by rw [connectionDestroy,if_neg hlive,Option.bind_some,freeNode,if_neg hhas],?_⟩
  constructor
  · rfl
  · rfl
  · intro b hb
    have hne : b≠a := fun h => hb (a,conn) List.mem_cons_self h.symm
    exact Function.update_of_ne hne _ _
  · intro c hc
    have hne : c≠conn.object := fun h => hc (a,conn) List.mem_cons_self h.symm
    exact Function.update_of_ne hne _ _
  · intro e he
    rw [List.mem_singleton.mp he]
    exact ⟨Function.update_self _ _ _,Function.update_self _ _ _⟩

/-- The inner loop frees the whole chain. -/
theorem destroyLoop_freed {m : Memory} {fuel : ℕ} {curr : Option ℕ} {entries : List Entry}
    (h : Chain (readNode m) curr entries) (happ : entries.Pairwise Apart)
    (hfuel : entries.length<fuel) :
    ∃ t, destroyLoop fuel m curr=some t ∧ Freed m t entries := by
  induction entries generalizing fuel m curr with
  | nil =>
    obtain ⟨fuel,hsucc⟩ := Nat.exists_eq_succ_of_ne_zero (Nat.ne_of_gt hfuel)
    rw [hsucc,(chain_nil _ _).mp h]
    exact ⟨m,rfl,Freed.refl m⟩
  | cons e rest ih =>
    obtain ⟨a,conn⟩ := e
    obtain ⟨hcurr,next,hread,hrest⟩ := (chain_cons _ _ _ _ _).mp h
    obtain ⟨hfirst,htail⟩ := List.pairwise_cons.mp happ
    rw [List.length_cons] at hfuel
    obtain ⟨fuel,hsucc⟩ := Nat.exists_eq_succ_of_ne_zero (Nat.ne_of_gt (Nat.zero_lt_of_lt hfuel))
    have hnode := (readNode_eq_some_iff.mp hread).1
    obtain ⟨t,hrun,ht⟩ := destroyNode_freed hread
    have hkeep : Chain (readNode t) next rest := by
      apply chain_frame hrest
      · intro e he
        apply ht.node
        intro d hd
        rw [List.mem_singleton.mp hd]
        exact (hfirst e he).1
      · intro e he
        apply ht.connection
        intro d hd
        rw [List.mem_singleton.mp hd]
        exact (hfirst e he).2
    have hsmall : rest.length<fuel := by omega
    obtain ⟨u,hloop,hu⟩ := ih hkeep htail hsmall
    refine ⟨u,?_,ht.append hu ?_⟩
    · rw [hsucc,hcurr,destroyLoop,hnode,Option.bind_some,hrun,Option.bind_some,hloop]
    · intro d hd e he
      rw [List.mem_singleton.mp hd]
      exact hfirst e he

/-- The outer loop frees the chains of all its buckets. -/
theorem destroyBuckets_freed {m : Memory} {fuel : ℕ} {bs : List (Fin sessionTableSize)}
    {entries : Fin sessionTableSize → List Entry} (hnodup : bs.Nodup)
    (h : ∀ b∈bs, Chain (readNode m) (m.sessionBucket b) (entries b))
    (happ : ∀ b∈bs, (entries b).Pairwise Apart)
    (hdisjoint : ∀ b c, b≠c → ∀ e∈entries b, ∀ d∈entries c, Apart e d)
    (hfuel : ∀ b∈bs, (entries b).length<fuel) :
    ∃ t, destroyBuckets fuel m bs=some t ∧ Freed m t (bs.flatMap entries) := by
  induction bs generalizing m with
  | nil => exact ⟨m,rfl,Freed.refl m⟩
  | cons b bs ih =>
    obtain ⟨hb,hrest⟩ := List.nodup_cons.mp hnodup
    obtain ⟨t,hrun,ht⟩ := destroyLoop_freed (h b List.mem_cons_self) (happ b List.mem_cons_self)
      (hfuel b List.mem_cons_self)
    have hne : ∀ c∈bs, b≠c := fun c hc hn => hb (by rw [hn]; exact hc)
    have hkeep : ∀ c∈bs, Chain (readNode t) (t.sessionBucket c) (entries c) := by
      intro c hc
      rw [ht.bucket]
      apply chain_frame (h c (List.mem_cons_of_mem _ hc))
      · intro e he
        exact ht.node e.1 (fun d hd => (hdisjoint b c (hne c hc) d hd e he).1)
      · intro e he
        exact ht.connection e.2.object (fun d hd => (hdisjoint b c (hne c hc) d hd e he).2)
    obtain ⟨u,hloop,hu⟩ := ih hrest hkeep (fun c hc => happ c (List.mem_cons_of_mem _ hc))
      (fun c hc => hfuel c (List.mem_cons_of_mem _ hc))
    refine ⟨u,?_,?_⟩
    · rw [destroyBuckets,hrun,Option.bind_some,hloop]
    · rw [List.flatMap_cons]
      apply ht.append hu
      intro e he d hd
      obtain ⟨c,hc,hdc⟩ := List.mem_flatMap.mp hd
      exact hdisjoint b c (hne c hc) e he d hdc

/-! ## The memory represents a bucket table -/

/-- Every bucket head leads to a chain with the connections of its bucket, no
two nodes share an address or a connection, and nothing else is allocated. -/
structure Represents (m : Memory) (table : SessionTableT)
    (entries : Fin sessionTableSize → List Entry) : Prop where
  /-- The chains of the bucket heads. -/
  chain : ∀ b, Chain (readNode m) (m.sessionBucket b) (entries b)
  /-- Their connections are those of the bucket. -/
  contents : ∀ b, (entries b).map Prod.snd=table.bucket b
  /-- Nodes of one bucket are apart. -/
  apart : ∀ b, (entries b).Pairwise Apart
  /-- Nodes of different buckets are apart. -/
  disjoint : ∀ b c, b≠c → ∀ e∈entries b, ∀ d∈entries c, Apart e d
  /-- Every allocated node is linked. -/
  linked : ∀ a, m.node a≠none → ∃ b, ∃ e∈entries b, e.1=a
  /-- Every allocated connection is linked. -/
  owned : ∀ c, m.connection c≠none → ∃ b, ∃ e∈entries b, e.2.object=c

/-- The empty table. -/
theorem represents_create :
    Represents sessionTableCreate SessionTable.sessionTableCreate (fun _ => []) :=
  ⟨fun _ => (chain_nil _ _).mpr rfl,fun _ => rfl,fun _ => List.Pairwise.nil,
    fun _ _ _ _ he => absurd he List.not_mem_nil,fun _ h => absurd rfl h,fun _ h => absurd rfl h⟩

/-- Being apart is symmetric. -/
theorem Apart.symm {e d : Entry} (h : Apart e d) : Apart d e :=
  ⟨fun hn => h.1 hn.symm,fun hn => h.2 hn.symm⟩

/-- Buckets stay disjoint when one of them gets entries apart from the others. -/
theorem disjoint_update {entries : Fin sessionTableSize → List Entry}
    (h : ∀ b c, b≠c → ∀ e∈entries b, ∀ d∈entries c, Apart e d) {idx : Fin sessionTableSize}
    {new : List Entry} (hnew : ∀ e∈new, ∀ c, c≠idx → ∀ d∈entries c, Apart e d) :
    ∀ b c, b≠c → ∀ e∈Function.update entries idx new b, ∀ d∈Function.update entries idx new c,
      Apart e d := by
  intro b c hbc e he d hd
  by_cases hb : b=idx
  · have hc : c≠idx := fun hn => hbc (hb.trans hn.symm)
    rw [hb,Function.update_self] at he
    rw [Function.update_of_ne hc] at hd
    exact hnew e he c hc d hd
  · rw [Function.update_of_ne hb] at he
    by_cases hc : c=idx
    · rw [hc,Function.update_self] at hd
      exact (hnew d hd b hb e he).symm
    · rw [Function.update_of_ne hc] at hd
      exact h b c hbc e he d hd

/-- A pushed entry hides none of the others. -/
theorem mem_update_cons {entries : Fin sessionTableSize → List Entry} {b idx : Fin sessionTableSize}
    {e new : Entry} (he : e∈entries b) :
    e∈Function.update entries idx (new::entries idx) b := by
  by_cases hb : b=idx
  · rw [hb,Function.update_self]
    rw [hb] at he
    exact List.mem_cons_of_mem _ he
  · rw [Function.update_of_ne hb]
    exact he

/-- What is held in front of a push or is pushed is held behind it. -/
theorem held_update_cons {entries : Fin sessionTableSize → List Entry} (key : Entry → ℕ)
    {held held' : ℕ → Prop} (h : ∀ a,held a → ∃ b,∃ e∈entries b,key e=a) (idx : Fin sessionTableSize)
    {new : Entry} (hback : ∀ a,a≠key new → held' a → held a) :
    ∀ a,held' a → ∃ b,∃ e∈Function.update entries idx (new::entries idx) b,key e=a := by
  intro a ha
  by_cases hnew : a=key new
  · exact ⟨idx,new,by simp,hnew.symm⟩
  · obtain ⟨b,e,he,hea⟩ := h a (hback a hnew ha)
    exact ⟨b,e,mem_update_cons he,hea⟩

/-- What is held behind a removal is held by one of the nodes left. -/
theorem held_update_rest {entries : Fin sessionTableSize → List Entry} (key : Entry → ℕ)
    {held held' : ℕ → Prop} (h : ∀ a,held a → ∃ b,∃ e∈entries b,key e=a) {idx : Fin sessionTableSize}
    {rest : List Entry} (hback : ∀ a,held' a → held a)
    (hgone : ∀ e∈entries idx,e∉rest → ¬held' (key e)) :
    ∀ a,held' a → ∃ b,∃ e∈Function.update entries idx rest b,key e=a := by
  intro a ha
  obtain ⟨b,e,he,hea⟩ := h a (hback a ha)
  refine ⟨b,e,?_,hea⟩
  by_cases hb : b=idx
  · rw [hb,Function.update_self]
    by_contra hout
    rw [← hea] at ha
    exact hgone e (by rw [← hb]; exact he) hout ha
  · rw [Function.update_of_ne hb]
    exact he

section

variable {m : Memory} {table : SessionTableT} {entries : Fin sessionTableSize → List Entry}

/-- An unused address is the address of no node of the table. -/
theorem Represents.node_ne (h : Represents m table entries) {a : ℕ} (hfree : m.node a=none)
    {b : Fin sessionTableSize} {e : Entry} (he : e∈entries b) : e.1≠a := by
  intro hea
  obtain ⟨next,hread⟩ := (h.chain b).reads he
  have hnode := (readNode_eq_some_iff.mp hread).1
  rw [hea,hfree] at hnode
  exact absurd hnode (by simp)

/-- A destroyed connection is held by no node of the table. -/
theorem Represents.connection_ne (h : Represents m table entries) {c : ℕ}
    (hfree : m.connection c=none) {b : Fin sessionTableSize} {e : Entry} (he : e∈entries b) :
    e.2.object≠c := by
  intro hec
  obtain ⟨next,hread⟩ := (h.chain b).reads he
  have hconn := (readNode_eq_some_iff.mp hread).2
  rw [hec,hfree] at hconn
  exact absurd hconn (by simp)

/-- `session_table_add` pushes on the chain of the descriptor's bucket. -/
theorem Represents.add (h : Represents m table entries) {conn : ConnectionRef} {node : ℕ}
    (hconn : m.connection conn.object=none) (hnode : m.node node=none) :
    ∃ t, sessionTableAdd (connectionCreate m conn) conn.object node=some t ∧
      Represents t (SessionTable.sessionTableAdd table conn)
        (Function.update entries (hashInt conn.socketFileDescriptor)
          ((node,conn)::entries (hashInt conn.socketFileDescriptor))) ∧
      t.destroyed=m.destroyed ∧ t.returned=m.returned := by
  let idx := hashInt conn.socketFileDescriptor
  have hapart : ∀ b, ∀ e∈entries b, Apart (node,conn) e :=
    fun b e he => ⟨(h.node_ne hnode he).symm,(h.connection_ne hconn he).symm⟩
  let t : Memory := {connectionCreate m conn with
    sessionBucket := Function.update m.sessionBucket idx (some node)
    node := Function.update m.node node (some ⟨conn.object,m.sessionBucket idx⟩)}
  have hrun : sessionTableAdd (connectionCreate m conn) conn.object node=some t := by
    rw [sessionTableAdd,connectionCreate]
    simp only [Function.update_self,Option.map_some]
    rfl
  have hkeep : ∀ b, Chain (readNode t) (m.sessionBucket b) (entries b) := by
    intro b
    apply chain_frame (h.chain b)
    · intro e he
      exact Function.update_of_ne (fun hn => (hapart b e he).1 hn.symm) _ _
    · intro e he
      exact Function.update_of_ne (fun hn => (hapart b e he).2 hn.symm) _ _
  have hread : readNode t node=some (conn,m.sessionBucket idx) := by
    apply readNode_eq_some_iff.mpr
    exact ⟨Function.update_self _ _ _,Function.update_self _ _ _⟩
  refine ⟨t,hrun,⟨?_,?_,?_,?_,?_,?_⟩,rfl,rfl⟩
  · apply (Function.forall_update_iff entries
      (fun b es => Chain (readNode t) (t.sessionBucket b) es)).mpr
    constructor
    · have hhead : t.sessionBucket idx=some node := Function.update_self _ _ _
      rw [hhead]
      exact (chain_cons _ _ _ _ _).mpr ⟨rfl,_,hread,hkeep idx⟩
    · intro b hb
      have hhead : t.sessionBucket b=m.sessionBucket b := Function.update_of_ne hb _ _
      rw [hhead]
      exact hkeep b
  · apply (Function.forall_update_iff entries (fun b es =>
      es.map Prod.snd=(SessionTable.sessionTableAdd table conn).bucket b)).mpr
    constructor
    · simp [SessionTable.sessionTableAdd,h.contents]
    · intro b hb
      rw [h.contents]
      exact (Function.update_of_ne hb _ _).symm
  · apply (Function.forall_update_iff entries (fun _ es => es.Pairwise Apart)).mpr
    exact ⟨List.pairwise_cons.mpr ⟨hapart idx,h.apart idx⟩,fun b _ => h.apart b⟩
  · apply disjoint_update h.disjoint
    intro e he c hc d hd
    cases List.mem_cons.mp he with
    | inl hnew =>
      rw [hnew]
      exact hapart c d hd
    | inr hold => exact h.disjoint idx c hc.symm e hold d hd
  · apply held_update_cons Prod.fst h.linked
    intro a hnew ha
    have hsame : t.node a=m.node a := Function.update_of_ne hnew _ _
    rwa [hsame] at ha
  · apply held_update_cons (fun e => e.2.object) h.owned
    intro c hnew hc
    have hsame : t.connection c=m.connection c := Function.update_of_ne hnew _ _
    rwa [hsame] at hc

/-- `session_table_get` answers what the bucket table answers. -/
theorem Represents.get (h : Represents m table entries) {fuel : ℕ} (sockfd : ℤ)
    (hfuel : (entries (hashInt sockfd)).length<fuel) :
    sessionTableGet fuel m sockfd=
      some ((SessionTable.sessionTableGet table sockfd).map ConnectionRef.object) := by
  have hloop := getLoop_chain sockfd (h.chain (hashInt sockfd)) hfuel
  rw [h.contents] at hloop
  exact hloop

/-- `session_table_remove` unlinks and destroys what the bucket table does. -/
theorem Represents.remove (h : Represents m table entries) {fuel : ℕ} (sockfd : ℤ)
    (hfuel : (entries (hashInt sockfd)).length<fuel) :
    ∃ t rest, sessionTableRemove fuel m sockfd=some t ∧
      Represents t (SessionTable.sessionTableRemove table sockfd).1
        (Function.update entries (hashInt sockfd) rest) ∧
      rest.Sublist (entries (hashInt sockfd)) ∧
      t.destroyed=m.destroyed++
        ((SessionTable.sessionTableRemove table sockfd).2.map ConnectionRef.object).toList ∧
      t.returned=m.returned := by
  let idx := hashInt sockfd
  have hnone : ∀ e∈entries idx, NodeLink.bucket idx≠.next e.1 := fun _ _ => by simp
  obtain ⟨t,head,rest,hrun,ht⟩ := removeLoop_unlinked sockfd (h.chain idx) rfl hnone
    (h.apart idx) hfuel
  refine ⟨t,rest,hrun,⟨?_,?_,?_,?_,?_,?_⟩,ht.sublist,?_,ht.returned⟩
  · apply (Function.forall_update_iff entries
      (fun b es => Chain (readNode t) (t.sessionBucket b) es)).mpr
    constructor
    · have hhead : t.sessionBucket idx=head := Option.some.inj ht.link
      rw [hhead]
      exact ht.chain
    · intro b hb
      have hidx : NodeLink.bucket idx≠.bucket b := fun hn => hb (NodeLink.bucket.inj hn).symm
      rw [ht.bucket b hidx]
      apply chain_frame (h.chain b)
      · intro e he
        exact ht.node e.1 (fun d hd => (h.disjoint idx b (fun hn => hb hn.symm) d hd e he).1)
          (by simp)
      · intro e he
        exact ht.connection e.2.object
          (fun d hd => (h.disjoint idx b (fun hn => hb hn.symm) d hd e he).2)
  · apply (Function.forall_update_iff entries (fun b es =>
      es.map Prod.snd=(SessionTable.sessionTableRemove table sockfd).1.bucket b)).mpr
    constructor
    · have hleft : (SessionTable.sessionTableRemove table sockfd).1.bucket idx=
          (unlinkFirst sockfd (table.bucket idx)).1 := Function.update_self _ _ _
      rw [ht.contents,h.contents,hleft]
    · intro b hb
      rw [h.contents]
      exact (Function.update_of_ne hb _ _).symm
  · apply (Function.forall_update_iff entries (fun _ es => es.Pairwise Apart)).mpr
    exact ⟨(h.apart idx).sublist ht.sublist,fun b _ => h.apart b⟩
  · apply disjoint_update h.disjoint
    intro e he c hc d hd
    exact h.disjoint idx c hc.symm e (ht.sublist.subset he) d hd
  · apply held_update_rest Prod.fst h.linked
    · intro a ha hfree
      rw [ht.node a (fun e he => h.node_ne hfree he) (by simp)] at ha
      exact ha hfree
    · intro e he hout hnode
      exact hnode (ht.gone e he hout).1
  · apply held_update_rest (fun e => e.2.object) h.owned
    · intro c hc hfree
      rw [ht.connection c (fun e he => h.connection_ne hfree he)] at hc
      exact hc hfree
    · intro e he hout hconn
      exact hconn (ht.gone e he hout).2
  · rw [ht.destroyed,h.contents]
    rfl

/-- `session_table_destroy` destroys the connections of every bucket and leaves
nothing allocated. -/
theorem Represents.destroy (h : Represents m table entries) {fuel : ℕ}
    (hfuel : ∀ b, (entries b).length<fuel) :
    ∃ t, sessionTableDestroy fuel m=some t ∧
      t.destroyed=m.destroyed++
        (SessionTable.sessionTableDestroy table).map ConnectionRef.object ∧
      (∀ a, t.node a=none) ∧ ∀ c, t.connection c=none := by
  obtain ⟨t,hrun,ht⟩ := destroyBuckets_freed (List.nodup_finRange sessionTableSize)
    (fun b _ => h.chain b) (fun b _ => h.apart b) h.disjoint (fun b _ => hfuel b)
  have hmem : ∀ b, ∀ e∈entries b, e∈(List.finRange sessionTableSize).flatMap entries :=
    fun b e he => List.mem_flatMap.mpr ⟨b,List.mem_finRange b,he⟩
  have hmap : ((List.finRange sessionTableSize).flatMap entries).map (fun e => e.2.object)=
      (SessionTable.sessionTableDestroy table).map ConnectionRef.object := by
    have hbucket : table.bucket=fun b => (entries b).map Prod.snd :=
      funext fun b => (h.contents b).symm
    rw [SessionTable.sessionTableDestroy,hbucket]
    simp [List.map_flatMap,Function.comp_def]
  refine ⟨t,hrun,?_,?_,?_⟩
  · rw [ht.destroyed,hmap]
  · intro a
    by_cases hin : ∃ e∈(List.finRange sessionTableSize).flatMap entries, e.1=a
    · obtain ⟨e,he,hea⟩ := hin
      rw [← hea]
      exact (ht.gone e he).1
    · rw [ht.node a (fun e he hea => hin ⟨e,he,hea⟩)]
      by_contra ha
      obtain ⟨b,e,he,hea⟩ := h.linked a ha
      exact hin ⟨e,hmem b e he,hea⟩
  · intro c
    by_cases hin : ∃ e∈(List.finRange sessionTableSize).flatMap entries, e.2.object=c
    · obtain ⟨e,he,hec⟩ := hin
      rw [← hec]
      exact (ht.gone e he).2
    · rw [ht.connection c (fun e he hec => hin ⟨e,he,hec⟩)]
      by_contra hc
      obtain ⟨b,e,he,hec⟩ := h.owned c hc
      exact hin ⟨e,hmem b e he,hec⟩

end

/-! ## Whole sequences of calls -/

/-- What holds after a sequence of calls: the memory stands for a bucket table
whose stacks are the abstract ones, the answers so far are the abstract ones,
and the destroyed connections and the linked ones are together those added. -/
structure RunsAs (calls : List SessionCall) (m : Memory) (table : SessionTableT)
    (entries : Fin sessionTableSize → List Entry) : Prop where
  /-- The memory stands for the bucket table. -/
  represents : Represents m table entries
  /-- The stacks of the bucket table. -/
  stackOf : stack table=stacksAfter calls
  /-- What the lookups have returned. -/
  returned : m.returned=answersFrom (fun _ => []) calls
  /-- No connection is lost and none is destroyed twice. -/
  destroyed : (m.destroyed++
    (SessionTable.sessionTableDestroy table).map ConnectionRef.object).Perm (added calls)
  /-- A chain is no longer than the calls made. -/
  short : ∀ b, (entries b).length≤calls.length

/-- Before the first call. -/
theorem runsAs_create :
    RunsAs [] sessionTableCreate SessionTable.sessionTableCreate (fun _ => []) := by
  constructor
  · exact represents_create
  · rfl
  · rfl
  · simp [sessionTableCreate,SessionTable.sessionTableDestroy,SessionTable.sessionTableCreate,added]
  · simp

/-- The bucket table after one more call has the stacks of one more call. -/
theorem RunsAs.stackOf_call {calls : List SessionCall} {m : Memory} {table : SessionTableT}
    {entries : Fin sessionTableSize → List Entry} (h : RunsAs calls m table entries)
    (call : SessionCall) : stack (tableCall table call).1=stacksAfter (calls++[call]) := by
  rw [stack_tableCall,stacksAfter_append,h.stackOf]

/-- The chains stay short when one of them grows by no more than a node. -/
theorem short_update {entries : Fin sessionTableSize → List Entry} {n : ℕ}
    (h : ∀ b,(entries b).length≤n) (idx : Fin sessionTableSize) {new : List Entry}
    (hnew : new.length≤n+1) : ∀ b,(Function.update entries idx new b).length≤n+1 :=
  (Function.forall_update_iff entries (fun _ es => es.length≤n+1)).mpr
    ⟨hnew,fun b _ => Nat.le_succ_of_le (h b)⟩

section Calls

variable {fuel : ℕ} {calls : List SessionCall} {m : Memory} {table : SessionTableT}
  {entries : Fin sessionTableSize → List Entry}

/-- One call more. -/
theorem length_calls_succ (calls : List SessionCall) (call : SessionCall) :
    (calls++[call]).length=calls.length+1 := by
  rw [List.length_append,List.length_singleton]

/-- Adding a connection keeps the account. -/
theorem RunsAs.step_add (h : RunsAs calls m table entries) {conn : ConnectionRef} {node : ℕ}
    (hunused : AllocatesUnused m (.add conn node)) :
    ∃ t newEntries, sessionStep fuel m (.add conn node)=some t ∧
      RunsAs (calls++[.add conn node]) t (tableCall table (.add conn node)).1 newEntries := by
  obtain ⟨t,hrun,hrep,hdestroyed,hreturned⟩ := h.represents.add hunused.1 hunused.2
  refine ⟨t,_,hrun,⟨hrep,h.stackOf_call _,?_,?_,?_⟩⟩
  · rw [hreturned,h.returned,answersFrom_append]
    simp [answer]
  · have hadd := (destroy_add_perm table conn).map ConnectionRef.object
    rw [List.map_cons] at hadd
    have hone : added [.add conn node]=[conn.object] := rfl
    rw [hdestroyed,added_append,hone]
    have hmiddle := (hadd.append_left m.destroyed).trans List.perm_middle
    have hend := (h.destroyed.cons conn.object).trans (List.perm_append_singleton _ _).symm
    exact hmiddle.trans hend
  · rw [length_calls_succ]
    exact short_update h.short _ (Nat.succ_le_succ (h.short _))

/-- Looking a descriptor up keeps the account. -/
theorem RunsAs.step_get (h : RunsAs calls m table entries) (hfuel : calls.length<fuel) (sockfd : ℤ) :
    ∃ t newEntries, sessionStep fuel m (.get sockfd)=some t ∧
      RunsAs (calls++[.get sockfd]) t (tableCall table (.get sockfd)).1 newEntries := by
  have hget := h.represents.get sockfd (lt_of_le_of_lt (h.short _) hfuel)
  refine ⟨{m with returned := m.returned++
    [(SessionTable.sessionTableGet table sockfd).map ConnectionRef.object]},entries,?_,?_⟩
  · rw [sessionStep,hget]
    rfl
  · refine ⟨?_,h.stackOf_call _,?_,?_,?_⟩
    · exact ⟨h.represents.chain,h.represents.contents,h.represents.apart,h.represents.disjoint,
        h.represents.linked,h.represents.owned⟩
    · rw [answersFrom_append,h.returned,answer,sessionTableGet_eq_head,h.stackOf]
      rfl
    · have hnone : added [.get sockfd]=[] := rfl
      rw [added_append,hnone,List.append_nil]
      exact h.destroyed
    · intro b
      rw [length_calls_succ]
      exact Nat.le_succ_of_le (h.short b)

/-- Removing a descriptor keeps the account. -/
theorem RunsAs.step_remove (h : RunsAs calls m table entries) (hfuel : calls.length<fuel)
    (sockfd : ℤ) :
    ∃ t newEntries, sessionStep fuel m (.remove sockfd)=some t ∧
      RunsAs (calls++[.remove sockfd]) t (tableCall table (.remove sockfd)).1 newEntries := by
  obtain ⟨t,rest,hrun,hrep,hsub,hdestroyed,hreturned⟩ :=
    h.represents.remove sockfd (lt_of_le_of_lt (h.short _) hfuel)
  refine ⟨t,_,hrun,⟨hrep,h.stackOf_call _,?_,?_,?_⟩⟩
  · rw [hreturned,h.returned,answersFrom_append]
    simp [answer]
  · have hnone : added [.remove sockfd]=[] := rfl
    have hlist : ((SessionTable.sessionTableRemove table sockfd).2.map
        ConnectionRef.object).toList=
          (SessionTable.sessionTableRemove table sockfd).2.toList.map ConnectionRef.object := by
      cases (SessionTable.sessionTableRemove table sockfd).2 <;> rfl
    have hperm := (destroy_remove_perm table sockfd).map ConnectionRef.object
    rw [List.map_append] at hperm
    rw [hdestroyed,added_append,hnone,List.append_nil,hlist,List.append_assoc]
    exact (hperm.append_left m.destroyed).trans h.destroyed
  · rw [length_calls_succ]
    exact short_update h.short _ (Nat.le_succ_of_le (hsub.length_le.trans (h.short _)))

/-- A call whose allocations are unused goes through and keeps the account. -/
theorem RunsAs.step (h : RunsAs calls m table entries) (hfuel : calls.length<fuel)
    (call : SessionCall) (hunused : AllocatesUnused m call) :
    ∃ t newEntries, sessionStep fuel m call=some t ∧
      RunsAs (calls++[call]) t (tableCall table call).1 newEntries := by
  cases call with
  | add conn node => exact h.step_add hunused
  | get sockfd => exact h.step_get hfuel sockfd
  | remove sockfd => exact h.step_remove hfuel sockfd

end Calls

/-- After any sequence of calls the memory runs as the bucket table does. -/
theorem runsAs_of_calls {fuel : ℕ} {calls : List SessionCall} (hfuel : calls.length≤fuel)
    (hunused : Guarded (sessionStep fuel) AllocatesUnused sessionTableCreate calls) :
    ∃ m table entries, execute (sessionStep fuel) sessionTableCreate calls=some m ∧
      RunsAs calls m table entries := by
  have hstep : ∀ (past : List SessionCall) (m : Memory) (call : SessionCall), past.length<fuel →
      (∃ table entries, RunsAs past m table entries) → AllocatesUnused m call →
        ∃ t, sessionStep fuel m call=some t ∧ ∃ table entries, RunsAs (past++[call]) t table entries := by
    intro past m call hpast hm hcall
    obtain ⟨table,entries,h⟩ := hm
    obtain ⟨t,newEntries,hrun,ht⟩ := h.step hpast call hcall
    exact ⟨t,hrun,_,newEntries,ht⟩
  have hbound : ([] : List SessionCall).length+calls.length≤fuel := by simpa using hfuel
  obtain ⟨m,hrun,table,entries,h⟩ :=
    guarded_trace_progress hstep ⟨_,_,runsAs_create⟩ hbound hunused
  exact ⟨m,table,entries,hrun,h⟩

/-- The newest connection of a descriptor as the lookup returns it. -/
theorem RunsAs.get {fuel : ℕ} {calls : List SessionCall} {m : Memory} {table : SessionTableT}
    {entries : Fin sessionTableSize → List Entry} (h : RunsAs calls m table entries)
    (hfuel : calls.length<fuel) (sockfd : ℤ) :
    sessionTableGet fuel m sockfd=
      some ((newest (stacksAfter calls) sockfd).map ConnectionRef.object) := by
  rw [h.represents.get sockfd (lt_of_le_of_lt (h.short _) hfuel),sessionTableGet_eq_head,h.stackOf]
  rfl

/-- What a removal destroys, and what the lookups return after it. -/
theorem RunsAs.remove {fuel : ℕ} {calls : List SessionCall} {m : Memory} {table : SessionTableT}
    {entries : Fin sessionTableSize → List Entry} (h : RunsAs calls m table entries)
    (hfuel : calls.length+1<fuel) (sockfd : ℤ) :
    ∃ t, sessionTableRemove fuel m sockfd=some t ∧
      t.destroyed=m.destroyed++
        ((newest (stacksAfter calls) sockfd).map ConnectionRef.object).toList ∧
      sessionTableGet fuel t sockfd=
        some ((stacksAfter calls sockfd).tail.head?.map ConnectionRef.object) ∧
      ∀ other, other≠sockfd → sessionTableGet fuel t other=sessionTableGet fuel m other := by
  have hlength : (calls++[SessionCall.remove sockfd]).length<fuel := by simpa using hfuel
  obtain ⟨t,rest,hrun,_,_,hdestroyed,_⟩ := h.represents.remove sockfd
    (lt_of_le_of_lt (h.short _) (Nat.lt_of_succ_lt hfuel))
  obtain ⟨u,newEntries,hstep,hu⟩ := h.step (Nat.lt_of_succ_lt hfuel) (.remove sockfd) trivial
  have hsame : t=u := Option.some.inj (hrun.symm.trans hstep)
  rw [← hsame] at hu
  refine ⟨t,hrun,?_,?_,?_⟩
  · rw [hdestroyed,(stack_remove_self table sockfd).2,h.stackOf]
    rfl
  · rw [hu.get hlength sockfd,newest,stacksAfter_append,stackCall,Function.update_self]
  · intro other hother
    rw [hu.get hlength other,h.get (Nat.lt_of_succ_lt hfuel) other,newest,newest,stacksAfter_append,
      stackCall,Function.update_of_ne hother]

/-- The session table refines the map from descriptors to stacks: after any
sequence of calls every lookup so far and every next one returns the newest
open connection of its descriptor, a removal destroys exactly that one and
changes no other lookup, and destroying the table ends the life of every added
connection that has not ended before, once each, leaving nothing allocated. -/
theorem session_table_refines_map {fuel : ℕ} {calls : List SessionCall}
    (hfuel : calls.length+1<fuel)
    (hunused : Guarded (sessionStep fuel) AllocatesUnused sessionTableCreate calls) :
    ∃ m, execute (sessionStep fuel) sessionTableCreate calls=some m ∧
      m.returned=answersFrom (fun _ => []) calls ∧
      (∀ sockfd, sessionTableGet fuel m sockfd=
        some ((newest (stacksAfter calls) sockfd).map ConnectionRef.object)) ∧
      (∀ sockfd, ∃ t, sessionTableRemove fuel m sockfd=some t ∧
        t.destroyed=m.destroyed++
          ((newest (stacksAfter calls) sockfd).map ConnectionRef.object).toList ∧
        sessionTableGet fuel t sockfd=
          some ((stacksAfter calls sockfd).tail.head?.map ConnectionRef.object) ∧
        ∀ other, other≠sockfd → sessionTableGet fuel t other=sessionTableGet fuel m other) ∧
      ∃ final, sessionTableDestroy fuel m=some final ∧ final.destroyed.Perm (added calls) ∧
        (∀ a, final.node a=none) ∧ ∀ c, final.connection c=none := by
  have hlength : calls.length<fuel := Nat.lt_of_succ_lt hfuel
  obtain ⟨m,table,entries,hrun,h⟩ := runsAs_of_calls (Nat.le_of_lt hlength) hunused
  have hshort : ∀ b, (entries b).length<fuel := fun b => lt_of_le_of_lt (h.short b) hlength
  obtain ⟨final,hdestroy,hdestroyed,hnodes,hconnections⟩ := h.represents.destroy hshort
  refine ⟨m,hrun,h.returned,h.get hlength,h.remove hfuel,final,hdestroy,?_,hnodes,hconnections⟩
  rw [hdestroyed]
  exact h.destroyed

/-- Four connections in one bucket, two of them with descriptor 3 and one with
a negative descriptor, and an address that is allocated again. -/
theorem session_table_colliding_descriptors :
    ∃ m final, execute (sessionStep 12) sessionTableCreate
        [.add ⟨10,3⟩ 0,.add ⟨11,259⟩ 1,.add ⟨12,3⟩ 2,.add ⟨13,-253⟩ 3,.get 3,.remove 259,.get 259,
          .remove 3,.add ⟨12,259⟩ 1,.get 3]=some m ∧
      m.returned=[some 12,none,some 10] ∧ sessionTableDestroy 12 m=some final ∧
      final.destroyed.Perm [10,11,12,13,12] := by
  have hunused : Guarded (sessionStep 12) AllocatesUnused sessionTableCreate
      [.add ⟨10,3⟩ 0,.add ⟨11,259⟩ 1,.add ⟨12,3⟩ 2,.add ⟨13,-253⟩ 3,.get 3,.remove 259,.get 259,
        .remove 3,.add ⟨12,259⟩ 1,.get 3] := by decide
  obtain ⟨m,hrun,hreturned,_,_,final,hdestroy,hperm,_⟩ :=
    session_table_refines_map (by decide) hunused
  exact ⟨m,final,hrun,hreturned,hdestroy,hperm⟩

end HoneyDew.SessionHeap
