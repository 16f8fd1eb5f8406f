import Mathlib.Data.List.Pairwise
import Mathlib.Data.List.FinRange
import Mathlib.Algebra.Ring.Int.Defs
import Mathlib.Logic.Function.Basic

/-!
# The session hash table and the stacks of connections it keeps

The bucket operations of the session table follow the source: insertion
pushes at the bucket head, lookup and removal take the first node whose
connection carries the descriptor. Seen from outside the table is one stack
of connections for each descriptor number, and every operation is the stack
operation of the same name.
-/

namespace HoneyDew.SessionTable

/-- Number of buckets, `SESSION_TABLE_SIZE`. -/
abbrev sessionTableSize : ℕ := 256

/-- A heap connection as a table node sees it. The descriptor field is set
once by `connection_create` and never assigned again. -/
structure ConnectionRef where
  /-- Which allocated connection object the node points to. -/
  object : ℕ
  /-- The field `socket_file_descriptor` of that object. -/
  socketFileDescriptor : ℤ
  deriving DecidableEq,Repr

/-- `hash_int`: the descriptor converted to an unsigned 32-bit integer,
reduced modulo the number of buckets. -/
def hashInt (key : ℤ) : Fin sessionTableSize :=
  ⟨(key%2^32).toNat%sessionTableSize,Nat.mod_lt _ (by decide)⟩

/-- The bucket array with every node in the bucket of its own descriptor. -/
structure SessionTableT where
  /-- Nodes of one bucket from its head to its tail. -/
  bucket : Fin sessionTableSize → List ConnectionRef
  /-- A node is only ever linked into the bucket its descriptor hashes to. -/
  placed : ∀ b, ∀ c∈bucket b, hashInt c.socketFileDescriptor=b

/-- `session_table_create`: all bucket heads are null. -/
def sessionTableCreate : SessionTableT := ⟨fun _ => [],fun _ _ h => absurd h List.not_mem_nil⟩

/-- `session_table_add`: push a node at the head of the bucket. -/
def sessionTableAdd (table : SessionTableT) (conn : ConnectionRef) : SessionTableT where
  bucket := Function.update table.bucket (hashInt conn.socketFileDescriptor)
    (conn::table.bucket (hashInt conn.socketFileDescriptor))
  placed := by
    intro b c hc
    by_cases hb : b=hashInt conn.socketFileDescriptor
    · subst hb
      rw [Function.update_self] at hc
      rcases List.mem_cons.mp hc with rfl|hc
      · rfl
      · exact table.placed _ c hc
    · rw [Function.update_of_ne hb] at hc
      exact table.placed b c hc

/-- The chain walk of `session_table_get`. -/
def findFirst (sockfd : ℤ) : List ConnectionRef → Option ConnectionRef
  | [] => none
  | curr::next => if curr.socketFileDescriptor=sockfd then some curr else findFirst sockfd next

/-- `session_table_get`: the first node of the bucket with the descriptor. -/
def sessionTableGet (table : SessionTableT) (sockfd : ℤ) : Option ConnectionRef :=
  findFirst sockfd (table.bucket (hashInt sockfd))

/-- The chain walk of `session_table_remove`, unlinking the first match. -/
def unlinkFirst (sockfd : ℤ) : List ConnectionRef → List ConnectionRef×Option ConnectionRef
  | [] => ([],none)
  | curr::next =>
    if curr.socketFileDescriptor=sockfd then (next,some curr)
    else
      let rest := unlinkFirst sockfd next
      (curr::rest.1,rest.2)

/-- The remaining chain keeps only nodes that were already linked. -/
theorem unlinkFirst_subset (sockfd : ℤ) (chain : List ConnectionRef) :
    (unlinkFirst sockfd chain).1⊆chain := by
  induction chain with
  | nil => exact List.Subset.refl _
  | cons curr next ih =>
    rw [unlinkFirst]
    split
    · exact List.subset_cons_self curr next
    · exact List.cons_subset_cons curr ih

/-- `session_table_remove`: the table without the first match, and the
connection handed to `connection_destroy`, if any node matched. -/
def sessionTableRemove (table : SessionTableT) (sockfd : ℤ) :
    SessionTableT×Option ConnectionRef :=
  (⟨Function.update table.bucket (hashInt sockfd)
      (unlinkFirst sockfd (table.bucket (hashInt sockfd))).1,by
    intro b c hc
    by_cases hb : b=hashInt sockfd
    · subst hb
      rw [Function.update_self] at hc
      exact table.placed _ c (unlinkFirst_subset _ _ hc)
    · rw [Function.update_of_ne hb] at hc
      exact table.placed b c hc⟩,
    (unlinkFirst sockfd (table.bucket (hashInt sockfd))).2)

/-- `session_table_destroy`: the connections destroyed, bucket by bucket. -/
def sessionTableDestroy (table : SessionTableT) : List ConnectionRef :=
  (List.finRange sessionTableSize).flatMap table.bucket

/-- What the table means: for each descriptor the stack of its connections. -/
def stack (table : SessionTableT) (sockfd : ℤ) : List ConnectionRef :=
  (table.bucket (hashInt sockfd)).filter (fun c => c.socketFileDescriptor=sockfd)

@[simp] theorem stack_create (sockfd : ℤ) : stack sessionTableCreate sockfd=[] := rfl

/-- A stack holds only connections of its own descriptor. -/
theorem stack_descriptor {table : SessionTableT} {sockfd : ℤ} {c : ConnectionRef}
    (h : c∈stack table sockfd) : c.socketFileDescriptor=sockfd := by
  have hc := (List.mem_filter.mp h).2
  exact of_decide_eq_true hc

/-- Adding pushes on the stack of the connection's descriptor. -/
theorem stack_add_self (table : SessionTableT) (conn : ConnectionRef) :
    stack (sessionTableAdd table conn) conn.socketFileDescriptor=
      conn::stack table conn.socketFileDescriptor := by
  simp only [stack,sessionTableAdd,Function.update_self,List.filter_cons,decide_true,if_true]

/-- Adding leaves every other stack alone, colliding buckets included. -/
theorem stack_add_of_ne (table : SessionTableT) (conn : ConnectionRef) {sockfd : ℤ}
    (h : conn.socketFileDescriptor≠sockfd) :
    stack (sessionTableAdd table conn) sockfd=stack table sockfd := by
  unfold stack sessionTableAdd
  dsimp only
  by_cases hb : hashInt sockfd=hashInt conn.socketFileDescriptor
  · rw [hb,Function.update_self,List.filter_cons,if_neg (by simpa only [decide_eq_true_eq] using h)]
  · rw [Function.update_of_ne hb]

/-- Lookup reads the top of the stack. -/
theorem findFirst_eq_head (sockfd : ℤ) (chain : List ConnectionRef) :
    findFirst sockfd chain=(chain.filter (fun c => c.socketFileDescriptor=sockfd)).head? := by
  induction chain with
  | nil => rfl
  | cons curr next ih =>
    by_cases hc : curr.socketFileDescriptor=sockfd
    · rw [findFirst,if_pos hc,List.filter_cons,if_pos (decide_eq_true hc),List.head?_cons]
    · rw [findFirst,if_neg hc,List.filter_cons,if_neg (by simpa only [decide_eq_true_eq] using hc),ih]

/-- `session_table_get` returns the top of the descriptor's stack. -/
theorem sessionTableGet_eq_head (table : SessionTableT) (sockfd : ℤ) :
    sessionTableGet table sockfd=(stack table sockfd).head? := findFirst_eq_head sockfd _

/-- Unlinking the first match pops the filtered chain and hands out its head. -/
theorem unlinkFirst_self (sockfd : ℤ) (chain : List ConnectionRef) :
    (unlinkFirst sockfd chain).1.filter (fun c => c.socketFileDescriptor=sockfd)=
        (chain.filter (fun c => c.socketFileDescriptor=sockfd)).tail ∧
      (unlinkFirst sockfd chain).2=
        (chain.filter (fun c => c.socketFileDescriptor=sockfd)).head? := by
  induction chain with
  | nil => exact ⟨rfl,rfl⟩
  | cons curr next ih =>
    by_cases hc : curr.socketFileDescriptor=sockfd
    · rw [unlinkFirst,if_pos hc,List.filter_cons,if_pos (decide_eq_true hc)]
      exact ⟨rfl,rfl⟩
    · have hd : ¬decide (curr.socketFileDescriptor=sockfd)=true := by
        simpa only [decide_eq_true_eq] using hc
      rw [unlinkFirst,if_neg hc]
      dsimp only
      rw [List.filter_cons,if_neg hd,List.filter_cons,if_neg hd]
      exact ih

/-- Unlinking one descriptor keeps the filtered chain of every other one. -/
theorem unlinkFirst_of_ne {sockfd other : ℤ} (h : other≠sockfd) (chain : List ConnectionRef) :
    (unlinkFirst sockfd chain).1.filter (fun c => c.socketFileDescriptor=other)=
      chain.filter (fun c => c.socketFileDescriptor=other) := by
  induction chain with
  | nil => rfl
  | cons curr next ih =>
    by_cases hc : curr.socketFileDescriptor=sockfd
    · have hd : ¬decide (curr.socketFileDescriptor=other)=true := by
        rw [decide_eq_true_eq,hc]
        exact fun he => h he.symm
      rw [unlinkFirst,if_pos hc,List.filter_cons,if_neg hd]
    · rw [unlinkFirst,if_neg hc]
      dsimp only
      rw [List.filter_cons,List.filter_cons,ih]

/-- Removal pops the stack of its descriptor and destroys its top. -/
theorem stack_remove_self (table : SessionTableT) (sockfd : ℤ) :
    stack (sessionTableRemove table sockfd).1 sockfd=(stack table sockfd).tail ∧
      (sessionTableRemove table sockfd).2=(stack table sockfd).head? := by
  have h := unlinkFirst_self sockfd (table.bucket (hashInt sockfd))
  refine ⟨?_,h.2⟩
  simp only [stack,sessionTableRemove,Function.update_self]
  exact h.1

/-- Removal leaves every other stack alone. -/
theorem stack_remove_of_ne (table : SessionTableT) {sockfd other : ℤ} (h : other≠sockfd) :
    stack (sessionTableRemove table sockfd).1 other=stack table other := by
  unfold stack sessionTableRemove
  dsimp only
  by_cases hb : hashInt other=hashInt sockfd
  · rw [hb,Function.update_self]
    exact unlinkFirst_of_ne h _
  · rw [Function.update_of_ne hb]

/-- Destroying the table destroys exactly the connections on its stacks. -/
theorem mem_sessionTableDestroy (table : SessionTableT) (c : ConnectionRef) :
    c∈sessionTableDestroy table ↔ c∈stack table c.socketFileDescriptor := by
  simp only [sessionTableDestroy,List.mem_flatMap,List.mem_finRange,true_and,stack,
    List.mem_filter,decide_true,and_true]
  constructor
  · rintro ⟨b,hb⟩
    rw [table.placed b c hb]
    exact hb
  · intro h
    exact ⟨_,h⟩

end HoneyDew.SessionTable
