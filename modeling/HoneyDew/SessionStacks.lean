import HoneyDew.SessionTable

/-!
# Sequences of session table calls as stacks of connections

What the table is for: a map from descriptors to stacks of connections. Each
call has its meaning on that map, and the bucket table runs any sequence of
calls with the same answers. Over the sequence no connection is lost: those
destroyed by removals and those still linked are together the added ones.
-/

namespace HoneyDew.SessionStacks

open SessionTable

/-- One call of the session table. An addition carries the connection object
and the address `malloc` returns for its node. -/
inductive SessionCall
  /-- `connection_create` followed by `session_table_add`. -/
  | add (conn : ConnectionRef) (node : ℕ)
  /-- `session_table_get`. -/
  | get (sockfd : ℤ)
  /-- `session_table_remove`. -/
  | remove (sockfd : ℤ)
  deriving DecidableEq,Repr

/-- The abstract map: for each descriptor its open connections, newest first. -/
abbrev Stacks : Type := ℤ → List ConnectionRef

/-- The meaning of one call on the abstract map. -/
def stackCall (opened : Stacks) : SessionCall → Stacks
  | .add conn _ => Function.update opened conn.socketFileDescriptor
      (conn::opened conn.socketFileDescriptor)
  | .get _ => opened
  | .remove sockfd => Function.update opened sockfd (opened sockfd).tail

/-- The abstract map after a sequence of calls on the empty one. -/
def stacksAfter (calls : List SessionCall) : Stacks := calls.foldl stackCall (fun _ => [])

/-- The newest open connection with the descriptor. -/
def newest (opened : Stacks) (sockfd : ℤ) : Option ConnectionRef := (opened sockfd).head?

/-- What a call of `session_table_get` answers on the abstract map. -/
def answer (opened : Stacks) : SessionCall → List (Option ℕ)
  | .get sockfd => [(newest opened sockfd).map ConnectionRef.object]
  | .add _ _ | .remove _ => []

/-- The answers of all calls of `session_table_get` in a sequence. -/
def answersFrom (opened : Stacks) : List SessionCall → List (Option ℕ)
  | [] => []
  | call::calls => answer opened call++answersFrom (stackCall opened call) calls

/-- The connection objects the calls add, in order. -/
def added : List SessionCall → List ℕ
  | [] => []
  | .add conn _::calls => conn.object::added calls
  | .get _::calls => added calls
  | .remove _::calls => added calls

/-- One call on the bucket table, with the connection it destroys, if any. -/
def tableCall (table : SessionTableT) : SessionCall → SessionTableT×Option ConnectionRef
  | .add conn _ => (sessionTableAdd table conn,none)
  | .get _ => (table,none)
  | .remove sockfd => sessionTableRemove table sockfd

/-- The stacks of a bucket table as the abstract map. -/
theorem stack_tableCall (table : SessionTableT) (call : SessionCall) :
    stack (tableCall table call).1=stackCall (stack table) call := by
  funext sockfd
  cases call with
  | add conn node =>
    rw [tableCall,stackCall]
    by_cases h : sockfd=conn.socketFileDescriptor
    · rw [h,Function.update_self]
      exact stack_add_self table conn
    · rw [Function.update_of_ne h]
      exact stack_add_of_ne table conn (fun he => h he.symm)
  | get fd => rfl
  | remove fd =>
    rw [tableCall,stackCall]
    by_cases h : sockfd=fd
    · rw [h,Function.update_self]
      exact (stack_remove_self table fd).1
    · rw [Function.update_of_ne h]
      exact stack_remove_of_ne table h

/-- Replacing one list of a family trades it for the new list. -/
theorem perm_flatMap_update {α β : Type*} [DecidableEq β] {b : β} {bs : List β}
    (family : β → List α) (new : List α) (hnodup : bs.Nodup) (hb : b∈bs) :
    (family b++bs.flatMap (Function.update family b new)).Perm (new++bs.flatMap family) := by
  induction bs with
  | nil => exact absurd hb List.not_mem_nil
  | cons c rest ih =>
    obtain ⟨hc,hrest⟩ := List.nodup_cons.mp hnodup
    rw [List.flatMap_cons,List.flatMap_cons]
    by_cases hbc : c=b
    · have hsame : rest.flatMap (Function.update family b new)=rest.flatMap family := by
        apply List.flatMap_congr
        intro d hd
        have hdb : d≠b := fun he => hc (by rw [hbc,← he]; exact hd)
        exact Function.update_of_ne hdb new family
      rw [hsame,hbc,Function.update_self]
      exact List.perm_append_comm_assoc (family b) new (rest.flatMap family)
    · have hmem : b∈rest := (List.mem_cons.mp hb).resolve_left (fun he => hbc he.symm)
      have htail := ih hrest hmem
      rw [Function.update_of_ne hbc]
      have hleft := List.perm_append_comm_assoc (family b) (family c)
        (rest.flatMap (Function.update family b new))
      have hright := List.perm_append_comm_assoc (family c) new (rest.flatMap family)
      exact (hleft.trans (htail.append_left (family c))).trans hright

/-- An addition adds its connection to those linked. -/
theorem destroy_add_perm (table : SessionTableT) (conn : ConnectionRef) :
    (sessionTableDestroy (sessionTableAdd table conn)).Perm (conn::sessionTableDestroy table) := by
  have h := perm_flatMap_update table.bucket
    (conn::table.bucket (hashInt conn.socketFileDescriptor))
    (List.nodup_finRange sessionTableSize) (List.mem_finRange (hashInt conn.socketFileDescriptor))
  rw [List.cons_append] at h
  exact (List.perm_append_left_iff _).mp (h.trans List.perm_middle.symm)

/-- Unlinking the first match splits it off the chain. -/
theorem unlinkFirst_perm (sockfd : ℤ) (chain : List ConnectionRef) :
    ((unlinkFirst sockfd chain).2.toList++(unlinkFirst sockfd chain).1).Perm chain := by
  induction chain with
  | nil => exact List.Perm.refl _
  | cons curr next ih =>
    rw [unlinkFirst]
    split
    · exact List.Perm.refl _
    · exact List.perm_middle.trans (ih.cons curr)

/-- A removal takes its connection from those linked. -/
theorem destroy_remove_perm (table : SessionTableT) (sockfd : ℤ) :
    ((sessionTableRemove table sockfd).2.toList++
      sessionTableDestroy (sessionTableRemove table sockfd).1).Perm (sessionTableDestroy table) := by
  have hupdate := perm_flatMap_update table.bucket
    (unlinkFirst sockfd (table.bucket (hashInt sockfd))).1
    (List.nodup_finRange sessionTableSize) (List.mem_finRange (hashInt sockfd))
  have hsplit := unlinkFirst_perm sockfd (table.bucket (hashInt sockfd))
  have hleft := (hsplit.append_right
    (sessionTableDestroy (sessionTableRemove table sockfd).1)).trans hupdate
  rw [List.append_assoc] at hleft
  have hswap := List.perm_append_comm_assoc (unlinkFirst sockfd (table.bucket (hashInt sockfd))).1
    (unlinkFirst sockfd (table.bucket (hashInt sockfd))).2.toList
    (sessionTableDestroy (sessionTableRemove table sockfd).1)
  exact (List.perm_append_left_iff _).mp (hswap.trans hleft)

/-- The calls add what a single call adds and what the rest adds. -/
theorem added_append (calls more : List SessionCall) :
    added (calls++more)=added calls++added more := by
  induction calls with
  | nil => rfl
  | cons call calls ih => cases call <;> simp [added,ih]

/-- The abstract map after one more call. -/
theorem stacksAfter_append (calls : List SessionCall) (call : SessionCall) :
    stacksAfter (calls++[call])=stackCall (stacksAfter calls) call := by
  simp [stacksAfter]

/-- The answers of a sequence with one more call. -/
theorem answersFrom_append (opened : Stacks) (calls : List SessionCall) (call : SessionCall) :
    answersFrom opened (calls++[call])=
      answersFrom opened calls++answer (calls.foldl stackCall opened) call := by
  induction calls generalizing opened with
  | nil => simp [answersFrom]
  | cons first calls ih => simp [answersFrom,ih]

end HoneyDew.SessionStacks
