import HoneyDew.CMemory

/-!
# Stores one behind the other

A program that fills a block keeps the position behind its last store. What it has
stored so far is a text at the front of the block, the position is the length of the
text, and behind it the block is what it was before.
-/

namespace HoneyDew.StoreCursor

open CText CMemory

/-- A block, the position of the next store, and the stores so far. -/
structure Cursor where
  /-- The bytes of the block. -/
  memory : Bytes
  /-- The next position in it. -/
  offset : ℕ
  /-- The position and the number of bytes of each store. -/
  writes : List (ℕ×ℕ)
  deriving DecidableEq,Repr

/-- A block before the first store. -/
def Cursor.start (memory : Bytes) : Cursor := ⟨memory,0,[]⟩

/-- Bytes are stored at the position, which moves behind them. -/
def Cursor.store (c : Cursor) (bytes : Bytes) : Cursor :=
  ⟨writeAt c.memory c.offset bytes,c.offset+bytes.length,c.writes++[(c.offset,bytes.length)]⟩

variable {memory t : Bytes} {limit : ℕ} {c : Cursor}

/-- The block holds a text in front of what it held before, the position is its end, and
the stores have been in front of a limit. -/
structure Holds (memory : Bytes) (limit : ℕ) (t : Bytes) (c : Cursor) : Prop where
  /-- The bytes behind the text are the old ones. -/
  memory_eq : c.memory=t++memory.drop t.length
  /-- The position is the length of the text. -/
  offset_eq : c.offset=t.length
  /-- No store has passed the limit. -/
  inside : ∀ w∈c.writes,w.1+w.2≤limit

/-- At the start the text is empty. -/
theorem holds_start (memory : Bytes) (limit : ℕ) : Holds memory limit [] (.start memory) :=
  ⟨rfl,rfl,fun _ hw => absurd hw List.not_mem_nil⟩

/-- A store behind the text makes it longer. -/
theorem Holds.store (h : Holds memory limit t c) (bytes : Bytes)
    (hroom : t.length+bytes.length≤limit) : Holds memory limit (t++bytes) (c.store bytes) := by
  unfold Cursor.store
  refine ⟨?_,?_,?_⟩
  · have hdrop : (t++memory.drop t.length).drop (t.length+bytes.length)=
        memory.drop (t++bytes).length := by
      rw [←List.drop_drop,List.drop_left,List.drop_drop,List.length_append]
    dsimp only
    rw [h.memory_eq,h.offset_eq,writeAt,List.take_left,hdrop]
  · dsimp only
    rw [h.offset_eq,List.length_append]
  · intro w hw
    cases List.mem_append.mp hw with
    | inl hold => exact h.inside w hold
    | inr hnew =>
      rw [List.mem_singleton.mp hnew,h.offset_eq]
      exact hroom

/-- Behind a last NUL the block is the text, the NUL and the old bytes. -/
theorem Holds.terminated (h : Holds memory limit t c) (hroom : t.length<limit) :
    (c.store [0]).memory=t++0::memory.drop (t.length+1) ∧
      ∀ w∈(c.store [0]).writes,w.1+w.2≤limit := by
  have hend := h.store [0] (by rw [List.length_singleton]; omega)
  have hmemory := hend.memory_eq
  rw [List.length_append,List.length_singleton,List.append_assoc,List.singleton_append] at hmemory
  exact ⟨hmemory,hend.inside⟩

end HoneyDew.StoreCursor
