import Mathlib.Data.List.Infix
import Mathlib.Logic.Function.Basic

/-!
# Producers that share one history

Each of several producers has a list of items and puts them one by one into a
shared history, whenever the schedule lets it. The history keeps each
producer's items in that producer's order. When items carry the name of their
producer and no name is used twice, a producer's items can be told from the
others by that name.
-/

namespace HoneyDew.Producers

variable {ι α κ : Type*} [DecidableEq ι]

/-- The items of one producer in a history. -/
def itemsOf (i : ι) (history : List (ι×α)) : List α :=
  (history.filter (fun a => a.1=i)).map Prod.snd

/-- What the producers have put into the history and what they still have to
put in make up their lists. -/
def Produced (whole rest : ι → List α) (history : List (ι×α)) : Prop :=
  ∀ i,itemsOf i history++rest i=whole i

variable {whole rest : ι → List α} {history : List (ι×α)}

@[simp] theorem itemsOf_nil (i : ι) : itemsOf i ([] : List (ι×α))=[] := rfl

/-- Histories one behind the other. -/
@[simp] theorem itemsOf_append (i : ι) (xs ys : List (ι×α)) :
    itemsOf i (xs++ys)=itemsOf i xs++itemsOf i ys := by
  unfold itemsOf
  rw [List.filter_append,List.map_append]

/-- An item is its own producer's only. -/
theorem itemsOf_singleton (i : ι) (a : ι×α) : itemsOf i [a]=if a.1=i then [a.2] else [] := by
  unfold itemsOf
  rw [List.filter_singleton]
  by_cases h : a.1=i
  · rw [if_pos h,decide_eq_true h]
    rfl
  · rw [if_neg h,decide_eq_false h]
    rfl

/-- At the start everything is still to come. -/
theorem produced_initial (whole : ι → List α) : Produced whole whole [] := fun _ => rfl

/-- The step of one producer: it puts its next item in. -/
theorem produced_step (h : Produced whole rest history) {i : ι} {a : α} {as : List α}
    (hrest : rest i=a::as) : Produced whole (Function.update rest i as) (history++[(i,a)]) := by
  intro j
  rw [itemsOf_append,itemsOf_singleton,←h j]
  by_cases hj : j=i
  · rw [hj,Function.update_self,if_pos rfl,hrest,List.append_assoc,List.singleton_append]
  · rw [Function.update_of_ne hj,if_neg (fun hi => hj hi.symm),List.append_nil]

/-- The items put in so far are the front of the producer's list. -/
theorem Produced.front (h : Produced whole rest history) (i : ι) :
    itemsOf i history<+:whole i := ⟨rest i,h i⟩

/-- A producer that has nothing left has put all its items in. -/
theorem Produced.complete (h : Produced whole rest history) {i : ι} (hrest : rest i=[]) :
    itemsOf i history=whole i := by
  rw [←h i,hrest,List.append_nil]

/-- Every item of the history is one of its producer's list. -/
theorem Produced.mem (h : Produced whole rest history) {i : ι} {a : α} (ha : (i,a)∈history) :
    a∈whole i := by
  refine (h.front i).subset (List.mem_map.mpr ⟨(i,a),List.mem_filter.mpr ⟨ha,?_⟩,rfl⟩)
  exact decide_eq_true rfl

/-- What the items of a producer say carries the name of the producer. When no
name is used twice, what carries a producer's name is what its items say. -/
theorem filterMap_name {β : Type*} [DecidableEq κ] {f : α → Option β} {key : β → κ} {name : ι → κ}
    (hname : Function.Injective name) (h : ∀ a∈history,∀ b,f a.2=some b → key b=name a.1) (i : ι) :
    ((history.map Prod.snd).filterMap f).filter (fun b => key b=name i)=
      (itemsOf i history).filterMap f := by
  induction history with
  | nil => rfl
  | cons a history ih =>
    have hrest := ih (fun a' ha' => h a' (List.mem_cons_of_mem _ ha'))
    have hitems := itemsOf_append i [a] history
    rw [List.singleton_append,itemsOf_singleton] at hitems
    rw [hitems,List.filterMap_append,←hrest,List.map_cons]
    cases hf : f a.2 with
    | none =>
      rw [List.filterMap_cons_none hf]
      split
      · rw [List.filterMap_cons_none hf,List.filterMap_nil,List.nil_append]
      · rw [List.filterMap_nil,List.nil_append]
    | some b =>
      have hkey := h a List.mem_cons_self b hf
      rw [List.filterMap_cons_some hf,List.filter_cons,hkey]
      by_cases hi : a.1=i
      · rw [if_pos hi,if_pos (decide_eq_true (congrArg name hi)),List.filterMap_cons_some hf]
        rfl
      · have hne : name a.1≠name i := fun hsame => hi (hname hsame)
        rw [if_neg hi,if_neg (fun hsame => hne (of_decide_eq_true hsame))]
        rfl

end HoneyDew.Producers
