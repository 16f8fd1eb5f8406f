import Mathlib.Logic.Function.Basic
import Mathlib.Tactic.Common

/-!
# Ring buffers addressed by a write position and a count

The oldest element of a ring is found by subtracting the count from the write
position in unsigned machine arithmetic and reducing modulo the capacity. The
subtraction wraps whenever the ring has wrapped. It still names the right slot
when the capacity divides the machine modulus, and then pushing and taking are
the operations of a first-in first-out queue.
-/

namespace HoneyDew.RingQueue

variable {ρ : Type*}

/-- The slot that stands `back` places before the write position, with the
difference taken modulo the machine modulus first. -/
def slotIndex (modulus capacity head back : ℕ) : ℕ := (head+modulus-back)%modulus%capacity

/-- The elements in the ring from the oldest to the newest. -/
def contents (modulus capacity : ℕ) (slots : ℕ → ρ) (head : ℕ) : ℕ → List ρ
  | 0 => []
  | count+1 => slots (slotIndex modulus capacity head (count+1))::
      contents modulus capacity slots head count

/-- The ring holds as many elements as its count says. -/
theorem length_contents (modulus capacity : ℕ) (slots : ℕ → ρ) (head count : ℕ) :
    (contents modulus capacity slots head count).length=count := by
  induction count with
  | zero => rfl
  | succ count ih => rw [contents,List.length_cons,ih]

/-- The elements of a ring whose slots hold images of other elements. -/
theorem contents_map {τ : Type*} (modulus capacity : ℕ) (f : ρ → τ) (slots : ℕ → ρ)
    (head count : ℕ) : contents modulus capacity (fun i => f (slots i)) head count=
      (contents modulus capacity slots head count).map f := by
  induction count with
  | zero => rfl
  | succ count ih => rw [contents,contents,List.map_cons,ih]

variable {modulus capacity head : ℕ}

/-- The wrapped subtraction names the slot of plain modular subtraction. -/
theorem slotIndex_eq (hdvd : capacity∣modulus) (hmodulus : 0 < modulus) {back : ℕ}
    (hback : back ≤ capacity) :
    slotIndex modulus capacity head back=(head+capacity-back)%capacity := by
  have hle : capacity ≤ modulus := Nat.le_of_dvd hmodulus hdvd
  have hwrap : head+modulus-back=(head+capacity-back)+(modulus-capacity) := by omega
  have hrest : capacity∣modulus-capacity := Nat.dvd_sub hdvd (Nat.dvd_refl capacity)
  unfold slotIndex
  rw [Nat.mod_mod_of_dvd _ hdvd,hwrap,Nat.add_mod,Nat.mod_eq_zero_of_dvd hrest,Nat.add_zero,
    Nat.mod_mod]

/-- After the write position has advanced, the slots that were in use stand
one place further back. -/
theorem slotIndex_succ (hdvd : capacity∣modulus) (hmodulus : 0 < modulus) (hhead : head<capacity)
    {back : ℕ} (hback : back<capacity) :
    slotIndex modulus capacity ((head+1)%capacity) (back+1)=slotIndex modulus capacity head back := by
  have hnext : (head+1)%capacity<capacity := Nat.mod_lt _ (by omega)
  rw [slotIndex_eq hdvd hmodulus (by omega),slotIndex_eq hdvd hmodulus (by omega)]
  rcases Nat.lt_or_ge (head+1) capacity with hlt|hge
  · rw [Nat.mod_eq_of_lt hlt]
    congr 1
    omega
  · have hlast : head+1=capacity := by omega
    have hsum : head+capacity-back=(0+capacity-(back+1))+capacity := by omega
    rw [hlast,Nat.mod_self,hsum,Nat.add_mod_right]

/-- The slots in use are not the slot that the next element is written to. -/
theorem slotIndex_ne_head (hdvd : capacity∣modulus) (hmodulus : 0 < modulus) (hhead : head<capacity)
    {back : ℕ} (hpos : 0<back) (hback : back<capacity) :
    slotIndex modulus capacity head back≠head := by
  rw [slotIndex_eq hdvd hmodulus (by omega)]
  rcases Nat.lt_or_ge head back with hlt|hge
  · rw [Nat.mod_eq_of_lt (by omega)]
    omega
  · have hsum : head+capacity-back=(head-back)+capacity := by omega
    rw [hsum,Nat.add_mod_right,Nat.mod_eq_of_lt (by omega)]
    omega

/-- Writing at the write position of a ring that is not full and advancing it
appends the element at the end of the queue. -/
theorem contents_push (hdvd : capacity∣modulus) (hmodulus : 0 < modulus) (hhead : head<capacity)
    (slots : ℕ → ρ) (r : ρ) {count : ℕ} (hcount : count<capacity) :
    contents modulus capacity (Function.update slots head r) ((head+1)%capacity) (count+1)=
      contents modulus capacity slots head count++[r] := by
  induction count with
  | zero =>
    have hslot : slotIndex modulus capacity head 0=head := by
      rw [slotIndex_eq hdvd hmodulus (Nat.zero_le _),Nat.sub_zero,Nat.add_mod_right,
        Nat.mod_eq_of_lt hhead]
    rw [contents,contents,slotIndex_succ hdvd hmodulus hhead hcount,hslot,Function.update_self]
    rfl
  | succ count ih =>
    have hne := slotIndex_ne_head hdvd hmodulus hhead (Nat.succ_pos count) hcount
    have hrest := ih (by omega)
    rw [contents,slotIndex_succ hdvd hmodulus hhead hcount,Function.update_of_ne hne,hrest]
    rfl

end HoneyDew.RingQueue
