import HoneyDew.RedisParser

/-!
# The numbers that the Redis array parser reads

`atoi` runs on into the bytes behind the unread ones where an announced number
is the last thing in them. The array parser gives the result of a buffer that
ends there exactly where the last length it comes to is the same.
-/

namespace HoneyDew.RedisLengths

open CText CMemory RedisParser

/-- The number at a position as a NUL behind the unread bytes would end it. -/
def numberWithin (memory : Bytes) (used p : ℕ) : ℤ := atoi ((memory.take used).drop p++[0])

/-- An argument of the announced length lies in the unread bytes with a CR LF
behind it. -/
def Lands (unread : Bytes) (start : ℕ) (length : ℤ) : Prop :=
  0≤length ∧ start+length.toNat+2≤unread.length ∧ readAt unread (start+length.toNat) 2=crlf

instance (unread : Bytes) (start : ℕ) (length : ℤ) : Decidable (Lands unread start length) := by
  unfold Lands
  infer_instance

/-- Where the argument loop comes to the last argument, it reads its length as
with a NUL behind the unread bytes, or finds no argument with either length. The
lengths in front of a further `$` are the same anyway. -/
def SameLengths (memory : Bytes) (used : ℕ) : ℕ → ℕ → Prop
  | 0,_ => True
  | k+1,p => p<used → memory.getD p 0=36 →
      ∀ i∈strstr ((memory.take used).drop (p+1)) crlf,
        (k=0 → Lands (memory.take used) (p+1+i+2) (numberWithin memory used (p+1)) ∨
            Lands (memory.take used) (p+1+i+2) (atoi (memory.drop (p+1))) →
          atoi (memory.drop (p+1))=numberWithin memory used (p+1)) ∧
        (Lands (memory.take used) (p+1+i+2) (numberWithin memory used (p+1)) →
          SameLengths memory used k (p+1+i+2+(numberWithin memory used (p+1)).toNat+2))

instance decidableSameLengths (memory : Bytes) (used : ℕ) :
    ∀ k p,Decidable (SameLengths memory used k p)
  | 0,_ => inferInstanceAs (Decidable True)
  | k+1,p => by
    have hrest := decidableSameLengths memory used k
    unfold SameLengths
    infer_instance

/-- The argument loop reads the same lengths behind the number of arguments that
a NUL behind the unread bytes leaves. -/
def SameNumbers (memory : Bytes) (used : ℕ) : Prop :=
  ∀ i∈strstr ((memory.take used).drop 1) crlf,
    0<numberWithin memory used 1 → numberWithin memory used 1≤32 →
      SameLengths memory used (numberWithin memory used 1).toNat (1+i+2)

instance (memory : Bytes) (used : ℕ) : Decidable (SameNumbers memory used) := by
  unfold SameNumbers
  infer_instance

/-- A header inside the unread bytes depends only on where their first CR LF
stands and on the number read. -/
theorem headerAt_inside (unread rest : Bytes) {p : ℕ} (hp : p≤unread.length) :
    (headerAt (unread++rest) unread.length p).filter (fun header => header.2≤unread.length)=
      (strstr (unread.drop p) crlf).map (fun i => (atoi (unread.drop p++rest),p+i+2)) := by
  have hdrop : (unread++rest).drop p=unread.drop p++rest := List.drop_append_of_le_length hp
  have hlength : (unread.drop p).length=unread.length-p := List.length_drop
  unfold headerAt
  rw [hdrop]
  cases hinside : strstr (unread.drop p) crlf with
  | some i =>
    have hfound := strstr_append hinside rest
    have hfits := strstr_length hinside (List.cons_ne_nil _ _)
    have htwo : crlf.length=2 := rfl
    have hlt : p+i<unread.length := by omega
    have hle : p+i+2≤unread.length := by omega
    rw [hfound,Option.bind_some,if_pos hlt,Option.map_some,Option.filter_some,
      if_pos (decide_eq_true hle)]
  | none =>
    rw [Option.map_none]
    cases hfound : strstr (unread.drop p++rest) crlf with
    | none => rfl
    | some i =>
      rw [Option.bind_some]
      split
      · rw [Option.filter_some,if_neg]
        intro hle
        have hle := of_decide_eq_true hle
        dsimp only at hle
        have htwo : crlf.length=2 := rfl
        have hback := strstr_of_append hfound (by omega)
        rw [hinside] at hback
        cases hback
      · rfl

/-- A continuation that fails on headers behind the unread bytes sees only the
headers inside. -/
theorem bind_filter {α β : Type*} {p : α → Bool} {f : α → Option β}
    (hf : ∀ a,p a=false → f a=none) (o : Option α) : o.bind f=(o.filter p).bind f := by
  cases o with
  | none => rfl
  | some a =>
    cases hp : p a with
    | true => rw [Option.filter_some,hp,if_pos rfl]
    | false =>
      rw [Option.filter_some,hp,Option.bind_some,hf a hp]
      rfl

/-- The bytes in front of the unread length are the unread bytes. -/
theorem readAt_inside {unread : Bytes} (rest : Bytes) {offset n : ℕ} (h : offset+n≤unread.length) :
    readAt (unread++rest) offset n=readAt unread offset n := by
  unfold readAt
  rw [List.drop_append_of_le_length (by omega),List.take_append_of_le_length]
  rw [List.length_drop]
  omega

/-- The argument loop only sees headers that end inside the buffer. -/
theorem redisParseArgs_succ {memory : Bytes} {bufLen k p : ℕ}
    (hp : ¬(bufLen≤p ∨ memory.getD p 0≠36)) :
    redisParseArgs memory bufLen (k+1) p=
      ((headerAt memory bufLen (p+1)).filter (fun header => header.2≤bufLen)).bind (fun header =>
        if header.1<0 ∨ bufLen<header.2+header.1.toNat+2 then none
        else if readAt memory (header.2+header.1.toNat) 2≠crlf then none
        else (redisParseArgs memory bufLen k (header.2+header.1.toNat+2)).map (fun rest =>
          (rest.1,readAt memory header.2 (min header.1.toNat 1023)::rest.2))) := by
  rw [redisParseArgs,if_neg hp]
  refine bind_filter ?_ _
  intro header houtside
  have hgt := of_decide_eq_false houtside
  dsimp only
  rw [if_pos (Or.inr (by omega))]

/-- Without room for an argument the argument loop fails. -/
theorem redisParseArgs_end (memory : Bytes) {bufLen k p : ℕ} (hk : 0<k) (hp : bufLen≤p) :
    redisParseArgs memory bufLen k p=none := by
  cases k with
  | zero => exact absurd hk (Nat.lt_irrefl 0)
  | succ k => rw [redisParseArgs,if_pos (Or.inl hp)]

/-- Without a `$` in front of it the argument loop fails. -/
theorem redisParseArgs_undollared {unread : Bytes} (rest : Bytes) {k p : ℕ} (hk : 0<k)
    (hdollar : (36 : Byte)∉unread.drop p) :
    redisParseArgs (unread++rest) unread.length k p=none := by
  cases k with
  | zero => exact absurd hk (Nat.lt_irrefl 0)
  | succ k =>
    rw [redisParseArgs,if_pos]
    by_cases hp : unread.length≤p
    · exact Or.inl hp
    · right
      have hlt : p<unread.length := by omega
      rw [List.getD_append _ _ _ _ hlt,List.getD_eq_getElem _ _ hlt]
      intro hbyte
      rw [List.drop_eq_getElem_cons hlt,hbyte] at hdollar
      exact hdollar List.mem_cons_self

/-- In front of a `$` a number does not run off the unread bytes. -/
theorem numberWithin_of_dollar {unread : Bytes} (rest : Bytes) {p : ℕ} (hp : p≤unread.length)
    (hdollar : (36 : Byte)∈unread.drop p) :
    atoi ((unread++rest).drop p)=numberWithin (unread++rest) unread.length p := by
  have htake : (unread++rest).take unread.length=unread := List.take_left
  have hsplit := List.append_of_mem hdollar
  rcases hsplit with ⟨front,back,hsplit⟩
  rw [numberWithin,htake,List.drop_append_of_le_length hp,hsplit,List.append_assoc,List.append_assoc,
    List.cons_append,List.cons_append,atoi_stop (by decide) (by decide) (by decide),
    atoi_stop (by decide) (by decide) (by decide)]

/-- The lengths behind the last `$` are the last ones: the argument loop asks
for nothing more. -/
theorem sameLengths_undollared {unread : Bytes} (rest : Bytes) {k p : ℕ}
    (hdollar : (36 : Byte)∉unread.drop p) : SameLengths (unread++rest) unread.length k p := by
  cases k with
  | zero => trivial
  | succ k =>
    intro hlt hbyte
    rw [List.getD_append _ _ _ _ hlt,List.getD_eq_getElem _ _ hlt] at hbyte
    rw [List.drop_eq_getElem_cons hlt,hbyte] at hdollar
    exact absurd List.mem_cons_self hdollar

/-- What a round of the argument loop does behind a header with a CR LF in the
unread bytes that announces a length. -/
theorem redisParseArgs_header {unread rest : Bytes} {k p i : ℕ} {n : ℤ} (hlt : p<unread.length)
    (hdollar : unread.getD p 0=36) (hfound : strstr (unread.drop (p+1)) crlf=some i)
    (hn : atoi (unread.drop (p+1)++rest)=n) :
    redisParseArgs (unread++rest) unread.length (k+1) p=
      if Lands unread (p+1+i+2) n then
        (redisParseArgs (unread++rest) unread.length k (p+1+i+2+n.toNat+2)).map (fun tail =>
          (tail.1,readAt unread (p+1+i+2) (min n.toNat 1023)::tail.2))
      else none := by
  have hneither : ¬(unread.length≤p ∨ (unread++rest).getD p 0≠36) := by
    rw [not_or,List.getD_append _ _ _ _ hlt]
    exact ⟨by omega,fun hne => hne hdollar⟩
  rw [redisParseArgs_succ hneither,headerAt_inside unread rest (by omega),hfound,Option.map_some,
    Option.bind_some,hn]
  dsimp only
  by_cases hlands : Lands unread (p+1+i+2) n
  · obtain ⟨hnonneg,hroom,hbehind⟩ := hlands
    rw [if_neg (by omega),readAt_inside rest (by omega),if_neg (not_not.mpr hbehind),
      readAt_inside rest (by omega),if_pos ⟨hnonneg,hroom,hbehind⟩]
  · rw [if_neg hlands]
    split
    · rfl
    · rename_i hfits
      rw [readAt_inside rest (by omega),if_pos]
      intro hbehind
      exact hlands ⟨by omega,by omega,hbehind⟩

/-- The condition on one round of the argument loop behind a header with a CR LF
in the unread bytes. -/
theorem sameLengths_header {unread rest : Bytes} {k p i : ℕ} {theirs ours : ℤ}
    (hlt : p<unread.length) (hdollar : unread.getD p 0=36)
    (hfound : strstr (unread.drop (p+1)) crlf=some i)
    (htheirs : atoi (unread.drop (p+1)++rest)=theirs) (hours : atoi (unread.drop (p+1)++[0])=ours) :
    SameLengths (unread++rest) unread.length (k+1) p ↔
      (k=0 → Lands unread (p+1+i+2) ours ∨ Lands unread (p+1+i+2) theirs → theirs=ours) ∧
      (Lands unread (p+1+i+2) ours →
        SameLengths (unread++rest) unread.length k (p+1+i+2+ours.toNat+2)) := by
  have htake : (unread++rest).take unread.length=unread := List.take_left
  have hbyte : (unread++rest).getD p 0=36 := by
    rw [List.getD_append _ _ _ _ hlt]
    exact hdollar
  rw [SameLengths,numberWithin,htake,List.drop_append_of_le_length (by omega),htheirs,hours]
  constructor
  · intro h
    exact h hlt hbyte i hfound
  · intro h _ _ j hj
    have hsame : i=j := Option.some.inj (hfound.symm.trans hj)
    rw [←hsame]
    exact h

/-- Storing an argument in front of the others keeps results apart. -/
theorem stored_injective (argument : Bytes) :
    Function.Injective (fun tail : ℕ×List Bytes => (tail.1,argument::tail.2)) := by
  intro a b hab
  have hpair := Prod.mk.inj hab
  exact Prod.ext hpair.1 (List.cons.inj hpair.2).2

/-- Two lengths of the last argument give the same result exactly where they are
one or no argument lies there with either. -/
theorem lands_last {unread : Bytes} {start : ℕ} {theirs ours : ℤ} :
    ((if Lands unread start theirs then
        some (start+theirs.toNat+2,[readAt unread start (min theirs.toNat 1023)]) else none)=
      if Lands unread start ours then
        some (start+ours.toNat+2,[readAt unread start (min ours.toNat 1023)]) else none) ↔
      (Lands unread start ours ∨ Lands unread start theirs → theirs=ours) := by
  by_cases htheirs : Lands unread start theirs
  · by_cases hours : Lands unread start ours
    · rw [if_pos htheirs,if_pos hours]
      constructor
      · intro h _
        have hplace := congrArg Prod.fst (Option.some.inj h)
        dsimp only at hplace
        have hnonneg := htheirs.1
        have hnonneg' := hours.1
        omega
      · intro h
        rw [h (Or.inl hours)]
    · rw [if_pos htheirs,if_neg hours]
      refine iff_of_false (Option.some_ne_none _) ?_
      intro h
      exact hours (h (Or.inr htheirs)▸htheirs)
  · by_cases hours : Lands unread start ours
    · rw [if_neg htheirs,if_pos hours]
      refine iff_of_false (Option.some_ne_none _).symm ?_
      intro h
      exact htheirs ((h (Or.inl hours)).symm▸hours)
    · rw [if_neg htheirs,if_neg hours]
      exact iff_of_true rfl (fun h => absurd h (not_or.mpr ⟨hours,htheirs⟩))

/-- Where a round reads another length, no `$` follows, so that only a last argument
can be found. -/
theorem redisParseArgs_other {unread rest : Bytes} {k p i : ℕ} {theirs ours : ℤ}
    (hlt : p<unread.length) (hdollar : unread.getD p 0=36)
    (hfound : strstr (unread.drop (p+1)) crlf=some i)
    (htheirs : atoi (unread.drop (p+1)++rest)=theirs) (hours : atoi (unread.drop (p+1)++[0])=ours)
    (hother : theirs≠ours) :
    redisParseArgs (unread++rest) unread.length (k+1) p=
      redisParseArgs (unread++[0]) unread.length (k+1) p ↔
        SameLengths (unread++rest) unread.length (k+1) p := by
  have htake : (unread++rest).take unread.length=unread := List.take_left
  have hnone : (36 : Byte)∉unread.drop (p+1) := by
    intro hmem
    have hwithin := numberWithin_of_dollar rest (by omega) hmem
    rw [numberWithin,htake,List.drop_append_of_le_length (by omega),htheirs,hours] at hwithin
    exact hother hwithin
  have hbehind : ∀ n : ℕ,(36 : Byte)∉unread.drop (p+1+i+2+n+2) := by
    intro n hmem
    have hshift : p+1+i+2+n+2=(p+1)+(i+2+n+2) := by omega
    rw [hshift,←List.drop_drop] at hmem
    exact hnone (List.mem_of_mem_drop hmem)
  rw [redisParseArgs_header hlt hdollar hfound htheirs,
    redisParseArgs_header hlt hdollar hfound hours,
    sameLengths_header hlt hdollar hfound htheirs hours]
  cases k with
  | zero => exact lands_last.trans ⟨fun h => ⟨fun _ => h,fun _ => trivial⟩,fun h => h.1 rfl⟩
  | succ k =>
    rw [redisParseArgs_undollared rest (Nat.succ_pos k) (hbehind _),
      redisParseArgs_undollared [0] (Nat.succ_pos k) (hbehind _),Option.map_none,
      Option.map_none,ite_self,ite_self]
    exact iff_of_true rfl ⟨fun h => absurd h (Nat.succ_ne_zero k),
      fun _ => sameLengths_undollared rest (hbehind _)⟩

/-- The argument loop reads the same arguments as in a buffer that ends behind
the unread bytes exactly where it reads the same lengths. -/
theorem redisParseArgs_rest {unread rest : Bytes} {k p : ℕ} :
    redisParseArgs (unread++rest) unread.length k p=
      redisParseArgs (unread++[0]) unread.length k p ↔
        SameLengths (unread++rest) unread.length k p := by
  have htake : (unread++rest).take unread.length=unread := List.take_left
  induction k generalizing p with
  | zero => exact ⟨fun _ => trivial,fun _ => rfl⟩
  | succ k ih =>
    by_cases hgo : p<unread.length ∧ unread.getD p 0=36
    · obtain ⟨hlt,hdollar⟩ := hgo
      cases hfound : strstr (unread.drop (p+1)) crlf with
      | none =>
        have hneither : ∀ tail : Bytes,¬(unread.length≤p ∨ (unread++tail).getD p 0≠36) := by
          intro tail
          rw [not_or,List.getD_append _ _ _ _ hlt]
          exact ⟨by omega,fun hne => hne hdollar⟩
        rw [redisParseArgs_succ (hneither rest),redisParseArgs_succ (hneither [0]),
          headerAt_inside unread rest (by omega),headerAt_inside unread [0] (by omega),hfound]
        refine iff_of_true rfl ?_
        intro _ _ i hi
        rw [htake,hfound] at hi
        cases hi
      | some i =>
        obtain ⟨theirs,htheirs⟩ : ∃ theirs,atoi (unread.drop (p+1)++rest)=theirs := ⟨_,rfl⟩
        obtain ⟨ours,hours⟩ : ∃ ours,atoi (unread.drop (p+1)++[0])=ours := ⟨_,rfl⟩
        by_cases hsame : theirs=ours
        · -- the same length leads to the same place, so the rest decides
          rw [redisParseArgs_header hlt hdollar hfound htheirs,
            redisParseArgs_header hlt hdollar hfound hours,
            sameLengths_header hlt hdollar hfound htheirs hours,hsame]
          by_cases hlands : Lands unread (p+1+i+2) ours
          · rw [if_pos hlands,if_pos hlands]
            rw [(Option.map_injective (stored_injective _)).eq_iff]
            exact ih.trans ⟨fun h => ⟨fun _ _ => rfl,fun _ => h⟩,fun h => h.2 hlands⟩
          · rw [if_neg hlands,if_neg hlands]
            exact iff_of_true rfl ⟨fun _ _ => rfl,fun h => absurd h hlands⟩
        · exact redisParseArgs_other hlt hdollar hfound htheirs hours hsame
    · have hstop : ∀ tail : Bytes,unread.length≤p ∨ (unread++tail).getD p 0≠36 := by
        intro tail
        by_cases hp : p<unread.length
        · right
          rw [List.getD_append _ _ _ _ hp]
          exact fun hdollar => hgo ⟨hp,hdollar⟩
        · left
          omega
      rw [redisParseArgs,redisParseArgs,if_pos (hstop rest),if_pos (hstop [0])]
      refine iff_of_true rfl ?_
      intro hp hbyte
      rcases hstop rest with hend|hne
      · omega
      · exact absurd hbyte hne

/-- The array parser only sees a header that ends inside the buffer. -/
theorem redisParseRespArray_eq {memory : Bytes} {bufLen : ℕ}
    (hstart : ¬(bufLen<4 ∨ memory.getD 0 0≠42)) :
    redisParseRespArray memory bufLen=
      ((headerAt memory bufLen 1).filter (fun header => header.2≤bufLen)).bind (fun header =>
        if header.1≤0 ∨ 32<header.1 then none
        else redisParseArgs memory bufLen header.1.toNat header.2) := by
  rw [redisParseRespArray,if_neg hstart]
  refine bind_filter ?_ _
  intro header houtside
  have hgt := of_decide_eq_false houtside
  split
  · rfl
  · exact redisParseArgs_end _ (by omega) (by omega)

/-- The condition on the array parser behind a header with a CR LF in the unread
bytes. -/
theorem sameNumbers_header {unread rest : Bytes} {i : ℕ} {ours : ℤ}
    (hfound : strstr (unread.drop 1) crlf=some i) (hours : atoi (unread.drop 1++[0])=ours) :
    SameNumbers (unread++rest) unread.length ↔
      (0<ours → ours≤32 → SameLengths (unread++rest) unread.length ours.toNat (1+i+2)) := by
  have htake : (unread++rest).take unread.length=unread := List.take_left
  rw [SameNumbers,numberWithin,htake,hours]
  constructor
  · intro h
    exact h i hfound
  · intro h j hj
    have hsame : i=j := Option.some.inj (hfound.symm.trans hj)
    rw [←hsame]
    exact h

/-- The array parser gives the same result as in a buffer that ends behind the
unread bytes exactly where it reads the same lengths. -/
theorem redisParseRespArray_rest {unread : Bytes} (rest : Bytes) (hpos : 0<unread.length)
    (hstar : unread.getD 0 0=42) :
    redisParseRespArray (unread++rest) unread.length=
      redisParseRespArray (unread++[0]) unread.length ↔
        SameNumbers (unread++rest) unread.length := by
  have htake : (unread++rest).take unread.length=unread := List.take_left
  have hbyte : ∀ tail : Bytes,(unread++tail).getD 0 0=42 := by
    intro tail
    rw [List.getD_append _ _ _ _ hpos]
    exact hstar
  by_cases hfew : unread.length<4
  · unfold redisParseRespArray
    rw [if_pos (Or.inl hfew),if_pos (Or.inl hfew)]
    refine iff_of_true rfl ?_
    intro i hi _ _
    refine sameLengths_undollared rest ?_
    rw [List.drop_eq_nil_of_le (by omega)]
    exact List.not_mem_nil
  · have hgo : ∀ tail : Bytes,¬(unread.length<4 ∨ (unread++tail).getD 0 0≠42) := by
      intro tail
      rw [not_or]
      exact ⟨hfew,fun hne => hne (hbyte tail)⟩
    rw [redisParseRespArray_eq (hgo rest),redisParseRespArray_eq (hgo [0]),
      headerAt_inside unread rest (by omega),headerAt_inside unread [0] (by omega)]
    cases hfound : strstr (unread.drop 1) crlf with
    | none =>
      refine iff_of_true rfl ?_
      intro i hi
      rw [htake,hfound] at hi
      cases hi
    | some i =>
      obtain ⟨theirs,htheirs⟩ : ∃ theirs,atoi (unread.drop 1++rest)=theirs := ⟨_,rfl⟩
      obtain ⟨ours,hours⟩ : ∃ ours,atoi (unread.drop 1++[0])=ours := ⟨_,rfl⟩
      rw [sameNumbers_header hfound hours,Option.map_some,Option.map_some,Option.bind_some,
        Option.bind_some,htheirs,hours]
      dsimp only
      by_cases hsame : theirs=ours
      · rw [hsame]
        by_cases hrange : ours≤0 ∨ 32<ours
        · rw [if_pos hrange,if_pos hrange]
          exact iff_of_true rfl (fun hlow hhigh => by omega)
        · rw [if_neg hrange,if_neg hrange]
          rw [not_or] at hrange
          exact redisParseArgs_rest.trans
            ⟨fun h _ _ => h,fun h => h (by omega) (by omega)⟩
      · -- another number means that no `$` follows, and every argument needs one
        have hnone : (36 : Byte)∉unread.drop (1+i+2) := by
          intro hmem
          have hshift : 1+i+2=1+(i+2) := by omega
          rw [hshift,←List.drop_drop] at hmem
          have hwithin := numberWithin_of_dollar rest (by omega) (List.mem_of_mem_drop hmem)
          rw [numberWithin,htake,List.drop_append_of_le_length (by omega),htheirs,hours] at hwithin
          exact hsame hwithin
        have hfails : ∀ (tail : Bytes) (n : ℤ),
            (if n≤0 ∨ 32<n then none
              else redisParseArgs (unread++tail) unread.length n.toNat (1+i+2))=none := by
          intro tail n
          split
          · rfl
          · exact redisParseArgs_undollared tail (by omega) hnone
        rw [hfails,hfails]
        exact iff_of_true rfl (fun _ _ => sameLengths_undollared rest hnone)

end HoneyDew.RedisLengths
