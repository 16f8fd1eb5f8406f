import HoneyDew.PostgresStartup

/-!
# Decoding start-up parameters

A client sends its parameters one behind the other, with a NUL behind every name
and every value. The parsers give the value of the first user name. They keep the
bytes they have left in an unsigned counter, which never wraps.
-/

namespace HoneyDew.PostgresParameters

open CText PostgresWire PostgresServices PostgresStartup

/-! ## Sent parameters -/

/-- A parameter a client can send. -/
structure Sendable (parameter : Bytes×Bytes) : Prop where
  /-- An empty name would end the list. -/
  name_ne_nil : parameter.1≠[]
  /-- The name ends at its NUL. -/
  zero_not_mem_name : (0 : Byte)∉parameter.1
  /-- The value ends at its NUL. -/
  zero_not_mem_value : (0 : Byte)∉parameter.2

/-- The NUL that may stand behind the parameters. -/
def terminator (final : Bool) : Bytes := if final then [0] else []

/-- The bytes of a list of parameters. -/
def encodeParameters (parameters : List (Bytes×Bytes)) (final : Bool) : Bytes :=
  parameters.flatMap parameterBytes++terminator final

/-- The value of the first user name among parameters. -/
def userOf (parameters : List (Bytes×Bytes)) : Option Bytes :=
  (parameters.find? (fun parameter => parameter.1=text "user")).map Prod.snd

/-- The loop gives the value of the first user name, cut to the array. -/
theorem startupParams_encode {parameters : List (Bytes×Bytes)}
    (h : ∀ parameter∈parameters,Sendable parameter) (final : Bool) (rest : Bytes) {fuel : ℕ}
    (hfuel : (encodeParameters parameters final).length≤fuel) :
    startupParams fuel (encodeParameters parameters final++rest)
        (encodeParameters parameters final).length=
      (userOf parameters).map (fun value => value.take 255) := by
  induction parameters generalizing fuel with
  | nil =>
    apply startupParams_no_name
    cases final with
    | false => exact Or.inl List.not_mem_nil
    | true => exact Or.inr rfl
  | cons parameter parameters ih =>
    obtain ⟨name,value⟩ := parameter
    have hsendable := h _ List.mem_cons_self
    have hsplit : encodeParameters ((name,value)::parameters) final=
        parameterBytes (name,value)++encodeParameters parameters final := by
      rw [encodeParameters,List.flatMap_cons,List.append_assoc]
      rfl
    have hbytes : parameterBytes (name,value)++encodeParameters parameters final=
        name++0::(value++0::encodeParameters parameters final) := by
      simp only [parameterBytes,List.append_assoc,List.cons_append,List.nil_append]
    rw [hsplit] at hfuel ⊢
    obtain ⟨fuel',hsucc⟩ : ∃ fuel',fuel=fuel'+1 := by
      refine ⟨fuel-1,?_⟩
      rw [hbytes,List.length_append,List.length_cons] at hfuel
      omega
    rw [hsucc] at hfuel ⊢
    by_cases huser : name=text "user"
    · have hvalue := cstr_terminated hsendable.zero_not_mem_value
        (encodeParameters parameters final++rest)
      rw [hbytes,huser,List.append_assoc,List.cons_append,
        startupParams_user (by simp),List.append_assoc,List.cons_append,hvalue,userOf,
        List.find?_cons_of_pos (by simp)]
      rfl
    · have hother : OtherParameter (name,value) :=
        ⟨hsendable.name_ne_nil,hsendable.zero_not_mem_name,hsendable.zero_not_mem_value,huser⟩
      have hlater : (encodeParameters parameters final).length≤fuel' := by
        rw [hbytes] at hfuel
        simp only [List.length_append,List.length_cons] at hfuel
        omega
      rw [List.append_assoc,startupParams_other hother,
        ih (fun p hp => h p (List.mem_cons_of_mem _ hp)) hlater,userOf,userOf,
        List.find?_cons_of_neg (by simp [huser])]

/-! ## The counter of the bytes left -/

/-- Where the loop stands: the memory at `params` and the counter. -/
structure Cursor where
  /-- The bytes from `params` on. -/
  params : Bytes
  /-- `remaining`, of type `size_t`. -/
  remaining : UInt64
  deriving DecidableEq,Repr

/-- `strnlen`. -/
def strnlen (memory : Bytes) (n : UInt64) : UInt64 :=
  UInt64.ofNat (cstr (memory.take n.toNat)).length

namespace Cursor

/-- `key_len`. -/
def keyLen (c : Cursor) : UInt64 := strnlen c.params c.remaining

/-- `params` behind the key. -/
def valueParams (c : Cursor) : Bytes := c.params.drop (c.keyLen+1).toNat

/-- `remaining` behind the key. -/
def valueRemaining (c : Cursor) : UInt64 := c.remaining-(c.keyLen+1)

/-- `val_len`. -/
def valLen (c : Cursor) : UInt64 := strnlen c.valueParams c.valueRemaining

/-- What is counted off for the value. -/
def valueCount (c : Cursor) : UInt64 :=
  if c.valLen<c.valueRemaining then c.valLen+1 else c.valueRemaining

/-- The cursor of the next round. -/
def next (c : Cursor) : Cursor :=
  ⟨c.valueParams.drop (c.valLen+1).toNat,c.valueRemaining-c.valueCount⟩

end Cursor

/-- The loop of both parsers with so many rounds at most: nothing when it has not
returned by then, and otherwise its result. -/
def startupLoop : ℕ → Cursor → Option (Option Bytes)
  | 0,_ => none
  | rounds+1,c =>
    if c.remaining≤1 then some none
    else if c.keyLen=0 ∨ c.remaining≤c.keyLen then some none
    else if c.valueRemaining=0 then some none
    else if cstr c.params=text "user" then some (some ((cstr c.valueParams).take 255))
    else startupLoop rounds c.next

/-- The subtractions of a round do not wrap. -/
structure Counts (c : Cursor) : Prop where
  /-- `remaining -= key_len + 1`. -/
  key : c.valueRemaining.toNat+(c.keyLen.toNat+1)=c.remaining.toNat
  /-- `remaining -= (val_len < remaining) ? val_len + 1 : remaining`. -/
  value : c.next.remaining.toNat+c.valueCount.toNat=c.valueRemaining.toNat

/-- The length `strnlen` gives is not more than its bound. -/
theorem toNat_strnlen (memory : Bytes) (n : UInt64) :
    (strnlen memory n).toNat=(cstr (memory.take n.toNat)).length ∧
      (cstr (memory.take n.toNat)).length≤n.toNat := by
  have hfront := (cstr_front (memory.take n.toNat)).length_le
  rw [List.length_take] at hfront
  have hn := n.toNat_lt
  refine ⟨?_,by omega⟩
  rw [strnlen,UInt64.toNat_ofNat']
  exact Nat.mod_eq_of_lt (by omega)

/-- One more does not wrap below another number. -/
theorem toNat_add_one {a b : UInt64} (h : a<b) : (a+1).toNat=a.toNat+1 := by
  have hlt := UInt64.lt_iff_toNat_lt.mp h
  have hb := b.toNat_lt
  rw [UInt64.toNat_add]
  exact Nat.mod_eq_of_lt (by simpa using (by omega : a.toNat+1<2^64))

/-- Behind the guard on the key no subtraction wraps. -/
theorem counts_of_keyLen_lt {c : Cursor} (h : c.keyLen<c.remaining) : Counts c := by
  have hkey := UInt64.lt_iff_toNat_lt.mp h
  have hsucc := toNat_add_one h
  have hle : c.keyLen+1≤c.remaining := by
    rw [UInt64.le_iff_toNat_le]
    omega
  refine ⟨?_,?_⟩
  · rw [Cursor.valueRemaining,UInt64.toNat_sub_of_le _ _ hle]
    omega
  · have hcount : c.valueCount≤c.valueRemaining := by
      rw [Cursor.valueCount]
      by_cases hvalue : c.valLen<c.valueRemaining
      · have hlt := UInt64.lt_iff_toNat_lt.mp hvalue
        rw [if_pos hvalue,UInt64.le_iff_toNat_le,toNat_add_one hvalue]
        omega
      · rw [if_neg hvalue]
        exact UInt64.le_refl _
    rw [Cursor.next,UInt64.toNat_sub_of_le _ _ hcount]
    have hcountNat := UInt64.le_iff_toNat_le.mp hcount
    omega

/-- A round behind the guard on the key, in numbers. -/
theorem next_of_keyLen_lt {c : Cursor} (h : c.keyLen<c.remaining) :
    c.valueParams=c.params.drop (c.keyLen.toNat+1) ∧
      c.valueRemaining.toNat=c.remaining.toNat-(c.keyLen.toNat+1) ∧
      c.next.params=c.valueParams.drop (c.valLen.toNat+1) ∧
      c.next.remaining.toNat=
        if c.valLen.toNat<c.valueRemaining.toNat then c.valueRemaining.toNat-(c.valLen.toNat+1) else 0 := by
  have hcounts := counts_of_keyLen_lt h
  have hkey := hcounts.key
  have hvalue := hcounts.value
  have hvalLen := toNat_strnlen c.valueParams c.valueRemaining
  rw [← hvalLen.1] at hvalLen
  have hshort : c.valLen<c.remaining := by
    rw [UInt64.lt_iff_toNat_lt]
    exact Nat.lt_of_le_of_lt hvalLen.2 (by omega)
  refine ⟨?_,by omega,?_,?_⟩
  · rw [Cursor.valueParams,toNat_add_one h]
  · rw [Cursor.next,toNat_add_one hshort]
  · rw [Cursor.valueCount] at hvalue
    by_cases hinside : c.valLen<c.valueRemaining
    · rw [if_pos hinside,toNat_add_one hinside] at hvalue
      rw [if_pos (UInt64.lt_iff_toNat_lt.mp hinside)]
      omega
    · rw [if_neg hinside] at hvalue
      rw [if_neg (mt UInt64.lt_iff_toNat_lt.mpr hinside)]
      omega

/-- The loop returns within one round more than it has bytes left, with the result
of the loop on numbers. -/
theorem startupLoop_eq {rounds fuel : ℕ} {c : Cursor} (hrounds : c.remaining.toNat<rounds)
    (hfuel : c.remaining.toNat≤fuel) :
    startupLoop rounds c=some (startupParams fuel c.params c.remaining.toNat) := by
  induction rounds generalizing fuel c with
  | zero => exact absurd hrounds (Nat.not_lt_zero _)
  | succ rounds ih =>
    have hone : c.remaining≤1 ↔ c.remaining.toNat≤1 := UInt64.le_iff_toNat_le
    by_cases hend : c.remaining≤1
    · rw [startupLoop,if_pos hend]
      cases fuel with
      | zero => rfl
      | succ fuel => rw [startupParams,if_pos (hone.mp hend)]
    · have hlong := mt hone.mpr hend
      obtain ⟨more,hmore⟩ : ∃ more,fuel=more+1 := ⟨fuel-1,by omega⟩
      have hkeyLen : c.keyLen.toNat=(cstr (c.params.take c.remaining.toNat)).length :=
        (toNat_strnlen c.params c.remaining).1
      have hvalLen : c.valLen.toNat=(cstr (c.valueParams.take c.valueRemaining.toNat)).length :=
        (toNat_strnlen c.valueParams c.valueRemaining).1
      have hguard : (c.keyLen=0 ∨ c.remaining≤c.keyLen) ↔
          (c.keyLen.toNat=0 ∨ c.remaining.toNat≤c.keyLen.toNat) := by
        rw [← UInt64.toNat_inj,UInt64.le_iff_toNat_le]
        rfl
      have hempty : c.valueRemaining=0 ↔ c.valueRemaining.toNat=0 := UInt64.toNat_inj.symm
      rw [startupLoop,if_neg hend,hmore,startupParams,if_neg hlong,← hkeyLen]
      dsimp only
      by_cases hstop : c.keyLen=0 ∨ c.remaining≤c.keyLen
      · rw [if_pos hstop,if_pos (hguard.mp hstop)]
      · have hlt : c.keyLen<c.remaining := by
          rw [not_or,UInt64.not_le] at hstop
          exact hstop.2
        obtain ⟨hparams,hremaining,hnext,hcount⟩ := next_of_keyLen_lt hlt
        rw [if_neg hstop,if_neg (mt hguard.mpr hstop),← hparams,← hremaining]
        by_cases hzero : c.valueRemaining=0
        · rw [if_pos hzero,if_pos (hempty.mp hzero)]
        · rw [if_neg hzero,if_neg (mt hempty.mpr hzero),← hvalLen,← hnext,← hcount]
          by_cases huser : cstr c.params=text "user"
          · rw [if_pos huser,if_pos huser]
          · rw [if_neg huser,if_neg huser]
            have hdecrease : c.next.remaining.toNat<rounds ∧ c.next.remaining.toNat≤ more := by
              rw [hcount]
              by_cases hinside : c.valLen.toNat<c.valueRemaining.toNat
              · rw [if_pos hinside]
                omega
              · rw [if_neg hinside]
                omega
            exact ih hdecrease.1 hdecrease.2

/-! ## Both parsers -/

/-- What the caller of a parser finds: the value returned and the array. -/
def returned (username : Bytes) : Option Bytes → ℤ×Bytes
  | none => (-1,username)
  | some value => (0,value)

/-- Where the loop starts in a message longer than its header. -/
def startCursor (buf : Bytes) (n : ℕ) : Cursor := ⟨buf.drop 8,UInt64.ofNat (n-8)⟩

/-- On a message of a header and parameters. -/
theorem parseStartupUsername_encode {header : Bytes} {parameters : List (Bytes×Bytes)} (final : Bool)
    (rest : Bytes) (hheader : header.length=8) (h : ∀ parameter∈parameters,Sendable parameter) :
    parseStartupUsername (header++encodeParameters parameters final++rest)
        (header++encodeParameters parameters final).length=
      (userOf parameters).map (fun value => value.take 255) := by
  have hloop := startupParams_encode h final rest (Nat.le_refl _)
  have hlength : (header++encodeParameters parameters final).length=
      8+(encodeParameters parameters final).length := by rw [List.length_append,hheader]
  have hdrop : (header++encodeParameters parameters final++rest).drop 8=
      encodeParameters parameters final++rest := by
    rw [List.append_assoc,← hheader,List.drop_left]
  rw [parseStartupUsername,hlength,hdrop,Nat.add_sub_cancel_left]
  by_cases hshort : 8+(encodeParameters parameters final).length≤8
  · have hnone : (encodeParameters parameters final).length=0 := by omega
    rw [if_pos hshort,← hloop,hnone]
    rfl
  · rw [if_neg hshort]
    exact hloop

/-- The loop of a parser returns within as many rounds as the message has bytes. -/
theorem startupLoop_parse {buf : Bytes} {n : ℕ} (hlong : 8<n) (hsize : n<2^63) :
    startupLoop n (startCursor buf n)=some (parseStartupUsername buf n) := by
  have hremaining : (startCursor buf n).remaining.toNat=n-8 := by
    rw [startCursor,UInt64.toNat_ofNat']
    exact Nat.mod_eq_of_lt (by omega)
  have hloop : startupLoop n (startCursor buf n)=
      some (startupParams (n-8) (startCursor buf n).params (startCursor buf n).remaining.toNat) :=
    startupLoop_eq (by omega) (by omega)
  rw [hloop,hremaining,parseStartupUsername,if_neg (by omega)]
  rfl

/-- A list without a user name has no value for it. -/
theorem userOf_eq_none_iff (parameters : List (Bytes×Bytes)) :
    userOf parameters=none ↔ ∀ parameter∈parameters,parameter.1≠text "user" := by
  simp [userOf]

/-- Both parsers give the value of the first user name sent, cut to 255 bytes, and
otherwise -1 with the array as it was. Their loop returns on all bytes, and none of
its subtractions wraps. -/
theorem parse_startup_username :
    (∀ (header rest username : Bytes) (parameters : List (Bytes×Bytes)) (final : Bool),
      header.length=8 → (∀ parameter∈parameters,Sendable parameter) →
      let message := header++encodeParameters parameters final
      let pg := returned username (pgParseStartupUsername (message++rest) message.length)
      let qdb := returned username (qdbParseStartupUsername (message++rest) message.length)
      pg=returned username ((userOf parameters).map (fun value => value.take 255)) ∧ qdb=pg ∧
        (pg.1=-1 ↔ ∀ parameter∈parameters,parameter.1≠text "user")) ∧
    (∀ (buf : Bytes) (n : ℕ),8<n → n<2^63 →
      startupLoop n (startCursor buf n)=some (pgParseStartupUsername buf n) ∧
        startupLoop n (startCursor buf n)=some (qdbParseStartupUsername buf n)) ∧
    ∀ c : Cursor,c.keyLen<c.remaining → Counts c := by
  refine ⟨?_,?_,fun c h => counts_of_keyLen_lt h⟩
  · intro header rest username parameters final hheader h message pg qdb
    have hparse := parseStartupUsername_encode final rest hheader h
    have hpg : pg=returned username ((userOf parameters).map (fun value => value.take 255)) :=
      congrArg (returned username) hparse
    refine ⟨hpg,rfl,?_⟩
    rw [hpg,← userOf_eq_none_iff]
    cases userOf parameters with
    | none => simp [returned]
    | some value => simp [returned]
  · intro buf n hlong hsize
    exact ⟨startupLoop_parse hlong hsize,startupLoop_parse hlong hsize⟩

/-- A message with the user name behind a database of the same text. -/
theorem parse_startup_username_amy :
    returned [] (pgParseStartupUsername ([0,0,0,0,0,3,0,0]++
        encodeParameters [(text "database",text "user"),(text "user",text "amy")] true++[])
        ([0,0,0,0,0,3,0,0]++
          encodeParameters [(text "database",text "user"),(text "user",text "amy")] true).length)=
        (0,text "amy") ∧
      startupLoop 9 (startCursor [0,0,0,0,0,3,0,0,117] 9)=
        some (qdbParseStartupUsername [0,0,0,0,0,3,0,0,117] 9) ∧
      Counts ⟨text "user"++[0,65,0],7⟩ := by
  have hsendable : ∀ parameter∈[(text "database",text "user"),(text "user",text "amy")],
      Sendable parameter := by
    intro parameter hmem
    simp only [List.mem_cons,List.not_mem_nil,or_false] at hmem
    rcases hmem with hdatabase|huser
    · rw [hdatabase]
      exact ⟨by decide,by decide,by decide⟩
    · rw [huser]
      exact ⟨by decide,by decide,by decide⟩
  have hspec := parse_startup_username
  have hmessage := hspec.1 [0,0,0,0,0,3,0,0] [] [] _ true rfl hsendable
  exact ⟨hmessage.1.trans (by decide),(hspec.2.1 _ 9 (by decide) (by decide)).2,
    hspec.2.2 _ (by decide)⟩

end HoneyDew.PostgresParameters
