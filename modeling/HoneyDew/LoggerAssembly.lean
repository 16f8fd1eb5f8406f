import HoneyDew.LoggerJson

/-!
# Messages put together from pieces

A structured message is written into an array of 4096 bytes by formatting calls, each
at the offset that the lengths so far add up to. The offset counts bytes that did not
fit, and only the pieces behind the first detail are preceded by a check of it.
-/

namespace HoneyDew.LoggerAssembly

open CText CMemory AuditTrail LoggerJson

/-! ## The code -/

/-- `INT_MAX`. -/
def intMax : ℕ := 2^31-1

/-- The array `buf` and the variable `offset`. -/
structure Buffer where
  /-- The bytes of the array. -/
  bytes : Bytes
  /-- The sum of the values that the calls have returned. -/
  offset : ℕ
  deriving DecidableEq,Repr

/-- The formatting calls of one message. -/
structure Assembly where
  /-- The offset and the size argument of each call. -/
  calls : List (ℕ×ℕ)
  /-- The array and the offset; nothing once a call has left what C defines. -/
  buffer : Option Buffer
  deriving DecidableEq,Repr

/-- `sizeof(buf) - (size_t)offset`. -/
def remaining (offset : ℕ) : ℕ := (utilitiesLogBufferSize+wordModulus-offset)%wordModulus

namespace Assembly

/-- `offset += snprintf(buf + offset, sizeof(buf) - (size_t)offset, ...)` of a formatted
text. C defines `buf + offset` up to the end of the array only, and the value returned
and the sum only where they are an `int`. -/
def snprintf (a : Assembly) (formatted : Bytes) : Assembly :=
  match a.buffer with
  | none => a
  | some b =>
    ⟨a.calls++[(b.offset,remaining b.offset)],
      if b.offset≤utilitiesLogBufferSize ∧ b.offset+formatted.length≤ intMax then
        some ⟨snprintfAt b.bytes b.offset (remaining b.offset) formatted,b.offset+formatted.length⟩
      else none⟩

/-- The string in the array, which goes to `utilities_log`. -/
def message (a : Assembly) : Option Bytes := a.buffer.map (fun b => cstr b.bytes)

end Assembly

/-- The loop over the details. -/
def appendDetails (a : Assembly) : List Bytes → Assembly
  | [] => a
  | d::details =>
    let next := a.snprintf (text " | "++cstr d)
    match next.buffer with
    | none => next
    | some b =>
      if utilitiesLogBufferSize-1≤b.offset then next else appendDetails next details

/-- A pointer argument as a string, with what is printed for a null pointer. -/
def orElse (s : Option Bytes) (substitute : String) : Bytes := s.elim (text substitute) cstr

/-- The first piece of `utilities_logf`. -/
def logfHead (component operation status : Option Bytes) (elapsedMs : ℤ) : Bytes :=
  text "["++orElse component "?"++text "::"++orElse operation "?"++text "] "++orElse status ""++
    text " ("++decimalInt elapsedMs++text "毫秒)"

/-- The piece for the caller, where there is one. -/
def callerPiece (caller : Option Bytes) : Option Bytes :=
  caller.bind (fun c => if (cstr c).head?=none then none else some (text " @"++cstr c))

/-- The first piece of `utilities_log_progress`. -/
def progressHead (component operation msg : Option Bytes) : Bytes :=
  text "["++orElse component "?"++text "::"++orElse operation "?"++text "] "++orElse msg ""

/-- The body that the two functions share: the head, the caller, the details. -/
def assemble (buf head : Bytes) (caller : Option Bytes) (details : Option (List Bytes)) : Assembly :=
  let started := Assembly.snprintf ⟨[],some ⟨buf,0⟩⟩ head
  let called := match caller with
    | some piece => started.snprintf piece
    | none => started
  match details with
  | some ds => appendDetails called ds
  | none => called

/-- `utilities_logf` up to the call of `utilities_log`, from whatever `buf` held. -/
def utilitiesLogf (buf : Bytes) (component operation status : Option Bytes) (elapsedMs : ℤ)
    (caller : Option Bytes) (details : Option (List Bytes)) : Assembly :=
  assemble buf (logfHead component operation status elapsedMs) (callerPiece caller) details

/-- `utilities_log_progress` up to the call of `utilities_log`: there is no caller. -/
def utilitiesLogProgress (buf : Bytes) (component operation msg : Option Bytes)
    (details : Option (List Bytes)) : Assembly :=
  assemble buf (progressHead component operation msg) none details

/-! ## What the text should be -/

/-- The pieces of the details. -/
def detailPieces (details : Option (List Bytes)) : List Bytes :=
  (details.getD []).map (fun d => text " | "++cstr d)

/-- The whole text: head, caller and details one behind the other. -/
def wholeText (head : Bytes) (caller : Option Bytes) (details : List Bytes) : Bytes :=
  head++caller.getD []++details.flatten

/-- Every call starts inside the array or at its end and is told the space behind its
offset, and the message is the front of the whole text. -/
structure InBuffer (whole : Bytes) (a : Assembly) : Prop where
  /-- Offsets and size arguments. -/
  calls : ∀ call∈a.calls,call.1≤4096 ∧ call.2=4096-call.1
  /-- What goes to `utilities_log`. -/
  message : a.message=some (whole.take 4095)

/-- The lengths behind a text allow the loop: a first detail finds the text inside the
array, and no detail that the loop takes up makes the length pass an `int`. -/
structure DetailsFit (t : Bytes) (details : List Bytes) : Prop where
  /-- The text in front of the details. -/
  start : details≠[] → t.length≤4096
  /-- The lengths are taken up while the check lets the loop go on. -/
  sums : ∀ front d back,details=front++d::back → (front=[] ∨ (t++front.flatten).length<4095) →
    (t++front.flatten++d).length≤ intMax

/-- The lengths of the pieces allow the assembly: what stands in front of the caller and
in front of the first detail has at most 4096 bytes. -/
structure PiecesFit (head : Bytes) (caller : Option Bytes) (details : List Bytes) : Prop where
  /-- The length of the head is an `int`. -/
  head_le : head.length≤ intMax
  /-- The head in front of a caller. -/
  caller_fits : ∀ c∈caller,head.length≤4096 ∧ (head++c).length≤ intMax
  /-- Head and caller in front of the details. -/
  details_fit : DetailsFit (head++caller.getD []) details

/-! ## One call -/

/-- The space behind an offset inside the array. -/
theorem remaining_eq {offset : ℕ} (h : offset≤4096) : remaining offset=4096-offset := by
  unfold remaining utilitiesLogBufferSize wordModulus
  omega

/-- A call behind a text stores the front of the longer text and a NUL. -/
theorem snprintfAt_front {buf t : Bytes} (formatted : Bytes) (hsize : buf.length=4096)
    (hfront : t.take 4095<+:buf) (hinside : t.length≤4096)
    (hfull : t.length=4096 → t.take 4095++[0]<+:buf) :
    (snprintfAt buf t.length (4096-t.length) formatted).length=4096 ∧
      (t++formatted).take 4095++[0]<+:snprintfAt buf t.length (4096-t.length) formatted := by
  unfold snprintfAt
  by_cases hend : t.length=4096
  · rw [if_pos (by omega),List.take_append_of_le_length (by omega)]
    exact ⟨hsize,hfull hend⟩
  · have htake : t.take 4095=t := List.take_of_length_le (by omega)
    have hfront' : buf.take t.length=t := by
      rw [htake] at hfront
      exact (List.prefix_iff_eq_take.mp hfront).symm
    have hroom : t.length+(formatted.take (4096-t.length-1)++[0]).length≤buf.length := by
      rw [List.length_append,List.length_singleton,List.length_take]
      omega
    have hleft : 4096-t.length-1=4095-t.length := by omega
    rw [if_neg (by omega),length_writeAt hroom,writeAt,hfront',List.take_append,htake,hleft]
    refine ⟨hsize,?_⟩
    rw [←List.append_assoc]
    exact List.prefix_append _ _

/-- The calls have been inside the array, which holds the front of a text; the offset
is the length of the text. -/
structure Holds (t : Bytes) (a : Assembly) (b : Buffer) : Prop where
  /-- The state is defined. -/
  buffer : a.buffer=some b
  /-- The size of the array. -/
  size : b.bytes.length=4096
  /-- The offset counts the whole text. -/
  offset : b.offset=t.length
  /-- The front of the text and its NUL stand in the array. -/
  front : t.take 4095++[0]<+:b.bytes
  /-- There is no NUL in the text. -/
  free : (0 : Byte)∉t
  /-- Offsets and size arguments of the calls. -/
  calls : ∀ call∈a.calls,call.1≤4096 ∧ call.2=4096-call.1

/-- The string in the array is the front of the text. -/
theorem Holds.message_eq {t : Bytes} {a : Assembly} {b : Buffer} (h : Holds t a b) :
    a.message=some (t.take 4095) := by
  have hfree : (0 : Byte)∉t.take 4095 := fun hm => h.free (List.mem_of_mem_take hm)
  have hfront := h.front
  rcases hfront with ⟨rest,hrest⟩
  rw [Assembly.message,h.buffer,Option.map_some,←hrest,List.append_assoc,List.singleton_append,
    cstr_terminated hfree]

/-- The state after a call whose offset and sum are defined. -/
theorem snprintf_eq {a : Assembly} {b : Buffer} (formatted : Bytes) (hbuffer : a.buffer=some b)
    (hoffset : b.offset≤4096) (hsum : b.offset+formatted.length≤ intMax) :
    a.snprintf formatted=⟨a.calls++[(b.offset,4096-b.offset)],
      some ⟨snprintfAt b.bytes b.offset (4096-b.offset) formatted,b.offset+formatted.length⟩⟩ := by
  unfold Assembly.snprintf
  rw [hbuffer]
  dsimp only
  rw [if_pos ⟨hoffset,hsum⟩,remaining_eq hoffset]

/-- The first call leaves the head in the array. -/
theorem holds_head {buf head : Bytes} (hbuf : buf.length=4096) (hfree : (0 : Byte)∉head)
    (hhead : head.length≤ intMax) :
    ∃ b,Holds head (Assembly.snprintf ⟨[],some ⟨buf,0⟩⟩ head) b := by
  have hstored := snprintfAt_front (t := []) head hbuf List.nil_prefix (by simp) (by simp)
  have hcall := snprintf_eq (a := ⟨[],some ⟨buf,0⟩⟩) (b := ⟨buf,0⟩) head rfl
    (Nat.zero_le _) (by rwa [Nat.zero_add])
  refine ⟨⟨snprintfAt buf 0 4096 head,0+head.length⟩,?_⟩
  rw [hcall]
  exact ⟨rfl,hstored.1,Nat.zero_add _,hstored.2,hfree,by simp⟩

/-- A later call at an offset inside the array leaves the longer text in it. -/
theorem Holds.snprintf {t : Bytes} {a : Assembly} {b : Buffer} (h : Holds t a b)
    {formatted : Bytes} (hfree : (0 : Byte)∉formatted) (hinside : t.length≤4096)
    (hsum : (t++formatted).length≤ intMax) :
    ∃ b',Holds (t++formatted) (a.snprintf formatted) b' := by
  have hstored := snprintfAt_front formatted h.size ((List.prefix_append _ [0]).trans h.front) hinside
    (fun _ => h.front)
  have hoffset := h.offset
  rw [List.length_append] at hsum
  have hcall := snprintf_eq formatted h.buffer (by omega) (by omega)
  rw [hoffset] at hcall
  refine ⟨⟨snprintfAt b.bytes t.length (4096-t.length) formatted,t.length+formatted.length⟩,?_⟩
  rw [hcall]
  refine ⟨rfl,hstored.1,List.length_append.symm,hstored.2,?_,?_⟩
  · intro hm
    cases List.mem_append.mp hm with
    | inl hold => exact h.free hold
    | inr hnew => exact hfree hnew
  · intro call hcall'
    cases List.mem_append.mp hcall' with
    | inl hold => exact h.calls call hold
    | inr hnew =>
      rw [List.mem_singleton.mp hnew]
      exact ⟨hinside,rfl⟩

/-- A call from a text that is too long, or to one, leaves what C defines. -/
theorem Holds.undefined {t : Bytes} {a : Assembly} {b : Buffer} (h : Holds t a b)
    {formatted : Bytes} (hbad : ¬(t.length≤4096 ∧ (t++formatted).length≤ intMax)) :
    (a.snprintf formatted).buffer=none := by
  unfold Assembly.snprintf
  rw [h.buffer]
  dsimp only
  rw [h.offset,if_neg]
  rwa [List.length_append] at hbad

/-- Where a text is left that C does not define, there is no message. -/
theorem not_inBuffer_of_undefined {whole : Bytes} {a : Assembly} (h : a.buffer=none) :
    ¬InBuffer whole a := by
  intro hin
  have hmessage := hin.message
  rw [Assembly.message,h] at hmessage
  cases hmessage

/-- The message of a text is also the front of what would only come behind its end. -/
theorem Holds.inBuffer {t more : Bytes} {a : Assembly} {b : Buffer} (h : Holds t a b)
    (hmore : more=[] ∨ 4095≤t.length) : InBuffer (t++more) a := by
  refine ⟨h.calls,?_⟩
  rw [h.message_eq]
  cases hmore with
  | inl hnil => rw [hnil,List.append_nil]
  | inr hlong => rw [List.take_append_of_le_length hlong]

/-! ## The loop and the whole message -/

/-- One round of the loop in the condition on the lengths. -/
theorem detailsFit_cons (t d : Bytes) (details : List Bytes) :
    DetailsFit t (d::details) ↔ t.length≤4096 ∧ (t++d).length≤ intMax ∧
      ((t++d).length<4095 → DetailsFit (t++d) details) := by
  constructor
  · intro h
    have hfirst := h.sums [] d details rfl (Or.inl rfl)
    rw [List.flatten_nil,List.append_nil] at hfirst
    refine ⟨h.start (List.cons_ne_nil _ _),hfirst,fun hshort => ⟨fun _ => by omega,?_⟩⟩
    intro front e back hsplit hreached
    have hnext := h.sums (d::front) e back (by rw [hsplit,List.cons_append])
    rw [List.flatten_cons,←List.append_assoc] at hnext
    refine hnext (Or.inr ?_)
    cases hreached with
    | inl hnil => rwa [hnil,List.flatten_nil,List.append_nil]
    | inr hless => exact hless
  · intro h
    refine ⟨fun _ => h.1,?_⟩
    intro front e back hsplit hreached
    cases front with
    | nil =>
      obtain ⟨rfl,-⟩ := List.cons.inj hsplit
      rw [List.flatten_nil,List.append_nil]
      exact h.2.1
    | cons e' front =>
      obtain ⟨rfl,hrest⟩ := List.cons.inj hsplit
      have hless := hreached.resolve_left (List.cons_ne_nil _ _)
      rw [List.flatten_cons,←List.append_assoc] at hless ⊢
      have hshort : (t++d).length<4095 := by
        rw [List.length_append] at hless
        omega
      exact (h.2.2 hshort).sums front e back hrest (Or.inr hless)

/-- The loop stays in the array, and the message is right, exactly where the lengths
allow it. -/
theorem appendDetails_iff {t : Bytes} {a : Assembly} {b : Buffer} (h : Holds t a b)
    (details : List Bytes) :
    InBuffer (t++(details.map (fun d => text " | "++cstr d)).flatten) (appendDetails a details) ↔
      DetailsFit t (details.map (fun d => text " | "++cstr d)) := by
  induction details generalizing t a b with
  | nil =>
    refine ⟨fun _ => ⟨fun hne => absurd rfl hne,?_⟩,fun _ => h.inBuffer (Or.inl rfl)⟩
    intro front d back hsplit
    exact absurd hsplit.symm (List.append_ne_nil_of_right_ne_nil _ (List.cons_ne_nil _ _))
  | cons d details ih =>
    have hpiece : (0 : Byte)∉text " | "++cstr d := by
      have hmark : (0 : Byte)∉text " | " := by decide
      have hd := zero_not_mem_cstr d
      simp [hmark,hd]
    rw [List.map_cons,List.flatten_cons,detailsFit_cons,appendDetails,←List.append_assoc]
    by_cases hgood : t.length≤4096 ∧ (t++(text " | "++cstr d)).length≤ intMax
    · obtain ⟨b',hnext⟩ := h.snprintf hpiece hgood.1 hgood.2
      rw [hnext.buffer]
      dsimp only
      rw [hnext.offset]
      by_cases hlong : utilitiesLogBufferSize-1≤(t++(text " | "++cstr d)).length
      · have hlong' : 4095≤(t++(text " | "++cstr d)).length := hlong
        rw [if_pos hlong]
        exact iff_of_true (hnext.inBuffer (Or.inr hlong'))
          ⟨hgood.1,hgood.2,fun hshort => absurd hlong' (by omega)⟩
      · have hshort : (t++(text " | "++cstr d)).length<4095 := Nat.lt_of_not_le hlong
        rw [if_neg hlong,ih hnext]
        exact ⟨fun hfit => ⟨hgood.1,hgood.2,fun _ => hfit⟩,fun hfit => hfit.2.2 hshort⟩
    · have hnone := h.undefined hgood
      rw [hnone]
      exact iff_of_false (not_inBuffer_of_undefined hnone) (fun hfit => hgood ⟨hfit.1,hfit.2.1⟩)

/-- Nothing is defined after what C does not define. -/
theorem snprintf_undefined {a : Assembly} (h : a.buffer=none) (formatted : Bytes) :
    a.snprintf formatted=a := by
  rw [Assembly.snprintf,h]

/-- A loop that starts where C defines nothing ends there. -/
theorem appendDetails_undefined {a : Assembly} (h : a.buffer=none) (details : List Bytes) :
    (appendDetails a details).buffer=none := by
  cases details with
  | nil => exact h
  | cons d details =>
    rw [appendDetails,snprintf_undefined h,h]
    exact h

/-- Without details the loop has nothing to do. -/
theorem assemble_eq (buf head : Bytes) (caller : Option Bytes) (details : Option (List Bytes)) :
    assemble buf head caller details=
      appendDetails (match caller with
        | some piece => (Assembly.snprintf ⟨[],some ⟨buf,0⟩⟩ head).snprintf piece
        | none => Assembly.snprintf ⟨[],some ⟨buf,0⟩⟩ head) (details.getD []) := by
  cases details <;> rfl

/-- The assembly stays in the array, and its message is right, exactly where the lengths
of its pieces allow it. -/
theorem assemble_iff {buf head : Bytes} {caller : Option Bytes} (hbuf : buf.length=4096)
    (hhead : (0 : Byte)∉head) (hcaller : ∀ c∈caller,(0 : Byte)∉c) (details : Option (List Bytes)) :
    InBuffer (wholeText head caller (detailPieces details)) (assemble buf head caller details) ↔
      PiecesFit head caller (detailPieces details) := by
  rw [assemble_eq]
  by_cases hlength : head.length≤ intMax
  · obtain ⟨b,hstarted⟩ := holds_head hbuf hhead hlength
    cases caller with
    | none =>
      have hloop := appendDetails_iff hstarted (details.getD [])
      unfold wholeText detailPieces
      rw [Option.getD_none,List.append_nil]
      rw [hloop]
      refine ⟨fun hfit => ⟨hlength,fun c hc => (by cases hc),?_⟩,fun hfit => ?_⟩
      · rwa [Option.getD_none,List.append_nil]
      · have hdetails := hfit.details_fit
        rwa [Option.getD_none,List.append_nil] at hdetails
    | some c =>
      by_cases hgood : head.length≤4096 ∧ (head++c).length≤ intMax
      · obtain ⟨b',hcalled⟩ := hstarted.snprintf (hcaller c rfl) hgood.1 hgood.2
        have hloop := appendDetails_iff hcalled (details.getD [])
        unfold wholeText detailPieces
        rw [Option.getD_some,hloop]
        refine ⟨fun hfit => ⟨hlength,?_,hfit⟩,fun hfit => hfit.details_fit⟩
        intro c' hc
        obtain rfl := Option.mem_some_iff.mp hc
        exact hgood
      · have hnone := appendDetails_undefined (hstarted.undefined hgood) (details.getD [])
        exact iff_of_false (not_inBuffer_of_undefined hnone) (fun hfit => hgood (hfit.caller_fits c rfl))
  · have hnone : (Assembly.snprintf ⟨[],some ⟨buf,0⟩⟩ head).buffer=none := by
      unfold Assembly.snprintf
      dsimp only
      rw [if_neg]
      rintro ⟨-,hsum⟩
      rw [Nat.zero_add] at hsum
      exact hlength hsum
    refine iff_of_false (not_inBuffer_of_undefined ?_) (fun hfit => hlength hfit.head_le)
    refine appendDetails_undefined ?_ _
    cases caller with
    | none => exact hnone
    | some c =>
      dsimp only
      rw [snprintf_undefined hnone]
      exact hnone

/-- What stands for a pointer argument has no NUL. -/
theorem zero_not_mem_orElse (s : Option Bytes) (substitute : String)
    (h : (0 : Byte)∉text substitute) : (0 : Byte)∉orElse s substitute := by
  cases s with
  | none => exact h
  | some s => exact zero_not_mem_cstr s

/-- A printed number has no NUL. -/
theorem zero_not_mem_decimalInt (z : ℤ) : (0 : Byte)∉decimalInt z := by
  have hdigits : (0 : Byte)∉decimal z.natAbs :=
    fun h => (digit_bounds (isDigit_of_mem_decimal h)).1 rfl
  unfold decimalInt
  split
  · rw [List.mem_cons,not_or]
    exact ⟨by decide,hdigits⟩
  · exact hdigits

/-- The first piece of `utilities_logf` has no NUL. -/
theorem zero_not_mem_logfHead (component operation status : Option Bytes) (elapsedMs : ℤ) :
    (0 : Byte)∉logfHead component operation status elapsedMs := by
  have hcomponent := zero_not_mem_orElse component "?" (by decide)
  have hoperation := zero_not_mem_orElse operation "?" (by decide)
  have hstatus := zero_not_mem_orElse status "" (by decide)
  have helapsed := zero_not_mem_decimalInt elapsedMs
  unfold logfHead
  simp only [List.mem_append,not_or]
  exact ⟨⟨⟨⟨⟨⟨⟨⟨by decide,hcomponent⟩,by decide⟩,hoperation⟩,by decide⟩,hstatus⟩,by decide⟩,
    helapsed⟩,by decide⟩

/-- The first piece of `utilities_log_progress` has no NUL. -/
theorem zero_not_mem_progressHead (component operation msg : Option Bytes) :
    (0 : Byte)∉progressHead component operation msg := by
  have hcomponent := zero_not_mem_orElse component "?" (by decide)
  have hoperation := zero_not_mem_orElse operation "?" (by decide)
  have hmsg := zero_not_mem_orElse msg "" (by decide)
  unfold progressHead
  simp only [List.mem_append,not_or]
  exact ⟨⟨⟨⟨⟨by decide,hcomponent⟩,by decide⟩,hoperation⟩,by decide⟩,hmsg⟩

/-- The piece for the caller has no NUL. -/
theorem zero_not_mem_callerPiece (caller : Option Bytes) :
    ∀ c∈callerPiece caller,(0 : Byte)∉c := by
  intro c hc
  obtain ⟨name,-,hpiece⟩ := Option.bind_eq_some_iff.mp hc
  split at hpiece
  · cases hpiece
  · cases hpiece
    rw [List.mem_append,not_or]
    exact ⟨by decide,zero_not_mem_cstr name⟩

/-- `utilities_logf` and `utilities_log_progress` stay in the array and pass on the front
of the whole text exactly where the lengths of the pieces allow it: no more than 4096
bytes in front of the caller and in front of the first detail, and lengths that are an
`int`. -/
theorem messageAssembly_inBuffer_iff {buf : Bytes} (hbuf : buf.length=4096) :
    (∀ (component operation status : Option Bytes) (elapsedMs : ℤ) (caller : Option Bytes)
      (details : Option (List Bytes)),
      InBuffer (wholeText (logfHead component operation status elapsedMs) (callerPiece caller)
          (detailPieces details))
          (utilitiesLogf buf component operation status elapsedMs caller details) ↔
        PiecesFit (logfHead component operation status elapsedMs) (callerPiece caller)
          (detailPieces details)) ∧
    ∀ (component operation msg : Option Bytes) (details : Option (List Bytes)),
      InBuffer (wholeText (progressHead component operation msg) none (detailPieces details))
          (utilitiesLogProgress buf component operation msg details) ↔
        PiecesFit (progressHead component operation msg) none (detailPieces details) := by
  constructor
  · intro component operation status elapsedMs caller details
    exact assemble_iff hbuf (zero_not_mem_logfHead component operation status elapsedMs)
      (zero_not_mem_callerPiece caller) details
  · intro component operation msg details
    exact assemble_iff hbuf (zero_not_mem_progressHead component operation msg)
      (fun c hc => by cases hc) details

/-- A short message with a caller and a detail is assembled inside the array. -/
theorem messageAssembly_inBuffer_short :
    InBuffer (wholeText (logfHead (some (text "SSH")) none (some (text "OK")) 5)
        (callerPiece (some (text "main"))) (detailPieces (some [text "a=1"])))
      (utilitiesLogf (List.replicate 4096 170) (some (text "SSH")) none (some (text "OK")) 5
        (some (text "main")) (some [text "a=1"])) := by
  refine ((messageAssembly_inBuffer_iff List.length_replicate).1 _ _ _ _ _ _).mpr ?_
  have hhead : (logfHead (some (text "SSH")) none (some (text "OK")) 5).length=21 := by decide
  have hlead : (logfHead (some (text "SSH")) none (some (text "OK")) 5++
      (callerPiece (some (text "main"))).getD []).length=27 := by decide
  have hcaller : callerPiece (some (text "main"))=some (text " @main") := by decide
  have hpieces : detailPieces (some [text "a=1"])=[text " | a=1"] := by decide
  have hdetail : (text " | a=1").length=6 := by decide
  refine ⟨?_,?_,fun _ => by omega,?_⟩
  · rw [hhead]
    decide
  · intro c hc
    rw [hcaller] at hc
    obtain rfl := Option.mem_some_iff.mp hc
    rw [List.length_append,hhead]
    decide
  · intro front d back hsplit hreached
    rw [hpieces] at hsplit
    cases front with
    | nil =>
      obtain ⟨rfl,-⟩ := List.cons.inj hsplit
      rw [List.flatten_nil,List.append_nil,List.length_append,hlead,hdetail]
      decide
    | cons e front =>
      have hlength := congrArg List.length hsplit
      simp only [List.length_cons,List.length_nil,List.cons_append,List.length_append] at hlength
      omega

/-- Behind a component of 4097 bytes the first detail is written at offset 4113, with a
size argument that has wrapped around. -/
theorem messageAssembly_component_too_long :
    (utilitiesLogf (List.replicate 4096 0) (some (List.replicate 4097 120)) none none 0 none
        (some [text "d"])).calls=[(0,4096),(4113,18446744073709551599)] ∧
      ¬InBuffer (wholeText (logfHead (some (List.replicate 4097 120)) none none 0)
          (callerPiece none) (detailPieces (some [text "d"])))
        (utilitiesLogf (List.replicate 4096 0) (some (List.replicate 4097 120)) none none 0 none
          (some [text "d"])) := by
  have hname : cstr (List.replicate 4097 120)=List.replicate 4097 120 :=
    cstr_self (fun h => absurd (List.eq_of_mem_replicate h) (by decide))
  have hhead : (logfHead (some (List.replicate 4097 120)) none none 0).length=4113 := by
    unfold logfHead orElse
    simp only [Option.elim,hname,List.length_append,List.length_replicate]
    decide
  obtain ⟨bytes,hfirst⟩ : ∃ bytes,Assembly.snprintf ⟨[],some ⟨List.replicate 4096 0,0⟩⟩
      (logfHead (some (List.replicate 4097 120)) none none 0)=⟨[(0,4096)],some ⟨bytes,4113⟩⟩ := by
    have hcall := snprintf_eq (a := ⟨[],some ⟨List.replicate 4096 0,0⟩⟩)
      (b := ⟨List.replicate 4096 0,0⟩) (logfHead (some (List.replicate 4097 120)) none none 0) rfl
      (Nat.zero_le _) (by rw [hhead]; decide)
    rw [hhead] at hcall
    exact ⟨_,hcall⟩
  have hloop : (appendDetails ⟨[(0,4096)],some ⟨bytes,4113⟩⟩ [text "d"]).calls=
      [(0,4096),(4113,18446744073709551599)] := by
    rw [appendDetails,Assembly.snprintf]
    dsimp only
    rw [if_neg (fun h => absurd h.1 (by decide))]
    decide
  have hcalls : (utilitiesLogf (List.replicate 4096 0) (some (List.replicate 4097 120)) none none 0
      none (some [text "d"])).calls=[(0,4096),(4113,18446744073709551599)] := by
    unfold utilitiesLogf
    rw [assemble_eq]
    dsimp only [callerPiece,Option.bind_none]
    rw [hfirst]
    exact hloop
  refine ⟨hcalls,fun hin => ?_⟩
  have hcall := hin.calls (4113,18446744073709551599) (by rw [hcalls]; simp)
  exact absurd hcall.1 (by decide)

end HoneyDew.LoggerAssembly
