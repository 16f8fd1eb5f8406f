import HoneyDew.PostgresServices

/-!
# The bytes the start-up parser reads

The parser counts the bytes it has left, but copies the user name as a C string
from the buffer. A name that is not ended by a NUL among the bytes received
goes on with the bytes behind them.
-/

namespace HoneyDew.PostgresStartup

open CText PostgresWire PostgresServices

/-- A parameter on the wire: its name and its value, each with a NUL. -/
def parameterBytes (parameter : Bytes×Bytes) : Bytes :=
  parameter.1++0::(parameter.2++[0])

/-- A parameter that the parser passes over. -/
structure OtherParameter (parameter : Bytes×Bytes) : Prop where
  /-- An empty name would end the list. -/
  name_ne_nil : parameter.1≠[]
  /-- The name ends at its NUL. -/
  zero_not_mem_name : (0 : Byte)∉parameter.1
  /-- The value ends at its NUL. -/
  zero_not_mem_value : (0 : Byte)∉parameter.2
  /-- The parser stops at the user name. -/
  name_ne_user : parameter.1≠text "user"

/-- Parameters whose first user name reaches to the end of the bytes without a
NUL and is shorter than the array it is copied to. -/
def OpenUser (params : Bytes) : Prop :=
  ∃ (parameters : List (Bytes×Bytes)) (value : Bytes),(∀ parameter∈parameters,OtherParameter parameter) ∧ (0 : Byte)∉value ∧
    value≠[] ∧ value.length<255 ∧
    params=parameters.flatMap parameterBytes++(text "user"++0::value)

/-- A start-up message of this kind. -/
def OpenUserMessage (buf : Bytes) : Prop := 8<buf.length ∧ OpenUser (buf.drop 8)

/-- Both parsers give one result for a message, whatever stands behind it. -/
def ReadsReceivedOnly (buf : Bytes) : Prop :=
  ∀ rest rest' : Bytes,
    pgParseStartupUsername (buf++rest) buf.length=pgParseStartupUsername (buf++rest') buf.length ∧
    qdbParseStartupUsername (buf++rest) buf.length=qdbParseStartupUsername (buf++rest') buf.length

section Rounds

variable {name value params rest : Bytes} {fuel : ℕ}

/-- The name of the user as a C string has no NUL. -/
theorem zero_not_mem_user : (0 : Byte)∉text "user" := by decide

/-- Without a name with its NUL the loop ends. -/
theorem startupParams_no_name (h : (0 : Byte)∉params ∨ cstr params=[]) :
    startupParams fuel (params++rest) params.length=none := by
  cases fuel with
  | zero => rfl
  | succ fuel =>
    rw [startupParams,List.take_left]
    split
    · rfl
    · dsimp only
      rw [if_pos]
      cases h with
      | inl hnul => exact .inr (by rw [cstr_self hnul])
      | inr hempty => exact .inl (by rw [hempty]; rfl)

/-- With a name and nothing behind it the loop ends. -/
theorem startupParams_no_value (hnul : (0 : Byte)∉name) :
    startupParams fuel (name++[0]++rest) (name++[0]).length=none := by
  cases fuel with
  | zero => rfl
  | succ fuel =>
    have hname : cstr (name++[0])=name := cstr_terminated hnul []
    rw [startupParams,List.take_left,hname,List.length_append,List.length_singleton]
    split
    · rfl
    · dsimp only
      split
      · rfl
      · rw [Nat.sub_self,if_pos rfl]

/-- The loop at a name with its NUL and bytes behind it. -/
theorem startupParams_name (hnul : (0 : Byte)∉name) (hname : name≠[]) (hparams : params≠[]) :
    startupParams (fuel+1) (name++0::(params++rest)) (name++0::params).length=
      if name=text "user" then some ((cstr (params++rest)).take 255)
      else startupParams fuel ((params++rest).drop ((cstr params).length+1))
        (if (cstr params).length<params.length then params.length-((cstr params).length+1) else 0) := by
  have hpositive : 0<name.length := List.length_pos_iff.mpr hname
  have hleft : 0<params.length := List.length_pos_iff.mpr hparams
  have hlength : (name++0::params).length=name.length+(params.length+1) := by simp
  have htake : (name++0::(params++rest)).take (name++0::params).length=name++0::params := by
    rw [show name++0::(params++rest)=(name++0::params)++rest by simp,List.take_left]
  have hdrop : (name++0::(params++rest)).drop (name.length+1)=params++rest := by
    rw [show name++0::(params++rest)=(name++[0])++(params++rest) by simp]
    exact List.drop_left' (by simp)
  have hremaining : (name++0::params).length-(name.length+1)=params.length := by omega
  rw [startupParams,htake,cstr_terminated hnul,cstr_terminated hnul,if_neg (by omega)]
  dsimp only
  rw [if_neg (by omega),hremaining,if_neg (by omega),hdrop,List.take_left]

/-- The loop takes the value of the user name as a C string. -/
theorem startupParams_user (hparams : params≠[]) :
    startupParams (fuel+1) (text "user"++0::(params++rest)) (text "user"++0::params).length=
      some ((cstr (params++rest)).take 255) := by
  rw [startupParams_name zero_not_mem_user (by decide) hparams,if_pos rfl]

/-- The loop passes over another parameter. -/
theorem startupParams_other (hother : OtherParameter (name,value)) :
    startupParams (fuel+1) (parameterBytes (name,value)++(params++rest))
        (parameterBytes (name,value)++params).length=
      startupParams fuel (params++rest) params.length := by
  have hvalue : cstr (value++0::params)=value := cstr_terminated hother.zero_not_mem_value params
  have hbytes : ∀ back,parameterBytes (name,value)++back=name++0::(value++0::back) := by
    intro back
    simp [parameterBytes]
  have hdrop : (value++0::(params++rest)).drop (value.length+1)=params++rest := by
    rw [show value++0::(params++rest)=(value++[0])++(params++rest) by simp]
    exact List.drop_left' (by simp)
  have hround : startupParams (fuel+1) (name++0::(value++0::params++rest))
      (name++0::(value++0::params)).length=_ :=
    startupParams_name hother.zero_not_mem_name hother.name_ne_nil (by simp)
  rw [if_neg hother.name_ne_user,hvalue,List.append_assoc,List.cons_append,hdrop,
    if_pos (by simp)] at hround
  rw [hbytes,hbytes,hround]
  congr 1
  simp
  omega

/-- The loop ends behind a value without a NUL. -/
theorem startupParams_open (hnul : (0 : Byte)∉name) (hname : name≠[]) (huser : name≠text "user")
    (hvalue : (0 : Byte)∉value) (hne : value≠[]) :
    startupParams (fuel+1) (name++0::(value++rest)) (name++0::value).length=none := by
  rw [startupParams_name hnul hname hne,if_neg huser,cstr_self hvalue,if_neg (Nat.lt_irrefl _)]
  cases fuel <;> rfl

end Rounds

section Parameters

variable {params rest rest' : Bytes} {fuel : ℕ}

/-- A parameter in front of an open user name leaves it open. -/
theorem OpenUser.cons {name value : Bytes} (h : OpenUser params) (hother : OtherParameter (name,value)) :
    OpenUser (parameterBytes (name,value)++params) := by
  obtain ⟨parameters,user,hparameters,hrest⟩ := h
  obtain ⟨hnul,hne,hshort,hparams⟩ := hrest
  refine ⟨(name,value)::parameters,user,?_,hnul,hne,hshort,?_⟩
  · intro parameter hparameter
    obtain rfl|hlater := List.mem_cons.mp hparameter
    · exact hother
    · exact hparameters parameter hlater
  · rw [hparams]
    simp

/-- Bytes with a NUL are a text, the NUL and what follows. -/
theorem exists_text (h : (0 : Byte)∈params) : ∃ back,params=cstr params++0::back ∧
    (0 : Byte)∉cstr params := by
  obtain ⟨back,hback⟩ := exists_terminator h
  exact ⟨back,hback,zero_not_mem_cstr params⟩

/-- A text that has ended, or fills the array, is copied from its own bytes. -/
theorem take_cstr_append {capacity : ℕ} (h : (0 : Byte)∈params ∨ capacity≤params.length) :
    (cstr (params++rest)).take capacity=(cstr (params++rest')).take capacity := by
  by_cases hnul : (0 : Byte)∈params
  · rw [cstr_append_of_mem hnul,cstr_append_of_mem hnul]
  · have hlong := h.resolve_left hnul
    rw [cstr_append hnul,cstr_append hnul,List.take_append_of_le_length hlong,
      List.take_append_of_le_length hlong]

/-- Without an open user name the loop does not read behind the bytes counted. -/
theorem startupParams_closed (hclosed : ¬OpenUser params) (hfuel : params.length≤fuel) :
    startupParams fuel (params++rest) params.length=startupParams fuel (params++rest') params.length := by
  induction fuel generalizing params with
  | zero => rfl
  | succ fuel ih =>
    by_cases hnul : (0 : Byte)∈params
    swap
    · rw [startupParams_no_name (.inl hnul),startupParams_no_name (.inl hnul)]
    obtain ⟨back,hback,hname⟩ := exists_text hnul
    generalize cstr params=name at hback hname
    subst hback
    by_cases hempty : name=[]
    · subst hempty
      rw [startupParams_no_name (.inr rfl),startupParams_no_name (.inr rfl)]
    by_cases hbackEmpty : back=[]
    · subst hbackEmpty
      rw [startupParams_no_value hname,startupParams_no_value hname]
    by_cases huser : name=text "user"
    · subst huser
      have hkept : (0 : Byte)∈back ∨ 255≤back.length := by
        by_contra hopen
        rw [not_or] at hopen
        exact hclosed ⟨[],back,by simp,hopen.1,hbackEmpty,by omega,by simp⟩
      rw [List.append_assoc,List.append_assoc,List.cons_append,List.cons_append,
        startupParams_user hbackEmpty,startupParams_user hbackEmpty]
      rw [take_cstr_append hkept]
    by_cases hvalue : (0 : Byte)∈back
    · obtain ⟨later,hlater,hvalueText⟩ := exists_text hvalue
      generalize cstr back=value at hlater hvalueText
      subst hlater
      have hother : OtherParameter (name,value) := ⟨hempty,hname,hvalueText,huser⟩
      have hparams : name++0::(value++0::later)=parameterBytes (name,value)++later := by
        simp [parameterBytes]
      have hshort : later.length≤fuel := by
        simp only [List.length_append,List.length_cons] at hfuel
        omega
      rw [hparams,List.append_assoc,List.append_assoc,startupParams_other hother,
        startupParams_other hother]
      exact ih (fun hopen => hclosed (hparams ▸ hopen.cons hother)) hshort
    · rw [List.append_assoc,List.append_assoc,List.cons_append,List.cons_append,
        startupParams_open hname hempty huser hvalue hbackEmpty,
        startupParams_open hname hempty huser hvalue hbackEmpty]

/-- An open user name goes on with the C string behind the bytes counted. -/
theorem startupParams_openUser (hopen : OpenUser params) (hfuel : params.length≤fuel) :
    ∃ value : Bytes,value.length<255 ∧ ∀ rest,startupParams fuel (params++rest) params.length=
      some ((value++cstr rest).take 255) := by
  obtain ⟨parameters,value,hparameters,hnul,hne,hshort,hparams⟩ := hopen
  refine ⟨value,hshort,?_⟩
  intro rest
  subst hparams
  induction parameters generalizing fuel with
  | nil =>
    obtain ⟨fuel,rfl⟩ := Nat.exists_eq_add_one_of_ne_zero (show fuel≠0 by
      simp only [List.flatMap_nil,List.nil_append,List.length_append,List.length_cons] at hfuel
      omega)
    rw [List.flatMap_nil,List.nil_append,List.append_assoc,List.cons_append,
      startupParams_user hne,cstr_append hnul]
  | cons parameter parameters ih =>
    have hother := hparameters parameter List.mem_cons_self
    simp only [List.flatMap_cons,List.append_assoc,parameterBytes,List.length_append,
      List.length_cons] at hfuel
    obtain ⟨fuel,rfl⟩ := Nat.exists_eq_add_one_of_ne_zero (show fuel≠0 by omega)
    have hlater : (parameters.flatMap parameterBytes++(text "user"++0::value)).length≤fuel := by
      simp only [List.length_append,List.length_cons]
      omega
    rw [List.flatMap_cons,List.append_assoc (parameterBytes parameter),
      List.append_assoc (parameterBytes parameter),startupParams_other hother]
    exact ih (fun p hp => hparameters p (List.mem_cons_of_mem _ hp)) hlater

end Parameters

/-- The parsers read the bytes received only exactly when the value of the first
user name ends among them or fills the array. -/
theorem readsReceivedOnly_iff (buf : Bytes) : ReadsReceivedOnly buf ↔ ¬OpenUserMessage buf := by
  have hparse : ∀ rest : Bytes,8<buf.length → parseStartupUsername (buf++rest) buf.length=
      startupParams (buf.drop 8).length (buf.drop 8++rest) (buf.drop 8).length := by
    intro rest hlong
    unfold parseStartupUsername
    rw [if_neg (by omega),List.drop_append_of_le_length (by omega),List.length_drop]
  constructor
  · rintro hreads ⟨hlong,hopen⟩
    obtain ⟨value,hshort,hvalue⟩ := startupParams_openUser hopen (Nat.le_refl _)
    have hsame : parseStartupUsername (buf++[]) buf.length=parseStartupUsername (buf++[1]) buf.length :=
      (hreads [] [1]).1
    rw [hparse _ hlong,hparse _ hlong,hvalue,hvalue,Option.some_inj] at hsame
    have hlength := congrArg List.length hsame
    simp [cstr] at hlength
    omega
  · intro hclosed rest rest'
    have hsame : parseStartupUsername (buf++rest) buf.length=
        parseStartupUsername (buf++rest') buf.length := by
      rcases Nat.lt_or_ge 8 buf.length with hlong|hshort
      · rw [hparse _ hlong,hparse _ hlong]
        exact startupParams_closed (fun hopen => hclosed ⟨hlong,hopen⟩) (Nat.le_refl _)
      · unfold parseStartupUsername
        rw [if_pos hshort,if_pos hshort]
    exact ⟨hsame,hsame⟩

/-- A start-up message that ends inside the user name is completed with what the
buffer holds behind it. -/
theorem truncated_user_reads_on :
    ¬ReadsReceivedOnly ([0,0,0,15,0,3,0,0]++(text "user"++[0]++text "al")) := by
  intro hreads
  have hsame := (hreads [0] (text "ice"++[0])).1
  revert hsame
  decide

end HoneyDew.PostgresStartup
