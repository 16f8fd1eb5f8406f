import Mathlib.Data.List.Infix
import Mathlib.Data.List.TakeWhile

/-!
# Fields between markers

A text is cut at the first occurrence of a marker. A field written in front of a
marker is so read back exactly when it does not contain the marker, provided that
the marker starts with a letter which does not occur again in it: then no occurrence
can begin in the field and end in the marker.
-/

namespace HoneyDew.MarkedFields

variable {β : Type*} [DecidableEq β]

/-- The text in front of the first occurrence of a marker and the text behind it. -/
def cutAt (marker : List β) : List β → Option (List β×List β)
  | [] => if marker=[] then some ([],[]) else none
  | b::bs =>
    if marker.isPrefixOf (b::bs) then some ([],(b::bs).drop marker.length)
    else (cutAt marker bs).map (fun parts => (b::parts.1,parts.2))

/-- A marker whose first letter occurs only there. -/
def Leads : List β → Prop
  | [] => False
  | c::tail => c∉tail

instance (marker : List β) : Decidable (Leads marker) := by
  cases marker with
  | nil => exact inferInstanceAs (Decidable False)
  | cons c tail => exact inferInstanceAs (Decidable (c∉tail))

section Markers

omit [DecidableEq β]

/-- A marker that leads has a first letter that does not come again in it. -/
theorem Leads.cons {marker : List β} (h : Leads marker) : ∃ c tail,marker=c::tail ∧ c∉tail := by
  cases marker with
  | nil => exact absurd h id
  | cons c tail => exact ⟨c,tail,rfl,h⟩

/-- No occurrence of such a marker begins in a text and ends in a marker behind it. -/
theorem not_front_of_leads {marker : List β} (hmarker : Leads marker) {b : β} {bs rest : List β}
    (h : ¬marker<:+:b::bs) : ¬marker<+:b::bs++(marker++rest) := by
  obtain ⟨c,tail,rfl,hc⟩ := hmarker.cons
  rintro ⟨more,hmore⟩
  rcases List.append_eq_append_iff.mp hmore with ⟨extra,hover,hbehind⟩|⟨extra,hover,hbehind⟩
  · exact h ⟨[],extra,by rw [hover]; rfl⟩
  · cases extra with
    | nil =>
      rw [List.append_nil] at hover
      exact h ⟨[],[],by rw [hover,List.append_nil,List.nil_append]⟩
    | cons d extra =>
      rw [List.cons_append,List.cons_append,List.cons.injEq] at hbehind
      rw [List.cons_append,List.cons.injEq] at hover
      refine hc ?_
      rw [hover.2,hbehind.1]
      exact List.mem_append_right _ List.mem_cons_self

/-- A marker stands in one of two texts or not at all when a foreign letter is between them. -/
theorem infix_around {marker front back : List β} {d : β} (hd : d∉marker)
    (h : marker<:+:front++d::back) : marker<:+:front ∨ marker<:+:back := by
  obtain ⟨before,after,hwhole⟩ := h
  rw [List.append_assoc] at hwhole
  rcases List.append_eq_append_iff.mp hwhole with ⟨extra,hover,hbehind⟩|⟨extra,hover,hbehind⟩
  · -- the occurrence begins in the front text
    rcases List.append_eq_append_iff.mp hbehind with ⟨more,hmore,_⟩|⟨more,hmore,hafter⟩
    · exact .inl ⟨before,more,by rw [hover,hmore,List.append_assoc]⟩
    · cases more with
      | nil =>
        rw [List.append_nil] at hmore
        exact .inl ⟨before,[],by rw [hover,hmore,List.append_nil]⟩
      | cons e more =>
        rw [List.cons_append,List.cons.injEq] at hafter
        refine absurd ?_ hd
        rw [hmore,hafter.1]
        exact List.mem_append_right _ List.mem_cons_self
  · -- it begins behind the front text
    cases extra with
    | nil =>
      rw [List.nil_append] at hbehind
      cases marker with
      | nil => exact .inl ⟨[],front,rfl⟩
      | cons e marker =>
        rw [List.cons_append,List.cons.injEq] at hbehind
        refine absurd ?_ hd
        rw [hbehind.1]
        exact List.mem_cons_self
    | cons e extra =>
      rw [List.cons_append,List.cons.injEq] at hbehind
      exact .inr ⟨extra,after,by rw [hbehind.2,List.append_assoc]⟩

end Markers

/-- A field without its marker is read back whole. -/
theorem cutAt_field {marker : List β} (hmarker : Leads marker) {field : List β}
    (h : ¬marker<:+:field) (rest : List β) :
    cutAt marker (field++(marker++rest))=some (field,rest) := by
  induction field with
  | nil =>
    obtain ⟨c,tail,hcons,-⟩ := hmarker.cons
    rw [List.nil_append]
    have hfront : marker.isPrefixOf (marker++rest)=true :=
      List.isPrefixOf_iff_prefix.mpr (List.prefix_append _ _)
    generalize hwhole : marker++rest=whole at hfront ⊢
    cases whole with
    | nil =>
      rw [hcons] at hwhole
      cases hwhole
    | cons b bs => rw [cutAt,if_pos hfront,←hwhole,List.drop_left]
  | cons b bs ih =>
    have hnot : ¬marker<+:b::bs++(marker++rest) := not_front_of_leads hmarker h
    have hrest := ih (fun hwithin => h (hwithin.trans (List.suffix_cons b bs).isInfix))
    rw [List.cons_append] at hnot ⊢
    rw [cutAt,if_neg (fun hfront => hnot (List.isPrefixOf_iff_prefix.mp hfront)),hrest]
    rfl

/-- What is read stands in front of every occurrence of the marker. -/
theorem length_cutAt_le {marker : List β} (x z : List β) {field rest : List β}
    (h : cutAt marker (x++(marker++z))=some (field,rest)) : field.length≤x.length := by
  induction x generalizing field with
  | nil =>
    rw [List.nil_append] at h
    have hfront : marker.isPrefixOf (marker++z)=true :=
      List.isPrefixOf_iff_prefix.mpr (List.prefix_append _ _)
    generalize marker++z=whole at hfront h
    cases whole with
    | nil =>
      rw [cutAt] at h
      split at h
      · cases h
        exact le_refl _
      · cases h
    | cons b bs =>
      rw [cutAt,if_pos hfront] at h
      cases h
      exact le_refl _
  | cons b x ih =>
    rw [List.cons_append,cutAt] at h
    split at h
    · cases h
      exact Nat.zero_le _
    · obtain ⟨parts,hparts,hcut⟩ := Option.map_eq_some_iff.mp h
      cases hcut
      exact Nat.succ_le_succ (ih hparts)

/-- A field with its marker in it is read shorter than it is. -/
theorem length_cutAt_lt {marker : List β} (hne : marker≠[]) {whole field back rest : List β}
    (hwithin : marker<:+:whole) (h : cutAt marker (whole++back)=some (field,rest)) :
    field.length<whole.length := by
  obtain ⟨x,y,rfl⟩ := hwithin
  rw [List.append_assoc,List.append_assoc] at h
  have hlength := length_cutAt_le x (y++back) h
  have hpos := List.length_pos_iff.mpr hne
  rw [List.length_append,List.length_append]
  omega

/-- The texts in front of the last occurrence of a letter and behind it. -/
def cutLast (d : β) (whole : List β) : Option (List β×List β) :=
  (cutAt [d] whole.reverse).map (fun parts => (parts.2.reverse,parts.1.reverse))

/-- A text without the letter behind an occurrence of it. -/
theorem cutLast_append {d : β} (front : List β) {back : List β} (h : d∉back) :
    cutLast d (front++d::back)=some (front,back) := by
  have hlead : Leads [d] := List.not_mem_nil
  have hfree : ¬[d]<:+:back.reverse := by
    intro hwithin
    exact h (List.mem_reverse.mp (hwithin.subset List.mem_cons_self))
  have hcut := cutAt_field hlead hfree front.reverse
  rw [cutLast,List.reverse_append,List.reverse_cons,List.append_assoc,List.singleton_append]
  rw [List.singleton_append] at hcut
  rw [hcut,Option.map_some,List.reverse_reverse,List.reverse_reverse]

/-- What is cut is no longer than the text. -/
theorem length_cutAt {marker whole : List β} {parts : List β×List β}
    (h : cutAt marker whole=some parts) : parts.1.length+parts.2.length≤whole.length := by
  induction whole generalizing parts with
  | nil =>
    rw [cutAt] at h
    split at h
    · cases h
      exact le_refl _
    · cases h
  | cons b bs ih =>
    rw [cutAt] at h
    split at h
    · cases h
      simp only [List.length_nil,List.length_drop]
      omega
    · obtain ⟨rest,hrest,hparts⟩ := Option.map_eq_some_iff.mp h
      cases hparts
      have hlength := ih hrest
      simp only [List.length_cons]
      omega

/-- What stands in front of the last occurrence of a letter is no longer than the whole. -/
theorem length_cutLast_le {d : β} {whole front back : List β}
    (h : cutLast d whole=some (front,back)) : front.length≤whole.length := by
  obtain ⟨parts,hparts,hcut⟩ := Option.map_eq_some_iff.mp h
  cases hcut
  have hlength := length_cutAt hparts
  rw [List.length_reverse] at hlength ⊢
  omega

end HoneyDew.MarkedFields
