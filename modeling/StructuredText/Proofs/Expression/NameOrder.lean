import StructuredText.Expression.Reading
import StructuredText.Proofs.Expression.Parts

/- The names in an expression stand in the text that it is read from, in the same order and none in
   part in another: reading takes text apart, but neither makes any up nor uses any twice. -/
namespace StructuredText

mutual
def Expression.names : Expression → List Text
  | .literal _ => []
  | .variable name => [name]
  | .negation operand => operand.names
  | .connective _ left right => left.names ++ right.names
  | .comparison _ left right => left.names ++ right.names
  | .call name arguments => name :: Expression.namesOf arguments

def Expression.namesOf : List Expression → List Text
  | [] => []
  | e :: rest => e.names ++ Expression.namesOf rest
end

inductive StandIn : List Text → Text → Prop
  | nil {t : Text} : StandIn [] t
  | cons {a word t : Text} {rest : List Text} (later : StandIn rest t) :
    StandIn (word :: rest) (a ++ word ++ t)

namespace StandIn
variable {words more : List Text} {s t : Text}

theorem behind (a : Text) (stand : StandIn words t) : StandIn words (a ++ t) := by
  cases stand with
  | nil => exact .nil
  | cons later =>
    rw [← List.append_assoc, ← List.append_assoc]
    exact .cons later

theorem before (stand : StandIn words t) (b : Text) : StandIn words (t ++ b) := by
  induction stand with
  | nil => exact .nil
  | cons later ih =>
    rw [List.append_assoc]
    exact .cons ih

theorem inside (stand : StandIn words s) (part : s <:+: t) : StandIn words t := by
  obtain ⟨a, b, rfl⟩ := part
  exact (stand.behind a).before b

theorem append (left : StandIn words s) (right : StandIn more t) :
    StandIn (words ++ more) (s ++ t) := by
  induction left with
  | nil => exact right.behind _
  | cons later ih =>
    rw [List.append_assoc]
    exact .cons ih

theorem flatMap {parts : List Text} (joined : StandIn parts t) {wordsOf : Text → List Text}
    (each : ∀ part ∈ parts, StandIn (wordsOf part) part) : StandIn (parts.flatMap wordsOf) t := by
  induction joined with
  | nil => exact .nil
  | @cons a part t rest later ih =>
    obtain ⟨here, more⟩ := List.forall_mem_cons.mp each
    rw [List.flatMap_cons]
    exact (here.behind a).append (ih more)

end StandIn

theorem standIn_singleton {word t : Text} (inside : word <:+: t) : StandIn [word] t := by
  obtain ⟨a, b, rfl⟩ := inside
  exact .cons .nil

theorem Joins.standIn {parts : List Text} {t : Text} (joins : Joins parts t) :
    StandIn parts t := by
  induction joins with
  | nil free => exact .nil
  | cons free later ih => exact .cons ih

theorem standIn_intercalate (separator : Text) {cores : Text → Text} {parts : List Text}
    (each : ∀ part ∈ parts, cores part <:+: part) :
    StandIn (parts.map cores) (separator.intercalate parts) := by
  cases parts with
  | nil => exact .nil
  | cons first rest =>
    obtain ⟨here, later⟩ := List.forall_mem_cons.mp each
    rw [intercalate_cons, List.map_cons]
    refine (standIn_singleton here).append ?_
    clear here each
    induction rest with
    | nil => exact .nil
    | cons part rest ih =>
      obtain ⟨here, later⟩ := List.forall_mem_cons.mp later
      rw [List.map_cons, List.flatMap_cons]
      exact ((standIn_singleton here).behind separator).append (ih later)

theorem standIn_argumentTexts (inner : Text) : StandIn (argumentTexts inner) inner := by
  rw [argumentTexts]
  split
  · exact .nil
  · have each : ∀ raw ∈ inner.splitOn ',', argumentValue (trim raw) <:+: raw :=
      fun raw _ => (isCore_argument raw).inside
    have stand := standIn_intercalate [','] each
    rwa [List.intercalate_splitOn] at stand

namespace Expression

theorem namesOf_eq_flatMap (arguments : List Expression) :
    namesOf arguments = arguments.flatMap names := by
  induction arguments with
  | nil => rfl
  | cons e rest ih => rw [namesOf, ih, List.flatMap_cons]

theorem names_chain (op : Connective) (first : Expression) (rest : List Expression) :
    (rest.foldl (.connective op) first).names = first.names ++ rest.flatMap names := by
  induction rest generalizing first with
  | nil => exact (List.append_nil _).symm
  | cons e rest ih => rw [List.foldl_cons, ih, names, List.flatMap_cons, List.append_assoc]

/-- However many levels are read, the names stand in the text. -/
theorem standIn_names (levels : Nat) (t : Text) : StandIn (read levels t).names t := by
  induction levels generalizing t with
  | zero => exact standIn_singleton (isCore_trim t).inside
  | succ levels ih =>
    have shape := Shape.of_ofStripped (stripParens t)
    have core := (isCore_stripParens t).inside
    rw [read, Shape.ofText]
    generalize Shape.ofStripped (stripParens t) = found at shape ⊢
    generalize stripParens t = s at shape core
    refine StandIn.inside ?_ core
    cases shape with
    | truth => exact .nil
    | @numeral n =>
      cases n.literal? with
      | none => exact standIn_singleton (List.infix_refl s)
      | some value => exact .nil
    | negation found =>
      have stand := (joins_negation found).standIn.flatMap fun part _ => ih part
      rwa [List.flatMap_singleton] at stand
    | @chain op first second rest found =>
      have stand := (joins_chain found).standIn.flatMap fun part _ => ih part
      dsimp only
      rw [← List.foldl_map (f := read levels), names_chain, List.flatMap_map]
      exact stand
    | comparison found =>
      have stand := (joins_comparison found).standIn.flatMap fun part _ => ih part
      rw [List.flatMap_cons, List.flatMap_singleton] at stand
      exact stand
    | call positive unchained found =>
      obtain ⟨blanks, inner, call, rfl⟩ := exists_call found
      have stand := (standIn_argumentTexts inner).flatMap fun part _ => ih part
      dsimp only
      rw [names, namesOf_eq_flatMap, List.flatMap_map, call.whole, List.append_assoc,
        ← List.nil_append (_ ++ _), ← List.append_assoc]
      exact .cons ((stand.inside ⟨['('], [')'], rfl⟩).behind blanks)
    | word => exact standIn_singleton (List.infix_refl s)

end Expression

/-- Each word stands in the text at its place, and behind the words before it. -/
structure StandAt (words : List Text) (places : List Nat) (t : Text) : Prop where
  each : List.Forall₂
    (fun word place => ∃ before behind, t = before ++ word ++ behind ∧ before.length = place)
    words places
  apart : (words.zip places).Pairwise fun first second => first.2 + first.1.length ≤ second.2

theorem StandIn.exists_places {words : List Text} {t : Text} (stand : StandIn words t) :
    ∃ places, StandAt words places t := by
  suffices found : ∀ front : Text, ∃ places, StandAt words places (front ++ t) ∧
      ∀ place ∈ places, front.length ≤ place by
    obtain ⟨places, stands, -⟩ := found []
    exact ⟨places, stands⟩
  induction stand with
  | nil => exact fun front => ⟨[], ⟨.nil, .nil⟩, List.forall_mem_nil _⟩
  | @cons a word t rest later ih =>
    intro front
    obtain ⟨places, stands, behind⟩ := ih (front ++ a ++ word)
    have whole : front ++ a ++ word ++ t = front ++ (a ++ word ++ t) := by
      simp only [List.append_assoc]
    have start : front.length ≤ (front ++ a).length := by simp
    rw [whole] at stands
    refine ⟨(front ++ a).length :: places, ⟨.cons ⟨front ++ a, t, whole.symm, rfl⟩ stands.each, ?_⟩,
      List.forall_mem_cons.mpr ⟨start, fun place mem => ?_⟩⟩
    · rw [List.zip_cons_cons]
      refine .cons (fun second mem => ?_) stands.apart
      have := behind second.2 (List.of_mem_zip mem).2
      rwa [List.length_append] at this
    · have := behind place mem
      rw [List.length_append] at this
      omega

/-- The names in what a text is read as occur in the text, in their order and apart from each other. -/
theorem Expression.exists_places_names (t : Text) : ∃ places, StandAt (ofText t).names places t :=
  (standIn_names (expressionLimit + 1) t).exists_places

end StructuredText
