import Mathlib.Data.List.Basic
import StructuredText.Proofs.Source.Depth

/- Texts cut at the separators outside parentheses.  Behind each separator the search begins anew and
   takes what lies there for outside, however deep the text before it has left it.  It comes to an
   end because a separator that is not empty is used up by every cut. -/
namespace StructuredText

/-- How the text is cut from `start` on: into the rest as a whole where no separator is found, else
    into what lies before the first one and what the rest behind it is cut into. -/
inductive CutFrom (separator t : Text) : Nat → List (Nat × Text) → Prop
  | last {start : Nat} (uncut : findTopLevel? separator t start = none) :
    CutFrom separator t start [(start, t.drop start)]
  | cut {start n : Nat} {parts : List (Nat × Text)}
    (found : findTopLevel? separator t start = some n)
    (later : CutFrom separator t (n + separator.length) parts) :
    CutFrom separator t start ((start, (t.take n).drop start) :: parts)

section Find
variable {separator t : Text} {start n : Nat}

theorem findTopLevel?_eq_none_iff :
    findTopLevel? separator t start = none ↔ topLevelFrom separator 0 (t.drop start) = none := by
  rw [findTopLevel?, Option.map_eq_none_iff]

theorem exists_of_findTopLevel? (found : findTopLevel? separator t start = some n) :
    ∃ m, n = start + m ∧ topLevelFrom separator 0 (t.drop start) = some m ∧
      (t.take n).drop start = (t.drop start).take m := by
  obtain ⟨m, inner, rfl⟩ := Option.map_eq_some_iff.mp found
  exact ⟨m, rfl, inner, by rw [List.drop_take, Nat.add_sub_cancel_left]⟩

theorem append_of_findTopLevel? (found : findTopLevel? separator t start = some n) :
    (t.take n).drop start ++ separator ++ t.drop (n + separator.length) = t.drop start := by
  obtain ⟨m, rfl, inner, part⟩ := exists_of_findTopLevel? found
  rw [part, Nat.add_assoc, ← List.drop_drop]
  exact append_of_topLevelFrom inner

end Find

namespace CutFrom
variable {separator t : Text} {start : Nat} {parts parts' : List (Nat × Text)}

theorem ne_nil (cut : CutFrom separator t start parts) : parts ≠ [] := by
  cases cut with
  | last uncut => exact List.cons_ne_nil _ _
  | cut found later => exact List.cons_ne_nil _ _

theorem unique (cut : CutFrom separator t start parts) (cut' : CutFrom separator t start parts') :
    parts = parts' := by
  induction cut generalizing parts' with
  | last uncut =>
    cases cut' with
    | last uncut' => rfl
    | cut found' later' => exact absurd (uncut.symm.trans found') (by simp)
  | cut found later ih =>
    cases cut' with
    | last uncut' => exact absurd (uncut'.symm.trans found) (by simp)
    | cut found' later' =>
      obtain rfl := Option.some.inj (found.symm.trans found')
      rw [ih later']

theorem joined (cut : CutFrom separator t start parts) :
    separator.intercalate (parts.map Prod.snd) = t.drop start := by
  induction cut with
  | last uncut => exact List.intercalate_singleton
  | @cut start n parts found later ih =>
    have more : parts.map Prod.snd ≠ [] := by simpa using later.ne_nil
    rw [List.map_cons, List.intercalate_cons_of_ne_nil more, ih]
    exact append_of_findTopLevel? found

theorem of_mem (cut : CutFrom separator t start parts) {part : Nat × Text} (mem : part ∈ parts) :
    (t.drop part.1).take part.2.length = part.2 ∧ findTopLevel? separator part.2 0 = none := by
  induction cut with
  | last uncut =>
    obtain rfl := List.mem_singleton.mp mem
    rw [findTopLevel?_eq_none_iff] at uncut ⊢
    exact ⟨List.take_length, uncut⟩
  | cut found later ih =>
    rcases List.mem_cons.mp mem with rfl | mem
    · obtain ⟨m, rfl, inner, same⟩ := exists_of_findTopLevel? found
      rw [same, findTopLevel?_eq_none_iff]
      exact ⟨(List.prefix_iff_eq_take.mp (List.take_prefix m _)).symm, topLevelFrom_take inner⟩
    · exact ih mem

end CutFrom

/-- Each cut uses up characters of the rest, so that as many cuts as it has are enough. -/
theorem cutFrom_splitTopLevelWithin {separator : Text} (nonempty : separator ≠ []) (t : Text)
    {cuts start : Nat} (enough : (t.drop start).length ≤ cuts) :
    CutFrom separator t start (splitTopLevelWithin separator cuts start (t.drop start)) := by
  induction cuts generalizing start with
  | zero =>
    have empty : t.drop start = [] := List.eq_nil_of_length_eq_zero (Nat.le_zero.mp enough)
    exact .last (findTopLevel?_eq_none_iff.mpr (by rw [empty]; rfl))
  | succ cuts ih =>
    rw [splitTopLevelWithin]
    cases inner : topLevelFrom separator 0 (t.drop start) with
    | none => exact .last (findTopLevel?_eq_none_iff.mpr inner)
    | some m =>
      have found : findTopLevel? separator t start = some (start + m) := by
        rw [findTopLevel?, inner]
        rfl
      have part : (t.drop start).take m = (t.take (start + m)).drop start := by
        rw [List.drop_take, Nat.add_sub_cancel_left]
      have rest : (t.drop start).drop (m + separator.length) =
          t.drop (start + m + separator.length) := by
        rw [List.drop_drop, Nat.add_assoc]
      have shorter := rest_shorter nonempty inner
      rw [rest] at shorter
      dsimp only
      rw [part, rest]
      exact .cut found (ih (by omega))

/-- With a separator that is not empty every text is cut in one way.  Joined by the separator the parts
    make up the text, each stands at its offset, and none can be cut any further. -/
theorem splitTopLevel_parts {separator : Text} (nonempty : separator ≠ []) (t : Text) :
    (∀ parts, CutFrom separator t 0 parts ↔ parts = splitTopLevel separator t) ∧
      separator.intercalate ((splitTopLevel separator t).map Prod.snd) = t ∧
      ∀ part ∈ splitTopLevel separator t,
        (t.drop part.1).take part.2.length = part.2 ∧ findTopLevel? separator part.2 0 = none := by
  have cut : CutFrom separator t 0 (splitTopLevel separator t) :=
    cutFrom_splitTopLevelWithin nonempty t (Nat.le_refl _)
  refine ⟨fun parts => ⟨fun cut' => cut'.unique cut, ?_⟩, cut.joined, fun part mem => cut.of_mem mem⟩
  rintro rfl
  exact cut

/-- A separator that overlaps itself and opens a parenthesis: behind it the search is outside all the
    same. -/
theorem splitTopLevel_parts_overlapping :
    let t := "a:(:(:b):(:c".toList
    let parts := [(0, "a".toList), (4, "(:b)".toList), (11, "c".toList)]
    ":(:".toList ≠ [] ∧ splitTopLevel ":(:".toList t = parts ∧ CutFrom ":(:".toList t 0 parts ∧
      ":(:".toList.intercalate (parts.map Prod.snd) = t ∧
      ∀ part ∈ parts,
        (t.drop part.1).take part.2.length = part.2 ∧ findTopLevel? ":(:".toList part.2 0 = none := by
  intro t parts
  have nonempty : ":(:".toList ≠ [] := by decide
  have split : splitTopLevel ":(:".toList t = parts := by decide
  obtain ⟨ends, joined, each⟩ := splitTopLevel_parts nonempty t
  rw [split] at joined each
  exact ⟨nonempty, split, (ends parts).mpr split.symm, joined, each⟩

end StructuredText
