import StructuredText.Text.Basic

/- Scanning a text with its parentheses in view.  The depth is an integer: a text that closes more
   than it opens goes below zero, and nothing there is at top level. -/
namespace StructuredText

def closingFrom (depth : Int) : Text → Option Nat
  | [] => none
  | c :: t =>
    if c = '(' then (closingFrom (depth + 1) t).map (· + 1)
    else if c = ')' then
      if depth = 1 then some 0 else (closingFrom (depth - 1) t).map (· + 1)
    else (closingFrom depth t).map (· + 1)

def matchingParen? (t : Text) (start : Nat) : Option Nat :=
  (closingFrom 0 (t.drop start)).map (start + ·)

def topLevelFrom (symbol : Text) (depth : Int) : Text → Option Nat
  | [] => none
  | c :: t =>
    if c = '(' then (topLevelFrom symbol (depth + 1) t).map (· + 1)
    else if c = ')' then (topLevelFrom symbol (depth - 1) t).map (· + 1)
    else if depth = 0 ∧ symbol.isPrefixOf (c :: t) then some 0
    else (topLevelFrom symbol depth t).map (· + 1)

def findTopLevel? (symbol t : Text) (start : Nat) : Option Nat :=
  (topLevelFrom symbol 0 (t.drop start)).map (start + ·)

/-- Cuts at most `cuts` times.  Each part comes with its offset, the first one at `start`. -/
def splitTopLevelWithin (separator : Text) : Nat → Nat → Text → List (Nat × Text)
  | 0, start, t => [(start, t)]
  | cuts + 1, start, t =>
    match topLevelFrom separator 0 t with
    | none => [(start, t)]
    | some n =>
      (start, t.take n) ::
        splitTopLevelWithin separator cuts (start + n + separator.length)
          (t.drop (n + separator.length))

def splitTopLevel (separator t : Text) : List (Nat × Text) :=
  splitTopLevelWithin separator t.length 0 t

theorem topLevelFrom_lt {symbol t : Text} {depth : Int} {n : Nat}
    (found : topLevelFrom symbol depth t = some n) : n < t.length := by
  induction t generalizing depth n with
  | nil => simp [topLevelFrom] at found
  | cons c t ih =>
    rw [topLevelFrom] at found
    split at found
    · obtain ⟨m, inner, rfl⟩ := Option.map_eq_some_iff.mp found
      have := ih inner
      simp; omega
    · split at found
      · obtain ⟨m, inner, rfl⟩ := Option.map_eq_some_iff.mp found
        have := ih inner
        simp; omega
      · split at found
        · simp at found
          simp [← found]
        · obtain ⟨m, inner, rfl⟩ := Option.map_eq_some_iff.mp found
          have := ih inner
          simp; omega

theorem rest_shorter {separator t : Text} {n : Nat} (nonempty : separator ≠ [])
    (found : topLevelFrom separator 0 t = some n) :
    (t.drop (n + separator.length)).length < t.length := by
  have within := topLevelFrom_lt found
  have := List.length_pos_iff.mpr nonempty
  simp only [List.length_drop]
  omega

/-- As many parentheses open as close, in whatever order. -/
def hasEqualParens (t : Text) : Bool := t.count '(' = t.count ')'

def isEnclosed (t : Text) : Bool :=
  t.head? = some '(' && matchingParen? t 0 = some (t.length - 1)

end StructuredText
