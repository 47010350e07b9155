import StructuredText.Proofs.Pou.Declaration

/- Reading what was written of a plain unit gives the unit back, its variables being grouped by the
   sections they were written in. -/
namespace StructuredText
open BlockStack

/-- Written lines that are read as a body: the stack puts its statements on top of whatever is open,
    with at most `nesting` blocks open in between. -/
structure Writes (lines : List Written) (body : List Statement) (nesting : Nat) : Prop where
  bare : AreBare lines
  code : ∀ kind, ∀ line ∈ textsOf lines, IsCode kind line
  put : ∀ s : BlockStack, (textsOf lines).foldl step s = s.put body
  within : ∀ s : BlockStack, StaysWithin (s.opened.length + nesting) s (textsOf lines)

namespace Writes

theorem nil : Writes [] [] 0 :=
  ⟨.nil, fun _ _ mem => absurd mem List.not_mem_nil, fun s => s.put_nil.symm,
    fun _ => .nil (Nat.le_refl _)⟩

theorem deeper {lines : List Written} {body : List Statement} {nesting deep : Nat}
    (writes : Writes lines body nesting) (le : nesting ≤ deep) : Writes lines body deep := by
  refine ⟨writes.bare, writes.code, writes.put, ?_⟩
  intro s used start
  have := writes.within s used start
  omega

theorem append {first second : List Written} {before behind : List Statement} {nesting : Nat}
    (left : Writes first before nesting) (right : Writes second behind nesting) :
    Writes (first ++ second) (before ++ behind) nesting := by
  constructor
  · exact left.bare.append right.bare
  · intro kind line mem
    rw [textsOf_append] at mem
    rcases List.mem_append.mp mem with mem | mem
    · exact left.code kind line mem
    · exact right.code kind line mem
  · intro s
    rw [textsOf_append, List.foldl_append, left.put, right.put, put_put]
  · intro s
    have later := right.within (s.put before)
    rw [length_put, ← left.put] at later
    rw [textsOf_append]
    exact (left.within s).append later

theorem single {depth : Nat} {line : Text} {s : Statement} (reads : IsStatementLine line s) :
    Writes [⟨depth, some line⟩] [s] 0 := by
  have step (b : BlockStack) : b.step line = b.put [s] := by
    rw [step_single b reads.content reads.single, reads.reads, Option.toList_some]
  constructor
  · exact .singleton reads.bare
  · intro kind l mem
    obtain rfl : l = line := List.mem_singleton.mp mem
    exact Or.inr (Or.inl (reads.other kind))
  · exact step
  · intro b
    refine .cons (Nat.le_refl _) (.nil ?_)
    rw [step, length_put]
    exact Nat.le_refl _

structure WritesBranches (inner : List Written) (thenBranch elseBranch : List Statement)
    (nesting : Nat) : Prop where
  bare : AreBare inner
  code : ∀ kind, ∀ line ∈ textsOf inner, IsCode kind line
  closes : ∀ line outside outer, ∃ b : OpenBlock,
    (textsOf inner).foldl step ⟨outside, OpenBlock.begin line :: outer⟩ = ⟨outside, b :: outer⟩ ∧
      b.closed = .conditional ((blockCondition? line).map Expression.ofText) (some thenBranch)
        (some elseBranch)
  within : ∀ s : BlockStack, StaysWithin (s.opened.length + nesting) s (textsOf inner)

theorem withoutElse {inner : List Written} {thenBranch : List Statement} {nesting : Nat}
    (writes : Writes inner thenBranch nesting) : WritesBranches inner thenBranch [] nesting := by
  refine ⟨writes.bare, writes.code, ?_, writes.within⟩
  intro line outside outer
  refine ⟨(OpenBlock.begin line).put thenBranch, writes.put _, ?_⟩
  simp [OpenBlock.begin, OpenBlock.put, OpenBlock.closed, OpenBlock.closedWith]

theorem isBareLine_else : IsBareLine "ELSE".toList :=
  isBareLine_of_code (of_all rfl) (isTrimmed_of_solid (by decide) (of_all rfl))

theorem isCode_else (kind : PouKind) : IsCode kind "ELSE".toList := by
  cases kind <;> exact Or.inr (Or.inl rfl)

theorem withElse {first second : List Written} {thenBranch elseBranch : List Statement}
    {nesting : Nat} (left : Writes first thenBranch nesting)
    (right : Writes second elseBranch nesting) (depth : Nat) :
    WritesBranches (first ++ .fixed depth "ELSE".toList :: second) thenBranch elseBranch
      nesting := by
  have texts : textsOf (first ++ .fixed depth "ELSE".toList :: second) =
      textsOf first ++ "ELSE".toList :: textsOf second := textsOf_append ..
  constructor
  · exact left.bare.append (.cons isBareLine_else right.bare)
  · intro kind line mem
    rw [texts] at mem
    rcases List.mem_append.mp mem with mem | mem
    · exact left.code kind line mem
    · rcases List.mem_cons.mp mem with rfl | mem
      · exact isCode_else kind
      · exact right.code kind line mem
  · intro line outside outer
    refine ⟨((OpenBlock.begin line).put thenBranch).turn.put elseBranch, ?_, ?_⟩
    · rw [texts, List.foldl_append, left.put, List.foldl_cons, step_else, right.put]
      rfl
    · simp [OpenBlock.begin, OpenBlock.put, OpenBlock.turn, OpenBlock.closed, OpenBlock.closedWith]
  · intro s
    have later := right.within (s.put thenBranch).turn
    rw [length_turn, length_put, ← left.put] at later
    rw [texts]
    apply (left.within s).append
    rw [← step_else] at later
    refine .cons ?_ later
    rw [left.put, length_put]
    omega

theorem isBareLine_endIf : IsBareLine "END_IF;".toList :=
  isBareLine_of_code (of_all rfl) (isTrimmed_of_solid (by decide) (of_all rfl))

theorem conditional {line : Text} {condition : Expression} (opens : IsOpeningLine line condition)
    {inner : List Written} {thenBranch elseBranch : List Statement} {nesting : Nat}
    (writes : WritesBranches inner thenBranch elseBranch nesting) (depth : Nat) :
    Writes (.fixed depth line :: inner ++ [.fixed depth "END_IF;".toList])
      [.conditional (some condition) (some thenBranch) (some elseBranch)] (nesting + 1) := by
  have texts : textsOf (.fixed depth line :: inner ++ [.fixed depth "END_IF;".toList]) =
      line :: textsOf inner ++ ["END_IF;".toList] := textsOf_append ..
  have put (s : BlockStack) : (line :: textsOf inner ++ ["END_IF;".toList]).foldl step s =
      s.put [.conditional (some condition) (some thenBranch) (some elseBranch)] := by
    obtain ⟨b, state, closed⟩ := writes.closes line s.outside s.opened
    rw [opens.reads] at closed
    rw [List.cons_append, List.foldl_cons, step_opening s opens.opens, List.foldl_append, push,
      state, List.foldl_cons, step_close _ rfl, ← closed]
    rfl
  constructor
  · exact AreBare.append (.cons opens.bare writes.bare) (.singleton isBareLine_endIf)
  · intro kind l mem
    rw [texts] at mem
    rcases List.mem_append.mp mem with mem | mem
    · rcases List.mem_cons.mp mem with rfl | mem
      · exact Or.inr (Or.inl (opens.other kind))
      · exact writes.code kind l mem
    · obtain rfl : l = "END_IF;".toList := List.mem_singleton.mp mem
      exact Or.inr (Or.inr rfl)
  · intro s
    rw [texts, put]
  · intro s
    have later := writes.within (s.push line)
    have deeper : (s.push line).opened.length = s.opened.length + 1 := rfl
    have ends := put s
    rw [List.cons_append, List.foldl_cons, step_opening s opens.opens, List.foldl_append] at ends
    rw [deeper, Nat.add_assoc, Nat.add_comm 1] at later
    rw [texts, List.cons_append]
    refine .cons (by omega) ?_
    rw [step_opening s opens.opens]
    apply later.append
    refine .cons ?_ (.nil ?_)
    · exact later _ (List.prefix_refl _)
    · have last : ((textsOf inner).foldl step (s.push line)).step "END_IF;".toList =
          s.put [.conditional (some condition) (some thenBranch) (some elseBranch)] := ends
      rw [last, length_put]
      omega

end Writes

theorem writes_allLines {body : List Statement} {depth : Nat}
    (each : ∀ s ∈ body, Writes (s.lines depth) [s] s.nesting) :
    Writes (Statement.allLines depth body) body (Statement.nestingOf body) := by
  induction body with
  | nil => exact .nil
  | cons s rest ih =>
    have here := each s List.mem_cons_self
    have later := ih fun t mem => each t (List.mem_cons_of_mem s mem)
    rw [Statement.allLines, Statement.nestingOf]
    exact (here.deeper (Nat.le_max_left _ _)).append (later.deeper (Nat.le_max_right _ _))

theorem writes_conditional {condition : Expression} (readable : condition.isReadable = true)
    {thenBranch elseBranch : List Statement} {depth : Nat}
    (first : ∀ s ∈ thenBranch, Writes (s.lines (depth + 1)) [s] s.nesting)
    (second : ∀ s ∈ elseBranch, Writes (s.lines (depth + 1)) [s] s.nesting) :
    Writes
      ((Statement.conditional (some condition) (some thenBranch) (some elseBranch)).lines depth)
      [.conditional (some condition) (some thenBranch) (some elseBranch)]
      (Statement.conditional (some condition) (some thenBranch) (some elseBranch)).nesting := by
  have left := (writes_allLines first).deeper
    (Nat.le_max_left _ (Statement.nestingOf elseBranch))
  have right := (writes_allLines second).deeper
    (Nat.le_max_right (Statement.nestingOf thenBranch) _)
  have line : Written.around depth "IF ".toList condition " THEN".toList =
      .fixed depth ("IF ".toList ++ condition.text ++ " THEN".toList) := by
    rw [Written.around, Expression.text?_of_isReadable readable]
    rfl
  rw [Statement.lines, Option.getD_some, line]
  cases elseBranch with
  | nil =>
    have whole := Writes.conditional (isOpeningLine readable) (Writes.withoutElse left) depth
    rw [Statement.elseLines, List.append_nil]
    exact whole
  | cons s rest =>
    have whole := Writes.conditional (isOpeningLine readable)
      (Writes.withElse left right depth) depth
    exact whole

theorem writes_lines {s : Statement} (plain : s.isPlain = true) :
    ∀ depth, Writes (s.lines depth) [s] s.nesting := by
  refine @Statement.plain_induct (fun s => ∀ depth, Writes (s.lines depth) [s] s.nesting)
    ?assignment ?call ?conditional s plain
  case assignment =>
    intro target value place readable depth
    rw [Statement.lines, Written.around, Expression.text?_of_isReadable readable]
    exact .single (isStatementLine_assignment place readable)
  case call =>
    intro name arguments call depth
    rw [Statement.lines, Written.around, call.text?]
    exact .single call.isStatementLine
  case conditional =>
    intro condition thenBranch elseBranch readable ihThen ihElse depth
    exact writes_conditional readable (fun s mem => ihThen s mem (depth + 1))
      (fun s mem => ihElse s mem (depth + 1))

def Pou.grouped (pou : Pou) : Pou :=
  { pou with declared := sections.flatMap fun (role, _) => pou.ofRole role }

structure Pou.Plain (pou : Pou) : Prop where
  name : Name pou.name
  type : ∀ t ∈ pou.returnType, Name t
  declared : ∀ v ∈ pou.declared, v.Plain pou.kind
  statements : ∀ s ∈ pou.statements, s.isPlain = true
  shallow : Statement.nestingOf pou.statements ≤ blockLimit

theorem Pou.plain_of_isPlain {pou : Pou} (plain : pou.isPlain = true) : pou.Plain := by
  simp only [isPlain, Bool.and_eq_true, decide_eq_true_eq, List.all_eq_true,
    Statement.arePlain_iff] at plain
  obtain ⟨⟨⟨⟨name, type⟩, declared⟩, statements⟩, shallow⟩ := plain
  refine ⟨name_of_isName name, ?_, ?_, statements, shallow⟩
  · intro t mem
    rw [Option.mem_def.mp mem] at type
    exact name_of_isName type
  · exact fun v mem => Variable.plain_of_isPlain (declared v mem)

theorem Pou.textsOf_lines (pou : Pou) : textsOf pou.lines ++ [[]] =
    pou.header ::
      (textsOf (sections.flatMap fun (role, keyword) => sectionLines keyword (pou.ofRole role)) ++
        (textsOf (Statement.allLines 0 pou.statements) ++ [pou.kind.terminator, []])) := by
  have first (rest : List Written) :
      textsOf (.fixed 0 pou.header :: rest) = pou.header :: textsOf rest := rfl
  have last : textsOf [.fixed 0 pou.kind.terminator] = [pou.kind.terminator] := rfl
  rw [lines, List.cons_append, List.cons_append, first, textsOf_append, textsOf_append, last]
  simp only [List.cons_append, List.append_assoc, List.nil_append]

namespace Pou.Plain
variable {pou : Pou} (plain : pou.Plain)
include plain

theorem writes_statements :
    Writes (Statement.allLines 0 pou.statements) pou.statements blockLimit :=
  (writes_allLines fun s mem => writes_lines (plain.statements s mem) 0).deeper plain.shallow

theorem areBare : AreBare pou.lines := by
  have header := isBareLine_header plain.name plain.type
  have declared := areBare_sections fun v mem => (plain.declared v mem).isBareLine
  have code := plain.writes_statements.bare
  exact AreBare.append (AreBare.append (AreBare.append (.singleton header) declared) code)
    (.singleton (isBareLine_terminator pou.kind))

theorem readUnitLines_statements :
    (readUnitLines (readBlock blockLimit) pou.kind .body 0
        (textsOf (Statement.allLines 0 pou.statements) ++ [pou.kind.terminator, []])
        Progress.start).1 = ⟨[], pou.statements⟩ := by
  have writes := plain.writes_statements
  have free : CloseFree [pou.kind.terminator, []] := by
    rw [CloseFree]
    cases pou.kind <;> decide
  have single : ∀ line ∈ [pou.kind.terminator, []], opensBlock line = false := by
    cases pou.kind <;> decide
  have ends : EndsUnit pou.kind [pou.kind.terminator, []] := by
    refine Or.inr ⟨_, _, rfl, ?_⟩
    cases pou.kind <;> rfl
  have within : StaysWithin blockLimit empty (textsOf (Statement.allLines 0 pou.statements)) := by
    have bound := writes.within empty
    rwa [empty, List.length_nil, Nat.zero_add] at bound
  have read :
      (run (textsOf (Statement.allLines 0 pou.statements))).statements = pou.statements := by
    rw [run, writes.put, statements_put]
    rfl
  rw [readUnitLines_code free single ends (writes.code pou.kind) (List.suffix_refl _) within rfl
    (faithful_start _), read]

end Pou.Plain

/-- A plain unit can be written, and reading its text gives it back. -/
theorem Pou.ofSource?_text {pou : Pou} (plain : pou.isPlain = true) :
    pou.text?.bind Pou.ofSource? = some pou.grouped := by
  have plain := plain_of_isPlain plain
  have header : headerKind? pou.header = some pou.kind := headerKind?_header plain.name plain.type
  have read := readUnitLines_sections (readBlock blockLimit)
    (textsOf (Statement.allLines 0 pou.statements) ++ [pou.kind.terminator, []]) Progress.start
    (fun v mem => (plain.declared v mem).isDeclared) (List.Subset.refl sections)
  have code := plain.readUnitLines_statements
  rw [Pou.text?_of_bare plain.areBare, Option.bind_some, Pou.ofSource?, Reading.ofSource,
    lineTexts_text plain.areBare, pou.textsOf_lines, readLines, findHeader?, header]
  simp only [readPou, readPouBy, headerNames_header plain.name plain.type, read, declaring, code,
    List.append_nil]
  rfl

def mixedUnit : Pou where
  kind := .function
  name := "Mix".toList
  returnType := some "INT".toList
  declared := [⟨"x".toList, "INT".toList, .internal, some "2 * (a / 3)".toList⟩,
    ⟨"a".toList, "BOOL".toList, .input, none⟩, ⟨"END_y".toList, "REAL".toList, .internal, none⟩]
  statements := [
    .assignment "m.v[3]".toList (.connective .and (.variable "a".toList) (.literal (.bool true))),
    .conditional (some (.variable "a".toList))
      (some [.conditional (some (.negation (.variable "b".toList))) (some []) (some []),
        .call "Go".toList "Go".toList [.variable "a".toList, .literal (.int 7)]])
      (some [.assignment "x".toList (.variable "y".toList)])]

theorem Pou.ofSource?_text_mixedUnit :
    mixedUnit.isPlain = true ∧ mixedUnit.text?.bind Pou.ofSource? = some mixedUnit.grouped :=
  ⟨by decide, Pou.ofSource?_text (by decide)⟩

end StructuredText
