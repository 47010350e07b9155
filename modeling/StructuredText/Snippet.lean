import StructuredText.Vocabulary

/- Templates for an editor, with tab stops, and their completion. -/
namespace StructuredText

structure Snippet where
  label : Text
  insertText : Text
  documentation : Text
  deriving DecidableEq

private def template (label insertText documentation : String) : Snippet :=
  ⟨label.toList, insertText.toList, documentation.toList⟩

def snippets : List Snippet := [
  template "PROGRAM" "PROGRAM $\x7b1:ProgramName\x7d\n\t$0\nEND_PROGRAM" "Defines a program block",
  template "FUNCTION" "FUNCTION $\x7b1:FunctionName\x7d : $\x7b2:BOOL\x7d\n\t$0\nEND_FUNCTION"
    "Defines a function",
  template "FUNCTION_BLOCK" "FUNCTION_BLOCK $\x7b1:FBName\x7d\n\t$0\nEND_FUNCTION_BLOCK"
    "Defines a function block",
  template "VAR" "VAR\n\t$\x7b1:variable\x7d : $\x7b2:BOOL\x7d;\n\t$0\nEND_VAR"
    "Variable declaration block",
  template "IF" "IF $\x7b1:condition\x7d THEN\n\t$0\nEND_IF;" "IF statement",
  template "FOR" "FOR $\x7b1:i\x7d := $\x7b2:0\x7d TO $\x7b3:10\x7d DO\n\t$0\nEND_FOR;" "FOR loop",
  template "WHILE" "WHILE $\x7b1:condition\x7d DO\n\t$0\nEND_WHILE;" "WHILE loop",
  template "TON" "TON(IN := $\x7b1:Start\x7d, PT := T#$\x7b2:5s\x7d)" "On-delay timer",
  template "TOF" "TOF(IN := $\x7b1:Start\x7d, PT := T#$\x7b2:5s\x7d)" "Off-delay timer",
  template "CTU" "CTU(CU := $\x7b1:CountUp\x7d, R := $\x7b2:Reset\x7d, PV := $\x7b3:100\x7d)"
    "Count up counter",
  template "CTD" "CTD(CD := $\x7b1:CountDown\x7d, LD := $\x7b2:Load\x7d, PV := $\x7b3:100\x7d)"
    "Count down counter",
  template "R_TRIG" "R_TRIG(CLK := $\x7b1:Signal\x7d)" "Rising edge detection",
  template "F_TRIG" "F_TRIG(CLK := $\x7b1:Signal\x7d)" "Falling edge detection"]

def Snippet.ofKeyword (keyword : Text) : Snippet := ⟨keyword, keyword, "Keyword".toList⟩

def completions (start : Text) : List Snippet :=
  let matching := snippets.filter fun s => (upper start).isPrefixOf s.label
  let bare := (inOrder keywords).filter fun k =>
    (upper start).isPrefixOf k && !(matching.map (·.label)).contains k
  matching ++ bare.map Snippet.ofKeyword

theorem label_of_mem_completions {start : Text} {s : Snippet} (found : s ∈ completions start) :
    upper start <+: s.label := by
  simp only [completions, List.mem_append, List.mem_filter, List.mem_map, Bool.and_eq_true] at found
  rcases found with ⟨_, starts⟩ | ⟨k, ⟨_, starts, _⟩, rfl⟩
  · exact List.isPrefixOf_iff_prefix.mp starts
  · exact List.isPrefixOf_iff_prefix.mp starts

end StructuredText
