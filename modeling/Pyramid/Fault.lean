import Pyramid.Text.Basic

/-!
# Faults

A fault is what the library reports to its user when it gives up: its kind, a message, and the
number of the grammar line it is about, if there is one. `Fault.text` is the one-line form,
`Fault.report` the page shown by the command line, with description and message wrapped at
`lineBound`.

Specification §7: the errors of the library, with their types and descriptions.
-/

namespace Pyramid

/-- What a fault is about. -/
inductive FaultKind where
  /-- Nothing more specific is known. -/
  | unexpected
  /-- A grammar file or a bundled grammar cannot be read. -/
  | grammarResource
  /-- A production is not in normal form. -/
  | malformedGrammar
  /-- Two nodes with lineages of different lengths cannot be combined. -/
  | unbalancedChain
  /-- The empty word has no chart. -/
  | emptyWord
  /-- A settings file or a setting is refused. -/
  | settings
deriving DecidableEq, Repr

/-- The name in the head line of a report. -/
def FaultKind.title : FaultKind → Text
  | .unexpected => "CnfChart"
  | .grammarResource => "GrammarResource"
  | .malformedGrammar => "MalformedGrammar"
  | .unbalancedChain => "UnbalancedChain"
  | .emptyWord => "EmptyWord"
  | .settings => "Config"

/-- The sentence that explains a kind of fault. -/
def FaultKind.description : FaultKind → Text
  | .unexpected => "unexpected failure"
  | .grammarResource => "grammar resource is missing or unreadable"
  | .malformedGrammar =>
    "grammar line is not of the form 'VARIABLE->BODY' with a body of one or two symbols"
  | .unbalancedChain =>
    "left and right ancestor chains differ in length; the chart is inconsistent"
  | .emptyWord => "membership is only decided for non-empty words"
  | .settings => "configuration file is unreadable or holds an unknown key"

/-- A failure reported to the user. -/
structure Fault where
  kind : FaultKind
  message : Text
  /-- The grammar line the fault is about. -/
  line : Option Int := none
deriving DecidableEq, Repr

namespace Fault

/-- The fault on one line: the line number, if there is one, and the message. -/
def text (f : Fault) : Text :=
  match f.line with
  | none => f.message
  | some n => "line " ++ Text.ofInt n ++ ": " ++ f.message

/-! ## Wrapping -/

/-- A wrapped line takes another word while the two together have at most this many characters. -/
def lineBound : Nat := 56

/-- Wraps the remaining `words` behind the unfinished `line`. Every word is followed by a space. -/
def wrapWords (line : Text) : (words : List Text) → List Text
  | [] => [line ++ "\n"]
  | word :: words =>
    if lineBound < line.length + word.length then (line ++ "\n") :: wrapWords (word ++ " ") words
    else wrapWords (line ++ word ++ " ") words

/-- Cuts a text at its spaces into lines that end in a line feed. -/
def wrap (t : Text) : List Text := wrapWords [] (t.splitOn ' ')

theorem wrapWords_ne_nil (line : Text) (words : List Text) : wrapWords line words ≠ [] := by
  fun_induction wrapWords line words <;> simp_all

theorem wrap_ne_nil (t : Text) : wrap t ≠ [] := wrapWords_ne_nil _ _

/-! ## The report -/

/-- The rule above a report. -/
def rule : Text := List.replicate 74 '=' ++ "\n"

/-- The full report: a rule, the kind, the description and the message, both wrapped and indented
as far as the line number reaches. -/
def report (f : Fault) : Text :=
  let location : Text := match f.line with
    | none => ""
    | some n => "Line " ++ Text.ofInt n ++ ": "
  let start : Text := "    " ++ location
  let indent : Text := List.replicate start.length ' '
  rule ++ f.kind.title ++ "Exception\n"
    ++ start ++ Text.join indent (wrap f.kind.description)
    ++ indent ++ "INFO: " ++ Text.join indent (wrap f.message)

end Fault
end Pyramid
