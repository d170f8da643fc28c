import Mathlib.Algebra.GroupWithZero.Nat
import RecordGate.Proofs.Json.Decimal
import RecordGate.Proofs.Program.Stages

/-! # The lines of the output

What is printed about a run are the calls that are shown and the verdict, each with a line feed behind it. The
texts of a call are printed as they are, so one with line feeds takes more than one line, and any of them but
the first may read as a verdict (`shown_lines`, `shown_forged`). JSON texts have no line feeds. -/

namespace RecordGate.Program
open Json Host

/-! ### Lines -/

/-- The lines that a text takes when it is printed with a line feed behind it. -/
def pieces (text : String) : List String :=
  (text.toList.splitOn '\n').map String.ofList

/-- The lines of an output: what stands before each line feed. -/
def lines (output : String) : List String :=
  (pieces output).dropLast

/-- How many line feeds are in a text. -/
def lineFeeds (text : String) : Nat :=
  text.toList.count '\n'

theorem length_splitOn (cs : List Char) : (cs.splitOn '\n').length = cs.count '\n' + 1 := by
  induction cs with
  | nil => rfl
  | cons c cs ih =>
    rw [List.splitOn_cons_eq_if_modifyHead, List.count_cons]
    split <;> simp [ih]

theorem length_pieces (text : String) : (pieces text).length = lineFeeds text + 1 := by
  rw [pieces, List.length_map, length_splitOn, lineFeeds]

theorem pieces_eq_singleton {text : String} (h : lineFeeds text = 0) : pieces text = [text] := by
  have hfree : '\n' ∉ text.toList := List.count_eq_zero.mp h
  simp [pieces, List.splitOn_eq_singleton hfree]

theorem pieces_append_lineFeed (text rest : String) : pieces (text ++ "\n" ++ rest) = pieces text ++ pieces rest := by
  have hfeed : "\n".toList = ['\n'] := rfl
  simp [pieces, hfeed, List.splitOn_append_cons_self]

theorem lines_linesText (texts : List String) : lines (linesText texts) = texts.flatMap pieces := by
  have hpieces : pieces (linesText texts) = texts.flatMap pieces ++ [""] := by
    induction texts with
    | nil => rfl
    | cons text texts ih =>
      have hcons : linesText (text :: texts) = text ++ "\n" ++ linesText texts := by
        simp [linesText, String.join_cons]
      rw [hcons, pieces_append_lineFeed, ih, List.flatMap_cons, List.append_assoc]
  rw [lines, hpieces, List.dropLast_concat]

theorem length_flatMap_pieces (texts : List String) :
    (texts.flatMap pieces).length = texts.length + (texts.map lineFeeds).sum := by
  induction texts with
  | nil => rfl
  | cons text texts ih =>
    simp only [List.flatMap_cons, List.length_append, length_pieces, ih, List.length_cons, List.map_cons,
      List.sum_cons]
    omega

theorem flatMap_pieces_eq_iff (texts : List String) :
    texts.flatMap pieces = texts ↔ ∀ text ∈ texts, lineFeeds text = 0 := by
  constructor
  · intro h
    have hlength := length_flatMap_pieces texts
    rw [h] at hlength
    have hnone := List.sum_eq_zero_iff_forall_eq_nat.mp (Nat.left_eq_add.mp hlength)
    exact fun text htext => hnone _ (List.mem_map_of_mem htext)
  · intro h
    induction texts with
    | nil => rfl
    | cons text texts ih =>
      rw [List.flatMap_cons, pieces_eq_singleton (h text List.mem_cons_self),
        ih fun other hother => h other (List.mem_cons_of_mem _ hother)]
      rfl

@[simp] theorem lineFeeds_append (s t : String) : lineFeeds (s ++ t) = lineFeeds s + lineFeeds t := by
  simp [lineFeeds]

@[simp] theorem lineFeeds_ofList (cs : List Char) : lineFeeds (String.ofList cs) = cs.count '\n' := by
  simp [lineFeeds]

/-! ### JSON texts -/

theorem lineFeeds_repr (n : Nat) : lineFeeds n.repr = 0 := by
  rw [← Nat.toString_eq_repr, Nat.toString_eq_ofList_toDigits, lineFeeds_ofList, List.count_eq_zero]
  intro h
  exact absurd (isDigit_toDigits h) (by decide)

theorem lineFeeds_toString (i : Int) : lineFeeds (toString i) = 0 := by
  rw [Int.toString_eq_repr, Int.repr_eq_if]
  split
  · exact lineFeeds_repr _
  · rw [lineFeeds_append, lineFeeds_repr]
    rfl

theorem lineFeeds_pointed {digits : String} (h : lineFeeds digits = 0) (whole : Int) :
    lineFeeds (Double.pointed digits whole) = 0 := by
  have hpart : ∀ cs : List Char, cs.Sublist digits.toList → cs.count '\n' = 0 := fun cs hcs =>
    Nat.le_zero.mp (h ▸ hcs.count_le '\n')
  have hzero : lineFeeds "0." = 0 ∧ lineFeeds ".0" = 0 ∧ lineFeeds "." = 0 := ⟨rfl, rfl, rfl⟩
  simp only [Double.pointed]
  split
  · simp [h, hzero, List.count_replicate]
  split
  · simp [h, hzero, List.count_replicate]
  · simp [hzero, hpart _ (List.take_sublist _ _), hpart _ (List.drop_sublist _ _)]

theorem lineFeeds_withExponent {digits : String} (h : lineFeeds digits = 0) (place : Int) :
    lineFeeds (Double.withExponent digits place) = 0 := by
  have hmarks : lineFeeds "e" = 0 ∧ lineFeeds "-" = 0 ∧ lineFeeds "+" = 0 := ⟨rfl, rfl, rfl⟩
  have hsign : lineFeeds (if place < 0 then "-" else "+") = 0 := by
    split <;> simp [hmarks]
  have hdigits : digits.toList.count '\n' = 0 := h
  simp only [Double.withExponent, lineFeeds_append, hsign, hmarks, Nat.toString_eq_repr, lineFeeds_repr]
  split <;> simp_all [List.count_cons, lineFeeds]

theorem lineFeeds_doubleText (x : Double) : lineFeeds (doubleText x) = 0 := by
  have hmarks : lineFeeds "null" = 0 ∧ lineFeeds "-" = 0 ∧ lineFeeds "0.0" = 0 := ⟨rfl, rfl, rfl⟩
  have hmagnitude : lineFeeds (x.magnitudeText doubleLayout) = 0 := by
    unfold Double.magnitudeText
    split
    · exact hmarks.1
    split
    · exact hmarks.2.2
    · dsimp only
      split
      · exact lineFeeds_pointed (lineFeeds_repr _) _
      · exact lineFeeds_withExponent (lineFeeds_repr _) _
  unfold doubleText Double.text
  split
  · split
    · exact hmarks.1
    split
    · rw [lineFeeds_append, hmagnitude, hmarks.2.1]
    · exact hmagnitude
  · exact hmarks.1

theorem lineFeed_not_mem_escaped (c : Char) : '\n' ∉ escaped c := by
  have hhex : ∀ n < 16, hexDigit n ≠ '\n' := by decide
  unfold escaped
  split
  · decide
  split
  · decide
  split
  · decide
  split
  · decide
  split
  · decide
  split
  · decide
  split
  · decide
  split
  · next hcontrol =>
    simpa using ⟨(hhex _ (by omega)).symm, (hhex _ (by omega)).symm⟩
  · next hfeed _ _ _ => simpa using Ne.symm hfeed

theorem lineFeeds_stringText (s : String) : lineFeeds (stringText s) = 0 := by
  have hcontent : (s.toList.flatMap escaped).count '\n' = 0 := by
    rw [List.count_eq_zero, List.mem_flatMap]
    rintro ⟨c, -, hc⟩
    exact lineFeed_not_mem_escaped c hc
  have hquote : lineFeeds "\"" = 0 := rfl
  simp only [stringText, lineFeeds_append, lineFeeds_ofList, hcontent, hquote]

mutual
theorem lineFeeds_text (value : Value) : lineFeeds value.text = 0 := by
  match value with
  | .null | .bool true | .bool false | .array [] | .object [] => rfl
  | .int i => exact lineFeeds_toString i
  | .double x => exact lineFeeds_doubleText x
  | .string s => exact lineFeeds_stringText s
  | .array (item :: items) =>
    have hmarks : lineFeeds "[" = 0 ∧ lineFeeds "]" = 0 := ⟨rfl, rfl⟩
    simp [Value.text, lineFeeds_text item, lineFeeds_items items, hmarks]
  | .object ((key, value) :: members) =>
    have hmarks : lineFeeds "\x7b" = 0 ∧ lineFeeds ":" = 0 ∧ lineFeeds "\x7d" = 0 := ⟨rfl, rfl, rfl⟩
    simp [Value.text, lineFeeds_stringText, lineFeeds_text value, lineFeeds_members members, hmarks]

theorem lineFeeds_items (items : List Value) : lineFeeds (Value.textOfItems items) = 0 := by
  match items with
  | [] => rfl
  | item :: items =>
    have hcomma : lineFeeds "," = 0 := rfl
    simp [Value.textOfItems, lineFeeds_text item, lineFeeds_items items, hcomma]

theorem lineFeeds_members (members : List (String × Value)) : lineFeeds (Value.textOfMembers members) = 0 := by
  match members with
  | [] => rfl
  | (key, value) :: members =>
    have hmarks : lineFeeds "," = 0 ∧ lineFeeds ":" = 0 := ⟨rfl, rfl⟩
    simp [Value.textOfMembers, lineFeeds_stringText, lineFeeds_text value, lineFeeds_members members, hmarks]
end

/-! ### Calls and verdicts -/

/-- The texts of a call that are shown as they came. -/
def texts : HostCall → List String
  | .diagnostic text => [text]
  | .error field message | .warn field message => [field, message]
  | .setRequired field _ | .setDisplay field _ | .set field _ => [field]

/-- The reason of an abort, which is shown as it came. -/
def reasons : Status → List String
  | .completed => []
  | .aborted reason => [reason]

/-- The calls that are shown: at verbosity zero no diagnostics. -/
def shownCalls (execution : Execution) (verbosity : Nat) : List HostCall :=
  if verbosity = 0 then execution.report.calls.filter (!·.isDiagnostic) else execution.report.calls

/-- All texts that are shown as they came. -/
def shownTexts (execution : Execution) (verbosity : Nat) : List String :=
  (shownCalls execution verbosity).flatMap texts ++ reasons execution.status

/-- The line starts like one of the three verdicts. -/
def ReadsAsVerdict (line : String) : Prop :=
  ∃ start ∈ ["✅ Validation passed", "❌ Validation failed with ", "💥 Validation aborted: "],
    start.toList <+: line.toList

/-- Each shown call takes one line, in order, and the verdict the last one, which alone reads as a verdict. -/
structure OneLineEach (execution : Execution) (verbosity : Nat) : Prop where
  lines_eq : lines (execution.shown verbosity) =
    (shownCalls execution verbosity).map HostCall.shown ++ [execution.verdict]
  verdict : ReadsAsVerdict execution.verdict
  others : ∀ call ∈ shownCalls execution verbosity, ¬ReadsAsVerdict call.shown

theorem lineFeeds_shown (call : HostCall) : lineFeeds call.shown = ((texts call).map lineFeeds).sum := by
  have hmarks : lineFeeds "ℹ️  " = 0 ∧ lineFeeds "❗️ " = 0 ∧ lineFeeds "⚠️  " = 0 ∧ lineFeeds "💬 " = 0 ∧
      lineFeeds "✏️  " = 0 := ⟨rfl, rfl, rfl, rfl, rfl⟩
  have hwords : lineFeeds ": " = 0 ∧ lineFeeds " is " = 0 ∧ lineFeeds " set to " = 0 := ⟨rfl, rfl, rfl⟩
  have hflags : ∀ flag : Bool, lineFeeds (if flag then "required" else "not required") = 0 ∧
      lineFeeds (if flag then "visible" else "not visible") = 0 := by decide
  cases call <;> simp [HostCall.shown, texts, hmarks, hwords, hflags, lineFeeds_text]

theorem lineFeeds_verdict (execution : Execution) :
    lineFeeds execution.verdict = ((reasons execution.status).map lineFeeds).sum := by
  have hstarts : lineFeeds "💥 Validation aborted: " = 0 ∧ lineFeeds "✅ Validation passed" = 0 ∧
      lineFeeds "❌ Validation failed with " = 0 ∧ lineFeeds " error(s)" = 0 := ⟨rfl, rfl, rfl, rfl⟩
  rcases hstatus : execution.status with _ | reason
  · simp only [Execution.verdict, hstatus, reasons]
    split <;> simp [hstarts, lineFeeds_repr]
  · simp [Execution.verdict, hstatus, reasons, hstarts]

theorem readsAsVerdict_verdict (execution : Execution) : ReadsAsVerdict execution.verdict := by
  rcases hstatus : execution.status with _ | reason
  · simp only [Execution.verdict, hstatus]
    split
    · exact ⟨_, List.mem_cons_self, List.prefix_refl _⟩
    · exact ⟨"❌ Validation failed with ", by simp, by simp [String.toList_append]⟩
  · exact ⟨"💥 Validation aborted: ", by simp, by simp [Execution.verdict, hstatus]⟩

theorem not_readsAsVerdict_shown (call : HostCall) : ¬ReadsAsVerdict call.shown := by
  rintro ⟨start, hstart, rest, hrest⟩
  simp only [List.mem_cons, List.not_mem_nil, or_false] at hstart
  rcases hstart with rfl | rfl | rfl <;> cases call <;> simp [HostCall.shown] at hrest

/-! ### The whole output -/

section
variable (execution : Execution) (verbosity : Nat)

/-- What is printed, each with a line feed behind it. -/
def printed : List String :=
  (shownCalls execution verbosity).map HostCall.shown ++ [execution.verdict]

theorem lines_shown : lines (execution.shown verbosity) = (printed execution verbosity).flatMap pieces := by
  rw [shown_eq, lines_linesText]
  rfl

theorem sum_lineFeeds_printed : ((printed execution verbosity).map lineFeeds).sum =
    ((shownTexts execution verbosity).map lineFeeds).sum := by
  have hcalls : ∀ calls : List HostCall, (calls.map fun call => lineFeeds call.shown).sum =
      ((calls.flatMap texts).map lineFeeds).sum := by
    intro calls
    induction calls with
    | nil => rfl
    | cons call calls ih =>
      rw [List.map_cons, List.sum_cons, ih, lineFeeds_shown, List.flatMap_cons, List.map_append, List.sum_append]
  simp [printed, shownTexts, Function.comp_def, hcalls, lineFeeds_verdict]

theorem oneLineEach_iff :
    OneLineEach execution verbosity ↔ ∀ text ∈ shownTexts execution verbosity, lineFeeds text = 0 := by
  have hsum : (∀ text ∈ printed execution verbosity, lineFeeds text = 0) ↔
      ∀ text ∈ shownTexts execution verbosity, lineFeeds text = 0 := by
    have hzero : ((printed execution verbosity).map lineFeeds).sum = 0 ↔
        ((shownTexts execution verbosity).map lineFeeds).sum = 0 := by rw [sum_lineFeeds_printed]
    simpa [List.sum_eq_zero_iff_forall_eq_nat] using hzero
  rw [← hsum, ← flatMap_pieces_eq_iff, ← lines_shown]
  exact ⟨OneLineEach.lines_eq,
    fun h => ⟨h, readsAsVerdict_verdict execution, fun call _ => not_readsAsVerdict_shown call⟩⟩

/-- Each call that is shown takes one line more than it has line feeds in its texts, and so does the verdict. One
    line for each, of which the last alone reads as a verdict, are printed exactly if no text has a line feed. -/
theorem shown_lines :
    lines (execution.shown verbosity) = (printed execution verbosity).flatMap pieces ∧
    (lines (execution.shown verbosity)).length = (shownCalls execution verbosity).length + 1 +
      ((shownTexts execution verbosity).map lineFeeds).sum ∧
    (OneLineEach execution verbosity ↔ ∀ text ∈ shownTexts execution verbosity, '\n' ∉ text.toList) := by
  refine ⟨lines_shown execution verbosity, ?_, ?_⟩
  · rw [lines_shown, length_flatMap_pieces, sum_lineFeeds_printed]
    simp [printed]
  · simp only [oneLineEach_iff, lineFeeds, List.count_eq_zero]

end

/-- An error whose message goes on with a verdict. -/
def forging : Execution :=
  ⟨.completed, ⟨[.error "f" "x\n✅ Validation passed"]⟩, 0⟩

/-- The message of an error passes for a verdict on a line of its own. -/
theorem shown_forged :
    lines (forging.shown 0) =
        ["❗️ f: x", "✅ Validation passed", "❌ Validation failed with 1 error(s)"] ∧
      ReadsAsVerdict "✅ Validation passed" ∧ ¬OneLineEach forging 0 := by
  have hlines : lines (forging.shown 0) =
      ["❗️ f: x", "✅ Validation passed", "❌ Validation failed with 1 error(s)"] := by decide +kernel
  refine ⟨hlines, ⟨_, List.mem_cons_self, List.prefix_refl _⟩, fun h => ?_⟩
  have hlength := congrArg List.length (hlines.symm.trans h.lines_eq)
  exact absurd hlength (by decide)

end RecordGate.Program
