import BinaryAutomata.Proofs.Splitting
import BinaryAutomata.Proofs.WalkLog

/-! A printed evaluation can be read back. Its last line is the verdict, and the lines above come apart at
the arrows into the names if no name has an arrow in it. Names may still begin and end with parts of an
arrow, and they may have line breaks and verdicts in them. -/
namespace BinaryAutomata

open Text

/-- A name may end with up to three letters of the arrow and its blanks. What stands behind them is the
blank before the next name's arrow, where they would have to go on with a dash or the head. -/
theorem Text.clear_of_arrowless {name : String} (arrowless : name.contains "-->" = false) :
    Clear " --> " name := by
  rintro rest front back after rfl nonempty same
  rw [String.contains_string_eq_false_iff, String.toList_append] at arrowless
  have inner : ¬ "-->".toList <:+: back.toList := fun within =>
    arrowless (within.trans (List.suffix_append _ _).isInfix)
  have arrow : " --> ".toList = [' ', '-', '-', '>', ' '] := rfl
  have same := congrArg String.toList same
  simp only [String.toList_append, arrow] at same
  match letters : back.toList with
  | [] => exact nonempty (String.toList_eq_nil_iff.mp letters)
  | [_] | [_, _] | [_, _, _] => simp [letters] at same
  | _ :: _ :: _ :: _ :: more =>
    simp only [letters, List.cons_append, List.cons.injEq] at same
    obtain ⟨rfl, rfl, rfl, rfl, _⟩ := same
    exact inner (letters ▸ ⟨[' '], more, rfl⟩)

theorem Verdict.sentence_inj {verdict verdict' : Verdict} :
    verdict.sentence = verdict'.sentence ↔ verdict = verdict' := by
  cases verdict <;> cases verdict' <;> decide

/-- The trace has a name, and no arrow in any. -/
structure Trace.Legible (trace : Trace) : Prop where
  nonempty : trace.names ≠ []
  arrowless : ∀ name ∈ trace.names, name.contains "-->" = false

theorem Trace.Legible.pieces_text {trace : Trace} (legible : trace.Legible) :
    pieces " --> " trace.text = trace.names :=
  pieces_intercalate (by decide) legible.nonempty fun name listed =>
    clear_of_arrowless (legible.arrowless name listed)

namespace Evaluation

variable {e e' : Evaluation}

theorem lastBreak_text (e : Evaluation) : LastBreak e.text e.trace.text e.verdict.sentence where
  parts := rfl
  unbroken := by cases e.verdict <;> decide

theorem lastBreak_text_iff : LastBreak e.text before line ↔
    before = e.trace.text ∧ line = e.verdict.sentence := by
  constructor
  · intro cut
    exact cut.unique e.lastBreak_text
  · rintro ⟨rfl, rfl⟩
    exact e.lastBreak_text

theorem text_eq_iff (legible : e.trace.Legible) (legible' : e'.trace.Legible) :
    e.text = e'.text ↔ e.verdict = e'.verdict ∧ e.trace.names = e'.trace.names := by
  constructor
  · intro same
    obtain ⟨traces, sentences⟩ := lastBreak_text_iff.mp (same ▸ e.lastBreak_text)
    rw [← legible.pieces_text, ← legible'.pieces_text, traces]
    exact ⟨Verdict.sentence_inj.mp sentences, rfl⟩
  · rintro ⟨verdicts, names⟩
    rw [text, text, Trace.text, Trace.text, verdicts, names]

end Evaluation

namespace Automaton

/-- An evaluation of the automaton that succeeds, and the length of its input, be that text or a word. -/
inductive Yields (d : Automaton) : Nat → Evaluation → Prop where
  | word : (d.evaluateSymbols word).result = .ok e → Yields d word.length e
  | input : (d.evaluate input).result = .ok e → Yields d input.length e

/-- No live state has an arrow in its name. -/
def Arrowless (d : Automaton) : Prop := ∀ v ∈ d.states, v.state.name.contains "-->" = false

variable {d d' : Automaton} {e e' : Evaluation}

theorem Yields.exists_word (yields : d.Yields length e) :
    ∃ word, word.length = length ∧ (d.evaluateSymbols word).result = .ok e := by
  cases yields with
  | word ran => exact ⟨_, rfl, ran⟩
  | @input input _ ran =>
    cases read : d.alphabet.parse input with
    | error cause =>
      rw [evaluate_of_unread read] at ran
      contradiction
    | ok word =>
      rw [evaluate_of_read read] at ran
      refine ⟨word, ?_, ran⟩
      rw [← String.length_toList, Alphabet.parse_eq_ok_iff.mp read, List.length_map]

theorem Coherent.names_yielded (coherent : d.Coherent) (yields : d.Yields length e) :
    e.trace.names.length = length + 1 ∧
      ∀ name ∈ e.trace.names, ∃ v ∈ d.states, v.state.name = name := by
  obtain ⟨word, rfl, ran⟩ := yields.exists_word
  obtain ⟨visited, last, ⟨_, _, path⟩, rfl⟩ := coherent.evaluateSymbols_eq_ok_iff.mp ran
  rw [evaluation_names]
  refine ⟨by rw [List.length_map, path.length_visited], ?_⟩
  intro name listed
  obtain ⟨h, visits, rfl⟩ := List.mem_map.mp listed
  obtain ⟨q, live⟩ := contains_iff.mp (path.visited_live h visits)
  exact ⟨d.view h q, view_mem_states live, (nameOf_eq live).symm⟩

theorem Coherent.legible (coherent : d.Coherent) (arrowless : d.Arrowless) (yields : d.Yields length e) :
    e.trace.Legible := by
  obtain ⟨count, named⟩ := coherent.names_yielded yields
  refine ⟨List.ne_nil_of_length_eq_add_one count, ?_⟩
  intro name listed
  obtain ⟨v, live, rfl⟩ := named name listed
  exact arrowless v live

/-- The text of an evaluation is cut at its last line break into the trace above and the sentence of its
verdict, and of no other, below; and the trace comes apart at the arrows into its names, one more than
there are symbols in the input. So two texts are the same just if their verdicts and names are. -/
theorem evaluation_reads_back (arises : d.Arises) (arrowless : d.Arrowless) (yields : d.Yields length e) :
    (∀ before line, LastBreak e.text before line ↔ before = e.trace.text ∧ line = e.verdict.sentence) ∧
    (∀ verdict, e.verdict.sentence = Verdict.sentence verdict ↔ e.verdict = verdict) ∧
    pieces " --> " e.trace.text = e.trace.names ∧
    e.trace.names.length = length + 1 ∧
    ∀ d' length' e', Arises d' → Arrowless d' → Yields d' length' e' →
      (e.text = e'.text ↔ e.verdict = e'.verdict ∧ e.trace.names = e'.trace.names) := by
  have coherent := arises.coherent
  have legible := coherent.legible arrowless yields
  refine ⟨fun _ _ => Evaluation.lastBreak_text_iff, fun _ => Verdict.sentence_inj, legible.pieces_text,
    (coherent.names_yielded yields).1, ?_⟩
  intro d' length' e' arises' arrowless' yields'
  exact Evaluation.text_eq_iff legible (arises'.coherent.legible arrowless' yields')

/-- One name ends with the shaft of an arrow. The other begins with the head of one, and its second line
is the sentence of a verdict. -/
def dashed : Automaton where
  tag := 0
  alphabet := .standard
  arena := ⟨#[some ⟨"x --", some ⟨0, 1⟩, none⟩, some ⟨"> y\nInput rejected.", none, none⟩]⟩
  names := ⟨[("> y\nInput rejected.", ⟨0, 1⟩), ("x --", ⟨0, 0⟩)]⟩
  initial := some ⟨0, 0⟩
  finals := [⟨0, 1⟩]

/-- The parts of arrows make no arrow, and of the two verdicts the last one counts. -/
theorem dashed_reads_back : dashed.Arises ∧ dashed.Arrowless ∧
    ∃ e, dashed.Yields 1 e ∧ e.text = "x -- --> > y\nInput rejected.\nInput accepted." ∧
      pieces " --> " "x -- --> > y\nInput rejected." = ["x --", "> y\nInput rejected."] ∧
      ∀ before line, LastBreak e.text before line → line = "Input accepted." := by
  have arises : dashed.Arises := arises_of_replay [.found .standard,
    .edit 0 (.add ⟨"x --", none, none, true, false⟩),
    .edit 0 (.add ⟨"> y\nInput rejected.", none, none, false, true⟩),
    .edit 0 (.connect ⟨0, 0⟩ .a ⟨0, 1⟩)] 0 (by decide +kernel)
  have arrowless : dashed.Arrowless := by
    simp only [Arrowless, String.contains_string_eq_false_iff]
    decide +kernel
  have ran : (dashed.evaluate "a").result =
      .ok ⟨.accepted, ⟨[⟨⟨0, 0⟩, "x --"⟩, ⟨⟨0, 1⟩, "> y\nInput rejected."⟩]⟩⟩ := by decide +kernel
  have yields : dashed.Yields "a".length _ := .input ran
  obtain ⟨cut, _, apart, _⟩ := evaluation_reads_back arises arrowless yields
  have text : Trace.text ⟨[⟨⟨0, 0⟩, "x --"⟩, ⟨⟨0, 1⟩, "> y\nInput rejected."⟩]⟩ =
    "x -- --> > y\nInput rejected." := by decide +kernel
  refine ⟨arises, arrowless, _, yields, by decide +kernel, text ▸ apart, ?_⟩
  intro before line found
  exact ((cut before line).mp found).2

end Automaton
end BinaryAutomata
