import BinaryAutomata.Proofs.Abstraction
import BinaryAutomata.Proofs.Visits

/-! What an evaluation logs, line by line with levels, texts and fields. The log tells the walk step by
step, as the trace does: all of it and then the verdict if the input can be run, and the part before the
first hole if it cannot. -/
namespace BinaryAutomata

def stepLine (source target : String) (c : Char) : Event.Printed :=
  ⟨.trace, "step", [("from", .text source), ("to", .text target), ("symbol", .text (String.singleton c))]⟩

def evaluatedLine (symbols : Nat) (last : String) (verdict : Verdict) : Event.Printed :=
  ⟨.debug, "evaluated input",
    [("symbols", .count symbols), ("last", .text last), ("verdict", .text verdict.text)]⟩

/-- One line for each character, from a name to the next. -/
structure StepsAlong (lines : List Event.Printed) (names : List String) (chars : List Char) : Prop where
  length_names : names.length = chars.length + 1
  length_lines : lines.length = chars.length
  step {i : Nat} {source target : String} {c : Char} : names[i]? = some source →
    names[i + 1]? = some target → chars[i]? = some c → lines[i]? = some (stepLine source target c)

namespace StepsAlong

theorem nil : StepsAlong [] [name] [] where
  length_names := rfl
  length_lines := rfl
  step _ _ read := by simp at read

theorem cons (steps : StepsAlong lines (target :: names) chars) :
    StepsAlong (stepLine source target c :: lines) (source :: target :: names) (c :: chars) where
  length_names := congrArg Nat.succ steps.length_names
  length_lines := congrArg Nat.succ steps.length_lines
  step {i _ _ _} before after read := by
    cases i with
    | zero =>
      cases before
      cases after
      cases read
      rfl
    | succ i => exact steps.step before after read

/-- The last step goes to the last name. -/
theorem getLast? (steps : StepsAlong lines names chars) (last : names.getLast? = some name)
    (some_read : chars ≠ []) : ∃ source c, lines.getLast? = some (stepLine source name c) := by
  obtain ⟨n, length⟩ := Nat.exists_eq_add_one_of_ne_zero
    (mt List.length_eq_zero_iff.mp some_read)
  have names_length := steps.length_names
  have lines_length := steps.length_lines
  have before : n < names.length := by omega
  have read : n < chars.length := by omega
  rw [List.getLast?_eq_getElem?, show names.length - 1 = n + 1 by omega] at last
  refine ⟨names[n], chars[n], ?_⟩
  rw [List.getLast?_eq_getElem?, show lines.length - 1 = n by omega]
  exact steps.step (List.getElem?_eq_getElem before) last (List.getElem?_eq_getElem read)

end StepsAlong

namespace Automaton

variable {d : Automaton} {g h : StateId} {q : State} {word : List Symbol} {visited : List StateId}

theorem Path.visited_eq_cons (path : Path d g word visited h) : ∃ rest, visited = g :: rest := by
  cases path with
  | nil => exact ⟨[], rfl⟩
  | cons => exact ⟨_, rfl⟩

theorem printed_walk_cons (followed : d.follow? q s = some (target, next)) (read : Nat)
    (h : StateId) (word : List Symbol) : (d.walk read h q (s :: word)).printed =
      stepLine q.name next.name (d.alphabet.charOf s) :: (d.walk (read + 1) target next word).printed := by
  simp only [walk, followed, Report.log, Report.bind_ok]
  exact congrArg (stepLine _ _ _ :: ·) (Report.printed_map _ _)

theorem printed_walk_nil (d : Automaton) (read : Nat) (h : StateId) (q : State) :
    (d.walk read h q []).printed = [evaluatedLine read q.name (.ofBool (d.isFinal h))] := rfl

theorem printed_walk_of_hole (live : d.find? h = some q) (hole : d.Hole h s) (read : Nat)
    (word : List Symbol) : (d.walk read h q (s :: word)).printed = [] := by
  simp [walk, (follow?_eq_none_iff live).mpr hole, Report.fail, Report.printed]

/-- Along a path a walk logs its steps, and after them what it logs from where the path ends. -/
theorem printed_walk_append (path : Path d g before visited h) (live : d.find? g = some q)
    (ends : d.find? h = some p) (after : List Symbol) (read : Nat) :
    ∃ steps, StepsAlong steps (visited.map d.nameOf) (before.map d.alphabet.charOf) ∧
      (d.walk read g q (before ++ after)).printed =
        steps ++ (d.walk (read + before.length) h p after).printed := by
  induction path generalizing read q with
  | nil _ =>
    cases Option.some.inj (live.symm.trans ends)
    exact ⟨[], .nil, rfl⟩
  | @cons g s next before visited h _ edge rest ih =>
    obtain ⟨r, begins⟩ := contains_iff.mp rest.start_live
    have followed : d.follow? q s = some (next, r) :=
      follow?_eq_some_iff.mpr ⟨(transition?_eq live s).symm.trans edge, begins⟩
    obtain ⟨steps, along, logged⟩ := ih begins ends (read + 1)
    obtain ⟨others, rfl⟩ := rest.visited_eq_cons
    refine ⟨stepLine q.name r.name (d.alphabet.charOf s) :: steps, ?_, ?_⟩
    · simp only [List.map_cons, nameOf_eq live, nameOf_eq begins] at along ⊢
      exact along.cons
    · rw [List.cons_append, printed_walk_cons followed, logged, List.length_cons, Nat.add_assoc,
        Nat.add_comm 1, List.cons_append]

namespace Walks

theorem printed_append (walks : d.Walks before visited h) (live : d.find? h = some q)
    (after : List Symbol) :
    ∃ steps, StepsAlong steps (visited.map d.nameOf) (before.map d.alphabet.charOf) ∧
      (d.evaluateSymbols (before ++ after)).printed =
        steps ++ (d.walk before.length h q after).printed := by
  obtain ⟨start, initial, path⟩ := walks
  obtain ⟨p, begins⟩ := contains_iff.mp path.start_live
  obtain ⟨steps, along, logged⟩ := printed_walk_append path begins live after 0
  rw [Nat.zero_add] at logged
  exact ⟨steps, along, by rw [evaluateSymbols_of_initial initial begins, logged]⟩

theorem printed (walks : d.Walks word visited last) :
    ∃ steps, StepsAlong steps (visited.map d.nameOf) (word.map d.alphabet.charOf) ∧
      (d.evaluateSymbols word).printed =
        steps ++ [evaluatedLine word.length (d.nameOf last) (.ofBool (d.isFinal last))] := by
  obtain ⟨q, live⟩ := contains_iff.mp walks.end_live
  obtain ⟨steps, along, logged⟩ := walks.printed_append live []
  rw [List.append_nil] at logged
  exact ⟨steps, along, by rw [logged, printed_walk_nil, nameOf_eq live]⟩

theorem printed_of_hole (walks : d.Walks before visited h) (hole : d.Hole h s) (after : List Symbol) :
    StepsAlong (d.evaluateSymbols (before ++ s :: after)).printed (visited.map d.nameOf)
      (before.map d.alphabet.charOf) := by
  obtain ⟨q, live⟩ := contains_iff.mp walks.end_live
  obtain ⟨steps, along, logged⟩ := walks.printed_append live (s :: after)
  rw [logged, printed_walk_of_hole live hole, List.append_nil]
  exact along

end Walks

theorem evaluation_names (d : Automaton) (visited : List StateId) (last : StateId) :
    (d.evaluation visited last).trace.names = visited.map d.nameOf := by
  simp [evaluation, Trace.names]

theorem evaluate_of_read (read : d.alphabet.parse input = .ok word) :
    d.evaluate input = d.evaluateSymbols word := by
  simp [evaluate, Report.ofExcept, read]

theorem evaluate_of_unread (unread : d.alphabet.parse input = .error cause) :
    d.evaluate input = Report.fail cause := by
  simp [evaluate, Report.ofExcept, unread, Report.fail]

theorem evaluate_spell (d : Automaton) (word : List Symbol) :
    d.evaluate (String.ofList (word.map d.alphabet.charOf)) = d.evaluateSymbols word :=
  evaluate_of_read (d.alphabet.parse_spell word)

/-- What an input has logged that can be run to its end. -/
theorem Walks.log_matches (walks : d.Walks word visited last) {input : String}
    (spelled : input.toList = word.map d.alphabet.charOf) :
    ∃ steps last', StepsAlong steps (d.evaluation visited last).trace.names input.toList ∧
      (d.evaluation visited last).trace.names.getLast? = some last' ∧
      (d.evaluateSymbols word).printed =
        steps ++ [evaluatedLine input.length last' (d.evaluation visited last).verdict] := by
  obtain ⟨steps, along, logged⟩ := walks.printed
  have length : input.length = word.length := by simp [← String.length_toList, spelled]
  obtain ⟨_, _, path⟩ := walks
  refine ⟨steps, d.nameOf last, ?_, ?_, ?_⟩
  · rw [evaluation_names, spelled]
    exact along
  · rw [evaluation_names, List.getLast?_map, path.getLast?_visited, Option.map_some]
  · rw [logged, length]
    rfl

/-- What an input that goes on through a hole is refused for, and what it has logged by then. -/
theorem Coherent.logged_to_hole (coherent : d.Coherent) {input : String}
    (walks : d.Walks before visited h) (hole : d.Hole h s)
    (spelled : input.toList = (before ++ s :: after).map d.alphabet.charOf)
    (logged : StepsAlong lines (visited.map d.nameOf) (before.map d.alphabet.charOf)) :
    ∃ before after e, input.toList = before ++ d.alphabet.charOf s :: after ∧
      (d.evaluate (String.ofList before)).result = .ok e ∧
      (∀ longer, longer <+: input.toList → before.length < longer.length →
        ¬ ∃ e, (d.evaluate (String.ofList longer)).result = .ok e) ∧
      StepsAlong lines e.trace.names before ∧
      (before = [] → d.initialName? = some (d.nameOf h)) ∧
      (before ≠ [] → ∃ source c, lines.getLast? = some (stepLine source (d.nameOf h) c)) := by
  have whole := walks
  obtain ⟨start, initial, path⟩ := walks
  have last : (visited.map d.nameOf).getLast? = some (d.nameOf h) := by
    rw [List.getLast?_map, path.getLast?_visited, Option.map_some]
  refine ⟨before.map d.alphabet.charOf, after.map d.alphabet.charOf, d.evaluation visited h,
    by simpa using spelled, ?_, ?_, ?_, ?_, logged.getLast? last⟩
  · rw [evaluate_spell]
    exact evaluateSymbols_of_walks whole
  · intro longer part more
    rw [spelled, List.prefix_map_iff] at part
    obtain ⟨word, part, rfl⟩ := part
    simp only [evaluate_spell, coherent.evaluateSymbols_eq_ok_iff]
    rintro ⟨_, visited', last', walks', _⟩
    simp only [List.length_map] at more
    exact (whole.hole_iff_longest s after).mp hole word part more ⟨visited', last', walks'⟩
  · rw [evaluation_names]
    exact logged
  · intro none
    rw [List.map_eq_nil_iff] at none
    subst none
    cases path
    rw [coherent.initialName?_eq, initial, Option.map_some]

/-- An input that cannot be read, or finds no initial state, logs nothing. One that can be run logs a
line for each of its characters, from a name of the trace to the next, and then one with their number, the
last name and the verdict. One that cannot logs the steps of its longest part that can, and no more:
the error names the character after that part and the state to which the last step went, or the initial
state if there was none. -/
theorem evaluation_is_logged (arises : d.Arises) (input : String) :
    (∀ found position alphabet,
      (d.evaluate input).result = .error (.invalidSymbol found position alphabet) →
      (d.evaluate input).printed = []) ∧
    ((d.evaluate input).result = .error .noInitialState → (d.evaluate input).printed = []) ∧
    (∀ e, (d.evaluate input).result = .ok e →
      ∃ steps last, StepsAlong steps e.trace.names input.toList ∧
        e.trace.names.getLast? = some last ∧
        (d.evaluate input).printed = steps ++ [evaluatedLine input.length last e.verdict]) ∧
    ∀ name c, (d.evaluate input).result = .error (.missingTransition name c) →
      ∃ before after e, input.toList = before ++ c :: after ∧
        (d.evaluate (String.ofList before)).result = .ok e ∧
        (∀ longer, longer <+: input.toList → before.length < longer.length →
          ¬ ∃ e, (d.evaluate (String.ofList longer)).result = .ok e) ∧
        StepsAlong (d.evaluate input).printed e.trace.names before ∧
        (before = [] → d.initialName? = some name) ∧
        (before ≠ [] → ∃ source c',
          (d.evaluate input).printed.getLast? = some (stepLine source name c')) := by
  have coherent := arises.coherent
  cases read : d.alphabet.parse input with
  | error cause =>
    obtain ⟨c, i, rfl⟩ := Alphabet.parseFrom_eq_error read
    rw [evaluate_of_unread read]
    refine ⟨fun _ _ _ _ => rfl, fun _ => rfl, ?_, ?_⟩
    · rintro e ⟨⟩
    · rintro name c ⟨⟩
  | ok word =>
    rw [evaluate_of_read read]
    have spelled := Alphabet.parse_eq_ok_iff.mp read
    obtain unset | ⟨visited, last, walks⟩ | ⟨before, s, after, visited, h, q, rfl, walks, _, hole⟩ :=
      coherent.walks_or_fails word
    · have silent : d.evaluateSymbols word = Report.fail .noInitialState := by
        simp [evaluateSymbols, unset]
      rw [silent]
      refine ⟨fun _ _ _ _ => rfl, fun _ => rfl, ?_, ?_⟩
      · rintro e ⟨⟩
      · rintro name c ⟨⟩
    · rw [evaluateSymbols_of_walks walks]
      refine ⟨?_, ?_, ?_, ?_⟩
      · rintro found position alphabet ⟨⟩
      · rintro ⟨⟩
      · rintro e ⟨⟩
        exact walks.log_matches spelled
      · rintro name c ⟨⟩
    · rw [walks.stops hole]
      refine ⟨?_, ?_, ?_, ?_⟩
      · rintro found position alphabet ⟨⟩
      · rintro ⟨⟩
      · rintro e ⟨⟩
      · rintro name c ⟨⟩
        exact coherent.logged_to_hole walks hole spelled (walks.printed_of_hole hole after)

/-- The sample runs one input to its end and stops in another after its second character. -/
theorem sample_logs : sample.Arises ∧
    (∃ steps, StepsAlong steps ["p", "s"] ['a'] ∧
      (sample.evaluate "a").printed = steps ++ [⟨.debug, "evaluated input",
        [("symbols", .count 1), ("last", .text "s"), ("verdict", .text "accepted")]⟩]) ∧
    (sample.evaluate "abba").result = .error (.missingTransition "p" 'b') ∧
    ∃ source c, (sample.evaluate "abba").printed.getLast? = some (stepLine source "p" c) := by
  refine ⟨sample_arises, ?_, rfl, ?_⟩
  · obtain ⟨steps, last, along, ends, logged⟩ :=
      (evaluation_is_logged sample_arises "a").2.2.1 _ rfl
    cases ends
    exact ⟨steps, along, logged⟩
  · obtain ⟨before, after, e, split, _, _, _, first, later⟩ :=
      (evaluation_is_logged sample_arises "abba").2.2.2 _ _ rfl
    apply later
    rintro rfl
    cases split

end Automaton
end BinaryAutomata
