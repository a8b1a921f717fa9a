import BinaryAutomata.Proofs.Listing
import BinaryAutomata.Proofs.Slots
import BinaryAutomata.Proofs.Summary
import BinaryAutomata.Proofs.Visits
import BinaryAutomata.Proofs.WalkLog

/-! Renaming a state. Its new name stands wherever the old one did, and nothing else changes: words visit
the same states and stop at the same holes, and all listings name the same handles. To give the state its
old name back undoes it, except that the index of names may hold its entries in another order, which
nothing shows. -/
namespace BinaryAutomata.Automaton

/-- The word leads to `h` and finds a hole there on its next symbol, `s`. -/
def StopsAt (d : Automaton) (word : List Symbol) (h : StateId) (s : Symbol) : Prop :=
  ∃ before after visited, word = before ++ s :: after ∧ d.Walks before visited h ∧ d.Hole h s

/-- Whatever is asked of the two automata, the answers are the same, and so is what is logged. -/
structure Indistinguishable (d d' : Automaton) : Prop where
  alphabet : d'.alphabet = d.alphabet
  size : d'.size = d.size
  contains : d'.contains = d.contains
  isInitial : d'.isInitial = d.isInitial
  isFinal : d'.isFinal = d.isFinal
  state? : d'.state? = d.state?
  stateNamed? : d'.stateNamed? = d.stateNamed?
  states : d'.states = d.states
  initialState? : d'.initialState? = d.initialState?
  initialName? : d'.initialName? = d.initialName?
  finalStates : d'.finalStates = d.finalStates
  finalNames : d'.finalNames = d.finalNames
  transition? : d'.transition? = d.transition?
  transitions : d'.transitions = d.transitions
  holes : d'.holes = d.holes
  isComplete : d'.isComplete = d.isComplete
  evaluateSymbols : d'.evaluateSymbols = d.evaluateSymbols
  evaluate : d'.evaluate = d.evaluate
  accepts : d'.accepts = d.accepts
  reachable : d'.reachable = d.reachable
  isEmpty : d'.isEmpty = d.isEmpty

variable {d d' : Automaton} {g h : StateId} {q : State} {s : Symbol}

/-- Walks depend on where they begin and on what can be followed from there. -/
theorem Walks.transfer (walks : d.Walks word visited last) (initial : d'.initial = d.initial)
    (live : d'.contains = d.contains) (edges : d'.transition? = d.transition?) :
    d'.Walks word visited last := by
  obtain ⟨start, held, path⟩ := walks
  refine ⟨start, initial.trans held, path.transfer ?_ fun _ _ => by rw [edges]⟩
  rw [live]
  exact path.visited_live

section
variable (live : d.find? h = some q) (name : String)
include live

theorem contains_renameState : (d.renameState h q name).contains = d.contains := by
  funext g
  rw [Bool.eq_iff_iff, (rewritten_renameState live name).contains_of_live live]

theorem nameOf_renameState (g : StateId) :
    (d.renameState h q name).nameOf g = if g = h then name else d.nameOf g := by
  split
  · subst g
    exact (rewritten_renameState live name).nameOf_self
  · rename_i other
    exact (rewritten_renameState live name).nameOf_of_ne other

theorem edges_renameState : (d.renameState h q name).transition? = d.transition? := by
  funext g s
  exact transition?_renameState live name g s

theorem leadsTo?_renameState : (d.renameState h q name).leadsTo? = d.leadsTo? := by
  funext g s
  rw [leadsTo?, leadsTo?, edges_renameState live, contains_renameState live]

theorem Walks.renameState (walks : d.Walks word visited last) :
    (d.renameState h q name).Walks word visited last :=
  walks.transfer rfl (contains_renameState live name) (edges_renameState live name)

theorem hole_renameState (hole : d.Hole g s) : (d.renameState h q name).Hole g s := by
  rwa [← leadsTo?_eq_none_iff, leadsTo?_renameState live, leadsTo?_eq_none_iff]

/-- The new name stands in the trace at the places where the state does. -/
theorem names_evaluation_renameState (visited : List StateId) (last : StateId) :
    ((d.renameState h q name).evaluation visited last).trace.names =
      (d.evaluation visited last).trace.visits.map fun visit =>
        if visit.id = h then name else visit.name := by
  rw [evaluation_names, funext (nameOf_renameState live name), evaluation, List.map_map]
  rfl

end

/-- Words are run without the index of names. -/
theorem walk_withNames (names : NameIndex) (read : Nat) (h : StateId) (q : State)
    (word : List Symbol) :
    { d with names := names }.walk read h q word = d.walk read h q word := by
  induction word generalizing read h q with
  | nil => rfl
  | cons s word ih =>
    simp only [walk, ih]
    rfl

namespace Coherent

theorem evaluated_renameState (coherent : d.Coherent) (live : d.find? h = some q) (name : String)
    (evaluated : (d.evaluate input).result = .ok e) :
    ∃ e', ((d.renameState h q name).evaluate input).result = .ok e' ∧ e'.verdict = e.verdict ∧
      e'.trace.states = e.trace.states ∧
      e'.trace.names = e.trace.visits.map fun visit => if visit.id = h then name else visit.name := by
  cases read : d.alphabet.parse input with
  | error cause =>
    rw [evaluate_of_unread read] at evaluated
    contradiction
  | ok word =>
    rw [evaluate_of_read read] at evaluated
    obtain ⟨visited, last, walks, rfl⟩ := coherent.evaluateSymbols_eq_ok_iff.mp evaluated
    refine ⟨(d.renameState h q name).evaluation visited last, ?_, rfl, ?_, ?_⟩
    · rw [evaluate_of_read (d := d.renameState h q name) read]
      exact evaluateSymbols_of_walks (walks.renameState live name)
    · rw [states_evaluation, states_evaluation]
    · exact names_evaluation_renameState live name visited last

theorem refused_renameState (coherent : d.Coherent) (live : d.find? h = some q) (name : String)
    (refused : (d.evaluate input).result = .error cause) :
    ((∀ state c, cause ≠ .missingTransition state c) ∧
      ((d.renameState h q name).evaluate input).result = .error cause) ∨
    ∃ word g s, d.alphabet.parse input = .ok word ∧ d.StopsAt word g s ∧
      cause = .missingTransition (d.nameOf g) (d.alphabet.charOf s) ∧
      ((d.renameState h q name).evaluate input).result =
        .error (.missingTransition (if g = h then name else d.nameOf g) (d.alphabet.charOf s)) := by
  cases read : d.alphabet.parse input with
  | error problem =>
    obtain ⟨c, i, rfl⟩ := Alphabet.parseFrom_eq_error read
    rw [evaluate_of_unread read] at refused
    cases refused
    exact .inl ⟨nofun, by rw [evaluate_of_unread (d := d.renameState h q name) read]; rfl⟩
  | ok word =>
    rw [evaluate_of_read read] at refused
    rw [evaluate_of_read (d := d.renameState h q name) read]
    obtain ⟨rfl, unset⟩ | ⟨before, s, after, visited, g, p, rfl, walks, held, hole, rfl⟩ :=
      coherent.evaluateSymbols_eq_error_iff.mp refused
    · have unsetToo : (d.renameState h q name).initial = none := unset
      exact .inl ⟨nofun, by simp [evaluateSymbols, unsetToo, Report.fail]⟩
    · right
      refine ⟨_, g, s, rfl, ⟨before, after, visited, rfl, walks, hole⟩, by rw [nameOf_eq held], ?_⟩
      rw [(walks.renameState live name).stops (hole_renameState live name hole),
        Automaton.nameOf_renameState live]
      rfl

/-- Automata that differ in their indices of names alone do not differ in what the indices say. -/
theorem indistinguishable {names : NameIndex} (coherent : d.Coherent)
    (coherentToo : { d with names := names }.Coherent) :
    d.Indistinguishable { d with names := names } := by
  have runs : { d with names := names }.evaluateSymbols = d.evaluateSymbols := by
    funext word
    simp only [evaluateSymbols, walk_withNames]
    rfl
  have reached : { d with names := names }.reachable = d.reachable := reachable_congr rfl rfl rfl rfl
  exact {
    alphabet := rfl
    size := by
      rw [coherentToo.size_eq_length_states, coherent.size_eq_length_states]
      rfl
    contains := rfl
    isInitial := rfl
    isFinal := rfl
    state? := rfl
    stateNamed? := by
      funext name
      refine Option.ext fun g => ?_
      rw [coherentToo.stateNamed?_eq_some_iff, coherent.stateNamed?_eq_some_iff]
      rfl
    states := rfl
    initialState? := rfl
    initialName? := rfl
    finalStates := rfl
    finalNames := rfl
    transition? := rfl
    transitions := rfl
    holes := rfl
    isComplete := rfl
    evaluateSymbols := runs
    evaluate := by
      funext input
      rw [evaluate, runs, evaluate]
    accepts := by
      funext input
      rw [accepts, evaluate, runs, accepts, evaluate]
    reachable := reached
    isEmpty := by rw [isEmpty, isEmpty, reached] }

/-- The old name is free again, and giving it back leaves nothing to tell the automaton from what it was. -/
theorem renamed_back (coherent : d.Coherent) (live : d.find? h = some q) (named : name ≠ "")
    (free : ∀ holder, d.names.find? name = some holder → holder = h) :
    ∃ d', ((d.renameState h q name).rename h q.name).result = .ok d' ∧ d.Indistinguishable d' := by
  have rewritten := rewritten_renameState live name
  have renamed := coherent.renameState live named free
  have held : (d.renameState h q name).find? h = some { q with name } :=
    (rewritten.reads h).trans (if_pos rfl)
  have freeToo : ∀ holder, (d.renameState h q name).names.find? q.name = some holder → holder = h := by
    intro holder found
    obtain ⟨p, heldToo, same⟩ := renamed.names_iff.mp found
    rw [rewritten.reads] at heldToo
    split at heldToo
    · assumption
    · have own := coherent.names_iff.mpr ⟨p, heldToo, same⟩
      exact Option.some.inj (own.symm.trans (coherent.names_iff.mpr ⟨q, live, rfl⟩))
  have back := renamed.renameState held (coherent.named live) freeToo
  -- The slot holds what it held at first, so that only the index of names may differ.
  have slot : (d.arena.replace h.index { q with name }).replace h.index q = d.arena := by
    rw [Arena.replace_replace]
    exact Arena.replace_eq_self (Option.ite_none_right_eq_some.mp live).2
  have restored : (d.renameState h q name).renameState h { q with name } q.name =
      { d with names := (((d.names.erase q.name).insert name h).erase name).insert q.name h } := by
    simp only [Automaton.renameState, slot]
  refine ⟨_, rename_eq_ok_iff.mpr ⟨_, held, coherent.named live, freeToo, rfl⟩, ?_⟩
  rw [restored] at back ⊢
  exact coherent.indistinguishable back

end Coherent

/-- A renaming shows in names alone. Every input has the same verdict and visits the same states, and the
trace names them as before but for the new name at the places where the renamed state stands; an error is
the same, but that the one for a hole of the renamed state has its new name. States, edges, holes, the
states that can be reached, the initial state and the order of the final states stay the same, handle by
handle. If the state is given its old name back, then whatever is asked has the answer that it had at
first. -/
theorem renaming_relabels (arises : d.Arises) (renamed : (d.rename h name).result = .ok d') :
    (∀ input e, (d.evaluate input).result = .ok e →
      ∃ e', (d'.evaluate input).result = .ok e' ∧ e'.verdict = e.verdict ∧
        e'.trace.states = e.trace.states ∧
        e'.trace.names = e.trace.visits.map fun visit => if visit.id = h then name else visit.name) ∧
    (∀ input cause, (d.evaluate input).result = .error cause →
      ((∀ state c, cause ≠ .missingTransition state c) ∧
        (d'.evaluate input).result = .error cause) ∨
      ∃ word g s, d.alphabet.parse input = .ok word ∧ d.StopsAt word g s ∧
        cause = .missingTransition (d.nameOf g) (d.alphabet.charOf s) ∧
        (d'.evaluate input).result =
          .error (.missingTransition (if g = h then name else d.nameOf g) (d.alphabet.charOf s))) ∧
    d'.states.map (·.id) = d.states.map (·.id) ∧ d'.transition? = d.transition? ∧
    d'.transitions = d.transitions ∧ d'.holes = d.holes ∧ d'.reachable = d.reachable ∧
    d'.initialState?.map (·.id) = d.initialState?.map (·.id) ∧
    d'.finalStates.map (·.id) = d.finalStates.map (·.id) ∧
    ∃ d'', (d'.rename h (d.nameOf h)).result = .ok d'' ∧ d.Indistinguishable d'' := by
  obtain ⟨q, live, named, free, rfl⟩ := rename_eq_ok_iff.mp renamed
  have coherent := arises.coherent
  have coherentToo := coherent.renameState live named free
  have ids := (rewritten_renameState live name).state_ids live
  have edges := edges_renameState live name
  have leads := leadsTo?_renameState live name
  refine ⟨fun input e => coherent.evaluated_renameState live name,
    fun input cause => coherent.refused_renameState live name, ids, edges, ?_, ?_, ?_, ?_, ?_, ?_⟩
  · rw [transitions_eq, transitions_eq, ids, edges]
  · rw [holes_eq, holes_eq, ids, leads]
  · exact reachable_congr rfl (Arena.size_replace _ _ _) rfl leads
  · rw [coherentToo.initialState?_id, coherent.initialState?_id]
    rfl
  · rw [coherentToo.finalState_ids, coherent.finalState_ids]
    rfl
  · rw [nameOf_eq live]
    exact coherent.renamed_back live named free

/-- The last state of the sample takes the name of the one that was removed. -/
theorem sample_renamed : sample.Arises ∧ ∃ d' d'', (sample.rename ⟨0, 3⟩ "q").result = .ok d' ∧
    (∃ e, (d'.evaluate "aba").result = .ok e ∧ e.verdict = .accepted ∧
      e.trace.names = ["p", "q", "p", "q"]) ∧
    (d'.evaluate "aa").result = .error (.missingTransition "q" 'a') ∧
    d'.holes = [(⟨0, 0⟩, .b), (⟨0, 3⟩, .a)] ∧
    (d'.rename ⟨0, 3⟩ "s").result = .ok d'' ∧ d''.stateNamed? "q" = none ∧
    (d''.evaluate "aa").result = .error (.missingTransition "s" 'a') := by
  have renamed : (sample.rename ⟨0, 3⟩ "q").result = .ok _ := rfl
  obtain ⟨verdicts, _, _, _, _, holes, _, _, _, d'', back, same⟩ :=
    renaming_relabels sample_arises renamed
  obtain ⟨e, evaluated, verdict, _, names⟩ := verdicts "aba" _ rfl
  refine ⟨sample_arises, _, d'', renamed, ⟨e, evaluated, verdict, names⟩, ?_, holes, back, ?_, ?_⟩
  · rfl
  · rw [same.stateNamed?]
    rfl
  · rw [same.evaluate]
    rfl

end BinaryAutomata.Automaton
