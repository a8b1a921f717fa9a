import BinaryAutomata.Automaton.Walk
import BinaryAutomata.Proofs.Views

/-! Paths through the live states of an automaton, one edge for each symbol of a word. A word has
at most one path from a state, and one that has none fails at a hole, which is the first. -/
namespace BinaryAutomata.Automaton

/-- `Path d g word visited h`: the word leads from `g` through the states visited, both ends
included, to `h`. -/
inductive Path (d : Automaton) : StateId → List Symbol → List StateId → StateId → Prop where
  | nil (live : d.contains h = true) : Path d h [] [h] h
  | cons (live : d.contains g = true) (edge : d.transition? g s = some next)
      (rest : Path d next word visited h) : Path d g (s :: word) (g :: visited) h

/-- The edge of `h` on `s` is unset or dangles. -/
def Hole (d : Automaton) (h : StateId) (s : Symbol) : Prop :=
  ∀ target, d.transition? h s = some target → d.contains target = false

variable {d : Automaton} {g h : StateId} {word : List Symbol} {visited : List StateId}

theorem transition?_eq (live : d.find? h = some q) (s : Symbol) : d.transition? h s = q.on s := by
  simp [transition?, live]

theorem follow?_eq_none_iff (live : d.find? h = some q) : d.follow? q s = none ↔ d.Hole h s := by
  simp only [Hole, transition?_eq live, follow?, Option.bind_eq_none_iff, Option.map_eq_none_iff,
    contains, Option.isSome_eq_false_iff, Option.isNone_iff_eq_none]

theorem not_hole_iff :
    ¬ d.Hole h s ↔ ∃ target, d.transition? h s = some target ∧ d.contains target = true := by
  simp [Hole]

theorem mem_holes : (h, s) ∈ d.holes ↔ d.contains h = true ∧ d.Hole h s := by
  simp only [holes, List.mem_flatMap, List.mem_map, List.mem_filter, Symbol.mem_all, true_and,
    Option.isNone_iff_eq_none, Prod.mk.injEq]
  constructor
  · rintro ⟨v, listed, _, stuck, rfl, rfl⟩
    obtain ⟨q, live, seen⟩ := state?_eq_some_iff.mp (mem_states.mp listed)
    rw [seen] at stuck
    exact ⟨contains_iff.mpr ⟨q, live⟩, (follow?_eq_none_iff live).mp stuck⟩
  · rintro ⟨live, hole⟩
    obtain ⟨q, live⟩ := contains_iff.mp live
    exact ⟨d.view h q, view_mem_states live, s, (follow?_eq_none_iff live).mpr hole, rfl, rfl⟩

theorem mem_transitions : (h, s, target) ∈ d.transitions ↔ d.transition? h s = some target := by
  simp only [transitions, List.mem_flatMap, List.mem_filterMap, Symbol.mem_all, true_and,
    Option.map_eq_some_iff, Prod.mk.injEq]
  constructor
  · rintro ⟨v, listed, _, _, edge, rfl, rfl, rfl⟩
    obtain ⟨q, live, seen⟩ := state?_eq_some_iff.mp (mem_states.mp listed)
    rw [seen] at edge
    exact (transition?_eq live _).trans edge
  · intro edge
    obtain ⟨q, live, leads⟩ := Option.bind_eq_some_iff.mp edge
    exact ⟨d.view h q, view_mem_states live, s, target, leads, rfl, rfl, rfl⟩

namespace Path

theorem start_live (path : Path d g word visited h) : d.contains g = true := by
  cases path with
  | nil live => exact live
  | cons live _ _ => exact live

theorem end_live (path : Path d g word visited h) : d.contains h = true := by
  induction path with
  | nil live => exact live
  | cons _ _ _ ih => exact ih

theorem visited_live (path : Path d g word visited h) : ∀ q ∈ visited, d.contains q = true := by
  induction path with
  | nil live => simpa using live
  | cons live _ _ ih => simpa using ⟨live, ih⟩

theorem length_visited (path : Path d g word visited h) : visited.length = word.length + 1 := by
  induction path with
  | nil => rfl
  | cons _ _ _ ih => simp [ih]

theorem getLast?_visited (path : Path d g word visited h) : visited.getLast? = some h := by
  induction path with
  | nil => rfl
  | cons _ _ _ ih => simp [List.getLast?_cons, ih]

theorem unique (path : Path d g word visited h) (other : Path d g word visited' h') :
    visited = visited' ∧ h = h' := by
  induction path generalizing visited' with
  | nil => cases other; exact ⟨rfl, rfl⟩
  | cons _ edge _ ih =>
    cases other with
    | cons _ edge' rest' =>
      cases Option.some.inj (edge.symm.trans edge')
      obtain ⟨rfl, same⟩ := ih rest'
      exact ⟨rfl, same⟩

theorem append (path : Path d g word visited h) (edge : d.transition? h s = some next)
    (rest : Path d next word' visited' last) :
    Path d g (word ++ s :: word') (visited ++ visited') last := by
  induction path with
  | nil live => exact .cons live edge rest
  | cons live first _ ih => exact .cons live first (ih edge)

theorem split (path : Path d g (before ++ s :: after) visited last) :
    ∃ visited' h next, Path d g before visited' h ∧ d.transition? h s = some next ∧
      d.contains next = true := by
  induction before generalizing g visited with
  | nil =>
    cases path with
    | cons live edge rest => exact ⟨_, g, _, .nil live, edge, rest.start_live⟩
  | cons t before ih =>
    cases path with
    | cons live first rest =>
      obtain ⟨visited', h, next, path, edge, ends⟩ := ih rest
      exact ⟨_, h, next, .cons live first path, edge, ends⟩

theorem suffix_of_mem (path : Path d g word visited h) (member : middle ∈ visited) :
    ∃ word' visited', Path d middle word' visited' h ∧ visited' <:+ visited := by
  induction path with
  | nil live =>
    cases List.mem_singleton.mp member
    exact ⟨_, _, .nil live, List.suffix_refl _⟩
  | cons live edge rest ih =>
    obtain rfl | later := List.mem_cons.mp member
    · exact ⟨_, _, .cons live edge rest, List.suffix_refl _⟩
    · obtain ⟨word', visited', path', part⟩ := ih later
      exact ⟨word', visited', path', part.trans (List.suffix_cons _ _)⟩

/-- Cutting out its cycles leaves a path that visits no state twice. -/
theorem exists_nodup (path : Path d g word visited h) :
    ∃ word' visited', Path d g word' visited' h ∧ visited'.Nodup := by
  induction path with
  | nil live => exact ⟨_, _, .nil live, List.nodup_singleton _⟩
  | @cons g s next word visited h live edge rest ih =>
    obtain ⟨word', visited', path', distinct⟩ := ih
    by_cases again : g ∈ visited'
    · obtain ⟨word'', visited'', path'', part⟩ := path'.suffix_of_mem again
      exact ⟨word'', visited'', path'', distinct.sublist part.sublist⟩
    · exact ⟨_, _, .cons live edge path', List.nodup_cons.mpr ⟨again, distinct⟩⟩

/-- No word that goes on through the hole after the path has a path itself. -/
theorem none_through_hole (path : Path d g before visited h) (hole : d.Hole h s) :
    ¬ Path d g (before ++ s :: after) visited' last := by
  intro through
  obtain ⟨_, middle, next, path', edge, ends⟩ := through.split
  obtain ⟨_, rfl⟩ := path.unique path'
  exact absurd ends (by simp [hole next edge])

end Path

theorem path_or_hole (live : d.contains g = true) (word : List Symbol) :
    (∃ visited h, Path d g word visited h) ∨ ∃ before s after visited h,
      word = before ++ s :: after ∧ Path d g before visited h ∧ d.Hole h s := by
  induction word generalizing g with
  | nil => exact .inl ⟨_, g, .nil live⟩
  | cons s word ih =>
    by_cases hole : d.Hole g s
    · exact .inr ⟨[], s, word, _, g, rfl, .nil live, hole⟩
    · obtain ⟨next, edge, ends⟩ := not_hole_iff.mp hole
      obtain ⟨visited, h, path⟩ | ⟨before, t, after, visited, h, rfl, path, hole⟩ := ih ends
      · exact .inl ⟨_, h, .cons live edge path⟩
      · exact .inr ⟨s :: before, t, after, _, h, rfl, .cons live edge path, hole⟩

/-- What the walk along a path yields. -/
def evaluation (d : Automaton) (visited : List StateId) (last : StateId) : Evaluation :=
  ⟨.ofBool (d.isFinal last), ⟨visited.map fun h => ⟨h, d.nameOf h⟩⟩⟩

theorem nameOf_eq (live : d.find? h = some q) : d.nameOf h = q.name := by simp [nameOf, live]

theorem walk_of_path (path : Path d g word visited h) (live : d.find? g = some q) (read : Nat) :
    (d.walk read g q word).result = .ok (d.evaluation visited h) := by
  induction path generalizing read q with
  | nil _ => simp [walk, Report.log, evaluation, nameOf_eq live]
  | @cons g s next word visited h _ edge rest ih =>
    obtain ⟨p, ends⟩ := contains_iff.mp rest.start_live
    have followed : d.follow? q s = some (next, p) :=
      follow?_eq_some_iff.mpr ⟨(transition?_eq live s).symm.trans edge, ends⟩
    simp only [walk, followed, Report.bind_eq_ok_iff]
    exact ⟨(), rfl, _, ih ends _, by simp [Evaluation.after, Trace.after, evaluation, nameOf_eq live]⟩

theorem walk_of_hole (path : Path d g before visited h) (live : d.find? g = some q)
    (ends : d.find? h = some p) (hole : d.Hole h s) (after : List Symbol) (read : Nat) :
    (d.walk read g q (before ++ s :: after)).result =
      .error (.missingTransition p.name (d.alphabet.charOf s)) := by
  induction path generalizing read q with
  | nil _ =>
    cases Option.some.inj (live.symm.trans ends)
    simp [walk, (follow?_eq_none_iff live).mpr hole, Report.fail]
  | @cons g t next word visited h _ edge rest ih =>
    obtain ⟨r, begins⟩ := contains_iff.mp rest.start_live
    have followed : d.follow? q t = some (next, r) :=
      follow?_eq_some_iff.mpr ⟨(transition?_eq live t).symm.trans edge, begins⟩
    simp only [List.cons_append, walk, followed, Report.bind_eq_error_iff]
    exact .inr ⟨(), rfl, .inl (ih begins ends hole _)⟩

end BinaryAutomata.Automaton
