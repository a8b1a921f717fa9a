import BinaryAutomata.Text.Quoted
import Mathlib.Data.List.Basic

/-! A quoted character can be told from a text that begins or ends with it, whatever else the text
holds, and a number from its digits. The quote occurs between the quotes only after a backslash, which
never stands there alone. -/
namespace BinaryAutomata.Text

/-- The characters that have an escape of two characters, each with its second. -/
def shorthands : List (Char × Char) :=
  [('\x00', '0'), ('\t', 't'), ('\r', 'r'), ('\n', 'n'), ('\'', '\''), ('\\', '\\')]

/-- What may stand for a character between the quotes. -/
inductive Written : Char → List Char → Prop where
  | plain (quote : c ≠ '\'') (backslash : c ≠ '\\') : Written c [c]
  | shorthand (listed : (c, e) ∈ shorthands) : Written c ['\\', e]
  | code : Written c (codeEscape c)

theorem written_escape (c : Char) : Written c (escape c) := by
  unfold escape
  split_ifs with nul tab carriage newline quote backslash
  · subst nul
    exact .shorthand (by decide)
  · subst tab
    exact .shorthand (by decide)
  · subst carriage
    exact .shorthand (by decide)
  · subst newline
    exact .shorthand (by decide)
  · subst quote
    exact .shorthand (by decide)
  · subst backslash
    exact .shorthand (by decide)
  · exact .code
  · exact .plain quote backslash

theorem exists_digitChar_of_mem (member : c ∈ Nat.toDigits 16 n) : ∃ d, c = Nat.digitChar d := by
  induction n using Nat.strongRecOn with
  | ind n ih =>
    rw [Nat.toDigits_eq_if (by decide)] at member
    split at member
    · exact ⟨n, List.mem_singleton.mp member⟩
    · obtain earlier | last := List.mem_append.mp member
      · exact ih (n / 16) (by omega) earlier
      · exact ⟨n % 16, List.mem_singleton.mp last⟩

theorem digitChar_injective_below :
    ∀ m < 16, ∀ n < 16, Nat.digitChar m = Nat.digitChar n → m = n := by decide

theorem length_hexDigits_le_one : (Nat.toDigits 16 n).length ≤ 1 ↔ n < 16 :=
  Nat.length_toDigits_le_iff (by decide) (by decide)

/-- A number can be told from its hexadecimal digits. -/
theorem hexDigits_injective (same : Nat.toDigits 16 m = Nat.toDigits 16 n) : m = n := by
  induction m using Nat.strongRecOn generalizing n with
  | ind m ih =>
    have alike : m < 16 ↔ n < 16 := by
      rw [← length_hexDigits_le_one, same, length_hexDigits_le_one]
    rw [Nat.toDigits_eq_if (by decide), Nat.toDigits_eq_if (n := n) (by decide)] at same
    by_cases small : m < 16
    · rw [if_pos small, if_pos (alike.mp small)] at same
      exact digitChar_injective_below m small n (alike.mp small) (List.singleton_inj.mp same)
    · rw [if_neg small, if_neg (alike.not.mp small)] at same
      obtain ⟨leading, last⟩ := List.append_inj' same rfl
      have quotients : m / 16 = n / 16 := ih (m / 16) (by omega) leading
      have remainders : m % 16 = n % 16 := digitChar_injective_below (m % 16)
        (Nat.mod_lt m (by decide)) (n % 16) (Nat.mod_lt n (by decide)) (List.singleton_inj.mp last)
      rw [← Nat.div_add_mod m 16, quotients, remainders, Nat.div_add_mod]

/-- The number that decimal digits write. -/
def decimal? (digits : List Char) : Option Nat :=
  if digits.all Char.isDigit then some (Nat.ofDigitChars 10 digits 0) else none

theorem decimal?_toDigits (n : Nat) : decimal? (Nat.toDigits 10 n) = some n := by
  have digits : (Nat.toDigits 10 n).all Char.isDigit = true :=
    List.all_eq_true.mpr fun _ digit => Nat.isDigit_of_mem_toDigits (by decide) (by decide) digit
  rw [decimal?, if_pos digits, Nat.ofDigitChars_ten_toDigits]

/-- A number can be told from its decimal text. -/
theorem toString_nat_inj {m n : Nat} : toString m = toString n ↔ m = n := by
  constructor
  · intro same
    have read := congrArg (decimal? ·.toList) same
    simpa [decimal?_toDigits] using read
  · exact congrArg toString

namespace Written

theorem ne_nil (written : Written c text) : text ≠ [] := by
  cases written <;> simp [codeEscape]

theorem ne_backslash (written : Written c text) : text ≠ ['\\'] := by
  cases written with
  | plain _ backslash => simpa using backslash
  | shorthand _ => simp
  | code => simp [codeEscape]

/-- Only the escape of the quote has one in it. -/
theorem eq_of_mem (written : Written c text) (member : '\'' ∈ text) : text = ['\\', '\''] := by
  cases written with
  | plain quote _ => exact absurd (List.mem_singleton.mp member).symm quote
  | shorthand _ => simpa [eq_comm] using member
  | code =>
    simp only [codeEscape, List.mem_append, List.mem_cons, List.not_mem_nil, or_false] at member
    obtain (opening | digit) | closing := member
    · exact absurd opening (by decide)
    · obtain ⟨d, same⟩ := exists_digitChar_of_mem digit
      exact absurd same.symm (Nat.digitChar_ne '\'' rfl)
    · exact absurd closing (by decide)

/-- What is on either side of a quote within the quotes is not itself written for a character. -/
theorem around_quote (written : Written c (before ++ '\'' :: after)) :
    before = ['\\'] ∧ after = [] := by
  have whole := written.eq_of_mem (by simp)
  cases before with
  | nil => simp at whole
  | cons first before =>
    obtain ⟨rfl, rest⟩ := List.cons.inj whole
    cases before with
    | nil => exact ⟨rfl, (List.cons.inj rest).2⟩
    | cons second before => simp at rest

theorem injective (written : Written c text) (writtenToo : Written c' text) : c = c' := by
  generalize same : text = text' at writtenToo
  cases written with
  | plain _ backslash =>
    cases writtenToo with
    | plain => exact List.singleton_inj.mp same
    | shorthand | code => simp [codeEscape] at same
  | @shorthand e listed =>
    cases writtenToo with
    | @shorthand e' listedToo =>
      obtain rfl : e = e' := by simpa using same
      have single : ∀ p ∈ shorthands, ∀ q ∈ shorthands, p.2 = q.2 → p.1 = q.1 := by decide
      exact single _ listed _ listedToo rfl
    | plain | code => simp [codeEscape] at same
  | code =>
    cases writtenToo with
    | code =>
      have digits := List.append_cancel_left (List.append_cancel_right same)
      exact Char.toNat_inj.mp (hexDigits_injective digits)
    | plain | shorthand => simp [codeEscape] at same

/-- If what is written for one character begins what is written for another, up to a quote, then it is
the whole of it. -/
theorem closed_at_once (written : Written c text) (writtenToo : Written c' (text ++ more))
    (tail : '\'' :: rest = more ++ '\'' :: rest') : c = c' ∧ rest = rest' := by
  cases more with
  | nil =>
    rw [List.append_nil] at writtenToo
    exact ⟨written.injective writtenToo, (List.cons.inj tail).2⟩
  | cons _ more =>
    obtain ⟨rfl, _⟩ := List.cons.inj tail
    exact absurd writtenToo.around_quote.1 written.ne_backslash

theorem closed_once (written : Written c text) (writtenToo : Written c' text')
    (same : text ++ '\'' :: rest = text' ++ '\'' :: rest') : c = c' ∧ rest = rest' := by
  obtain ⟨more, rfl, tail⟩ | ⟨more, rfl, tail⟩ := List.append_eq_append_iff.mp same
  · exact written.closed_at_once writtenToo tail
  · exact (writtenToo.closed_at_once written tail).imp Eq.symm Eq.symm

theorem opened_at_once (written : Written c text) (writtenToo : Written c' text')
    (tail : '\'' :: text = more ++ '\'' :: text') : more = [] ∧ c = c' := by
  cases more with
  | nil =>
    obtain ⟨_, rfl⟩ := List.cons.inj tail
    exact ⟨rfl, written.injective writtenToo⟩
  | cons _ more =>
    obtain ⟨rfl, rfl⟩ := List.cons.inj tail
    exact absurd written.around_quote.2 writtenToo.ne_nil

theorem opened_once (written : Written c text) (writtenToo : Written c' text')
    (same : rest ++ '\'' :: text = rest' ++ '\'' :: text') : rest = rest' ∧ c = c' := by
  obtain ⟨more, rfl, tail⟩ | ⟨more, rfl, tail⟩ := List.append_eq_append_iff.mp same
  · obtain ⟨rfl, char⟩ := written.opened_at_once writtenToo tail
    exact ⟨(List.append_nil _).symm, char⟩
  · obtain ⟨rfl, char⟩ := writtenToo.opened_at_once written tail
    exact ⟨List.append_nil _, char.symm⟩

end Written

theorem toList_quoted (c : Char) : (quoted c).toList = '\'' :: (escape c ++ ['\'']) := by
  simp [quoted]

theorem quoted_append_inj {rest rest' : String} :
    quoted c ++ rest = quoted c' ++ rest' ↔ c = c' ∧ rest = rest' := by
  constructor
  · intro same
    rw [← String.toList_inj] at same
    simp only [String.toList_append, toList_quoted, List.cons_append, List.append_assoc,
      List.nil_append, List.cons.injEq, true_and] at same
    obtain ⟨rfl, rests⟩ := (written_escape c).closed_once (written_escape c') same
    exact ⟨rfl, String.toList_inj.mp rests⟩
  · rintro ⟨rfl, rfl⟩
    rfl

theorem append_quoted_inj {rest rest' : String} :
    rest ++ quoted c = rest' ++ quoted c' ↔ rest = rest' ∧ c = c' := by
  constructor
  · intro same
    rw [← String.toList_inj] at same
    simp only [String.toList_append, toList_quoted, ← List.cons_append, ← List.append_assoc,
      List.append_cancel_right_eq] at same
    obtain ⟨rests, rfl⟩ := (written_escape c).opened_once (written_escape c') same
    exact ⟨String.toList_inj.mp rests, rfl⟩
  · rintro ⟨rfl, rfl⟩
    rfl

end BinaryAutomata.Text
