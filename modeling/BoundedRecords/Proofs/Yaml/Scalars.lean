import BoundedRecords.Yaml.Write
import BoundedRecords.Proofs.Text.Utf8
import Mathlib.Algebra.Group.Nat.Defs

/-! Scalars read back. What is written in one of the three forms that need no line of its own is read as the
text it was written for, and the reader stands behind it. -/
namespace BoundedRecords.Yaml

/-! Places in a text. -/

/-- The cursor stands on a line, at least so far to the right, with this text ahead. -/
structure Cursor.At (c : Cursor) (ahead : List Char) (line low : Nat) : Prop where
  rest : c.rest = ahead
  line : c.line = line
  right : low ≤ c.column

/-- The text ahead is at its end or does not begin with white space. -/
def Solid : List Char → Prop
  | [] => True
  | ch :: _ => isWhite ch = false

def spaces (n : Nat) : List Char := List.replicate n ' '

theorem white_of_space : isWhite ' ' = true := by decide

namespace Cursor

variable {c : Cursor} {ahead : List Char} {line low : Nat}

theorem At.skip {ch : Char} (place : c.At (ch :: ahead) line low) : c.skip.At ahead line low := by
  obtain ⟨rest, same, right⟩ := place
  unfold Cursor.skip
  rw [rest]
  exact ⟨rfl, same, Nat.le_succ_of_le right⟩

theorem At.advance {u : List Char} (place : c.At (u ++ ahead) line low) : (c.advance u.length).At ahead line low := by
  induction u generalizing c with
  | nil => exact place
  | cons ch u ih => exact ih (At.skip place)

theorem whiteFrom_solid (solid : Solid ahead) (column index : Nat) (fresh : Bool) :
    whiteFrom ahead line column index fresh = ⟨ahead, line, column, index, fresh⟩ := by
  cases ahead with
  | nil => rfl
  | cons ch rest =>
    simp only [Solid, isWhite, Bool.or_eq_false_iff] at solid
    rw [whiteFrom]
    · simp only [solid.1, solid.2, Bool.false_eq_true, if_false]
    · rintro more rfl
      exact absurd solid.2 (by decide)

theorem whiteFrom_spaces (n column index : Nat) (fresh : Bool) :
    whiteFrom (spaces n ++ ahead) line column index fresh = whiteFrom ahead line (column + n) (index + n) fresh := by
  induction n generalizing column index with
  | zero => rfl
  | succ n ih =>
    have first : whiteFrom (' ' :: (spaces n ++ ahead)) line column index fresh =
        whiteFrom (spaces n ++ ahead) line (column + 1) (index + 1) fresh := by
      rw [whiteFrom]
      · rfl
      · exact fun _ impossible => absurd impossible (by decide)
    rw [show spaces (n + 1) ++ ahead = ' ' :: (spaces n ++ ahead) from rfl, first, ih, Nat.add_assoc,
      Nat.add_assoc, Nat.add_comm 1 n]

theorem At.skipSpaces {n : Nat} (place : c.At (spaces n ++ ahead) line low) (solid : Solid ahead) :
    c.skipWhite.At ahead line low := by
  obtain ⟨rest, same, right⟩ := place
  rw [skipWhite, rest, whiteFrom_spaces, whiteFrom_solid solid]
  exact ⟨rfl, same, Nat.le_add_right_of_le right⟩

end Cursor

/-! Spaces inside a scalar. -/

theorem takeWhile_spaces {ahead : List Char} (n : Nat) (solid : Solid ahead) :
    (spaces n ++ ahead).takeWhile isWhite = spaces n := by
  have all : ∀ ch ∈ spaces n, isWhite ch = true := by
    intro ch found
    rw [List.eq_of_mem_replicate found]
    exact white_of_space
  rw [List.takeWhile_append_of_pos all]
  cases ahead with
  | nil => exact List.append_nil _
  | cons ch rest =>
    have stops : isWhite ch = false := solid
    rw [List.takeWhile_cons, stops]
    exact List.append_nil _

theorem breaksOf_spaces (n : Nat) : breaksOf (spaces n) = [] := by
  induction n with
  | zero => rfl
  | succ n ih =>
    have first : breaksOf (' ' :: spaces n) = breaksOf (spaces n) := by
      rw [breaksOf]
      · rfl
      · exact fun _ impossible => absurd impossible (by decide)
    exact first.trans ih

theorem joinWhite_spaces (n : Nat) : joinWhite (spaces n) = spaces n := by
  rw [joinWhite, breaksOf_spaces]

/-- The spaces that a text begins with, and the rest, which begins with none. -/
theorem split_spaces (cs : List Char) : ∃ n rest, cs = spaces n ++ rest ∧ rest.head? ≠ some ' ' := by
  induction cs with
  | nil => exact ⟨0, [], rfl, by decide⟩
  | cons ch cs ih =>
    by_cases blank : ch = ' '
    · obtain ⟨n, rest, rfl, other⟩ := ih
      exact ⟨n + 1, rest, by rw [blank]; rfl, other⟩
    · exact ⟨0, ch :: cs, rfl, by simpa using blank⟩

/-! Quotes. Both quoted forms take spaces together and everything else one character at a time. -/

/-- How a reader of quoted text goes on: at a space, at the form `f` of another character, and at the quote
that ends the text. -/
structure QuoteReader (read : Nat → List Char → Cursor → Option (List Char × Cursor)) (f : Char → List Char)
    (accepts : Char → Prop) (quote : Char) (ends : List Char → Prop) : Prop where
  space : f ' ' = [' ']
  solid : ∀ ch, accepts ch → ch ≠ ' ' → ∀ ahead, Solid (f ch ++ ahead)
  quoteSolid : isWhite quote = false
  onSpace : ∀ (fuel : Nat) (text : List Char) {ahead : List Char} {c : Cursor} {line low : Nat}, 0 < low →
    c.At (' ' :: ahead) line low →
    read (fuel + 1) text c = read fuel ((joinWhite ((' ' :: ahead).takeWhile isWhite)).reverse ++ text) c.skipWhite
  onChar : ∀ (fuel : Nat) (text : List Char) {ahead : List Char} {ch : Char} {c : Cursor} {line low : Nat}, 0 < low →
    accepts ch → ch ≠ ' ' → c.At (f ch ++ ahead) line low →
    read (fuel + 1) text c = read fuel (ch :: text) (c.advance (f ch).length)
  onQuote : ∀ (fuel : Nat) (text : List Char) {ahead : List Char} {c : Cursor} {line low : Nat}, 0 < low → ends ahead →
    c.At (quote :: ahead) line low → read (fuel + 1) text c = some (text.reverse, c.skip)

theorem flatMap_spaces {f : Char → List Char} (space : f ' ' = [' ']) (n : Nat) : (spaces n).flatMap f = spaces n := by
  induction n with
  | zero => rfl
  | succ n ih =>
    rw [show spaces (n + 1) = ' ' :: spaces n from rfl, List.flatMap_cons, space, ih]
    rfl

theorem QuoteReader.reads {read : Nat → List Char → Cursor → Option (List Char × Cursor)} {f : Char → List Char}
    {accepts : Char → Prop} {quote : Char} {ends : List Char → Prop} (reader : QuoteReader read f accepts quote ends)
    (text : List Char) {cs ahead : List Char} {fuel line low : Nat} {c : Cursor} (inside : 0 < low)
    (each : ∀ ch ∈ cs, accepts ch) (after : ends ahead) (place : c.At (cs.flatMap f ++ quote :: ahead) line low)
    (enough : cs.length < fuel) :
    ∃ c', read fuel text c = some (text.reverse ++ cs, c') ∧ c'.At ahead line low := by
  generalize size : cs.length = length at enough
  induction length using Nat.strongRecOn generalizing cs text fuel c with
  | ind length ih =>
    obtain ⟨fuel, rfl⟩ : ∃ more, fuel = more + 1 := ⟨fuel - 1, by omega⟩
    obtain ⟨n, rest, split, other⟩ := split_spaces cs
    cases n with
    | succ n =>
      -- The spaces are taken together; what follows them is no white space.
      have shorter : rest.length < length := by
        rw [← size, split, List.length_append, spaces, List.length_replicate]
        omega
      have solid : Solid (rest.flatMap f ++ quote :: ahead) := by
        cases rest with
        | nil => exact reader.quoteSolid
        | cons ch rest =>
          rw [List.flatMap_cons, List.append_assoc]
          exact reader.solid ch (each ch (by rw [split]; simp)) (by simpa using other) _
      rw [split, List.flatMap_append, flatMap_spaces reader.space, List.append_assoc] at place
      have here : c.At (' ' :: (spaces n ++ (rest.flatMap f ++ quote :: ahead))) line low := place
      have taken : (' ' :: (spaces n ++ (rest.flatMap f ++ quote :: ahead))).takeWhile isWhite = spaces (n + 1) :=
        takeWhile_spaces (n + 1) solid
      have step := reader.onSpace fuel text inside here
      rw [taken, joinWhite_spaces] at step
      obtain ⟨c', found, there⟩ := @ih rest.length shorter ((spaces (n + 1)).reverse ++ text) rest fuel _
        (fun ch inRest => each ch (by rw [split]; exact List.mem_append_right _ inRest)) (place.skipSpaces solid)
        rfl (by omega)
      refine ⟨c', ?_, there⟩
      rw [step, found, split]
      simp
    | zero =>
      cases rest with
      | nil =>
        rw [show cs = [] from split] at place ⊢
        exact ⟨c.skip, by rw [reader.onQuote fuel text inside after place, List.append_nil], place.skip⟩
      | cons ch rest =>
        have shape : cs = ch :: rest := split
        have solidChar : ch ≠ ' ' := by simpa using other
        have accepted := each ch (by rw [shape]; exact List.mem_cons_self)
        rw [shape, List.flatMap_cons, List.append_assoc] at place
        have step := reader.onChar fuel text inside accepted solidChar place
        obtain ⟨c', found, there⟩ := @ih rest.length (by rw [← size, shape]; exact Nat.lt_succ_self _) (ch :: text)
          rest fuel _
          (fun d inRest => each d (by rw [shape]; exact List.mem_cons_of_mem ch inRest)) place.advance rfl
          (by rw [shape, List.length_cons] at size; omega)
        refine ⟨c', ?_, there⟩
        rw [step, found, shape]
        simp

end BoundedRecords.Yaml
