import BoundedRecords.Json.Write
import BoundedRecords.Proofs.Json.Texts
import BoundedRecords.Proofs.Text.Decimal

/-! Written values are texts of the grammar, in every layout, so that reading them gives the values back. -/
namespace BoundedRecords

theorem Hex.value?_digit {n : Nat} (small : n < 16) : Hex.value? (Hex.digit n) = some n := by
  have all : ∀ k : Fin 16, Hex.value? (Hex.digit k) = some k.val := by decide
  exact all ⟨n, small⟩

namespace Json

/-! Strings. -/

theorem hexNumber?_digits {n : Nat} (small : n < 65536) :
    hexNumber? (Hex.digit (n / 16 / 16 / 16 % 16)) (Hex.digit (n / 16 / 16 % 16)) (Hex.digit (n / 16 % 16))
      (Hex.digit (n % 16)) = some n := by
  have value : ((n / 16 / 16 / 16 % 16 * 16 + n / 16 / 16 % 16) * 16 + n / 16 % 16) * 16 + n % 16 = n := by omega
  simp only [hexNumber?, Hex.value?_digit (Nat.mod_lt _ (by decide : 16 > 0)), Option.bind_eq_bind,
    Option.bind_some, value]
  rfl

theorem stringText_escapeHex {c : Char} (small : c.toNat < 0xD800) {raw text : Bytes} (string : StringText raw text) :
    StringText (escapeHex c.toNat ++ raw) (Utf8.encode c ++ text) := by
  have number := hexNumber?_digits (n := c.toNat) (by omega)
  have single : isSurrogate c.toNat = false := by
    simp only [isSurrogate, Bool.and_eq_false_iff, decide_eq_false_iff_not]
    omega
  have code := StringText.code number single string
  rw [Char.ofNat_toNat] at code
  exact code

theorem encode_of_toNat {c : Char} {b : UInt8} (same : c.toNat = b.toNat) (low : b.toNat < 0x80) :
    Utf8.encode c = [b] := by
  rw [Utf8.encode_one (by omega), same, UInt8.ofNat_toNat]

theorem stringText_letter {c : Char} {e : UInt8} (letter : isEscapeLetter e = true)
    (same : c.toNat = (letterOf e).toNat) {raw text : Bytes} (string : StringText raw text) :
    StringText (0x5C :: e :: raw) (Utf8.encode c ++ text) := by
  rw [encode_of_toNat same (letterOf_ascii letter)]
  exact .letter letter string

theorem stringText_writeChar (c : Char) {raw text : Bytes} (string : StringText raw text) :
    StringText (writeChar c ++ raw) (Utf8.encode c ++ text) := by
  unfold writeChar
  split
  · rename_i quote
    exact stringText_letter (e := 0x22) (by decide) quote string
  · rename_i mark
    exact stringText_letter (e := 0x5C) (by decide) mark string
  · rename_i code
    exact stringText_letter (e := 0x62) (by decide) code string
  · rename_i code
    exact stringText_letter (e := 0x66) (by decide) code string
  · rename_i code
    exact stringText_letter (e := 0x6E) (by decide) code string
  · rename_i code
    exact stringText_letter (e := 0x72) (by decide) code string
  · rename_i code
    exact stringText_letter (e := 0x74) (by decide) code string
  · rename_i quote mark _ _ _ _ _
    split
    · rename_i escaped
      simp only [Bool.or_eq_true, decide_eq_true_eq, beq_iff_eq] at escaped
      exact stringText_escapeHex (by omega) string
    · rename_i plain
      simp only [Bool.or_eq_true, decide_eq_true_eq, beq_iff_eq, not_or] at plain
      exact .char (by omega) quote mark string

theorem stringText_replacement {raw text : Bytes} (string : StringText raw text) :
    StringText (utf8 "\\ufffd" ++ raw) (Utf8.encode replacement ++ text) :=
  .code (a := 0x66) (b := 0x66) (c := 0x66) (d := 0x64) (by decide) (by decide) string

/-- Between its quotes a text stands for itself, apart from its stray bytes. -/
theorem stringText_pieces (s : Bytes) : StringText ((Utf8.pieces s).flatMap writePiece) (Utf8.repair s) := by
  simp only [Utf8.repair, Utf8.chars]
  induction Utf8.pieces s with
  | nil => exact .nil
  | cons p ps ih =>
    rw [List.map_cons, List.flatMap_cons, List.flatMap_cons]
    cases p with
    | char c => exact stringText_writeChar c ih
    | stray b => exact stringText_replacement ih

theorem writeString_eq {s : Bytes} (whole : Utf8.valid s = true) :
    ∃ raw, StringText raw s ∧ writeString s = 0x22 :: raw ++ [0x22] := by
  have string := stringText_pieces s
  rw [Utf8.repair, Utf8.flatMap_encode_chars whole] at string
  exact ⟨_, string, rfl⟩

/-! Numbers. -/

theorem whole_digits {n : Nat} {s : Bytes} (digits : Decimal.Digits n s) : Whole s := by
  obtain ⟨b, rest, rfl, zero⟩ := digits.first
  by_cases first : b = 0x30
  · rw [first, (zero first).2]
    exact .zero
  · exact .digits (digits.digits b List.mem_cons_self) first
      fun c found => digits.digits c (List.mem_cons_of_mem b found)

theorem numberText_ofInt (n : Int) : NumberText (Decimal.ofInt n) := by
  cases n with
  | ofNat n =>
    have number := NumberText.mk (.inl rfl) (whole_digits (Decimal.ofNat_digits n)) .none .none
    simpa [Decimal.ofInt] using number
  | negSucc n =>
    have number := NumberText.mk (.inr rfl) (whole_digits (Decimal.ofNat_digits (n + 1))) .none .none
    simpa [Decimal.ofInt] using number

/-! Values. -/

/-- A value that the grammar can spell, with brackets nested at most so deep. -/
inductive Spellable : Nat → Json → Prop where
  | null {n : Nat} : Spellable n .null
  | bool {n : Nat} (b : Bool) : Spellable n (.bool b)
  | number {n : Nat} {t : Bytes} : NumberText t → Spellable n (.number t)
  | string {n : Nat} {s : Bytes} : Utf8.valid s = true → Spellable n (.string s)
  | array {n : Nat} {vs : List Json} : (∀ v ∈ vs, Spellable n v) → Spellable (n + 1) (.array vs)
  | object {n : Nat} {ms : List (Bytes × Json)} : (∀ m ∈ ms, Utf8.valid m.1 = true) →
      (∀ m ∈ ms, Spellable n m.2) → Spellable (n + 1) (.object ms)

/-- Every part of a phrase can be spelled. -/
def Phrase.Spellable (n : Nat) : Phrase → Prop
  | .value v => Json.Spellable n v
  | .items vs | .beforeItem vs => ∀ v ∈ vs, Json.Spellable n v
  | .members ms | .beforeMember ms => ∀ m ∈ ms, Utf8.valid m.1 = true ∧ Json.Spellable n m.2

/-- What a text says can be spelled: strings that were read are valid, whatever bytes they were read from. -/
theorem Spelled.spellable {n : Nat} {φ : Phrase} {t : Bytes} (spelled : Spelled n φ t) : φ.Spellable n := by
  induction spelled with
  | null => exact .null
  | bool b => exact .bool b
  | number number => exact .number number
  | string string => exact .string (valid_stringText string)
  | emptyArray _ => exact .array fun _ none => (nomatch none)
  | array _ ih => exact .array ih
  | emptyObject _ => exact .object (fun _ none => (nomatch none)) fun _ none => (nomatch none)
  | object _ ih => exact .object (fun m found => (ih m found).1) fun m found => (ih m found).2
  | noItem _ => exact fun _ none => (nomatch none)
  | nextItem _ _ ih => exact ih
  | item _ _ _ before value =>
    intro v found
    rcases List.mem_append.mp found with earlier | last
    · exact before v earlier
    · rw [List.mem_singleton.mp last]
      exact value
  | noMember _ => exact fun _ none => (nomatch none)
  | nextMember _ _ ih => exact ih
  | member _ key _ _ _ _ before value =>
    intro m found
    rcases List.mem_append.mp found with earlier | last
    · exact before m earlier
    · rw [List.mem_singleton.mp last]
      exact ⟨valid_stringText key, value⟩

theorem Text.spellable {v : Json} {s : Bytes} (text : Text v s) : Spellable maxDepth v := by
  obtain ⟨_, _, ⟨_, _, _, spelled, _⟩, _, _⟩ := text
  exact spelled.spellable

/-- A layout that puts only white space between the parts. -/
structure Layout.Blank (layout : Layout) : Prop where
  afterColon : White layout.afterColon
  line : ∀ depth, White (layout.line depth)

theorem compact_blank : compact.Blank := ⟨white_nil, fun _ => white_nil⟩

section

variable {n : Nat}

theorem spelled_items_white {vs : List Json} {t w : Bytes} (spelled : Spelled n (.items vs) t) (white : White w) :
    Spelled n (.items vs) (t ++ w) := by
  cases spelled with
  | item before value after =>
    rw [List.append_assoc]
    exact .item before value (white_append after white)

theorem spelled_members_white {ms : List (Bytes × Json)} {t w : Bytes} (spelled : Spelled n (.members ms) t)
    (white : White w) : Spelled n (.members ms) (t ++ w) := by
  cases spelled with
  | member before key first second value after =>
    rw [List.append_assoc]
    exact .member before key first second value (white_append after white)

variable {layout : Layout} {depth : Nat}

theorem spelled_writeItems (blank : layout.Blank) {vs : List Json}
    (each : ∀ v ∈ vs, Spelled n (.value v) (writeAt layout (depth + 1) v)) {before : List Json} {t : Bytes}
    (begun : Spelled n (.items before) t) : Spelled n (.items (before ++ vs)) (t ++ writeItems layout depth vs) := by
  induction vs generalizing before t with
  | nil =>
    simp only [writeItems, List.append_nil]
    exact begun
  | cons v vs ih =>
    have next := Spelled.item (.nextItem begun (blank.line (depth + 1))) (each v List.mem_cons_self) white_nil
    have later := ih (fun u found => each u (List.mem_cons_of_mem v found)) next
    simpa [writeItems] using later

theorem spelled_member {m : Bytes × Json} {before : List (Bytes × Json)} {u : Bytes} (blank : layout.Blank)
    (key : Utf8.valid m.1 = true) (value : Spelled n (.value m.2) (writeAt layout (depth + 1) m.2))
    (begun : Spelled n (.beforeMember before) u) :
    Spelled n (.members (before ++ [m])) (u ++ writeMember layout depth m) := by
  obtain ⟨name, v⟩ := m
  obtain ⟨raw, string, written⟩ := writeString_eq key
  have next := Spelled.member begun string white_nil blank.afterColon value white_nil
  simpa [writeMember, written] using next

theorem spelled_writeMembers (blank : layout.Blank) {ms : List (Bytes × Json)} (keys : ∀ m ∈ ms, Utf8.valid m.1 = true)
    (each : ∀ m ∈ ms, Spelled n (.value m.2) (writeAt layout (depth + 1) m.2)) {before : List (Bytes × Json)}
    {t : Bytes} (begun : Spelled n (.members before) t) :
    Spelled n (.members (before ++ ms)) (t ++ writeMembers layout depth ms) := by
  induction ms generalizing before t with
  | nil =>
    simp only [writeMembers, List.append_nil]
    exact begun
  | cons m ms ih =>
    have next := spelled_member blank (keys m List.mem_cons_self) (each m List.mem_cons_self)
      (.nextMember begun (blank.line (depth + 1)))
    have later := ih (fun k found => keys k (List.mem_cons_of_mem m found))
      (fun k found => each k (List.mem_cons_of_mem m found)) next
    simpa [writeMembers] using later

theorem spelled_writeAt (blank : layout.Blank) {v : Json} (spellable : Spellable n v) :
    Spelled n (.value v) (writeAt layout depth v) := by
  induction spellable generalizing depth with
  | null =>
    rw [writeAt]
    exact .null
  | bool b =>
    rw [writeAt]
    exact .bool b
  | number number =>
    rw [writeAt]
    exact .number number
  | string whole =>
    obtain ⟨raw, string, written⟩ := writeString_eq whole
    rw [writeAt, written]
    exact .string string
  | @array n vs _ ih =>
    cases vs with
    | nil =>
      rw [writeAt]
      exact .emptyArray white_nil
    | cons v vs =>
      have each : ∀ u ∈ v :: vs, Spelled n (.value u) (writeAt layout (depth + 1) u) := fun u found => ih u found
      have first := Spelled.item (.noItem (blank.line (depth + 1))) (each v List.mem_cons_self) white_nil
      have items := spelled_writeItems blank (fun u found => each u (List.mem_cons_of_mem v found)) first
      have closed := Spelled.array (spelled_items_white items (blank.line depth))
      simpa [writeAt] using closed
  | @object n ms keys _ ih =>
    cases ms with
    | nil =>
      rw [writeAt]
      exact .emptyObject white_nil
    | cons m ms =>
      have each : ∀ k ∈ m :: ms, Spelled n (.value k.2) (writeAt layout (depth + 1) k.2) := fun k found => ih k found
      have first := spelled_member blank (keys m List.mem_cons_self) (each m List.mem_cons_self)
        (.noMember (blank.line (depth + 1)))
      have members := spelled_writeMembers blank (fun k found => keys k (List.mem_cons_of_mem m found))
        (fun k found => each k (List.mem_cons_of_mem m found)) first
      have closed := Spelled.object (spelled_members_white members (blank.line depth))
      simpa [writeAt] using closed

end

theorem text_write {layout : Layout} (blank : layout.Blank) {v : Json} (spellable : Spellable maxDepth v) :
    Text v (write layout v) := by
  have begins : Begins v (writeAt layout 0 v) := ⟨[], _, white_nil, spelled_writeAt blank spellable, rfl⟩
  exact ⟨_, [0x0A], begins, white_singleton (by decide), rfl⟩

/-- A value is read back as it was written. -/
theorem parse_write {layout : Layout} (blank : layout.Blank) {v : Json} (spellable : Spellable maxDepth v) :
    parse (write layout v) = some v :=
  (parse_eq_some_iff _ _).mpr (text_write blank spellable)

end Json
end BoundedRecords
