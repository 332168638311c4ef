import BoundedRecords.Proofs.Json.Texts
import Mathlib.Data.List.Forall2

/-! Texts that are joined to one. An object that holds neither an array nor an object is spelled alike at every depth
of brackets, so that texts of such objects with commas between them spell the items of an array. -/
namespace BoundedRecords.Json

def Scalar : Json → Prop
  | .array _ | .object _ => False
  | _ => True

/-- An object without an array or an object in it. Its keys may be repeated. -/
def Flat (v : Json) : Prop := ∃ members, v = .object members ∧ ∀ m ∈ members, m.2.Scalar

/-- The texts with commas between them, inside the brackets of an array. -/
def joined (texts : List Bytes) : Bytes := 0x5B :: [0x2C].intercalate texts ++ [0x5D]

namespace Phrase

/-- The phrase opens no bracket. -/
def Bare : Phrase → Prop
  | .value v => v.Scalar
  | .members ms | .beforeMember ms => ∀ m ∈ ms, m.2.Scalar
  | .items _ | .beforeItem _ => False

end Phrase

theorem Spelled.anywhere {n : Nat} {φ : Phrase} {t : Bytes} (spelled : Spelled n φ t) (bare : φ.Bare) (k : Nat) :
    Spelled k φ t := by
  induction spelled with
  | null => exact .null
  | bool b => exact .bool b
  | number number => exact .number number
  | string string => exact .string string
  | emptyArray _ => cases bare
  | array _ _ => cases bare
  | emptyObject _ => cases bare
  | object _ _ => cases bare
  | noItem _ => cases bare
  | nextItem _ _ _ => cases bare
  | item _ _ _ _ _ => cases bare
  | noMember white => exact .noMember white
  | nextMember _ white ih =>
    apply Spelled.nextMember _ white
    exact ih bare
  | member _ key first second _ after before value =>
    have earlier := before fun m found => bare m (List.mem_append_left _ found)
    have last := value (bare _ (List.mem_append_right _ List.mem_cons_self))
    exact .member earlier key first second last after

/-- A flat object takes one bracket, wherever it stands. -/
theorem spelled_flat {n : Nat} {v : Json} {t : Bytes} (flat : Flat v) (spelled : Spelled n (.value v) t) (k : Nat) :
    Spelled (k + 1) (.value v) t := by
  obtain ⟨members, rfl, scalars⟩ := flat
  cases spelled with
  | emptyObject white => exact .emptyObject white
  | object inner =>
    apply Spelled.object
    exact inner.anywhere scalars k

theorem text_flat {v : Json} {b : Bytes} (flat : Flat v) (text : Text v b) (k : Nat) :
    ∃ w t w', White w ∧ Spelled (k + 1) (.value v) t ∧ White w' ∧ b = w ++ t ++ w' := by
  obtain ⟨_, after, ⟨before, t, white, spelled, rfl⟩, white', rfl⟩ := text
  exact ⟨before, t, after, white, spelled_flat flat spelled k, white', rfl⟩

theorem intercalate_comma (b : Bytes) (texts : List Bytes) :
    [0x2C].intercalate (b :: texts) = b ++ texts.flatMap (0x2C :: ·) := by
  induction texts generalizing b with
  | nil => simp [List.intercalate]
  | cons c texts ih =>
    have later := ih c
    simp only [List.intercalate] at later
    simp [List.intercalate, later]

theorem length_le_joined {b : Bytes} {texts : List Bytes} (found : b ∈ texts) : b.length ≤ (joined texts).length := by
  cases found with
  | head rest =>
    simp only [joined, intercalate_comma, List.length_append, List.length_cons]
    omega
  | @tail first rest later =>
    obtain ⟨before, after, rfl⟩ := List.append_of_mem later
    simp only [joined, intercalate_comma, List.flatMap_append, List.flatMap_cons, List.length_append, List.length_cons]
    omega

section

variable {vs : List Json} {texts : List Bytes}

theorem spelled_more {k : Nat} (flat : ∀ v ∈ vs, Flat v) (each : List.Forall₂ Text vs texts) {before : List Json}
    {t : Bytes} (begun : Spelled (k + 1) (.items before) t) :
    Spelled (k + 1) (.items (before ++ vs)) (t ++ texts.flatMap (0x2C :: ·)) := by
  induction each generalizing before t with
  | nil => simpa using begun
  | @cons v b vs texts text _ ih =>
    obtain ⟨w, u, w', white, spelled, white', rfl⟩ := text_flat (flat v List.mem_cons_self) text k
    have next := Spelled.item (.nextItem begun white) spelled white'
    have later := ih (fun u found => flat u (List.mem_cons_of_mem v found)) next
    simpa using later

/-- Joined texts of flat objects are a text of the array of these objects. -/
theorem text_joined (flat : ∀ v ∈ vs, Flat v) (each : List.Forall₂ Text vs texts) (some : texts ≠ []) :
    Text (.array vs) (joined texts) := by
  cases each with
  | nil => exact absurd rfl some
  | @cons v b vs texts text later =>
    obtain ⟨w, u, w', white, spelled, white', rfl⟩ := text_flat (flat v List.mem_cons_self) text 9998
    have first := Spelled.item (.noItem white) spelled white'
    have items := spelled_more (fun u found => flat u (List.mem_cons_of_mem v found)) later first
    have array : Spelled maxDepth (.value (.array (v :: vs))) _ := .array items
    refine ⟨_, [], ⟨[], _, white_nil, array, rfl⟩, white_nil, ?_⟩
    simp [joined, intercalate_comma]

end

end BoundedRecords.Json
