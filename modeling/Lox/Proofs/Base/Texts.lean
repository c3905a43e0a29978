import Mathlib.Logic.Function.Basic

/-!
# Reading texts off

A part of a text that is written up to some mark can be told from what follows it (`eq_of_append_eq`). A number
can be told from its digits, decimal or hexadecimal.
-/

namespace Lox

/-- A text has at most one part that goes up to the first mark. -/
theorem eq_of_append_eq {mark : Char → Prop} {w w' r r' : List Char} (hw : ∀ c ∈ w, ¬mark c)
    (hw' : ∀ c ∈ w', ¬mark c) (hr : ∀ c ∈ r.head?, mark c) (hr' : ∀ c ∈ r'.head?, mark c)
    (h : w ++ r = w' ++ r') : w = w' ∧ r = r' := by
  induction w generalizing w' with
  | nil =>
    cases w' with
    | nil => exact ⟨rfl, h⟩
    | cons c w' =>
      rw [List.nil_append] at h
      exact absurd (hr c (by rw [h]; rfl)) (hw' c List.mem_cons_self)
  | cons c w ih =>
    cases w' with
    | nil =>
      rw [List.nil_append] at h
      exact absurd (hr' c (by rw [← h]; rfl)) (hw c List.mem_cons_self)
    | cons c' w' =>
      obtain ⟨rfl, htail⟩ := List.cons.inj h
      obtain ⟨rfl, rfl⟩ := ih (fun a ha => hw a (List.mem_cons_of_mem _ ha))
        (fun a ha => hw' a (List.mem_cons_of_mem _ ha)) htail
      exact ⟨rfl, rfl⟩

/-! ## Digits -/

theorem toDigits_ten_injective : Function.Injective (Nat.toDigits 10) :=
  Function.LeftInverse.injective (g := fun text => Nat.ofDigitChars 10 text 0) fun _ =>
    Nat.ofDigitChars_ten_toDigits

def hexValue (text : List Char) : Nat :=
  text.foldl (fun value c => 16 * value + "0123456789abcdef".toList.idxOf c) 0

theorem idxOf_digitChar : ∀ d < 16, "0123456789abcdef".toList.idxOf d.digitChar = d := by
  decide

theorem hexValue_toDigits (n : Nat) : hexValue (Nat.toDigits 16 n) = n := by
  induction n using Nat.base_induction 16 (by decide) with
  | single d hd =>
    rw [Nat.toDigits_of_lt_base hd]
    exact (Nat.zero_add _).trans (idxOf_digitChar d hd)
  | digit n d hd hn ih =>
    rw [← Nat.toDigits_append_toDigits (by decide) hn hd, Nat.toDigits_of_lt_base hd, hexValue,
      List.foldl_append, ← hexValue, ih]
    exact congrArg (16 * n + ·) (idxOf_digitChar d hd)

theorem exists_digitChar_of_mem_toDigits {n : Nat} {c : Char} (h : c ∈ Nat.toDigits 16 n) :
    ∃ d < 16, c = d.digitChar := by
  induction n using Nat.base_induction 16 (by decide) with
  | single d hd =>
    rw [Nat.toDigits_of_lt_base hd, List.mem_singleton] at h
    exact ⟨d, hd, h⟩
  | digit n d hd hn ih =>
    rw [← Nat.toDigits_append_toDigits (by decide) hn hd, Nat.toDigits_of_lt_base hd, List.mem_append,
      List.mem_singleton] at h
    obtain h | rfl := h
    · exact ih h
    · exact ⟨d, hd, rfl⟩

end Lox
