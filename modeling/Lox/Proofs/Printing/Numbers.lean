import Lox.Proofs.Base.Texts
import Lox.Proofs.Numbers.Nan
import Lox.Proofs.Printing.Decimals

/-!
# Number texts

A number can be read off its text, but for the bits of a NaN (`Number.write_eq_iff`). The digits of a decimal
give its value, and the shortest decimals of two doubles have different values. What else there is in a number
text, that is the sign, the point and the two words, cannot be taken for digits.
-/

namespace Lox

namespace Number

/-! ## Digits -/

theorem digits_injective : Function.Injective digits := toDigits_ten_injective

theorem isDigit_of_mem_digits {n : Nat} {c : Char} (h : c ∈ digits n) : c.isDigit :=
  Nat.isDigit_of_mem_toDigits (by decide) (Nat.le_refl 10) h

theorem leftpad_digits_injective (places : Nat) :
    Function.Injective fun n => (digits n).leftpad places '0' := by
  have hread (n : Nat) : Nat.ofDigitChars 10 ((digits n).leftpad places '0') 0 = n := by
    rw [List.leftpad, Nat.ofDigitChars_append, Nat.ofDigitChars_replicate_zero, Nat.mul_zero]
    exact Nat.ofDigitChars_ten_toDigits
  exact Function.LeftInverse.injective (g := fun text => Nat.ofDigitChars 10 text 0) hread

theorem length_leftpad_digits {places n : Nat} (hplaces : 0 < places) (hn : n < 10 ^ places) :
    ((digits n).leftpad places '0').length = places := by
  rw [List.length_leftpad]
  exact Nat.max_eq_left ((Nat.length_toDigits_le_iff (by decide) hplaces).mpr hn)

namespace Decimal

variable {d d' : Decimal}

theorem write_of_nonneg (h : 0 ≤ d.exponent) : d.write = digits (d.steps * 10 ^ d.exponent.toNat) := by
  rw [write]
  exact if_pos (by omega)

theorem write_of_neg (h : d.exponent < 0) :
    d.write = digits (d.steps / 10 ^ (-d.exponent).toNat) ++
      '.' :: (digits (d.steps % 10 ^ (-d.exponent).toNat)).leftpad (-d.exponent).toNat '0' := by
  rw [write]
  exact if_neg (by omega)

theorem mem_write {c : Char} (h : c ∈ d.write) : c.isDigit ∨ c = '.' := by
  rcases lt_or_ge d.exponent 0 with hneg | hnonneg
  · rw [write_of_neg hneg, List.leftpad] at h
    simp only [List.mem_append, List.mem_cons, List.mem_replicate] at h
    rcases h with h | rfl | ⟨_, rfl⟩ | h
    · exact .inl (isDigit_of_mem_digits h)
    · exact .inr rfl
    · exact .inl rfl
    · exact .inl (isDigit_of_mem_digits h)
  · rw [write_of_nonneg hnonneg] at h
    exact .inl (isDigit_of_mem_digits h)

theorem write_eq_cons (d : Decimal) : ∃ c text, d.write = c :: text ∧ c.isDigit := by
  have hdigits (n : Nat) : ∃ c text, digits n = c :: text ∧ c.isDigit := by
    obtain ⟨c, text, htext⟩ := List.exists_cons_of_ne_nil (Nat.toDigits_ne_nil (n := n) (b := 10))
    exact ⟨c, text, htext, isDigit_of_mem_digits (htext ▸ List.mem_cons_self)⟩
  rcases lt_or_ge d.exponent 0 with hneg | hnonneg
  · obtain ⟨c, text, htext, hc⟩ := hdigits (d.steps / 10 ^ (-d.exponent).toNat)
    rw [write_of_neg hneg, htext]
    exact ⟨c, _, rfl, hc⟩
  · rw [write_of_nonneg hnonneg]
    exact hdigits _

theorem point_not_mem_digits (n : Nat) : '.' ∉ digits n :=
  fun h => absurd (isDigit_of_mem_digits h) (by decide)

/-- Decimals with a point are read off their texts. -/
theorem eq_of_write_eq (hneg : d.exponent < 0) (hneg' : d'.exponent < 0) (h : d.write = d'.write) :
    d = d' := by
  have hplaces : 0 < (-d.exponent).toNat := by omega
  have hplaces' : 0 < (-d'.exponent).toNat := by omega
  have hpoint (n c) (hc : c ∈ digits n) : ¬c = '.' := fun hdot => point_not_mem_digits n (hdot ▸ hc)
  rw [write_of_neg hneg, write_of_neg hneg'] at h
  obtain ⟨hwhole, hfraction⟩ := eq_of_append_eq (hpoint _) (hpoint _) (by simp) (by simp) h
  have hfraction := (List.cons.inj hfraction).2
  have hlength := congrArg List.length hfraction
  rw [length_leftpad_digits hplaces (Nat.mod_lt _ (Nat.pow_pos (by decide))),
    length_leftpad_digits hplaces' (Nat.mod_lt _ (Nat.pow_pos (by decide)))] at hlength
  rw [← hlength] at hwhole hfraction
  have hquotient := digits_injective hwhole
  have hremainder := leftpad_digits_injective _ hfraction
  have hsteps : d.steps = d'.steps := by
    rw [← Nat.div_add_mod d.steps (10 ^ (-d.exponent).toNat), hquotient, hremainder, Nat.div_add_mod]
  have hexponent : d.exponent = d'.exponent := by omega
  cases d
  cases d'
  obtain rfl := hsteps
  obtain rfl := hexponent
  rfl

theorem sameValue_of_write_eq (h : d.write = d'.write) : d.SameValue d' := by
  rcases lt_or_ge d.exponent 0 with hneg | hnonneg
  · rcases lt_or_ge d'.exponent 0 with hneg' | hnonneg'
    · rw [eq_of_write_eq hneg hneg' h]
      exact Eq.refl _
    · rw [write_of_neg hneg, write_of_nonneg hnonneg'] at h
      exact absurd (h ▸ List.mem_append_right _ List.mem_cons_self) (point_not_mem_digits _)
  · rcases lt_or_ge d'.exponent 0 with hneg' | hnonneg'
    · rw [write_of_nonneg hnonneg, write_of_neg hneg'] at h
      exact absurd (h ▸ List.mem_append_right _ List.mem_cons_self) (point_not_mem_digits _)
    · rw [write_of_nonneg hnonneg, write_of_nonneg hnonneg'] at h
      have hplaces : (-d.exponent).toNat = 0 := by omega
      have hplaces' : (-d'.exponent).toNat = 0 := by omega
      rw [SameValue, hplaces, hplaces', digits_injective h]

end Decimal

/-! ## Signs, infinities and NaNs -/

variable {x y : Number}

/-- The text of a number that is not a NaN, without its sign. -/
def unsignedText (x : Number) : List Char :=
  if x.isInfinite then shortInfinity else (Decimal.shortest x.magnitude.toNat).write

theorem write_of_isNaN (h : x.isNaN) : x.write shortInfinity = ['N', 'a', 'N'] := if_pos h

theorem write_of_not_isNaN (h : ¬x.isNaN) :
    x.write shortInfinity = (if x.isNegative then ['-'] else []) ++ x.unsignedText := if_neg h

theorem mem_unsignedText {c : Char} (h : c ∈ x.unsignedText) : c.isDigit ∨ c ∈ ['.', 'i', 'n', 'f'] := by
  rw [unsignedText] at h
  split at h
  · exact .inr (List.mem_cons_of_mem _ h)
  · rcases Decimal.mem_write h with hdigit | rfl
    · exact .inl hdigit
    · exact .inr List.mem_cons_self

theorem mem_write {c : Char} (h : c ∈ x.write shortInfinity) :
    c.isDigit ∨ c ∈ ['-', '.', 'i', 'n', 'f', 'N', 'a'] := by
  by_cases hnan : x.isNaN
  · rw [write_of_isNaN hnan] at h
    have hword : ['N', 'a', 'N'] ⊆ ['-', '.', 'i', 'n', 'f', 'N', 'a'] := by decide
    exact .inr (hword h)
  · rw [write_of_not_isNaN hnan, List.mem_append] at h
    rcases h with h | h
    · split at h
      · exact .inr (List.mem_singleton.mp h ▸ List.mem_cons_self)
      · cases h
    · exact (mem_unsignedText h).imp_right fun hc =>
        List.mem_cons_of_mem _ (List.mem_append_left ['N', 'a'] hc)

/-- A text without its sign starts with a digit or with the word for infinity. -/
theorem unsignedText_eq_cons (x : Number) :
    ∃ c text, x.unsignedText = c :: text ∧ c ≠ '-' ∧ c ≠ 'N' := by
  rw [unsignedText]
  split
  · exact ⟨'i', ['n', 'f'], rfl, by decide, by decide⟩
  · obtain ⟨c, text, htext, hc⟩ := Decimal.write_eq_cons (Decimal.shortest x.magnitude.toNat)
    refine ⟨c, text, htext, ?_, ?_⟩
    all_goals
      rintro rfl
      exact absurd hc (by decide)

theorem write_ne_nil (x : Number) : x.write shortInfinity ≠ [] := by
  by_cases hnan : x.isNaN
  · rw [write_of_isNaN hnan]
    exact List.cons_ne_nil _ _
  · obtain ⟨c, text, htext, _⟩ := x.unsignedText_eq_cons
    rw [write_of_not_isNaN hnan, htext]
    exact List.append_ne_nil_of_right_ne_nil _ (List.cons_ne_nil _ _)

theorem write_ne_shortInfinity (d : Decimal) : d.write ≠ shortInfinity := by
  intro h
  have hi : 'i' ∈ d.write := h ▸ List.mem_cons_self
  exact absurd (Decimal.mem_write hi) (by decide)

theorem magnitude_eq_of_unsignedText_eq (h : x.unsignedText = y.unsignedText) :
    x.magnitude = y.magnitude := by
  unfold unsignedText at h
  split at h
  · next hx =>
    split at h
    · next hy => exact (beq_iff_eq.mp hx).trans (beq_iff_eq.mp hy).symm
    · exact absurd h.symm (write_ne_shortInfinity _)
  · split at h
    · exact absurd h (write_ne_shortInfinity _)
    · exact UInt64.toNat_inj.mp ((Decimal.shortest_readsBack _).unique (Decimal.shortest_readsBack _)
        (Decimal.sameValue_of_write_eq h))

theorem write_ne_nan (h : ¬x.isNaN) : x.write shortInfinity ≠ ['N', 'a', 'N'] := by
  obtain ⟨c, text, htext, _, hc⟩ := x.unsignedText_eq_cons
  rw [write_of_not_isNaN h, htext]
  split
  · exact fun hsign => absurd (List.cons.inj hsign).1 (by decide)
  · exact fun hhead => hc (List.cons.inj hhead).1

theorem eq_of_write_eq (hx : ¬x.isNaN) (hy : ¬y.isNaN) (h : x.write shortInfinity = y.write shortInfinity) :
    x = y := by
  obtain ⟨c, text, htext, hc, _⟩ := x.unsignedText_eq_cons
  obtain ⟨c', text', htext', hc', _⟩ := y.unsignedText_eq_cons
  rw [write_of_not_isNaN hx, write_of_not_isNaN hy] at h
  cases hsign : x.isNegative <;> cases hsign' : y.isNegative <;>
    simp only [hsign, hsign', Bool.false_eq_true, if_true, if_false, List.nil_append,
      List.cons_append] at h
  · exact eq_of_magnitude_eq (magnitude_eq_of_unsignedText_eq h) (hsign.trans hsign'.symm)
  · exact absurd (List.cons.inj (htext.symm.trans h)).1 hc
  · exact absurd (List.cons.inj (h.trans htext')).1.symm hc'
  · exact eq_of_magnitude_eq (magnitude_eq_of_unsignedText_eq (List.cons.inj h).2)
      (hsign.trans hsign'.symm)

/-- **Numbers have one text if and only if they are equal, or are both NaNs.** -/
theorem write_eq_iff : x.write shortInfinity = y.write shortInfinity ↔ x.EqUpToNaN y := by
  refine ⟨fun h => ?_, fun h => h.write shortInfinity⟩
  by_cases hx : x.isNaN
  · by_cases hy : y.isNaN
    · exact .inr ⟨hx, hy⟩
    · exact absurd (h.symm.trans (write_of_isNaN hx)) (write_ne_nan hy)
  · by_cases hy : y.isNaN
    · exact absurd (h.trans (write_of_isNaN hy)) (write_ne_nan hx)
    · exact .inl (eq_of_write_eq hx hy h)

end Number

end Lox
