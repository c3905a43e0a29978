import Lox.Text.Blank
import Lox.Text.Size
import Mathlib.Algebra.Group.Nat.Defs
import Mathlib.Data.List.DropRight

/-!
# Texts read as sizes

Trimming takes the white space off both ends of a text, and no more than this (`trim_eq_iff`). What is left is a
size if it is written as one (`IsSize`), and is refused otherwise, for the failure that comes first in it
(`NoSize`). A failure has a place: what stands before it are digits, and their value still fits. So a letter
behind a number that is too large has no part in it, and neither has the value of what follows a letter.
-/

namespace Lox.Text

variable {text core digits : List Char} {value n : Nat} {fault : SizeFault}

/-! ## White space -/

/-- The character is one of those with the Unicode property White_Space. -/
def White (c : Char) : Prop :=
  c.toNat ∈ [0x9, 0xa, 0xb, 0xc, 0xd, 0x20, 0x85, 0xa0, 0x1680, 0x2000, 0x2001, 0x2002, 0x2003, 0x2004, 0x2005,
    0x2006, 0x2007, 0x2008, 0x2009, 0x200a, 0x2028, 0x2029, 0x202f, 0x205f, 0x3000]

theorem isBlank_iff {c : Char} : isBlank c ↔ White c := by
  simp only [isBlank, White, Bool.or_eq_true, Bool.and_eq_true, decide_eq_true_eq, beq_iff_eq, Char.le_def,
    UInt32.le_iff_toNat_le, Char.toNat_val, ← Char.toNat_inj, Char.reduceToNat, List.mem_cons, List.not_mem_nil,
    or_false]
  omega

/-- The text is `core` with white space before and after it, and `core` neither starts nor ends with any. -/
structure Trims (text core : List Char) : Prop where
  around : ∃ before after, text = before ++ (core ++ after) ∧ (∀ c ∈ before, White c) ∧ ∀ c ∈ after, White c
  start : ∀ c ∈ core.head?, ¬White c
  stop : ∀ c ∈ core.getLast?, ¬White c

theorem trim_eq_rdropWhile (text : List Char) :
    trim text = (text.dropWhile isBlank).rdropWhile isBlank := rfl

theorem trims_trim (text : List Char) : Trims text (trim text) := by
  have hinner : trim text ++ (text.dropWhile isBlank).rtakeWhile isBlank = text.dropWhile isBlank := by
    rw [trim_eq_rdropWhile, List.rdropWhile_append_rtakeWhile]
  refine ⟨⟨text.takeWhile isBlank, (text.dropWhile isBlank).rtakeWhile isBlank, ?_, ?_, ?_⟩, ?_, ?_⟩
  · rw [hinner, List.takeWhile_append_dropWhile]
  · exact fun c hc => isBlank_iff.mp (List.mem_takeWhile_imp hc)
  · exact fun c hc => isBlank_iff.mp (List.mem_rtakeWhile_imp hc)
  · intro c hc
    rw [← isBlank_iff]
    have hhead : (text.dropWhile isBlank).head? = some c := by
      rw [← hinner, List.head?_append, Option.mem_def.mp hc, Option.some_or]
    have hnot := List.head?_dropWhile_not isBlank text
    rw [hhead] at hnot
    exact Bool.not_eq_true _ ▸ hnot
  · intro c hc
    rw [← isBlank_iff]
    obtain ⟨hne, rfl⟩ := List.mem_getLast?_eq_getLast hc
    exact List.rdropWhile_last_not isBlank _ hne

theorem dropWhile_blanks {blanks rest : List Char} (hblanks : ∀ c ∈ blanks, White c)
    (hrest : ∀ c ∈ rest.head?, ¬White c) : (blanks ++ rest).dropWhile isBlank = rest := by
  rw [List.dropWhile_append_of_pos fun c hc => isBlank_iff.mpr (hblanks c hc)]
  cases rest with
  | nil => rfl
  | cons c rest => exact List.dropWhile_cons_of_neg (isBlank_iff.not.mpr (hrest c rfl))

theorem trim_eq_of_trims (h : Trims text core) : trim text = core := by
  obtain ⟨⟨before, after, rfl, hbefore, hafter⟩, hstart, hstop⟩ := h
  cases core with
  | nil =>
    have hall : ∀ c ∈ before ++ ([] ++ after), isBlank c :=
      fun c hc => isBlank_iff.mpr (List.forall_mem_append.mpr ⟨hbefore, hafter⟩ c hc)
    rw [trim, List.dropWhile_eq_nil_iff.mpr hall]
    rfl
  | cons c core =>
    have hright : ((c :: core ++ after).reverse).dropWhile isBlank = (c :: core).reverse := by
      rw [List.reverse_append]
      refine dropWhile_blanks (fun d hd => hafter d (List.mem_reverse.mp hd)) fun d hd => hstop d ?_
      rwa [List.head?_reverse] at hd
    have hleft : (before ++ (c :: core ++ after)).dropWhile isBlank = c :: core ++ after :=
      dropWhile_blanks hbefore hstart
    rw [trim, hleft, hright, List.reverse_reverse]

theorem trim_eq_iff : trim text = core ↔ Trims text core :=
  ⟨fun h => h ▸ trims_trim text, trim_eq_of_trims⟩

/-! ## Digits -/

/-- Reading digits goes wrong, after some that have the value `value`: at a character that is no digit, or at
a digit with which the value is too large. -/
inductive Stops (value : Nat) : List Char → SizeFault → Prop
  | invalidDigit {before rest : List Char} {c : Char} (hbefore : ∀ d ∈ before, d.isDigit)
    (hfits : Nat.ofDigitChars 10 before value < 2 ^ 64) (hc : ¬ c.isDigit) :
    Stops value (before ++ c :: rest) .invalidDigit
  | tooLarge {before rest : List Char} {c : Char} (hbefore : ∀ d ∈ before, d.isDigit) (hc : c.isDigit)
    (hfits : Nat.ofDigitChars 10 before value < 2 ^ 64)
    (hlarge : 2 ^ 64 ≤ Nat.ofDigitChars 10 (before ++ [c]) value) :
    Stops value (before ++ c :: rest) .tooLarge

theorem le_ofDigitChars (digits : List Char) (value : Nat) :
    value ≤ Nat.ofDigitChars 10 digits value := by
  rw [Nat.ofDigitChars_eq_ofDigitChars_zero]
  have hpos : 1 ≤ 10 ^ digits.length := Nat.one_le_pow _ _ (by decide)
  exact Nat.le_add_right_of_le (Nat.le_mul_of_pos_left value hpos)

theorem ofDigitChars_cons_eq (c : Char) (digits : List Char) (value : Nat) :
    Nat.ofDigitChars 10 (c :: digits) value = Nat.ofDigitChars 10 digits (Nat.ofDigitChars 10 [c] value) :=
  Nat.ofDigitChars_append (l := [c]) value

theorem readDigits_cons (value : Nat) (c : Char) (rest : List Char) :
    readDigits value (c :: rest) =
      if c.isDigit then
        if Nat.ofDigitChars 10 [c] value < 2 ^ 64 then readDigits (Nat.ofDigitChars 10 [c] value) rest
        else .error .tooLarge
      else .error .invalidDigit := by
  have hvalue : Nat.ofDigitChars 10 [c] value = value * 10 + digitValue c := by
    rw [Nat.ofDigitChars_cons, Nat.ofDigitChars_nil, Nat.mul_comm, digitValue]
  rw [readDigits, hvalue]
  rfl

/-- The digits of the text, up to a place where their value still fits, can be read first. -/
theorem readDigits_append {before : List Char} (hbefore : ∀ d ∈ before, d.isDigit)
    (hfits : Nat.ofDigitChars 10 before value < 2 ^ 64) (rest : List Char) :
    readDigits value (before ++ rest) = readDigits (Nat.ofDigitChars 10 before value) rest := by
  induction before generalizing value with
  | nil => rfl
  | cons c before ih =>
    obtain ⟨hc, hbefore⟩ := List.forall_mem_cons.mp hbefore
    rw [ofDigitChars_cons_eq] at hfits ⊢
    have hfirst : Nat.ofDigitChars 10 [c] value < 2 ^ 64 :=
      Nat.lt_of_le_of_lt (le_ofDigitChars before _) hfits
    rw [List.cons_append, readDigits_cons, if_pos hc, if_pos hfirst, ih hbefore hfits]

theorem Stops.readDigits (h : Stops value digits fault) : readDigits value digits = .error fault := by
  cases h with
  | invalidDigit hbefore hfits hc => rw [readDigits_append hbefore hfits, readDigits_cons, if_neg hc]
  | tooLarge hbefore hc hfits hlarge =>
    rw [Nat.ofDigitChars_append] at hlarge
    rw [readDigits_append hbefore hfits, readDigits_cons, if_pos hc, if_neg (Nat.not_lt.mpr hlarge)]

theorem Stops.cons {c : Char} (hc : c.isDigit) (h : Stops (Nat.ofDigitChars 10 [c] value) digits fault) :
    Stops value (c :: digits) fault := by
  cases h with
  | invalidDigit hbefore hfits hd =>
    rw [← ofDigitChars_cons_eq] at hfits
    exact .invalidDigit (List.forall_mem_cons.mpr ⟨hc, hbefore⟩) hfits hd
  | tooLarge hbefore hd hfits hlarge =>
    rw [← ofDigitChars_cons_eq] at hfits hlarge
    exact .tooLarge (List.forall_mem_cons.mpr ⟨hc, hbefore⟩) hd hfits hlarge

/-- Reading digits gives their value, or stops at the first place where it goes wrong. -/
theorem readDigits_cases (hvalue : value < 2 ^ 64) (digits : List Char) :
    ((∀ c ∈ digits, c.isDigit) ∧ Nat.ofDigitChars 10 digits value < 2 ^ 64) ∨
      ∃ fault, Stops value digits fault := by
  induction digits generalizing value with
  | nil => exact .inl ⟨nofun, hvalue⟩
  | cons c rest ih =>
    by_cases hc : c.isDigit
    · by_cases hfits : Nat.ofDigitChars 10 [c] value < 2 ^ 64
      · obtain ⟨hrest, hlt⟩ | ⟨fault, hstops⟩ := ih hfits
        · rw [← ofDigitChars_cons_eq] at hlt
          exact .inl ⟨List.forall_mem_cons.mpr ⟨hc, hrest⟩, hlt⟩
        · exact .inr ⟨fault, hstops.cons hc⟩
      · have hstops : Stops value ([] ++ c :: rest) .tooLarge := .tooLarge nofun hc hvalue (Nat.not_lt.mp hfits)
        exact .inr ⟨_, hstops⟩
    · have hstops : Stops value ([] ++ c :: rest) .invalidDigit := .invalidDigit nofun hvalue hc
      exact .inr ⟨_, hstops⟩

/-! ## Sizes -/

/-- The text is digits, after a plus sign or none, of a value that fits into sixty-four bits. -/
inductive IsSize : List Char → Nat → Prop
  | unsigned {digits : List Char} (hne : digits ≠ []) (hdigits : ∀ c ∈ digits, c.isDigit)
    (hfits : Nat.ofDigitChars 10 digits 0 < 2 ^ 64) : IsSize digits (Nat.ofDigitChars 10 digits 0)
  | signed {digits : List Char} (hne : digits ≠ []) (hdigits : ∀ c ∈ digits, c.isDigit)
    (hfits : Nat.ofDigitChars 10 digits 0 < 2 ^ 64) : IsSize ('+' :: digits) (Nat.ofDigitChars 10 digits 0)

/-- The text is no size: it is empty, or there is nothing after its plus sign, or its digits go wrong. -/
inductive NoSize : List Char → SizeFault → Prop
  | empty : NoSize [] .empty
  | loneSign : NoSize ['+'] .invalidDigit
  | unsigned {digits : List Char} {fault : SizeFault} (hsign : digits.head? ≠ some '+')
    (h : Stops 0 digits fault) : NoSize digits fault
  | signed {digits : List Char} {fault : SizeFault} (h : Stops 0 digits fault) : NoSize ('+' :: digits) fault

theorem readSize_signed (hne : digits ≠ []) : readSize ('+' :: digits) = readDigits 0 digits := by
  cases digits with
  | nil => exact absurd rfl hne
  | cons c rest => rfl

theorem readSize_unsigned (hne : text ≠ []) (hsign : text.head? ≠ some '+') :
    readSize text = readDigits 0 text := by
  unfold readSize
  split
  · exact absurd rfl hne
  · exact absurd rfl hsign
  · exact absurd rfl hsign
  · rfl

theorem readDigits_of_fits (hdigits : ∀ c ∈ digits, c.isDigit)
    (hfits : Nat.ofDigitChars 10 digits value < 2 ^ 64) :
    readDigits value digits = .ok (Nat.ofDigitChars 10 digits value) := by
  have happend := readDigits_append hdigits hfits []
  rwa [List.append_nil] at happend

theorem head?_ne_plus (hdigits : ∀ c ∈ digits, c.isDigit) : digits.head? ≠ some '+' :=
  fun h => absurd (hdigits '+' (List.mem_of_mem_head? h)) (by decide)

theorem Stops.ne_nil (h : Stops value digits fault) : digits ≠ [] := by
  cases h <;> simp

theorem IsSize.readSize (h : IsSize text n) : readSize text = .ok n := by
  cases h with
  | unsigned hne hdigits hfits =>
    rw [readSize_unsigned hne (head?_ne_plus hdigits), readDigits_of_fits hdigits hfits]
  | signed hne hdigits hfits => rw [readSize_signed hne, readDigits_of_fits hdigits hfits]

theorem NoSize.readSize (h : NoSize text fault) : readSize text = .error fault := by
  cases h with
  | empty | loneSign => rfl
  | unsigned hsign h => rw [readSize_unsigned h.ne_nil hsign, h.readDigits]
  | signed h => rw [readSize_signed h.ne_nil, h.readDigits]

theorem isSize_or_noSize (text : List Char) : (∃ n, IsSize text n) ∨ ∃ fault, NoSize text fault := by
  rcases eq_or_ne text [] with rfl | hne
  · exact .inr ⟨_, .empty⟩
  by_cases hsign : text.head? = some '+'
  · obtain ⟨digits, rfl⟩ := List.head?_eq_some_iff.mp hsign
    rcases eq_or_ne digits [] with rfl | hdigits
    · exact .inr ⟨_, .loneSign⟩
    obtain ⟨hall, hfits⟩ | ⟨fault, hstops⟩ := readDigits_cases (Nat.two_pow_pos 64) digits
    · exact .inl ⟨_, .signed hdigits hall hfits⟩
    · exact .inr ⟨fault, .signed hstops⟩
  · obtain ⟨hall, hfits⟩ | ⟨fault, hstops⟩ := readDigits_cases (Nat.two_pow_pos 64) text
    · exact .inl ⟨_, .unsigned hne hall hfits⟩
    · exact .inr ⟨fault, .unsigned hsign hstops⟩

/-- A result is known on both sides if what is said of successes and failures leaves no other. -/
theorem eq_iff_of_cases {ε α : Type} {r : Except ε α} {P : α → Prop} {Q : ε → Prop}
    (hok : ∀ a, P a → r = .ok a) (herror : ∀ e, Q e → r = .error e) (hcases : (∃ a, P a) ∨ ∃ e, Q e) :
    (∀ a, r = .ok a ↔ P a) ∧ ∀ e, r = .error e ↔ Q e := by
  refine ⟨fun a => ⟨fun h => ?_, hok a⟩, fun e => ⟨fun h => ?_, herror e⟩⟩
  · obtain ⟨b, hb⟩ | ⟨e, he⟩ := hcases
    · rw [hok b hb] at h
      exact Except.ok.inj h ▸ hb
    · rw [herror e he] at h
      cases h
  · obtain ⟨a, ha⟩ | ⟨e', he⟩ := hcases
    · rw [hok a ha] at h
      cases h
    · rw [herror e' he] at h
      exact Except.error.inj h ▸ he

/-- A text is read as a size if and only if it is written as one, and is refused otherwise for the failure that
comes first in it. -/
theorem readSize_eq_iff (text : List Char) :
    (∀ n, readSize text = .ok n ↔ IsSize text n) ∧ ∀ fault, readSize text = .error fault ↔ NoSize text fault :=
  eq_iff_of_cases (fun _ => IsSize.readSize) (fun _ => NoSize.readSize) (isSize_or_noSize text)

/-- A letter has no part in the failure if the digits before it are too large already. -/
example : readSize "18446744073709551616x".toList = .error .tooLarge := by decide +kernel

end Lox.Text
