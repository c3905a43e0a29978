import Lox.Proofs.Printing.Numbers

/-!
# S-expressions

An S-expression is a word, a text in quotes, or a list of S-expressions in parentheses with a space between two
of them. It can be read off its text if there are no spaces, parentheses and quotes in words, and no quotes in
quoted texts (`Sexp.eq_of_write_eq`). Lists end without a count, and there are no escapes, so what shows where
a part ends is the character after it: a space or the end of a list after an item, a quote after a quoted text.
-/

namespace Lox

/-- A word, a text in quotes, or a list. -/
inductive Sexp where
  | word (text : String)
  | quoted (text : String)
  | list (items : List Sexp)

namespace Sexp

@[elab_as_elim, induction_eliminator]
theorem induction {P : Sexp → Prop} (word : ∀ w, P (.word w)) (quoted : ∀ t, P (.quoted t))
    (list : ∀ items, (∀ x ∈ items, P x) → P (.list items)) (x : Sexp) : P x :=
  Sexp.rec (motive_2 := fun xs => ∀ x ∈ xs, P x) word quoted list (by simp) (by simp_all) x

mutual

/-- An S-expression in front of `rest`. -/
@[simp]
def write : Sexp → List Char → List Char
  | word w, rest => w.toList ++ rest
  | quoted t, rest => '"' :: t.toList ++ '"' :: rest
  | list items, rest => '(' :: writeItems items (')' :: rest)

/-- S-expressions in front of `rest`, with one space between two. -/
@[simp]
def writeItems : List Sexp → List Char → List Char
  | [], rest => rest
  | x :: xs, rest => x.write (writeTail xs rest)

/-- S-expressions in front of `rest`, each after one space. -/
@[simp]
def writeTail : List Sexp → List Char → List Char
  | [], rest => rest
  | x :: xs, rest => ' ' :: x.write (writeTail xs rest)

end

/-! ## Words and delimiters -/

/-- The characters that end a word or start something else. -/
def delimiters : List Char := [' ', '(', ')', '"']

/-- The string is not empty and has no delimiters, as is so for names of letters, digits and underscores. -/
structure IsWord (w : String) : Prop where
  ne_empty : w ≠ ""
  plain : ∀ c ∈ w.toList, c ∉ delimiters

theorem isWord_iff {w : String} : (w ≠ "" ∧ w.toList.all fun c => c ∉ delimiters) ↔ IsWord w := by
  simp only [List.all_eq_true, decide_eq_true_eq]
  exact ⟨fun h => ⟨h.1, h.2⟩, fun h => ⟨h.1, h.2⟩⟩

instance (w : String) : Decidable (IsWord w) := decidable_of_iff _ isWord_iff

theorem isWord_of_identifier {w : String} (hempty : w ≠ "")
    (hw : w.toList.all fun c => c.isAlphanum || c == '_') : IsWord w := by
  refine ⟨hempty, fun c hc hdelimiter => ?_⟩
  have hletter := List.all_eq_true.mp hw c hc
  simp only [delimiters, List.mem_cons, List.not_mem_nil, or_false] at hdelimiter
  rcases hdelimiter with rfl | rfl | rfl | rfl
  all_goals exact absurd hletter (by decide)

theorem IsWord.append_ne_cons {w : String} {c : Char} {rest text : List Char} (hw : IsWord w)
    (hc : c ∈ delimiters) : w.toList ++ rest ≠ c :: text := by
  intro h
  cases htext : w.toList with
  | nil => exact hw.ne_empty (String.toList_eq_nil_iff.mp htext)
  | cons c' cs =>
    rw [htext] at h
    obtain ⟨rfl, _⟩ := List.cons.inj h
    exact hw.plain c' (htext ▸ List.mem_cons_self) hc

/-- All words are words indeed, and there are no quotes in quoted texts. -/
inductive Legible : Sexp → Prop
  | word {w : String} (h : IsWord w) : Legible (.word w)
  | quoted {t : String} (h : '"' ∉ t.toList) : Legible (.quoted t)
  | list {items : List Sexp} (h : ∀ x ∈ items, Legible x) : Legible (.list items)

@[simp]
theorem legible_word_iff {w : String} : (word w).Legible ↔ IsWord w :=
  ⟨fun h => by cases h; assumption, .word⟩

@[simp]
theorem legible_quoted_iff {t : String} : (quoted t).Legible ↔ '"' ∉ t.toList :=
  ⟨fun h => by cases h; assumption, .quoted⟩

@[simp]
theorem legible_list_iff {items : List Sexp} : (list items).Legible ↔ ∀ x ∈ items, x.Legible :=
  ⟨fun h => by cases h; assumption, .list⟩

/-- The text can follow an S-expression. -/
def Follows (rest : List Char) : Prop := ∀ c ∈ rest.head?, c = ' ' ∨ c = ')'

theorem follows_nil : Follows [] := fun _ h => nomatch h

theorem follows_close (rest : List Char) : Follows (')' :: rest) := fun _ h =>
  .inr (Option.some.inj h).symm

theorem follows_writeTail (xs : List Sexp) (rest : List Char) :
    Follows (writeTail xs (')' :: rest)) := by
  cases xs with
  | nil => exact follows_close rest
  | cons x xs => exact fun _ h => .inl (Option.some.inj h).symm

theorem write_ne_close {x : Sexp} (hx : x.Legible) (rest text : List Char) :
    x.write rest ≠ ')' :: text := by
  cases hx with
  | word hw => exact hw.append_ne_cons (by decide)
  | quoted _ => exact fun h => absurd (List.cons.inj h).1 (by decide)
  | list _ => exact fun h => absurd (List.cons.inj h).1 (by decide)

/-! ## Unique readability -/

/-- No text starts both with `x` and with another S-expression. -/
def IsReadOff (x : Sexp) : Prop :=
  ∀ ⦃y : Sexp⦄ ⦃r r' : List Char⦄, y.Legible → Follows r → Follows r' →
    x.write r = y.write r' → x = y ∧ r = r'

variable {xs ys : List Sexp} {r r' : List Char}

theorem eq_of_writeTail_eq (hxs : ∀ x ∈ xs, x.IsReadOff) (hys : ∀ y ∈ ys, y.Legible)
    (h : writeTail xs (')' :: r) = writeTail ys (')' :: r')) : xs = ys ∧ r = r' := by
  induction xs generalizing ys with
  | nil =>
    cases ys with
    | nil => exact ⟨rfl, (List.cons.inj h).2⟩
    | cons y ys => exact absurd (List.cons.inj h).1 (by decide)
  | cons x xs ih =>
    cases ys with
    | nil => exact absurd (List.cons.inj h).1 (by decide)
    | cons y ys =>
      rw [List.forall_mem_cons] at hxs hys
      obtain ⟨rfl, htail⟩ := hxs.1 hys.1 (follows_writeTail xs r) (follows_writeTail ys r')
        (List.cons.inj h).2
      obtain ⟨rfl, rfl⟩ := ih hxs.2 hys.2 htail
      exact ⟨rfl, rfl⟩

theorem eq_of_writeItems_eq (hxs : ∀ x ∈ xs, x.Legible ∧ x.IsReadOff) (hys : ∀ y ∈ ys, y.Legible)
    (h : writeItems xs (')' :: r) = writeItems ys (')' :: r')) : xs = ys ∧ r = r' := by
  cases xs with
  | nil =>
    cases ys with
    | nil => exact ⟨rfl, (List.cons.inj h).2⟩
    | cons y ys => exact absurd h.symm (write_ne_close (hys y List.mem_cons_self) _ _)
  | cons x xs =>
    rw [List.forall_mem_cons] at hxs
    cases ys with
    | nil => exact absurd h (write_ne_close hxs.1.1 _ _)
    | cons y ys =>
      rw [List.forall_mem_cons] at hys
      obtain ⟨rfl, htail⟩ := hxs.1.2 hys.1 (follows_writeTail xs r) (follows_writeTail ys r') h
      obtain ⟨rfl, rfl⟩ := eq_of_writeTail_eq (fun x hx => (hxs.2 x hx).2) hys.2 htail
      exact ⟨rfl, rfl⟩

theorem isReadOff {x : Sexp} (hx : x.Legible) : x.IsReadOff := by
  induction x with
  | word w =>
    intro y r r' hy hr hr' h
    have hw := legible_word_iff.mp hx
    cases hy with
    | word hw' =>
      have hplain {w : String} (hw : IsWord w) (c) (hc : c ∈ w.toList) : ¬(c = ' ' ∨ c = ')') := by
        rintro (rfl | rfl)
        all_goals exact hw.plain _ hc (by decide)
      obtain ⟨htext, hrest⟩ := eq_of_append_eq (hplain hw) (hplain hw') hr hr' h
      exact ⟨congrArg word (String.toList_inj.mp htext), hrest⟩
    | quoted _ => exact absurd h (hw.append_ne_cons (by decide))
    | list _ => exact absurd h (hw.append_ne_cons (by decide))
  | quoted t =>
    intro y r r' hy _ _ h
    have ht := legible_quoted_iff.mp hx
    cases hy with
    | word hw' => exact absurd h.symm (hw'.append_ne_cons (by decide))
    | quoted ht' =>
      have hquote {t : String} (ht : '"' ∉ t.toList) (c) (hc : c ∈ t.toList) : ¬c = '"' :=
        fun heq => ht (heq ▸ hc)
      obtain ⟨htext, hrest⟩ := eq_of_append_eq (hquote ht) (hquote ht') (by simp) (by simp)
        (List.cons.inj h).2
      exact ⟨congrArg quoted (String.toList_inj.mp htext), (List.cons.inj hrest).2⟩
    | list _ => exact absurd (List.cons.inj h).1 (by decide)
  | list xs ih =>
    intro y r r' hy _ _ h
    have hxs := legible_list_iff.mp hx
    cases hy with
    | word hw' => exact absurd h.symm (hw'.append_ne_cons (by decide))
    | quoted _ => exact absurd (List.cons.inj h).1 (by decide)
    | list hys =>
      obtain ⟨rfl, rfl⟩ := eq_of_writeItems_eq (fun x hx => ⟨hxs x hx, ih x hx (hxs x hx)⟩) hys
        (List.cons.inj h).2
      exact ⟨rfl, rfl⟩

/-- **S-expressions with one text are the same.** -/
theorem eq_of_write_eq {x y : Sexp} (hx : x.Legible) (hy : y.Legible) (h : x.write [] = y.write []) :
    x = y :=
  (isReadOff hx hy follows_nil follows_nil h).1

end Sexp

end Lox
