import Lox.Proofs.Base.Texts
import Lox.Text.Quoted
import Mathlib.Data.List.Forall2

/-!
# Quoted texts

What quoted text looks like, character by character (`Shows`), and that it can be read off: no two texts have the
same quotes, whatever stands behind them (`eq_of_quote_append_eq`). This holds of a row of quoted texts as well
(`eq_of_intercalate_quoted_eq`).
-/

namespace Lox.Text

/-- How quoted text shows a character. Six have a letter or themselves after a backslash. The others of ASCII
stand for themselves, but for the controls, and the others beyond it if they have a glyph. What is left is shown
by its number in hexadecimal. -/
inductive Shows : Char → List Char → Prop
  | quote : Shows '"' ['\\', '"']
  | backslash : Shows '\\' ['\\', '\\']
  | newline : Shows '\n' ['\\', 'n']
  | carriageReturn : Shows '\r' ['\\', 'r']
  | tab : Shows '\t' ['\\', 't']
  | zero : Shows '\x00' ['\\', '0']
  | ascii {c : Char} (hc : 0x20 ≤ c.toNat ∧ c.toNat < 0x7f) (hquote : c ≠ '"') (hbackslash : c ≠ '\\') : Shows c [c]
  | control {c : Char} (hc : c.toNat < 0x20 ∨ c.toNat = 0x7f) (hletter : c ∉ ['\n', '\r', '\t', '\x00']) :
    Shows c ('\\' :: 'u' :: '\x7b' :: Nat.toDigits 16 c.toNat ++ ['\x7d'])
  | glyph {c : Char} (hc : 0x80 ≤ c.toNat) (hglyph : ¬isGlyphless c) : Shows c [c]
  | glyphless {c : Char} (hc : 0x80 ≤ c.toNat) (hglyph : isGlyphless c) :
    Shows c ('\\' :: 'u' :: '\x7b' :: Nat.toDigits 16 c.toNat ++ ['\x7d'])

/-- The text in double quotes, with each of its characters shown. -/
def Quotes (text quotes : String) : Prop :=
  ∃ shown, List.Forall₂ Shows text.toList shown ∧ quotes.toList = '"' :: shown.flatten ++ ['"']

variable {c d : Char} {w w' r r' s t : List Char}

/-! ## Characters -/

/-- In ASCII, only the controls have no glyph. -/
theorem isGlyphless_iff_of_lt (hc : c.toNat < 0x80) : isGlyphless c ↔ c.toNat < 0x20 ∨ c.toNat = 0x7f := by
  have hruns : glyphlessRuns = (0x0, 0x1f) :: (0x7f, 0xa0) :: glyphlessRuns.drop 2 := rfl
  have hbeyond : ∀ run ∈ glyphlessRuns.drop 2, 0x80 ≤ run.1 := by decide +kernel
  have hdrop : ((glyphlessRuns.drop 2).any fun run => run.1 ≤ c.toNat && c.toNat ≤ run.2) = false := by
    refine List.any_eq_false.mpr fun run hrun => ?_
    have hrun := hbeyond run hrun
    simp only [Bool.and_eq_true, decide_eq_true_eq]
    omega
  rw [isGlyphless, hruns, List.any_cons, List.any_cons, hdrop]
  simp only [Bool.or_false, Bool.or_eq_true, Bool.and_eq_true, decide_eq_true_eq]
  omega

/-- What each letter after a backslash stands for. -/
def letters : List (Char × Char) :=
  [('"', '"'), ('\\', '\\'), ('n', '\n'), ('r', '\r'), ('t', '\t'), ('0', '\x00')]

/-- The characters that have a letter. -/
def marked : List Char := letters.map Prod.snd

theorem marked_cases : ∀ c ∈ marked, (c = '"' ∨ c = '\\') ∧ 0x20 ≤ c.toNat ∧ c.toNat < 0x7f ∨
    c ∈ ['\n', '\r', '\t', '\x00'] ∧ c.toNat < 0x20 := by
  simp [marked, letters]

theorem escape_of_not_mem (hc : c ∉ marked) :
    escape c = if isGlyphless c then '\\' :: 'u' :: '\x7b' :: Nat.toDigits 16 c.toNat ++ ['\x7d'] else [c] := by
  simp only [marked, letters, List.map_cons, List.map_nil, List.mem_cons, List.not_mem_nil, or_false, not_or] at hc
  obtain ⟨hquote, hbackslash, hnewline, hreturn, htab, hzero⟩ := hc
  rw [escape]
  · rfl
  all_goals assumption

theorem Shows.eq_escape (h : Shows c w) : w = escape c := by
  have hplain (hno : ¬((c = '"' ∨ c = '\\') ∧ 0x20 ≤ c.toNat ∧ c.toNat < 0x7f))
      (hcontrol : ¬(c ∈ ['\n', '\r', '\t', '\x00'] ∧ c.toNat < 0x20)) :
      escape c = if isGlyphless c then '\\' :: 'u' :: '\x7b' :: Nat.toDigits 16 c.toNat ++ ['\x7d'] else [c] :=
    escape_of_not_mem fun hmem => (marked_cases c hmem).elim hno hcontrol
  cases h with
  | quote | backslash | newline | carriageReturn | tab | zero => rfl
  | ascii hc hquote hbackslash =>
    rw [hplain (fun h => h.1.elim hquote hbackslash) (by omega), if_neg]
    rw [isGlyphless_iff_of_lt (by omega)]
    omega
  | control hc hletter =>
    rw [hplain (by omega) fun h => hletter h.1, if_pos]
    rwa [isGlyphless_iff_of_lt (by omega)]
  | glyph hc hglyph => rw [hplain (by omega) (by omega), if_neg hglyph]
  | glyphless hc hglyph => rw [hplain (by omega) (by omega), if_pos hglyph]

theorem shows_escape (c : Char) : Shows c (escape c) := by
  by_cases hc : c ∈ marked
  · simp only [marked, letters, List.map_cons, List.map_nil, List.mem_cons, List.not_mem_nil, or_false] at hc
    obtain rfl | rfl | rfl | rfl | rfl | rfl := hc
    exacts [.quote, .backslash, .newline, .carriageReturn, .tab, .zero]
  · rw [escape_of_not_mem hc]
    simp only [marked, letters, List.map_cons, List.mem_cons, not_or] at hc
    rcases Nat.lt_or_ge c.toNat 0x80 with hascii | hbeyond
    · have hiff := isGlyphless_iff_of_lt hascii
      split
      · next hglyph => exact .control (hiff.mp hglyph) (by simp [hc])
      · next hglyph =>
        rw [hiff] at hglyph
        exact .ascii (by omega) hc.1 hc.2.1
    · split
      · next hglyph => exact .glyphless hbeyond hglyph
      · next hglyph => exact .glyph hbeyond hglyph

theorem shows_iff : Shows c w ↔ w = escape c :=
  ⟨Shows.eq_escape, fun h => h ▸ shows_escape c⟩

theorem forall₂_eq_map_iff {α β : Type} {R : α → β → Prop} {f : α → β} (hR : ∀ a b, R a b ↔ b = f a)
    {as : List α} {bs : List β} : List.Forall₂ R as bs ↔ bs = as.map f := by
  have himage : R = fun a b => f a = b := funext₂ fun a b => propext ((hR a b).trans eq_comm)
  rw [himage, ← List.forall₂_map_left_iff, List.forall₂_eq_eq_eq, eq_comm]

theorem quotes_iff {text quotes : String} : Quotes text quotes ↔ quotes = quoted text := by
  have hshown (shown) : List.Forall₂ Shows text.toList shown ↔ shown = text.toList.map escape :=
    forall₂_eq_map_iff (R := Shows) fun _ _ => shows_iff
  simp only [Quotes, hshown, exists_eq_left]
  rw [quoted, quote, List.flatMap_def, String.ext_iff, String.toList_ofList]

/-! ## Reading off -/

def readEscaped : List Char → Option (Char × List Char)
  | 'u' :: '\x7b' :: rest =>
    some (Char.ofNat (hexValue (rest.takeWhile (· != '\x7d'))), (rest.dropWhile (· != '\x7d')).tail)
  | letter :: rest => (letters.lookup letter).map (·, rest)
  | [] => none

/-- Read the character that is shown first, and leave the rest of the text. -/
def readShown : List Char → Option (Char × List Char)
  | c :: rest => if c = '\\' then readEscaped rest else some (c, rest)
  | [] => none

theorem readEscaped_number (c : Char) (rest : List Char) :
    readEscaped ('u' :: '\x7b' :: Nat.toDigits 16 c.toNat ++ '\x7d' :: rest) = some (c, rest) := by
  have hdigits : ∀ a ∈ Nat.toDigits 16 c.toNat, (a != '\x7d') = true := by
    intro a ha
    obtain ⟨d, -, rfl⟩ := exists_digitChar_of_mem_toDigits ha
    simp
  show some (Char.ofNat (hexValue ((Nat.toDigits 16 c.toNat ++ '\x7d' :: rest).takeWhile (· != '\x7d'))),
    ((Nat.toDigits 16 c.toNat ++ '\x7d' :: rest).dropWhile (· != '\x7d')).tail) = _
  rw [List.takeWhile_append_of_pos hdigits, List.dropWhile_append_of_pos hdigits]
  simp [hexValue_toDigits]

theorem Shows.read (h : Shows c w) (rest : List Char) : readShown (w ++ rest) = some (c, rest) := by
  cases h with
  | quote | backslash | newline | carriageReturn | tab | zero => rfl
  | ascii hc hquote hbackslash => exact if_neg hbackslash
  | glyph hc hglyph =>
    refine if_neg ?_
    rintro rfl
    exact absurd hc (by decide)
  | control | glyphless =>
    rw [List.append_assoc]
    exact readEscaped_number c rest

theorem Shows.append_ne_quote (h : Shows c w) (rest text : List Char) : w ++ rest ≠ '"' :: text := by
  intro heq
  have hread := h.read rest
  rw [heq] at hread
  obtain ⟨rfl, rfl⟩ : '"' = c ∧ text = rest := by simpa [readShown] using hread
  rw [h.eq_escape] at heq
  cases heq

theorem Shows.eq_of_append_eq (h : Shows c w) (h' : Shows d w') (heq : w ++ r = w' ++ r') :
    c = d ∧ r = r' := by
  have hread := h.read r
  rw [heq, h'.read r'] at hread
  cases hread
  exact ⟨rfl, rfl⟩

/-- A quoted text is read off the text that starts with it. -/
theorem eq_of_quote_append_eq (h : quote s ++ r = quote t ++ r') : s = t ∧ r = r' := by
  have hshown : s.flatMap escape ++ '"' :: r = t.flatMap escape ++ '"' :: r' := by
    simpa [quote] using h
  clear h
  induction s generalizing t with
  | nil =>
    cases t with
    | nil => exact ⟨rfl, (List.cons.inj hshown).2⟩
    | cons d t =>
      rw [List.flatMap_cons, List.append_assoc] at hshown
      exact absurd hshown.symm ((shows_escape d).append_ne_quote _ _)
  | cons c s ih =>
    cases t with
    | nil =>
      rw [List.flatMap_cons, List.append_assoc] at hshown
      exact absurd hshown ((shows_escape c).append_ne_quote _ _)
    | cons d t =>
      rw [List.flatMap_cons, List.flatMap_cons, List.append_assoc, List.append_assoc] at hshown
      obtain ⟨rfl, htail⟩ := (shows_escape c).eq_of_append_eq (shows_escape d) hshown
      obtain ⟨rfl, rfl⟩ := ih htail
      exact ⟨rfl, rfl⟩

theorem toList_quoted (text : String) : (quoted text).toList = quote text.toList := String.toList_ofList

theorem quoted_injective : Function.Injective quoted := by
  intro text text' h
  have hquote : quote text.toList ++ [] = quote text'.toList ++ [] := by
    rw [← toList_quoted, ← toList_quoted, h]
  exact String.toList_inj.mp (eq_of_quote_append_eq hquote).1

/-! ## Rows of quoted texts -/

theorem toList_intercalate_cons (x : String) (xs : List String) :
    (", ".intercalate (x :: xs)).toList = x.toList ++ xs.flatMap fun y => ',' :: ' ' :: y.toList := by
  induction xs generalizing x with
  | nil => simp
  | cons y ys ih =>
    rw [String.intercalate_cons_cons, String.toList_append, String.toList_append, ih]
    simp

variable {names names' : List String}

theorem eq_of_flatMap_quote_eq
    (h : (names.flatMap fun x => ',' :: ' ' :: quote x.toList) ++ ']' :: r =
      (names'.flatMap fun x => ',' :: ' ' :: quote x.toList) ++ ']' :: r') : names = names' ∧ r = r' := by
  induction names generalizing names' with
  | nil =>
    cases names' with
    | nil => exact ⟨rfl, (List.cons.inj h).2⟩
    | cons y names' => cases h
  | cons x names ih =>
    cases names' with
    | nil => cases h
    | cons y names' =>
      simp only [List.flatMap_cons, List.cons_append, List.append_assoc, List.cons.injEq, true_and] at h
      obtain ⟨hquote, hrest⟩ := eq_of_quote_append_eq h
      obtain ⟨rfl, rfl⟩ := ih hrest
      exact ⟨congrArg (· :: names) (String.toList_inj.mp hquote), rfl⟩

/-- The texts are read off a row of their quotes, up to the bracket that ends it. -/
theorem eq_of_intercalate_quoted_eq
    (h : (", ".intercalate (names.map quoted)).toList ++ ']' :: r =
      (", ".intercalate (names'.map quoted)).toList ++ ']' :: r') : names = names' ∧ r = r' := by
  cases names with
  | nil =>
    cases names' with
    | nil => exact ⟨rfl, (List.cons.inj h).2⟩
    | cons y names' =>
      rw [List.map_cons, toList_intercalate_cons, toList_quoted] at h
      cases h
  | cons x names =>
    cases names' with
    | nil =>
      rw [List.map_cons, toList_intercalate_cons, toList_quoted] at h
      cases h
    | cons y names' =>
      simp only [List.map_cons, toList_intercalate_cons, toList_quoted, List.flatMap_map, List.append_assoc] at h
      obtain ⟨hquote, hrest⟩ := eq_of_quote_append_eq h
      obtain ⟨rfl, rfl⟩ := eq_of_flatMap_quote_eq hrest
      exact ⟨congrArg (· :: names) (String.toList_inj.mp hquote), rfl⟩

end Lox.Text
