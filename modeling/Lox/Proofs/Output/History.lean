import Lox.Buffer
import Mathlib.Data.List.DropRight

/-!
# What a buffer gives back

Several outputs may write to one buffer, and others discard what they are given. The texts that a buffer holds
after any use of them are those printed to it since it was cleared last (`Output.collected`), in order, no matter
which output each of them came through.

The buffer keeps no record of where a text ends, so the lines are cut out of the whole. They still are the lines
of the texts one by one, as each text is followed by a line feed (`Text.lines_append_break`). What becomes of a
text with line feeds or carriage returns in it is told by `Text.lines_break`.
-/

namespace Lox

/-! ## The lines of one text -/

namespace Text

/-- A line without the carriage return at its end. -/
def dropReturn (line : List Char) : List Char := if line.getLast? = some '\r' then line.dropLast else line

theorem dropReturn_cons (c : Char) {line : List Char} (h : line ≠ []) :
    dropReturn (c :: line) = c :: dropReturn line := by
  obtain ⟨d, rest, rfl⟩ := List.exists_cons_of_ne_nil h
  simp only [dropReturn, List.getLast?_cons_cons, List.dropLast_cons_cons]
  split <;> rfl

/-- The cut of a text that a line feed follows: its pieces between line feeds, less a carriage return at the end
of each. -/
theorem foldr_push_break (text : List Char) :
    ∃ piece rest, text.splitOn '\n' = piece :: rest ∧
      text.foldr Cut.push ⟨true, [[]]⟩ = ⟨decide (piece = []), (piece :: rest).map dropReturn⟩ := by
  induction text with
  | nil => exact ⟨[], [], rfl, rfl⟩
  | cons c text ih =>
    obtain ⟨piece, rest, hsplit, hcut⟩ := ih
    rw [List.splitOn_cons_eq_if_modifyHead, hsplit, List.foldr_cons, hcut, Cut.push]
    by_cases hbreak : c = '\n'
    · exact ⟨[], piece :: rest, by simp [hbreak], by simp [hbreak, dropReturn]⟩
    refine ⟨c :: piece, rest, by simp [hbreak], ?_⟩
    rw [if_neg hbreak]
    rcases eq_or_ne piece [] with rfl | hpiece
    · by_cases hreturn : c = '\r' <;> simp [hreturn, dropReturn]
    · simp [hpiece, dropReturn_cons c hpiece]

/-- The lines of a text that a line feed follows are its pieces between line feeds, each without a carriage
return at its end. -/
theorem lines_break (text : List Char) : lines (text ++ ['\n']) = (text.splitOn '\n').map dropReturn := by
  obtain ⟨piece, rest, hsplit, hcut⟩ := foldr_push_break text
  rw [lines, List.foldr_append, hsplit]
  exact congrArg Cut.lines hcut

theorem lines_break_of_plain {text : List Char} (hbreak : '\n' ∉ text) (hreturn : text.getLast? ≠ some '\r') :
    lines (text ++ ['\n']) = [text] := by
  have hsplit : text.splitOn '\n' = [text] := by
    rw [List.splitOn_eq_splitOnP]
    exact List.splitOnP_eq_singleton fun c hc => beq_false_of_ne fun heq => hbreak (heq ▸ hc)
  rw [lines_break, hsplit, List.map_singleton, dropReturn, if_neg hreturn]

end Text

theorem Buffer.lines_of_plain {text : String} (hbreak : '\n' ∉ text.toList)
    (hreturn : text.toList.getLast? ≠ some '\r') : Buffer.lines ⟨text ++ "\n"⟩ = [text] := by
  have hlist : (text ++ "\n").toList = text.toList ++ ['\n'] := by simp
  rw [Buffer.lines, hlist, Text.lines_break_of_plain hbreak hreturn, List.map_singleton, String.ofList_toList]

/-! ## Printing and clearing -/

namespace Output

/-- What is done with outputs, each known by a handle, and with the buffer that some of them write to. -/
inductive Use (Handle : Type) where
  | println (through : Handle) (text : String)
  | clear
  deriving DecidableEq

variable {Handle : Type} (outputs : Handle → Output)

def Use.apply (b : Buffer) : Use Handle → Buffer
  | println k text => (outputs k).println text b
  | clear => b.clear

/-- The text that is printed to the buffer, if that is the use. -/
def Use.text? : Use Handle → Option String
  | println k text => if outputs k = .buffer then some text else none
  | clear => none

/-- Whether the buffer keeps what it has. -/
def Use.keeps : Use Handle → Bool
  | println _ _ => true
  | clear => false

/-- The buffer after all uses of a new one, in order. -/
def bufferAfter (uses : List (Use Handle)) : Buffer := uses.foldl (Use.apply outputs) {}

/-- The texts printed to the buffer since it was last cleared, or since it was made. -/
def collected (uses : List (Use Handle)) : List String :=
  (uses.rtakeWhile Use.keeps).filterMap (Use.text? outputs)

theorem collected_concat (uses : List (Use Handle)) (use : Use Handle) :
    collected outputs (uses ++ [use]) =
      if use.keeps then collected outputs uses ++ (use.text? outputs).toList else [] := by
  have hlast : [use].filterMap (Use.text? outputs) = (use.text? outputs).toList := by
    cases htext : use.text? outputs <;> simp [htext]
  rw [collected, List.rtakeWhile_concat]
  split
  · rw [List.filterMap_append, hlast]
    rfl
  · rfl

theorem toList_bufferAfter (uses : List (Use Handle)) :
    (bufferAfter outputs uses).contents.toList =
      (collected outputs uses).flatMap fun text => text.toList ++ ['\n'] := by
  induction uses using List.reverseRecOn with
  | nil => rfl
  | append_singleton uses use ih =>
    rw [collected_concat, bufferAfter, List.foldl_concat, ← bufferAfter]
    cases use with
    | clear => rfl
    | println k text =>
      have hkeeps : (Use.println k text).keeps := rfl
      rw [Use.apply, if_pos hkeeps, List.flatMap_append, ← ih, Use.text?]
      cases outputs k <;> simp [println, Buffer.println]

theorem lines_bufferAfter (uses : List (Use Handle)) :
    (bufferAfter outputs uses).lines =
      (collected outputs uses).flatMap fun text => Buffer.lines ⟨text ++ "\n"⟩ := by
  have hlines (texts : List String) :
      Text.lines (texts.flatMap fun text => text.toList ++ ['\n']) =
        texts.flatMap fun text => Text.lines (text.toList ++ ['\n']) := by
    induction texts with
    | nil => rfl
    | cons text texts ih =>
      rw [List.flatMap_cons, List.append_assoc, List.singleton_append, Text.lines_append_break, ih,
        List.flatMap_cons]
  rw [Buffer.lines, toList_bufferAfter, hlines, List.map_flatMap]
  simp [Buffer.lines]

/-- **A buffer gives back what was printed.** Take any outputs, some of which write to one buffer, and print
through them and clear the buffer in any order. Then the buffer holds the texts that were printed to it since it
was last cleared, in order, each with a line feed after it. Its lines are the lines of these texts one by one.
They are the texts themselves if there are no line feeds in them, and no carriage returns at their ends. -/
theorem buffer_gives_back (uses : List (Use Handle)) :
    (bufferAfter outputs uses).contents = String.join ((collected outputs uses).map (· ++ "\n")) ∧
      (bufferAfter outputs uses).lines =
        (collected outputs uses).flatMap (fun text => Buffer.lines ⟨text ++ "\n"⟩) ∧
      ((∀ text ∈ collected outputs uses, '\n' ∉ text.toList ∧ text.toList.getLast? ≠ some '\r') →
        (bufferAfter outputs uses).lines = collected outputs uses) := by
  refine ⟨?_, lines_bufferAfter outputs uses, fun hplain => ?_⟩
  · rw [← String.toList_inj, toList_bufferAfter]
    simp [List.flatMap_map]
  · rw [lines_bufferAfter]
    calc (collected outputs uses).flatMap (fun text => Buffer.lines ⟨text ++ "\n"⟩)
        = (collected outputs uses).flatMap fun text => [text] := by
          refine List.flatMap_congr fun text htext => ?_
          exact Buffer.lines_of_plain (hplain text htext).1 (hplain text htext).2
      _ = collected outputs uses := List.flatMap_singleton' _

/-- Two outputs that share the buffer, and one that discards what it is given. -/
private def sharing (k : Fin 3) : Output := if k = 2 then .silent else .buffer

/-- Texts printed through all three, some of them before the buffer is cleared. -/
private def interleaved : List (Use (Fin 3)) :=
  [.println 0 "dropped", .println 2 "", .clear, .println 1 "", .println 2 "discarded", .println 0 "a\rb",
    .println 1 ""]

theorem buffer_gives_back_interleaved :
    (bufferAfter sharing interleaved).contents = "\na\rb\n\n" ∧
      (bufferAfter sharing interleaved).lines = ["", "a\rb", ""] := by
  have hcollected : collected sharing interleaved = ["", "a\rb", ""] := by decide
  obtain ⟨hcontents, _, hlines⟩ := buffer_gives_back sharing interleaved
  rw [hcollected] at hcontents hlines
  exact ⟨hcontents.trans (by decide), hlines (by decide)⟩

end Output

end Lox
