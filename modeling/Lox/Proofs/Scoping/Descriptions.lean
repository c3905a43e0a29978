import Lox.Proofs.Base.ByteOrder
import Lox.Proofs.Printing.Quotes
import Lox.Proofs.Scoping.Ownership
import Mathlib.Logic.Relation

/-!
# The description of a frame

A frame is described by the names that it binds, in order, and by how many frames are around it. Both can be
read off the description (`Frames.describe_eq_iff`). Of all that was done with frames, only definitions in the
frame itself leave a name there (`Machine.Built.mem_names_iff`), and only the frames around it count for its depth
(`Frames.Layered.mem_tail_chain_iff`). So the description tells nothing about the order of the definitions, about
their values, or about assignments.
-/

namespace Lox

namespace Frames

variable {s t : Frames} {f g : FrameId}

theorem toList_describe (s : Frames) (f : FrameId) :
    (s.describe f).toList = "Environment \x7b names: [".toList ++
      ((", ".intercalate ((s.names f).map Text.quoted)).toList ++
        ']' :: (", depth: ".toList ++ (Nat.toDigits 10 (s.depth f) ++ " \x7d".toList))) := by
  have hbracket : "], depth: ".toList = ']' :: ", depth: ".toList := by decide
  unfold describe
  simp only [String.toList_append, Nat.toString_eq_repr, Nat.toList_repr, List.append_assoc]
  rw [hbracket, List.cons_append]

theorem describe_eq_iff :
    s.describe f = t.describe g ↔ s.names f = t.names g ∧ s.depth f = t.depth g := by
  constructor
  · intro h
    have htext := congrArg String.toList h
    rw [toList_describe, toList_describe, List.append_cancel_left_eq] at htext
    obtain ⟨hnames, hrest⟩ := Text.eq_of_intercalate_quoted_eq htext
    rw [List.append_cancel_left_eq, List.append_cancel_right_eq] at hrest
    exact ⟨hnames, toDigits_ten_injective hrest⟩
  · rintro ⟨hnames, hdepth⟩
    unfold describe
    rw [hnames, hdepth]

def Link (s : Frames) (f g : FrameId) : Prop := s.enclosing? f = some g

/-- The frame `g` is around `f`, next to it or farther out. -/
def Encloses (s : Frames) (g f : FrameId) : Prop := Relation.TransGen s.Link f g

section layered

variable (h : s.Layered)
include h

theorem Layered.mem_chain_iff : g ∈ s.chain f ↔ Relation.ReflTransGen s.Link f g := by
  induction f using Nat.strongRecOn with
  | ind f ih =>
    rw [h.chain_eq, List.mem_cons, Relation.ReflTransGen.cases_head_iff, eq_comm (a := g)]
    refine or_congr_right ?_
    cases hlink : s.enclosing? f with
    | none => simp [Link, hlink]
    | some p => simp [Link, hlink, ih p (h f p hlink)]

theorem Layered.mem_tail_chain_iff : g ∈ (s.chain f).tail ↔ s.Encloses g f := by
  rw [h.chain_eq, List.tail_cons, Encloses, Relation.TransGen.head'_iff]
  cases hlink : s.enclosing? f with
  | none => simp [Link, hlink]
  | some p => simp [Link, hlink, h.mem_chain_iff]

theorem Layered.le_of_mem_chain (hg : g ∈ s.chain f) : g ≤ f := by
  induction f using Nat.strongRecOn with
  | ind f ih =>
    rw [h.chain_eq] at hg
    rcases List.mem_cons.mp hg with rfl | hg
    · exact Nat.le_refl g
    · cases hlink : s.enclosing? f with
      | none => simp [hlink] at hg
      | some p =>
        rw [hlink] at hg
        exact Nat.le_trans (ih p (h f p hlink) hg) (Nat.le_of_lt (h f p hlink))

theorem Layered.nodup_chain (f : FrameId) : (s.chain f).Nodup := by
  induction f using Nat.strongRecOn with
  | ind f ih =>
    rw [h.chain_eq]
    cases hlink : s.enclosing? f with
    | none => exact List.nodup_singleton f
    | some p =>
      have hp : p < f := h f p hlink
      exact List.nodup_cons.mpr ⟨fun hf => Nat.not_le_of_lt hp (h.le_of_mem_chain hf), ih p hp⟩

end layered

end Frames

/-! ## Building frames -/

/-- What can be done with the frames of a machine. -/
inductive FrameUse where
  | openScope (parent : FrameId)
  | define (frame : FrameId) (name : String) (value : Value)
  | assign (frame : FrameId) (name : String) (value : Value)

namespace FrameUse

def frame : FrameUse → FrameId
  | openScope f | define f _ _ | assign f _ _ => f

/-- The use as a run. An assignment may fail. -/
def run : FrameUse → Run Fault Unit
  | openScope parent => do
    let _ ← Run.openScope parent
  | define f name value => Run.define f name value
  | assign f name value => Run.assignIn f name value

variable {use : FrameUse} {m m' : Machine} {r : Except Fault Unit} {f : FrameId} {name : String}

theorem layered (hm : m.frames.Layered) (hframe : use.frame < m.frames.all.size)
    (hrun : use.run m = .ended r m') : m'.frames.Layered := by
  cases use with
  | openScope parent =>
    cases hrun
    exact hm.openScope hframe
  | define g x v =>
    cases hrun
    exact hm.define g x v
  | assign g x v =>
    rw [run, Run.assignIn] at hrun
    split at hrun
    · cases hrun
      exact hm.define _ x v
    · cases hrun
      exact hm

/-- The only new name in a frame is one that is defined there. -/
theorem mem_names_iff (hframe : use.frame < m.frames.all.size) (hrun : use.run m = .ended r m') :
    name ∈ m'.frames.names f ↔ name ∈ m.frames.names f ∨ ∃ v, define f name v = use := by
  cases use with
  | openScope parent =>
    cases hrun
    show name ∈ (m.frames.openScope parent).2.names f ↔ _
    simp [Frames.mem_names]
  | define g x v =>
    cases hrun
    rw [Frames.mem_names, Frames.mem_names, Frames.own?_define]
    by_cases hsame : f = g ∧ name = x
    · obtain ⟨rfl, rfl⟩ := hsame
      have hf : f < m.frames.all.size := hframe
      simp [hf]
    · have hother : ¬ (f = g ∧ name = x ∧ f < m.frames.all.size) := fun h => hsame ⟨h.1, h.2.1⟩
      have hdefine (w : Value) : define f name w ≠ define g x v := by
        rintro ⟨⟩
        exact hsame ⟨rfl, rfl⟩
      simp [hother, hdefine]
  | assign g x v =>
    have hnames : m'.frames.names f = m.frames.names f := by
      rw [run, Run.assignIn] at hrun
      split at hrun
      · next howner =>
        cases hrun
        exact Frames.names_define_of_own? (Frames.own?_of_owner? howner) v f
      · cases hrun
        rfl
    simp [hnames]

end FrameUse

/-- The machine that is made of a new one by using frames that there are, one use after the other, whether or
not they fail. -/
inductive Machine.Built : List FrameUse → Machine → Prop
  | new : Built [] .initial
  | next {uses : List FrameUse} {m m' : Machine} {r : Except Fault Unit} (h : Built uses m) (use : FrameUse)
    (hframe : use.frame < m.frames.all.size) (hrun : use.run m = .ended r m') : Built (uses ++ [use]) m'

namespace Machine

variable {uses uses' : List FrameUse} {m m' : Machine} {f f' : FrameId} {name : String}

theorem Built.layered (h : m.Built uses) : m.frames.Layered := by
  induction h with
  | new => exact Frames.layered_initial
  | next _ use hframe hrun ih => exact FrameUse.layered ih hframe hrun

theorem Built.mem_names_iff (h : m.Built uses) : name ∈ m.frames.names f ↔ ∃ v, .define f name v ∈ uses := by
  induction h with
  | new => simp [Frames.mem_names, Machine.initial, Frames.own?_initial]
  | next _ use hframe hrun ih =>
    rw [FrameUse.mem_names_iff hframe hrun, ih]
    simp only [List.mem_append, List.mem_singleton, exists_or]

theorem Built.names_eq_iff (h : m.Built uses) (h' : m'.Built uses') :
    m'.frames.names f' = m.frames.names f ↔
      ∀ x, (∃ v, .define f' x v ∈ uses') ↔ ∃ v, .define f x v ∈ uses := by
  constructor
  · intro hnames x
    rw [← h'.mem_names_iff, ← h.mem_names_iff, hnames]
  · intro hdefined
    refine List.Subset.antisymm_of_pairwise (Frames.pairwise_names _ f') (Frames.pairwise_names _ f) ?_ ?_
    · exact fun x hx => h.mem_names_iff.mpr ((hdefined x).mp (h'.mem_names_iff.mp hx))
    · exact fun x hx => h'.mem_names_iff.mpr ((hdefined x).mpr (h.mem_names_iff.mp hx))

/-- **The description of a frame is canonical.** Whatever is done with the frames of a machine, and in whatever
order, the description of a frame lists the names that were defined in that very frame, each once and in quotes,
in the order of their bytes in UTF-8, and then tells how many frames are around it. Definitions in other frames
have no part in it, and neither have assignments. So two frames, be it in two machines, have the same description
if and only if they are at the same depth and the same names were defined in them, in whatever order, how often,
and with what values. -/
theorem description_canonical (uses : List FrameUse) (m : Machine) (hm : m.Built uses) (f : FrameId) :
    (∃ names quotes : List String, ∃ around : List FrameId,
      m.frames.describe f = "Environment \x7b names: [" ++ ", ".intercalate quotes ++
          "], depth: " ++ toString around.length ++ " \x7d" ∧
        List.Forall₂ Text.Quotes names quotes ∧
        (∀ x, x ∈ names ↔ ∃ v, .define f x v ∈ uses) ∧ names.Pairwise (bytes · < bytes ·) ∧
        (∀ g, g ∈ around ↔ m.frames.Encloses g f) ∧ around.Nodup ∧ m.frames.depth f = around.length) ∧
      ∀ (uses' : List FrameUse) (m' : Machine) (f' : FrameId), m'.Built uses' →
        (m'.frames.describe f' = m.frames.describe f ↔
          m'.frames.depth f' = m.frames.depth f ∧
            ∀ x, (∃ v, .define f' x v ∈ uses') ↔ ∃ v, .define f x v ∈ uses) := by
  constructor
  · refine ⟨m.frames.names f, _, (m.frames.chain f).tail, rfl, ?_, fun x => hm.mem_names_iff, ?_, fun g => ?_,
      ?_, rfl⟩
    · exact (Text.forall₂_eq_map_iff (R := Text.Quotes) fun _ _ => Text.quotes_iff).mpr rfl
    · exact (Frames.pairwise_names m.frames f).imp bytes_lt_of_lt
    · exact hm.layered.mem_tail_chain_iff
    · exact (hm.layered.nodup_chain f).tail
  · intro uses' m' f' hm'
    rw [Frames.describe_eq_iff, hm.names_eq_iff hm', and_comm]

/-- The names `a` and `b` in another order, with a repetition, and with assignments between the definitions. -/
theorem description_canonical_reordered :
    ∃ m m' : Machine,
      m.Built [.openScope 0, .define 1 "a" .nil, .define 1 "b" .nil] ∧
      m'.Built [.define 0 "c" .nil, .openScope 0, .define 1 "b" .nil, .assign 1 "c" .nil, .assign 1 "d" .nil,
        .define 1 "a" .nil, .define 1 "b" (.bool true)] ∧
      m'.frames.describe 1 = m.frames.describe 1 ∧
      m.frames.describe 1 = "Environment \x7b names: [\"a\", \"b\"], depth: 1 \x7d" ∧
      m'.frames.describe 0 ≠ m.frames.describe 0 := by
  have hm := Built.new
    |>.next (.openScope 0) (by decide) rfl
    |>.next (.define 1 "a" .nil) (by decide) rfl
    |>.next (.define 1 "b" .nil) (by decide) rfl
  have hm' := Built.new
    |>.next (.define 0 "c" .nil) (by decide) rfl
    |>.next (.openScope 0) (by decide) rfl
    |>.next (.define 1 "b" .nil) (by decide) rfl
    |>.next (.assign 1 "c" .nil) (by decide) rfl
    |>.next (.assign 1 "d" .nil) (by decide) rfl
    |>.next (.define 1 "a" .nil) (by decide) rfl
    |>.next (.define 1 "b" (.bool true)) (by decide) rfl
  refine ⟨_, _, hm, hm', ?_, by decide +kernel, fun h => ?_⟩
  · refine ((description_canonical _ _ hm 1).2 _ _ 1 hm').mpr ⟨rfl, fun x => ?_⟩
    have hnames : x = "b" ∨ x = "a" ∨ x = "b" ↔ x = "a" ∨ x = "b" := by tauto
    simpa [exists_or] using hnames
  · have hdefined := (((description_canonical _ _ hm 0).2 _ _ 0 hm').mp h).2 "c"
    simp at hdefined

end Machine

end Lox
