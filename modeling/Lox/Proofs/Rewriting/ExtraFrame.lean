import Lox.Proofs.Base.Induction
import Lox.Proofs.Run.Simulation
import Lox.Proofs.Scoping.Chains
import Lox.Proofs.Scoping.Names
import Mathlib.Data.Set.Function
import Mathlib.Order.Interval.Set.Defs

/-!
# An extra frame

Two runs of the same code, where the second one has made a frame `n` inside of a frame `c`, and goes on in
`n` where the first one goes on in `c`. The frames that are made later have other numbers then
(`Frames.past`), and those that the first run makes inside of `c` the second may make inside of `n`
(`Frames.Stands`). As long as `n` binds nothing, names stand for the same from there (`Frames.Extra.find`).

It does so for good if the code that runs in `n` declares nothing there, outside of blocks and function
bodies. Assignments do no harm, as they change names where they are bound.
-/

namespace Lox

namespace Frames

/-! ## Numbers of frames -/

/-- The number of the frame `f` when a frame `n` is made before it. -/
def past (n f : Nat) : Nat := if f < n then f else f + 1

theorem past_of_lt {n f : Nat} (h : f < n) : past n f = f := if_pos h

theorem past_of_le {n f : Nat} (h : n ≤ f) : past n f = f + 1 := if_neg (Nat.not_lt.mpr h)

theorem past_ne (n f : Nat) : past n f ≠ n := by
  unfold past
  split <;> omega

theorem past_inj {n f g : Nat} : past n f = past n g ↔ f = g := by
  unfold past
  split <;> split <;> omega

theorem past_lt {n f w : Nat} (h : n ≤ w) : past n f < w + 1 ↔ f < w := by
  unfold past
  split <;> omega

/-- With one more frame, each frame is one of those before or the new one. -/
theorem bijOn_past {n w : Nat} (h : n ≤ w) :
    Set.BijOn (past n) (Set.Iio w) (Set.Iio (w + 1) \ {n}) := by
  refine ⟨fun f hf => ⟨(past_lt h).mpr hf, past_ne n f⟩, fun f _ g _ => past_inj.mp, ?_⟩
  rintro g ⟨hg, hne⟩
  simp only [Set.mem_Iio, Set.mem_singleton_iff] at hg hne
  rcases Nat.lt_or_ge g n with hlt | hle
  · exact ⟨g, Set.mem_Iio.mpr (by omega), past_of_lt hlt⟩
  · refine ⟨g - 1, Set.mem_Iio.mpr (by omega), ?_⟩
    rw [past_of_le (by omega)]
    omega

/-- The frame `g` stands for `f`. That is the frame itself, or the extra frame, which counts as the frame
around it. -/
def Stands (c n f g : FrameId) : Prop := g = past n f ∨ f = c ∧ g = n

end Frames

/-! ## Translations -/

/-- Where code of the two runs stands. -/
inductive Footing where
  /-- In frames that are the same. -/
  | same
  /-- In the frame `c`, and in the extra frame. -/
  | extra
  deriving DecidableEq

/-- Code is not changed. It must not declare anything in the extra frame. -/
abbrev Translation.footing : Translation where
  Kind := Footing
  names _ x y := x = y
  declares k := k = .same
  enters _ params params' k' := params = params' ∧ k' = .same
  arity := by
    rintro _ _ _ _ ⟨rfl, _⟩
    rfl
  positions := (· = ·)
  functions := (· = ·)

/-- A statement that declares nothing in its own scope may run in the extra frame. -/
theorem Stmt.matches_footing {k : Footing} {s : Stmt} (hs : k = .extra → s.declared = []) :
    s.Matches .footing k s := by
  have expr (k : Footing) (e : Expr) : e.Matches .footing k e :=
    e.matches_refl (fun _ => rfl) fun _ => rfl
  have option (k : Footing) (o : Option Expr) : Option.Rel (Expr.Matches .footing k) o o := by
    cases o with
    | none => exact .none
    | some e => exact .some (expr k e)
  have list {ss : List Stmt} (ih : ∀ s ∈ ss, ∀ {k : Footing}, (k = .extra → s.declared = []) →
      s.Matches .footing k s) : List.Forall₂ (Stmt.Matches .footing .same) ss ss :=
    List.forall₂_same.mpr fun s hs => ih s hs nofun
  have declares {k : Footing} {x : String} (h : k = .extra → [x] = []) : k = .same := by
    cases k with
    | same => rfl
    | extra => cases h rfl
  induction s generalizing k with
  | expression pos e => exact .expression pos pos (expr k e)
  | print pos e => exact .print pos pos (expr k e)
  | declare pos x initial => exact .declare pos pos (declares hs) rfl (option k initial)
  | block pos body ih => exact .block_all pos pos ⟨rfl, rfl⟩ (list ih)
  | cond pos test onTrue onFalse iht ihf =>
    have hbranches (hk : k = .extra) : onTrue.declared = [] ∧ Stmt.declaredOption onFalse = [] :=
      List.append_eq_nil_iff.mp (hs hk)
    cases onFalse with
    | none => exact .ifThen pos pos (expr k test) (iht fun hk => (hbranches hk).1)
    | some s =>
      exact .ifElse pos pos (expr k test) (iht fun hk => (hbranches hk).1)
        (ihf s rfl fun hk => (hbranches hk).2)
  | loop pos test body ih => exact .loop pos pos (expr k test) (ih hs)
  | function pos name params body ih =>
    exact .function_all pos pos (declares hs) rfl rfl ⟨rfl, rfl⟩ (list ih)
  | ret pos value => exact .ret pos pos (option k value)

/-- A native function that binds names in the globals only, and does not ask for the depth of the current
frame. Code that it runs in the current frame declares nothing there. -/
def Access.elsewhere : Access where
  names := True
  declared := True
  defines p := p = .globals
  runs p body := p = .current → ∀ s ∈ body, s.declared = []

/-- Of `w` frames each corresponds to what it is numbered in the second run, and `c` to the extra frame as
well. -/
abbrev Correspondence.extra (c n : FrameId) : Correspondence where
  toTranslation := .footing
  World := Nat
  later w w' := w ≤ w'
  frames w k f g := f < w ∧ match k with
    | .same => g = Frames.past n f
    | .extra => f = c ∧ g = n
  access := .elsewhere

namespace Frames

variable {c n f g : FrameId} {w : Nat} {host : Host} {s t : Frames}

theorem stands_of_frames {k : Footing} (h : (Correspondence.extra c n).frames w k f g) :
    Stands c n f g := by
  cases k with
  | same => exact .inl h.2
  | extra => exact .inr h.2

theorem values_succ {v v' : Value} (h : (Correspondence.extra c n).Values host w v v') :
    (Correspondence.extra c n).Values host (w + 1) v v' :=
  h.mono (Correspondence.functions_mono fun _ _ _ hfg => ⟨Nat.lt_succ_of_lt hfg.1, hfg.2⟩)

/-- The second frames are the first ones with an extra frame `n`, which lies in `c` and binds nothing. -/
structure Extra (c n : FrameId) (host : Host) (w : Nat) (s t : Frames) : Prop where
  around : c < n
  made : n ≤ w
  size : s.all.size = w
  more : t.all.size = w + 1
  layered : s.Layered
  layered' : t.Layered
  link : ∀ f, Option.Rel (Stands c n) (s.enclosing? f) (t.enclosing? (past n f))
  value : ∀ f x, Option.Rel ((Correspondence.extra c n).Values host w) (s.own? f x)
    (t.own? (past n f) x)
  parent : t.enclosing? n = some c
  empty : ∀ x, t.own? n x = none

namespace Extra

variable (h : s.Extra c n host w t)
include h

theorem lt_of_stands (hfg : Stands c n f g) (hf : f < w) : g < t.all.size := by
  rw [h.more]
  rcases hfg with rfl | ⟨_, rfl⟩
  · exact (past_lt h.made).mpr hf
  · exact Nat.lt_succ_of_le h.made

theorem define (f : FrameId) (x : String) {v v' : Value}
    (hv : (Correspondence.extra c n).Values host w v v') :
    (s.define f x v).Extra c n host w (t.define (past n f) x v') where
  around := h.around
  made := h.made
  size := by rw [size_define, h.size]
  more := by rw [size_define, h.more]
  layered := h.layered.define f x v
  layered' := h.layered'.define _ x v'
  link g := by
    rw [enclosing?_define, enclosing?_define]
    exact h.link g
  value g y := by
    simp only [own?_define, past_inj, h.size, h.more, past_lt h.made]
    split
    · exact .some hv
    · exact h.value g y
  parent := by rw [enclosing?_define, h.parent]
  empty y := by rw [own?_define, if_neg fun heq => past_ne n f heq.1.symm, h.empty]

theorem defineAll (names : List String) {args args' : List Value}
    (hargs : List.Forall₂ ((Correspondence.extra c n).Values host w) args args') :
    (s.defineAll f names args).Extra c n host w (t.defineAll (past n f) names args') := by
  induction names generalizing s t args args' with
  | nil => exact h
  | cons x names ih =>
    cases hargs with
    | nil => exact h
    | cons hv hargs => exact ih (h.define f x hv) hargs

theorem openScope (hfg : Stands c n f g) (hf : f < w) :
    (s.openScope f).2.Extra c n host (w + 1) (t.openScope g).2 where
  around := h.around
  made := Nat.le_succ_of_le h.made
  size := by rw [size_openScope, h.size]
  more := by rw [size_openScope, h.more]
  layered := h.layered.openScope (h.size ▸ hf)
  layered' := h.layered'.openScope (h.lt_of_stands hfg hf)
  link g := by
    simp only [enclosing?_openScope, h.size, h.more, ← past_of_le h.made, past_inj]
    split
    · exact .some hfg
    · exact h.link g
  value g x := by
    rw [own?_openScope, own?_openScope]
    exact Value.Like.rel_imp (h.value g x) fun _ _ => values_succ
  parent := by
    have hne : n ≠ t.all.size := Nat.ne_of_lt (h.more ▸ Nat.lt_succ_of_le h.made)
    rw [enclosing?_openScope, if_neg hne, h.parent]
  empty x := by rw [own?_openScope, h.empty]

theorem enter (hfg : Stands c n f g) (hf : f < w) (params : List String) {args args' : List Value}
    (hargs : List.Forall₂ ((Correspondence.extra c n).Values host w) args args') :
    ((s.openScope f).2.defineAll s.all.size params args).Extra c n host (w + 1)
      ((t.openScope g).2.defineAll t.all.size params args') := by
  have hframe : past n w = t.all.size := by rw [past_of_le h.made, h.more]
  rw [h.size, ← hframe]
  exact (h.openScope hfg hf).defineAll params (hargs.imp fun _ _ => values_succ)

/-- A look-up in the extra frame goes on in the frame around it, and from elsewhere the look-ups go the
same way. -/
theorem find (hfg : Stands c n f g) (hf : f < w) (x : String) :
    (Correspondence.extra c n).Finds host w s t x x (s.owner? f x) (t.owner? g x) := by
  induction f using Nat.strongRecOn generalizing g with
  | ind f ih =>
    have same : (Correspondence.extra c n).Finds host w s t x x (s.owner? f x)
        (t.owner? (past n f) x) := by
      have hvalue := h.value f x
      have hlink := h.link f
      rw [h.layered.owner?_eq, h.layered'.owner?_eq]
      generalize hown : s.own? f x = o, hown' : t.own? (past n f) x = o' at hvalue ⊢
      cases hvalue with
      | some hv => exact .binding (k := Footing.same) ⟨hf, rfl⟩ rfl hown hown' hv
      | none =>
        generalize he : s.enclosing? f = e, t.enclosing? (past n f) = e' at hlink ⊢
        cases hlink with
        | none => exact .nowhere rfl
        | some hstands =>
          have hlt := h.layered f _ he
          exact ih _ hlt hstands (Nat.lt_trans hlt hf)
    rcases hfg with rfl | ⟨rfl, rfl⟩
    · exact same
    · -- The extra frame binds nothing, and `c` has the same number in both runs.
      rw [past_of_lt h.around] at same
      rw [h.layered'.owner?_eq, h.empty, h.parent]
      exact same

end Extra

end Frames

end Lox
