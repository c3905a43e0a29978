import Lox.Proofs.Base.Frames

/-!
# Chains that come to an end

Look-ups, assignments and the depth of a frame all go outwards along links, for at most as many steps as
there can be frames. Here it is shown that this limit is never reached. If each link leads to a frame that
was made before (`Frames.Layered`), the way outwards ends at a frame without a link, and the chain of a
frame is the whole way (`Frames.Walk`). So chains, owners, values and depths satisfy the equations of a
loop that has no limit at all.
-/

namespace Lox.Frames

variable {s t : Frames} {f g : FrameId} {name : String}

/-- Each link leads to a frame that was made before. -/
def Layered (s : Frames) : Prop := ∀ f g, s.enclosing? f = some g → g < f

/-- One goes outwards from a frame for as long as there are links, and meets these frames. -/
inductive Walk (s : Frames) : FrameId → List FrameId → Prop
  | last {f : FrameId} (h : s.enclosing? f = none) : Walk s f [f]
  | next {f g : FrameId} {rest : List FrameId} (h : s.enclosing? f = some g) (hrest : Walk s g rest) :
    Walk s f (f :: rest)

theorem layered_initial : initial.Layered := by
  intro f g h
  cases f <;> cases h

theorem Layered.define (h : s.Layered) (f : FrameId) (name : String) (value : Value) :
    (s.define f name value).Layered := by
  intro g p hp
  rw [enclosing?_define] at hp
  exact h g p hp

theorem Layered.openScope (h : s.Layered) (hf : f < s.all.size) : (s.openScope f).2.Layered := by
  intro g p hp
  rw [enclosing?_openScope] at hp
  split at hp
  · next hg =>
    cases hp
    rwa [hg]
  · exact h g p hp

/-! ## The whole way -/

section loops

variable (h : s.Layered)
include h

theorem Layered.climb_eq {n k : Nat} (hn : f < n) (hk : f < k) : s.climb n f = s.climb k f := by
  induction n generalizing k f with
  | zero => exact absurd hn (Nat.not_lt_zero f)
  | succ n ih =>
    cases k with
    | zero => exact absurd hk (Nat.not_lt_zero f)
    | succ k =>
      rw [climb, climb]
      cases he : s.enclosing? f with
      | none => rfl
      | some g =>
        have hgf : g < f := h f g he
        simp only
        rw [ih (Nat.lt_of_lt_of_le hgf (Nat.le_of_lt_succ hn))
          (Nat.lt_of_lt_of_le hgf (Nat.le_of_lt_succ hk))]

theorem Layered.chain_eq (f : FrameId) :
    s.chain f = f :: ((s.enclosing? f).map s.chain).getD [] := by
  rw [chain, climb]
  cases he : s.enclosing? f with
  | none => rfl
  | some g =>
    simp only [Option.map_some, Option.getD_some, chain]
    rw [h.climb_eq (h f g he) (Nat.lt_succ_self g)]

/-- **The way outwards comes to an end**, and the chain of a frame is all of it. -/
theorem Layered.walk (f : FrameId) : s.Walk f (s.chain f) := by
  induction f using Nat.strongRecOn with
  | ind f ih =>
    rw [h.chain_eq]
    cases he : s.enclosing? f with
    | none => exact .last he
    | some g => exact .next he (ih g (h f g he))

theorem Layered.owner?_eq (f : FrameId) (name : String) :
    s.owner? f name =
      if (s.own? f name).isSome then some f else (s.enclosing? f).bind fun g => s.owner? g name := by
  rw [owner?, h.chain_eq, List.find?_cons]
  cases hown : (s.own? f name).isSome with
  | true => rfl
  | false => cases he : s.enclosing? f <;> rfl

/-- As long as no link is changed, chains stay as they are. -/
theorem Layered.chain_grows (hst : s.Grows t) (hf : f < s.all.size) : t.chain f = s.chain f := by
  have hclosed (g p : FrameId) (hg : g < s.all.size) (he : s.enclosing? g = some p) : p < s.all.size :=
    Nat.lt_trans (h g p he) hg
  exact (climb_congr (fun g hg => (hst.link g hg).symm) hclosed hf _).symm

end loops

end Lox.Frames
