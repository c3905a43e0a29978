import Lox.Proofs.Base.Agreement

/-!
# Reachable frames

From a frame one gets to the frame around it, and to the frames that function values bound in it were
declared in. A run that starts from some frames meets only such as can be reached from them, and frames
that it makes itself (`Frames.InReach`). Nothing leads out of these, as the frames are at the start.
-/

namespace Lox

/-- The function was declared in the frame. -/
def Callable.Captures (f : Callable) (scope : FrameId) : Prop := ∃ fn, f.code = .closure fn scope

namespace Frames

/-- The frames that one gets to from the roots. -/
inductive Reachable (s : Frames) (root : FrameId → Prop) : FrameId → Prop
  | root {f : FrameId} (h : root f) : Reachable s root f
  | link {f g : FrameId} (hf : Reachable s root f) (h : s.enclosing? f = some g) :
    Reachable s root g
  | captured {f g : FrameId} {name : String} {c : Callable} (hf : Reachable s root f)
    (h : s.own? f name = some (.callable c)) (hc : c.Captures g) : Reachable s root g

/-- The frame can be reached, or is yet to be made. -/
def InReach (s : Frames) (root : FrameId → Prop) (f : FrameId) : Prop :=
  s.Reachable root f ∨ s.all.size ≤ f

variable {s : Frames} {root : FrameId → Prop} {f : FrameId}

/-- The reachable frames are the least set that contains the roots and that nothing leads out of. -/
theorem Reachable.least {S : FrameId → Prop} (hroot : ∀ f, root f → S f)
    (hS : s.Guarded S fun c => ∀ g, c.Captures g → S g) (h : s.Reachable root f) : S f := by
  induction h with
  | root h => exact hroot _ h
  | link _ h ih => exact hS.link _ _ ih h
  | captured _ h hc ih => exact hS.value _ _ _ ih h _ rfl _ hc

/-- Frames that agree on what is within reach have the same within reach. -/
theorem Reachable.of_agree {t : Frames} (h : s.Reachable root f)
    (hst : s.Agree (s.Reachable root) t) : t.Reachable root f := by
  induction h with
  | root h => exact .root h
  | link hf h ih => exact .link ih ((hst.enclosing? hf).symm.trans h)
  | captured hf h hc ih => exact .captured ih ((hst.own? hf _).symm.trans h) hc

theorem InReach.reachable (h : s.InReach root f) (hf : f < s.all.size) : s.Reachable root f :=
  h.resolve_right (Nat.not_le_of_lt hf)

theorem guarded_inReach (s : Frames) (root : FrameId → Prop) :
    s.Guarded (s.InReach root) fun c => ∀ g, c.Captures g → s.InReach root g where
  link f g hf hg := .inl (.link (hf.reachable (lt_size_of_enclosing? hg)) hg)
  value f name v hf hv := by
    rintro c rfl g hc
    exact .inl (.captured (hf.reachable (lt_size_of_own? hv)) hv hc)

end Frames

end Lox
