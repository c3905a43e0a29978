import Lox.Proofs.Base.Frames
import Mathlib.Data.List.Find

/-!
# Frames that agree

`s.Agree S t` says that the frames `S` are the same in `s` and `t`, in their bindings and in their links.
If links do not lead out of `S`, then names mean the same in both, seen from a frame in `S`. Binding a
name and opening a scope in both keeps the agreement, and doing so in one keeps it as long as the frame
that is changed is not in `S`.
-/

namespace Lox.Frames

/-- The frames `S` are the same in both. -/
def Agree (S : FrameId → Prop) (s t : Frames) : Prop := ∀ f, S f → s.all[f]? = t.all[f]?

theorem getElem?_define (s : Frames) (f g : FrameId) (name : String) (value : Value) :
    (s.define f name value).all[g]? =
      if f = g then s.all[g]?.map fun frame => { frame with bindings := frame.bindings.set name value }
      else s.all[g]? := by
  rw [define, Array.getElem?_modify]

theorem getElem?_openScope (s : Frames) (f g : FrameId) :
    (s.openScope f).2.all[g]? = if g = s.all.size then some ⟨.empty, some f⟩ else s.all[g]? := by
  rw [openScope, Array.getElem?_push]

namespace Agree

variable {S : FrameId → Prop} {s t u : Frames} {f : FrameId}

theorem refl (S : FrameId → Prop) (s : Frames) : s.Agree S s := fun _ _ => rfl

theorem trans (h : s.Agree S t) (h' : t.Agree S u) : s.Agree S u :=
  fun f hf => (h f hf).trans (h' f hf)

theorem symm (h : s.Agree S t) : t.Agree S s := fun f hf => (h f hf).symm

/-! ## Reading -/

theorem own? (h : s.Agree S t) (hf : S f) (name : String) : s.own? f name = t.own? f name := by
  rw [Frames.own?, Frames.own?, h f hf]

theorem enclosing? (h : s.Agree S t) (hf : S f) : s.enclosing? f = t.enclosing? f := by
  rw [Frames.enclosing?, Frames.enclosing?, h f hf]

theorem climb (h : s.Agree S t) (closed : ∀ f g, S f → s.enclosing? f = some g → S g) (hf : S f)
    (n : Nat) : s.climb n f = t.climb n f := climb_congr (fun _ hf => h.enclosing? hf) closed hf n

variable (h : s.Agree S t) (closed : ∀ f g, S f → s.enclosing? f = some g → S g) (hf : S f)
include h closed hf

theorem chain : s.chain f = t.chain f := h.climb closed hf _

theorem depth : s.depth f = t.depth f := by rw [Frames.depth, Frames.depth, h.chain closed hf]

theorem owner? (name : String) : s.owner? f name = t.owner? f name := by
  rw [Frames.owner?, Frames.owner?, ← h.chain closed hf]
  refine List.find?_congr fun g hg => ?_
  rw [h.own? (climb_closed closed hf _ g hg)]

theorem get? (name : String) : s.get? f name = t.get? f name := by
  rw [get?_eq_owner?_bind, get?_eq_owner?_bind, ← h.owner? closed hf]
  cases howner : s.owner? f name with
  | none => rfl
  | some g => exact h.own? (climb_closed closed hf _ g (mem_chain_of_owner? howner)) name

omit closed hf

/-! ## Changing -/

theorem define (f : FrameId) (name : String) (value : Value) :
    (s.define f name value).Agree S (t.define f name value) := by
  intro g hg
  rw [getElem?_define, getElem?_define, h g hg]

theorem openScope (hsize : s.all.size = t.all.size) (f : FrameId) :
    (s.openScope f).2.Agree S (t.openScope f).2 := by
  intro g hg
  rw [getElem?_openScope, getElem?_openScope, h g hg, hsize]

omit h

end Agree

theorem agree_define {S : FrameId → Prop} {f : FrameId} (hf : ¬ S f) (s : Frames) (name : String)
    (value : Value) : (s.define f name value).Agree S s := by
  intro g hg
  have hne : f ≠ g := fun h => hf (h ▸ hg)
  rw [getElem?_define, if_neg hne]

theorem agree_openScope {S : FrameId → Prop} {s : Frames} (hs : ¬ S s.all.size) (f : FrameId) :
    (s.openScope f).2.Agree S s := by
  intro g hg
  have hne : g ≠ s.all.size := fun h => hs (h ▸ hg)
  rw [getElem?_openScope, if_neg hne]

end Lox.Frames
