import Lox.Proofs.Run.Evolution
import Lox.Proofs.Scoping.Chains
import Lox.Proofs.Scoping.Names

/-!
# Who sees a binding

A look-up goes outwards from a frame as far as the first frame that binds the name. So it gets to a frame
`g` if no nearer frame binds the name (`Frames.Sees`), and it ends there if `g` does (`Frames.Owns`).

A definition in `g` is seen from the frames that get to `g`, and from no others
(`Frames.Layered.get?_define_of_sees`, `Frames.Layered.get?_define_of_not_sees`). An assignment is a
definition in the owner of the name, so it is seen from the frames that have the same owner.
-/

namespace Lox

namespace Frames

variable {s : Frames} {e f g o : FrameId} {x name : String} {v : Value}

/-- The frame `g` is `f` itself or around it, and no frame that is nearer to `f` binds the name. -/
inductive Sees (s : Frames) (name : String) : FrameId → FrameId → Prop
  | here (f : FrameId) : Sees s name f f
  | outward {f p g : FrameId} (hown : s.own? f name = none) (hlink : s.enclosing? f = some p)
    (hp : Sees s name p g) : Sees s name f g

/-- The frame `g` is the nearest one on the way outwards from `f` that binds the name. -/
def Owns (s : Frames) (name : String) (f g : FrameId) : Prop :=
  s.Sees name f g ∧ (s.own? g name).isSome

/-! ## Owners -/

theorem names_openScope_new (s : Frames) (e : FrameId) : (s.openScope e).2.names s.all.size = [] := by
  refine List.eq_nil_iff_forall_not_mem.mpr fun x hx => ?_
  rw [mem_names, own?_openScope, own?_eq_none (Nat.le_refl _)] at hx
  cases hx

theorem enclosing?_openScope_new (s : Frames) (e : FrameId) :
    (s.openScope e).2.enclosing? s.all.size = some e := by
  rw [enclosing?_openScope, if_pos rfl]

theorem get?_of_own? (h : s.own? f name = some v) : s.get? f name = some v := by
  rw [get?, chain, climb, List.findSome?_cons, h]

section layered

variable (h : s.Layered)
include h

theorem Layered.get?_eq (f : FrameId) (name : String) :
    s.get? f name = (s.own? f name).or ((s.enclosing? f).bind fun p => s.get? p name) := by
  rw [get?, h.chain_eq, List.findSome?_cons]
  cases s.own? f name with
  | some v => rfl
  | none => cases s.enclosing? f <;> rfl

theorem Layered.mem_chain_of_sees (hg : s.Sees name f g) : g ∈ s.chain f := by
  induction hg with
  | here f => exact mem_chain_self s f
  | outward hown hlink _ ih =>
    rw [h.chain_eq, hlink]
    exact List.mem_cons_of_mem _ ih

theorem Layered.owner?_of_owns (hg : s.Owns name f g) : s.owner? f name = some g := by
  obtain ⟨hsees, hbound⟩ := hg
  induction hsees with
  | here f => rw [h.owner?_eq, if_pos hbound]
  | outward hown hlink _ ih =>
    rw [h.owner?_eq, hown, hlink]
    exact ih hbound

/-- The owner that an assignment looks for is the nearest frame that binds the name. -/
theorem Layered.owner?_eq_some_iff : s.owner? f name = some g ↔ s.Owns name f g := by
  refine ⟨fun hg => ⟨?_, own?_of_owner? hg⟩, h.owner?_of_owns⟩
  induction f using Nat.strongRecOn with
  | ind f ih =>
    rw [h.owner?_eq] at hg
    split at hg
    · obtain rfl := Option.some.inj hg
      exact .here f
    · next hown =>
      obtain ⟨p, hlink, hp⟩ := Option.bind_eq_some_iff.mp hg
      exact .outward (Option.not_isSome_iff_eq_none.mp hown) hlink (ih p (h f p hlink) hp)

theorem Layered.exists_owns_iff : (∃ o, s.Owns name f o) ↔ ∃ v, s.get? f name = some v := by
  simp only [← h.owner?_eq_some_iff, ← Option.isSome_iff_exists]
  rw [owner?_isSome_iff, get?_isSome_iff]

/-! ## Definitions -/

theorem Layered.get?_define_of_sees (he : e < s.all.size) (hsees : s.Sees name f e) (v : Value) :
    (s.define e name v).get? f name = some v := by
  have hdefined : (s.define e name v).own? e name = some v := by
    rw [own?_define, if_pos ⟨rfl, rfl, he⟩]
  induction hsees with
  | here f => exact get?_of_own? hdefined
  | @outward f p e hown hlink _ ih =>
    by_cases hf : f = e
    · rw [hf]
      exact get?_of_own? hdefined
    · have hnone : (s.define e name v).own? f name = none := by
        rw [own?_define, if_neg fun hcond => hf hcond.1, hown]
      rw [(h.define e name v).get?_eq, hnone, enclosing?_define, hlink]
      exact ih he hdefined

theorem Layered.get?_define_of_not_sees (hsees : ¬ (x = name ∧ s.Sees name f e)) (v : Value) :
    (s.define e name v).get? f x = s.get? f x := by
  induction f using Nat.strongRecOn with
  | ind f ih =>
    have hown : (s.define e name v).own? f x = s.own? f x := by
      rw [own?_define, if_neg]
      rintro ⟨rfl, rfl, _⟩
      exact hsees ⟨rfl, .here f⟩
    rw [(h.define e name v).get?_eq, h.get?_eq, hown, enclosing?_define]
    cases hbound : s.own? f x with
    | some w => rfl
    | none =>
      cases hlink : s.enclosing? f with
      | none => rfl
      | some p =>
        refine ih p (h f p hlink) fun hp => hsees ⟨hp.1, .outward ?_ hlink hp.2⟩
        rw [← hp.1]
        exact hbound

theorem Layered.get?_of_names_eq_nil (hlink : s.enclosing? f = some g) (hf : s.names f = [])
    (name : String) : s.get? f name = s.get? g name := by
  have hown : s.own? f name = none := by
    rw [← Option.not_isSome_iff_eq_none, ← mem_names, hf]
    exact List.not_mem_nil
  rw [h.get?_eq, hown, hlink]
  rfl

end layered

/-! ## Assignments -/

theorem names_define_of_own? (ho : (s.own? o name).isSome) (v : Value) (f : FrameId) :
    (s.define o name v).names f = s.names f := by
  refine List.Subset.antisymm_of_pairwise (pairwise_names _ f) (pairwise_names _ f) ?_ ?_
  · intro x hx
    rw [mem_names, own?_define] at hx
    rw [mem_names]
    split at hx
    · next hcond =>
      rw [hcond.1, hcond.2.1]
      exact ho
    · exact hx
  · intro x hx
    exact mem_names.mpr ((grows_define s o name v).names f x (mem_names.mp hx))

end Frames

/-! ## On machines -/

namespace Run

variable {m m' : Machine} {f g : FrameId} {x y : String} {v : Value} {r : Except Fault Value}

theorem lookupIn_eq_ok (h : m.frames.get? f x = some v) : lookupIn f x m = .ended (.ok v) m := by
  rw [lookupIn, h]

theorem lookupIn_eq_error (h : m.frames.get? f x = none) :
    lookupIn f x m = .ended (.error (.undefinedVariable x)) m := by
  rw [lookupIn, h]

theorem lookupIn_eq_ok_iff : (∃ v, lookupIn f x m = .ended (.ok v) m) ↔ ∃ v, m.frames.get? f x = some v := by
  constructor
  · rintro ⟨v, hv⟩
    cases hget : m.frames.get? f x with
    | some w => exact ⟨w, rfl⟩
    | none =>
      rw [lookupIn_eq_error hget] at hv
      cases hv
  · rintro ⟨v, hv⟩
    exact ⟨v, lookupIn_eq_ok hv⟩

theorem lookupIn_congr (h : m'.frames.get? g x = m.frames.get? f x)
    (hr : lookupIn f x m = .ended r m) : lookupIn g x m' = .ended r m' := by
  cases hget : m.frames.get? f x with
  | some v =>
    rw [lookupIn_eq_ok hget] at hr
    cases hr
    exact lookupIn_eq_ok (h.trans hget)
  | none =>
    rw [lookupIn_eq_error hget] at hr
    cases hr
    exact lookupIn_eq_error (h.trans hget)

end Run

/-! ## Assignment -/

/-- **An assignment changes the binding in the nearest owner, and that is all.** Frames lie in frames that
were made before, as they do in all machines that a host can come to (`Machine.Reached.grounded`).

An assignment to `n` in the frame `e` succeeds if and only if `n` has an owner there, and so does a look-up.
If it succeeds, then the new value is what `n` stands for in all frames with that owner. Any other look-up,
be it of another name or in another frame, ends as it did before. No frame gets or loses names, and no
binding but that one changes, so a shadowed `n` farther out keeps its value, and so does an `n` in a sibling
scope. If there is no owner, then assignment and look-up fail alike, and nothing changes. -/
theorem Machine.assignment_rewrites_owner (m : Machine) (hm : m.frames.Layered) (e : FrameId)
    (n : String) (v : Value) :
    ((∃ m', Run.assignIn e n v m = .ended (.ok ()) m') ↔ ∃ o, m.frames.Owns n e o) ∧
      ((∃ w, Run.lookupIn e n m = .ended (.ok w) m) ↔ ∃ o, m.frames.Owns n e o) ∧
      (∀ o m', m.frames.Owns n e o → Run.assignIn e n v m = .ended (.ok ()) m' →
        (∀ f, m.frames.Owns n f o → Run.lookupIn f n m' = .ended (.ok v) m') ∧
          (∀ f x r, ¬ (x = n ∧ m.frames.Owns n f o) → Run.lookupIn f x m = .ended r m →
            Run.lookupIn f x m' = .ended r m') ∧
          (∀ f, m'.frames.names f = m.frames.names f) ∧
          ∀ f x, ¬ (f = o ∧ x = n) → m'.frames.own? f x = m.frames.own? f x) ∧
      ((¬ ∃ o, m.frames.Owns n e o) →
        Run.assignIn e n v m = .ended (.error (.undefinedVariable n)) m ∧
          Run.lookupIn e n m = .ended (.error (.undefinedVariable n)) m) := by
  have assigned {o : FrameId} (ho : m.frames.Owns n e o) :
      Run.assignIn e n v m = .ended (.ok ()) { m with frames := m.frames.define o n v } := by
    rw [Run.assignIn, hm.owner?_of_owns ho]
  have failed (hnone : ¬ ∃ o, m.frames.Owns n e o) :
      Run.assignIn e n v m = .ended (.error (.undefinedVariable n)) m := by
    have howner : m.frames.owner? e n = none :=
      Option.eq_none_iff_forall_ne_some.mpr fun o ho => hnone ⟨o, hm.owner?_eq_some_iff.mp ho⟩
    rw [Run.assignIn, howner]
  refine ⟨⟨?_, ?_⟩, ?_, ?_, ?_⟩
  · rintro ⟨m', hm'⟩
    by_contra hnone
    rw [failed hnone] at hm'
    cases hm'
  · rintro ⟨o, ho⟩
    exact ⟨_, assigned ho⟩
  · rw [hm.exists_owns_iff, Run.lookupIn_eq_ok_iff]
  · intro o m' ho hm'
    rw [assigned ho] at hm'
    cases hm'
    have hbound : (m.frames.own? o n).isSome := ho.2
    have hexists : o < m.frames.all.size := by
      obtain ⟨w, hw⟩ := Option.isSome_iff_exists.mp hbound
      exact Frames.lt_size_of_own? hw
    refine ⟨fun f hf => ?_, fun f x r hx hr => ?_, fun f => ?_, fun f x hx => ?_⟩
    · exact Run.lookupIn_eq_ok (hm.get?_define_of_sees hexists hf.1 v)
    · have hsees : ¬ (x = n ∧ m.frames.Sees n f o) := fun hs => hx ⟨hs.1, hs.2, hbound⟩
      exact Run.lookupIn_congr (hm.get?_define_of_not_sees hsees v) hr
    · exact Frames.names_define_of_own? hbound v f
    · rw [Frames.own?_define, if_neg fun hcond => hx ⟨hcond.1, hcond.2.1⟩]
  · intro hnone
    refine ⟨failed hnone, Run.lookupIn_eq_error ?_⟩
    rw [← Frames.owner?_eq_none_iff]
    exact Option.eq_none_iff_forall_ne_some.mpr fun o ho => hnone ⟨o, hm.owner?_eq_some_iff.mp ho⟩

/-- Globals, a scope that shadows `n`, a scope in it, and a sibling of the first. -/
private def shadowing : Machine :=
  let globals := Frames.initial.define 0 "n" (.string "far")
  let inner := (globals.openScope 0).2.define 1 "n" (.string "near")
  let frames := (inner.openScope 1).2.openScope 0
  { Machine.initial with frames := frames.2.define 3 "n" (.string "beside") }

private theorem shadowing_layered : shadowing.frames.Layered := by
  have hglobals := Frames.layered_initial.define 0 "n" (.string "far")
  have hinner := (hglobals.openScope (f := 0) (by decide)).define 1 "n" (.string "near")
  have hframes := (hinner.openScope (f := 1) (by decide)).openScope (f := 0) (by decide)
  exact hframes.define 3 "n" (.string "beside")

private theorem shadowing_sees : shadowing.frames.Sees "n" 2 1 :=
  .outward (by rfl) (by rfl) (.here 1)

theorem Machine.assignment_rewrites_owner_shadowing :
    shadowing.frames.Layered ∧ shadowing.frames.Owns "n" 2 1 ∧
      ∃ m', Run.assignIn 2 "n" (.string "new") shadowing = .ended (.ok ()) m' ∧
        Run.lookupIn 1 "n" m' = .ended (.ok (.string "new")) m' ∧
        Run.lookupIn 0 "n" m' = .ended (.ok (.string "far")) m' ∧
        Run.lookupIn 3 "n" m' = .ended (.ok (.string "beside")) m' := by
  have howns : shadowing.frames.Owns "n" 2 1 := ⟨shadowing_sees, by rfl⟩
  obtain ⟨hsucceeds, _, hafter, _⟩ :=
    assignment_rewrites_owner shadowing shadowing_layered 2 "n" (.string "new")
  obtain ⟨m', hm'⟩ := hsucceeds.mpr ⟨1, howns⟩
  obtain ⟨hseen, hothers, _, _⟩ := hafter 1 m' howns hm'
  have hfar : ¬ shadowing.frames.Owns "n" 0 1 := fun h => by
    cases shadowing_layered.owner?_of_owns h
  have hbeside : ¬ shadowing.frames.Owns "n" 3 1 := fun h => by
    cases shadowing_layered.owner?_of_owns h
  refine ⟨shadowing_layered, howns, m', hm', hseen 1 ⟨.here 1, by rfl⟩, ?_, ?_⟩
  · exact hothers 0 "n" _ (fun h => hfar h.2) (by rfl)
  · exact hothers 3 "n" _ (fun h => hbeside h.2) (by rfl)

/-! ## Definition -/

/-- **A definition shadows exactly where it should.** Frames lie in frames that were made before, as they do
in all machines that a host can come to (`Machine.Reached.grounded`).

After a definition of `n` in the frame `e` the new value is what `n` stands for in all frames that `e` is, or
is around, with no binding of `n` in between. Any other look-up ends as it did before; in particular those
in frames that do not lie in `e`, such as the frames around it and its siblings. A new scope in `e` sees what
`e` sees, whatever happens to either of them, until a name is bound in the scope itself. -/
theorem Machine.definition_shadows (m : Machine) (hm : m.frames.Layered) (e : FrameId)
    (he : e < m.frames.all.size) :
    (∀ n v, ∃ m', (Run.define e n v : Run Fault Unit) m = .ended (.ok ()) m' ∧
        (∀ f, m.frames.Sees n f e → Run.lookupIn f n m' = .ended (.ok v) m') ∧
        (∀ f x r, ¬ (x = n ∧ m.frames.Sees n f e) → Run.lookupIn f x m = .ended r m →
          Run.lookupIn f x m' = .ended r m') ∧
        ∀ f x r, e ∉ m.frames.chain f → Run.lookupIn f x m = .ended r m →
          Run.lookupIn f x m' = .ended r m') ∧
      ∀ f m₁, (Run.openScope e : Run Fault FrameId) m = .ended (.ok f) m₁ → m₁.frames.names f = [] ∧
        ∀ m₂, m₁.Evolves m₂ → m₂.frames.Layered → m₂.frames.names f = [] →
          ∀ x r, Run.lookupIn f x m₂ = .ended r m₂ ↔ Run.lookupIn e x m₂ = .ended r m₂ := by
  constructor
  · intro n v
    have unchanged (f : FrameId) (x : String) (hsees : ¬ (x = n ∧ m.frames.Sees n f e)) :
        (m.frames.define e n v).get? f x = m.frames.get? f x := hm.get?_define_of_not_sees hsees v
    refine ⟨{ m with frames := m.frames.define e n v }, rfl, fun f hf => ?_, fun f x r hx hr => ?_,
      fun f x r hf hr => ?_⟩
    · exact Run.lookupIn_eq_ok (hm.get?_define_of_sees he hf v)
    · exact Run.lookupIn_congr (unchanged f x hx) hr
    · exact Run.lookupIn_congr (unchanged f x fun hx => hf (hm.mem_chain_of_sees hx.2)) hr
  · intro f m₁ hopen
    cases hopen
    refine ⟨Frames.names_openScope_new m.frames e, fun m₂ hevolves hlayered hempty x r => ?_⟩
    have hlink : m₂.frames.enclosing? m.frames.all.size = some e :=
      hevolves.grows.enclosing? (Frames.enclosing?_openScope_new m.frames e)
    have hsame := hlayered.get?_of_names_eq_nil hlink hempty x
    exact ⟨Run.lookupIn_congr hsame.symm, Run.lookupIn_congr hsame⟩

theorem Machine.definition_shadows_shadowing :
    shadowing.frames.Layered ∧ 1 < shadowing.frames.all.size ∧
      ∃ m', (Run.define 1 "n" (.string "new") : Run Fault Unit) shadowing = .ended (.ok ()) m' ∧
        Run.lookupIn 2 "n" m' = .ended (.ok (.string "new")) m' ∧
        Run.lookupIn 0 "n" m' = .ended (.ok (.string "far")) m' ∧
        Run.lookupIn 3 "n" m' = .ended (.ok (.string "beside")) m' := by
  have hexists : 1 < shadowing.frames.all.size := by decide
  obtain ⟨m', hm', hseen, _, hapart⟩ :=
    (definition_shadows shadowing shadowing_layered 1 hexists).1 "n" (.string "new")
  refine ⟨shadowing_layered, hexists, m', hm', hseen 2 shadowing_sees, ?_, ?_⟩
  · exact hapart 0 "n" _ (by decide) (by rfl)
  · exact hapart 3 "n" _ (by decide) (by rfl)

end Lox
