import Lox.Proofs.Run.Simulation
import Lox.Proofs.Scoping.Ownership

/-!
# The frame of a call

The body of a function is executed in a new frame, in which the parameters are bound to the arguments one after
the other. So the frame has the last argument for each name (`Frames.own?_enter`), and a name that is no
parameter, or one without an argument, means what it means in the frame that the function was declared in
(`Frames.Layered.get?_enter`). What other frames see is not changed.
-/

namespace Lox

namespace Frames

variable {s : Frames} {e f scope : FrameId} {x : String} {v : Value} {names : List String}
  {values : List Value}

theorem lookup_reverse_zip_of_not_mem (hx : x ∉ names) (values : List Value) :
    (names.zip values).reverse.lookup x = none := by
  rw [List.lookup_eq_none_iff]
  intro pair hpair
  have hname : pair.1 ∈ names := (List.of_mem_zip (List.mem_reverse.mp hpair)).1
  refine bne_iff_ne.mpr fun heq => hx ?_
  rwa [heq]

theorem lookup_reverse_zip_of_last {i : Nat} (hx : names[i]? = some x) (hlast : x ∉ names.drop (i + 1))
    (hv : values[i]? = some v) : (names.zip values).reverse.lookup x = some v := by
  induction names generalizing values i with
  | nil => cases hx
  | cons name names ih =>
    cases values with
    | nil => cases hv
    | cons value values =>
      rw [List.zip_cons_cons, List.reverse_cons, List.lookup_append]
      cases i with
      | zero =>
        cases hx
        cases hv
        have hnot : x ∉ names := hlast
        rw [lookup_reverse_zip_of_not_mem hnot, Option.none_or, List.lookup_cons_self]
      | succ i =>
        rw [List.getElem?_cons_succ] at hx hv
        rw [ih hx hlast hv, Option.some_or]

theorem own?_defineAll_eq_lookup (hf : f < s.all.size) (x : String) :
    (s.defineAll f names values).own? f x = ((names.zip values).reverse.lookup x).or (s.own? f x) := by
  induction names generalizing s values with
  | nil => rfl
  | cons name names ih =>
    cases values with
    | nil => rfl
    | cons value values =>
      rw [defineAll, ih (by simpa using hf), own?_define, List.zip_cons_cons, List.reverse_cons,
        List.lookup_append, Option.or_assoc]
      by_cases hx : x = name
      · simp [hx, hf]
      · simp [hx, List.lookup_cons, beq_false_of_ne hx]

/-- The frame that a body is executed in binds the parameters that have an argument, and nothing else. -/
theorem own?_enter (scope : FrameId) (x : String) :
    ((s.openScope scope).2.defineAll s.all.size names values).own? s.all.size x =
      (names.zip values).reverse.lookup x := by
  have hsize : s.all.size < (s.openScope scope).2.all.size := by simp
  rw [own?_defineAll_eq_lookup hsize, own?_openScope, own?_eq_none (Nat.le_refl _), Option.or_none]

section layered

variable (h : s.Layered)
include h

theorem Layered.get?_openScope (hf : f < s.all.size) (e : FrameId) (x : String) :
    (s.openScope e).2.get? f x = s.get? f x := by
  simp only [get?, h.chain_grows (grows_openScope s e) hf, own?_openScope]

theorem Layered.defineAll (f : FrameId) (names : List String) (values : List Value) :
    (s.defineAll f names values).Layered := by
  induction names generalizing s values with
  | nil => exact h
  | cons name names ih =>
    cases values with
    | nil => exact h
    | cons value values => exact ih (h.define f name value) values

/-- Names that are bound in `e` are not seen from a frame that does not lie in `e`. -/
theorem Layered.get?_defineAll_of_not_mem_chain (he : e ∉ s.chain f) (x : String) :
    (s.defineAll e names values).get? f x = s.get? f x := by
  induction names generalizing s values with
  | nil => rfl
  | cons name names ih =>
    cases values with
    | nil => rfl
    | cons value values =>
      rw [Frames.defineAll, ih (h.define e name value) (by rwa [chain_define])]
      exact h.get?_define_of_not_sees (fun hsees => he (h.mem_chain_of_sees hsees.2)) value

/-- What a frame sees is not changed by the frame of a call, which is younger than all frames around it. -/
theorem Layered.get?_defineAll_openScope (hscope : scope < s.all.size) (hf : f < s.all.size) (x : String) :
    ((s.openScope scope).2.defineAll s.all.size names values).get? f x = s.get? f x := by
  have hopen := h.openScope hscope
  have hchain := h.chain_grows (grows_openScope s scope) hf
  have hnew : s.all.size ∉ (s.openScope scope).2.chain f := by
    rw [hchain]
    exact fun hmem => Nat.lt_irrefl _ (climb_closed (fun g p hg hp => Nat.lt_trans (h g p hp) hg) hf _ _ hmem)
  rw [hopen.get?_defineAll_of_not_mem_chain hnew, h.get?_openScope hf]

/-- In the frame of a call a parameter means its argument, and anything else means what it means in the frame
that the function was declared in. -/
theorem Layered.get?_enter (hscope : scope < s.all.size) (x : String) :
    ((s.openScope scope).2.defineAll s.all.size names values).get? s.all.size x =
      ((names.zip values).reverse.lookup x).or (s.get? scope x) := by
  have hgrows := grows_defineAll (s.openScope scope).2 s.all.size names values
  have hlink := hgrows.enclosing? (enclosing?_openScope_new s scope)
  have hlayered := (h.openScope hscope).defineAll s.all.size names values
  rw [hlayered.get?_eq, own?_enter, hlink, Option.bind_some,
    h.get?_defineAll_openScope hscope hscope]

end layered

end Frames

end Lox
