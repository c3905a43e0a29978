import Lox.Proofs.Base.Functions
import Lox.Proofs.Rewriting.ExtraFrame
import Lox.Proofs.Scoping.Grounded

/-!
# Superfluous braces

A statement in braces does what the statement does, if it declares nothing outside of blocks and function
bodies. The braces make one frame more, in which nothing is ever bound.

The run of the statement goes together with that of the block as soon as the block is entered
(`Simulation.extra`).
-/

namespace Lox

open Frames (past Stands)

/-- The machines of the two runs, of which the second has an extra frame `n` inside of `c`. -/
structure Machine.Extra (c n : FrameId) (host : Host) (w : Nat) (a b : Machine) : Prop where
  frames : a.frames.Extra c n host w b.frames
  globals : b.globals = a.globals
  global : a.globals < n
  nextId : b.nextId = a.nextId
  output : b.output = a.output
  buffer : b.buffer = a.buffer

/-- The run of a statement goes together with its run in an extra frame. -/
def Simulation.extra (c n : FrameId) (host : Host) : Simulation host where
  toCorrespondence := .extra c n
  machines := Machine.Extra c n host
  refl := Nat.le_refl
  trans := Nat.le_trans
  persists h hfg := ⟨Nat.lt_of_lt_of_le hfg.1 h, hfg.2⟩
  within h _ _ := { h with }
  print h text := { h with buffer := by rw [h.output, h.buffer] }
  number h := ⟨h.nextId.symm, { h with nextId := by rw [h.nextId] }⟩
  enter {w a b k f g params _ _ args args'} h hfg henters hargs _ := by
    obtain ⟨rfl, rfl⟩ := henters
    have hframes := h.frames.enter (Frames.stands_of_frames hfg) hfg.1 params hargs
    refine ⟨w + 1, Nat.le_succ w, { h with frames := hframes }, ?_, ?_⟩
    · rw [h.frames.size]
      exact Nat.lt_succ_self w
    · rw [h.frames.size, h.frames.more, Frames.past_of_le h.frames.made]
  find {_ _ _ _ _ _ x _} h hfg hxy := by
    obtain rfl := hxy
    exact h.frames.find (Frames.stands_of_frames hfg) hfg.1 x
  define {w a b k f g x _ v v'} h hfg hxy hbound hv := by
    obtain rfl := hxy
    cases k with
    | same =>
      obtain ⟨_, rfl⟩ := hfg
      exact { h with frames := h.frames.define f x hv }
    | extra =>
      -- Nothing is declared in the extra frame, and nothing is bound there that could be assigned.
      obtain ⟨_, rfl, rfl⟩ := hfg
      rcases hbound with hdeclares | ⟨_, hbound⟩
      · cases hdeclares
      · rw [h.frames.empty] at hbound
        cases hbound
  lookups _ _ _ := rfl
  depth := False.elim
  place {w a b k} h hfg p := by
    cases p with
    | current =>
      refine ⟨k, hfg, nofun, fun body hbody => List.forall₂_same.mpr fun s hs => ?_⟩
      exact Stmt.matches_footing fun _ => hbody rfl s hs
    | globals =>
      have hglobals : b.globals = past n a.globals := by rw [h.globals, Frames.past_of_lt h.global]
      refine ⟨.same, ⟨Nat.lt_of_lt_of_le h.global h.frames.made, hglobals⟩, ?_, ?_⟩
      · exact fun _ => ⟨rfl, fun _ => rfl⟩
      · exact fun body _ => List.forall₂_same.mpr fun s _ => Stmt.matches_footing nofun
  sees h := h

/-! ## The start -/

section start

variable {c n : FrameId} {host : Host}

/-- Functions that were there before the extra frame are the same in both runs. -/
theorem Correspondence.extra_self {f : Callable} (hwithin : f.Within n)
    (hmirrors : f.Mirrors host .elsewhere) : (Correspondence.extra c n).Functions host n f f := by
  obtain ⟨id, code⟩ := f
  cases code with
  | native fn => exact .native id (hmirrors fn rfl)
  | closure fn scope =>
    obtain ⟨name, params, body⟩ := fn
    have hscope : scope < n := hwithin scope ⟨_, rfl⟩
    have hframes : (Correspondence.extra c n).frames n .same scope scope :=
      ⟨hscope, (Frames.past_of_lt hscope).symm⟩
    have hbody := List.forall₂_same.mpr fun s (_ : s ∈ body) =>
      Stmt.matches_footing (k := .same) (s := s) nofun
    exact .closure id hframes name rfl ⟨rfl, rfl⟩ hbody

variable {m : Machine} (hm : m.Grounded) (hnatives : m.Holds (Callable.Mirrors host .elsewhere))
include hm hnatives

theorem Frames.extra_start :
    m.frames.Extra m.current m.frames.all.size host m.frames.all.size
      (m.frames.openScope m.current).2 where
  around := hm.current
  made := Nat.le_refl _
  size := rfl
  more := Frames.size_openScope ..
  layered := hm.layered
  layered' := hm.layered.openScope hm.current
  link f := by
    rw [enclosing?_openScope, if_neg (past_ne _ f)]
    rcases Nat.lt_or_ge f m.frames.all.size with hf | hf
    · rw [past_of_lt hf]
      cases he : m.frames.enclosing? f with
      | none => exact .none
      | some g => exact .some (.inl (past_of_lt (Nat.lt_trans (hm.layered f g he) hf)).symm)
    · rw [past_of_le hf, enclosing?_eq_none hf, enclosing?_eq_none (Nat.le_succ_of_le hf)]
      exact .none
  value f x := by
    rw [own?_openScope]
    rcases Nat.lt_or_ge f m.frames.all.size with hf | hf
    · rw [past_of_lt hf]
      cases hown : m.frames.own? f x with
      | none => exact .none
      | some v =>
        refine .some (Correspondence.values_self ?_)
        rintro g rfl
        exact Correspondence.extra_self (hm.values f x g hown) (hnatives.value f x _ trivial hown g rfl)
    · rw [past_of_le hf, own?_eq_none hf, own?_eq_none (Nat.le_succ_of_le hf)]
      exact .none
  parent := by rw [enclosing?_openScope, if_pos rfl]
  empty x := by rw [own?_openScope, own?_eq_none (Nat.le_refl _)]

theorem Machine.extra_start :
    m.Extra m.current m.frames.all.size host m.frames.all.size (m.enter m.current [] []) where
  frames := Frames.extra_start hm hnatives
  globals := rfl
  global := hm.globals
  nextId := rfl
  output := rfl
  buffer := rfl

end start

/-! ## The end -/

/-- The code is the same, and was declared in frames that stand for each other. -/
inductive Code.Moved (c n : FrameId) : Code → Code → Prop
  | native (fn : Native) : Moved c n (.native fn) (.native fn)
  | closure (fn : Function) {scope scope' : FrameId} (h : Stands c n scope scope') :
    Moved c n (.closure fn scope) (.closure fn scope')

/-- The function values are the same, but for the frames that they were declared in. -/
structure Callable.Moved (c n : FrameId) (f g : Callable) : Prop where
  id : f.id = g.id
  code : f.code.Moved c n g.code

/-- The second machine is the first one with an extra frame `n`, which lies in `c` and binds nothing. The
other frames correspond one to one, with links and bindings that do. -/
structure Machine.ExtendsTo (c n : FrameId) (a b : Machine) : Prop where
  frames : Set.BijOn (past n) (Set.Iio a.frames.all.size) (Set.Iio b.frames.all.size \ {n})
  links : ∀ f, Option.Rel (Stands c n) (a.frames.enclosing? f) (b.frames.enclosing? (past n f))
  bindings : ∀ f x, Option.Rel (Value.Like (Callable.Moved c n)) (a.frames.own? f x)
    (b.frames.own? (past n f) x)
  parent : b.frames.enclosing? n = some c
  empty : b.frames.names n = []
  current : b.current = a.current
  globals : b.globals = a.globals
  nextId : b.nextId = a.nextId
  output : b.output = a.output
  buffer : b.buffer = a.buffer

section finish

variable {c n : FrameId} {host : Host} {w : Nat}

theorem Correspondence.moved_of_extra :
    (Correspondence.extra c n).Functions host w ≤ Callable.Moved c n := by
  intro f g hfg
  cases hfg with
  | native id h => exact ⟨rfl, .native _⟩
  | closure id hscope name hfn henters hbody =>
    cases hfn
    exact ⟨rfl, .closure _ (Frames.stands_of_frames hscope)⟩

theorem Machine.Extra.extendsTo {a b : Machine} (h : a.Extra c n host w b) (ha : a.current = c) :
    a.ExtendsTo c n { b with current := c } where
  frames := by
    rw [h.frames.size, h.frames.more]
    exact Frames.bijOn_past h.frames.made
  links := h.frames.link
  bindings f x := Value.Like.rel_imp (h.frames.value f x) fun _ _ hv =>
    hv.mono Correspondence.moved_of_extra
  parent := h.frames.parent
  empty := by
    refine List.eq_nil_iff_forall_not_mem.mpr fun x hx => ?_
    rw [Frames.mem_names, h.frames.empty] at hx
    cases hx
  current := ha.symm
  globals := h.globals
  nextId := h.nextId
  output := h.output
  buffer := h.buffer

end finish

/-- **Braces around a statement do not matter**, if it declares nothing outside of blocks and function
bodies. The machine may be any in which frames lie in frames that were made before, as all are that a host
comes to (`Machine.Reached.grounded`). Native functions do not look inside function values, bind names in
the globals only, and do not ask for the depth of the current frame.

Then the block ends if and only if the statement does, in the same way: without an error, with the same
error, or with a return of the same value. The same is printed. The machines that the two leave are the
same, but for an extra frame: it lies in the frame that the statement ran in, binds nothing, and where the
statement made frames inside of the latter the block may have made them inside of the extra frame. -/
theorem Interpreter.execute_braced (host : Host) (bound : Nat) (pos : Pos) {s : Stmt}
    (hs : s.declared = []) {m : Machine} (hm : m.Grounded)
    (hnatives : m.Holds (Callable.Mirrors host .elsewhere)) :
    (execute host bound s m = .exhausted ↔ execute host bound (.block pos [s]) m = .exhausted) ∧
      ∀ r a r' b, execute host bound s m = .ended r a →
        execute host bound (.block pos [s]) m = .ended r' b →
        BothEnd (Unwind.Like (· = ·) (Callable.Moved m.current m.frames.all.size)) (· = ·) r r' ∧
          a.ExtendsTo m.current m.frames.all.size b := by
  let S := Simulation.extra m.current m.frames.all.size host
  have hmatches : s.Matches S.toTranslation .extra s := Stmt.matches_footing fun _ => hs
  have htogether : S.Together .extra m.frames.all.size m
      { m.enter m.current [] [] with current := m.frames.all.size } :=
    ⟨S.within (Machine.extra_start hm hnatives) m.current m.frames.all.size, hm.current, rfl, rfl⟩
  have hruns := Simulation.exec (S.calls bound) hmatches m.frames.all.size _ _ htogether
  have hsingle : Stmt.execList (.ofBound host bound) [s] = s.exec (.ofBound host bound) := bind_pure _
  rw [execute, execute, Stmt.exec_block_apply, hsingle, Run.inScope]
  obtain ⟨r, a, r', b, hx, hy, w, _, ⟨hab, _, hcurrent, _⟩, hr⟩ | ⟨hx, hy⟩ := hruns.cases
  · rw [hx, hy]
    refine ⟨iff_of_false (by rintro ⟨⟩) (by rintro ⟨⟩), ?_⟩
    rintro _ _ _ _ ⟨⟩ ⟨⟩
    refine ⟨hr.mono (fun u u' hu => ?_) fun _ _ _ => rfl, hab.extendsTo hcurrent⟩
    cases hu with
    | error he => exact .error he.eq
    | «return» hv => exact .return (hv.mono Correspondence.moved_of_extra)
  · rw [hx, hy]
    refine ⟨Iff.rfl, ?_⟩
    rintro _ _ _ _ ⟨⟩

/-- The globals with a native function of the toolkit that binds names in the globals. -/
private def binding : Machine :=
  let frames := Frames.initial.define 0 "setGlobal" (.callable ⟨0, .native ⟨"setGlobal", 2⟩⟩)
  { Machine.initial with frames := frames.define 0 "n" (.string "x"), nextId := 1 }

private theorem binding_grounded : binding.Grounded := by
  have hnative : (Value.callable ⟨0, .native ⟨"setGlobal", 2⟩⟩).Only (Callable.Within 1) :=
    Value.only_callable.mpr fun _ ⟨_, h⟩ => by cases h
  have hframes := ((Machine.grounded_new .buffer).define 0 "setGlobal" hnative).define 0 "n"
    (v := .string "x") Value.only_string
  exact { hframes with }

private theorem binding_natives :
    binding.Holds (Callable.Mirrors (Native.Toolkit.host (.ofInt 0)) .elsewhere) := by
  refine .define (.define (Frames.guarded_initial _ _) 0 _ ?_) 0 _ Value.only_string
  refine Value.only_callable.mpr fun fn hfn => Native.Toolkit.mirrors_of_allows _ ?_
  cases hfn
  exact ⟨fun _ => trivial, nofun, fun _ => trivial, fun _ => rfl, nofun⟩

/-- A block in which a function is declared, called, bound in the globals, and returned. The call assigns
to a variable of the globals. -/
private def branching : Stmt :=
  let read (name : String) : Expr := .variable ⟨1, 0⟩ name
  .cond ⟨1, 0⟩ (read "n") (.block ⟨1, 0⟩ [
    .function ⟨2, 0⟩ "f" [] [
      .expression ⟨2, 0⟩ (.assign ⟨2, 0⟩ "n" (read "f")), .print ⟨2, 0⟩ (read "n")],
    .expression ⟨3, 0⟩ (.call ⟨3, 0⟩ (read "f") []),
    .expression ⟨4, 0⟩ (.call ⟨4, 0⟩ (read "setGlobal") [.literal ⟨4, 0⟩ (.string "kept"), read "f"]),
    .return ⟨5, 0⟩ (some (read "f"))]) none

/-- The block of the branch and the frame of the call are made inside of the extra frame. -/
theorem Interpreter.execute_braced_returning :
    ∃ v v' a b, execute (Native.Toolkit.host (.ofInt 0)) 9 branching binding =
        .ended (.error (.return v)) a ∧
      execute (Native.Toolkit.host (.ofInt 0)) 9 (.block ⟨6, 0⟩ [branching]) binding =
        .ended (.error (.return v')) b ∧
      a.frames.chain 2 = [2, 1, 0] ∧ b.frames.chain 3 = [3, 2, 1, 0] ∧ a.buffer.contents = "<fn f>\n" ∧
      v.Like (Callable.Moved 0 1) v' ∧ a.ExtendsTo 0 1 b := by
  have hdeclared : branching.declared = [] := rfl
  have hstatement : (execute (Native.Toolkit.host (.ofInt 0)) 9 branching binding).failed?.map
      (fun p => (p.1.value?.map Value.text, p.2.frames.chain 2, p.2.buffer.contents)) =
        some (some "<fn f>", [2, 1, 0], "<fn f>\n") := by decide +kernel
  have hblock : (execute (Native.Toolkit.host (.ofInt 0)) 9 (.block ⟨6, 0⟩ [branching]) binding).failed?.map
      (·.2.frames.chain 3) = some [3, 2, 1, 0] := by decide +kernel
  obtain ⟨⟨u, a⟩, hfailed, hseen⟩ := Option.map_eq_some_iff.mp hstatement
  obtain ⟨⟨u', b⟩, hfailed', hchain'⟩ := Option.map_eq_some_iff.mp hblock
  have hx := Outcome.eq_of_failed? hfailed
  have hy := Outcome.eq_of_failed? hfailed'
  obtain ⟨hends, hmachines⟩ :=
    (execute_braced _ 9 ⟨6, 0⟩ hdeclared binding_grounded binding_natives).2 _ _ _ _ hx hy
  obtain ⟨hreturned, hseen⟩ := Prod.mk.inj hseen
  obtain ⟨hchain, hprinted⟩ := Prod.mk.inj hseen
  cases hends with
  | error _ => cases hreturned
  | «return» hv => exact ⟨_, _, a, b, hx, hy, hchain, hchain', hprinted, hv, hmachines⟩

end Lox
