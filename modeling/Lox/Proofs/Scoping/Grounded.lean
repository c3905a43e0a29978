import Lox.Proofs.Run.Invariant
import Lox.Proofs.Scoping.Chains
import Lox.Proofs.Scoping.Reachability

/-!
# Scope chains stay as they are

Frames are linked in two ways: a frame lies in another one, and a function value that it binds was declared
in some frame, maybe in the same one. The second kind of links may go round in circles, and the first must
not. It cannot, as a frame is made inside of one that exists, and is never moved (`Machine.Grounded`). That
a called function brings a frame that exists needs to be known of all function values, wherever they are
bound, and of those that native functions hand on (`Host.Grounded`).

What stays as it was is a matter of steps, and holds of all runs (`Machine.Evolves.grows`).
-/

namespace Lox

/-- When there are `n` frames, the function was declared in one of them, or is native. -/
def Callable.Within (n : Nat) (f : Callable) : Prop := ∀ g, f.Captures g → g < n

theorem Callable.Within.mono {n k : Nat} {f : Callable} (h : f.Within n) (hnk : n ≤ k) : f.Within k :=
  fun g hg => Nat.lt_of_lt_of_le (h g hg) hnk

/-- Native functions that are given function values declared in frames that exist hand on only such. -/
def Host.Grounded (host : Host) : Prop :=
  ∀ n fn args, (∀ v ∈ args, v.Only (Callable.Within n)) → (host fn args).Obeys .any (Callable.Within n)

namespace Machine

/-- Frames lie in frames that were made before, and function values were declared in frames that exist. -/
structure Grounded (m : Machine) : Prop where
  layered : m.frames.Layered
  values : ∀ f name c, m.frames.own? f name = some (.callable c) → c.Within m.frames.all.size
  current : m.current < m.frames.all.size
  globals : m.globals < m.frames.all.size

/-- A machine that a host comes to from a new one, by calls that name frames and function values that
exist. The calls may fail. -/
inductive Reached (host : Host) : Machine → Prop
  | new (output : Output) : Reached host { Machine.initial with output }
  | next {m m' : Machine} (hm : Reached host m) (bound : Nat) (call : HostCall)
    (hcall : call.Mentions (· < m.frames.all.size) (Callable.Within m.frames.all.size))
    (h : call.leaves host bound m = some m') : Reached host m'

variable {m : Machine} {f : FrameId}

theorem grounded_new (output : Output) : Grounded { Machine.initial with output } where
  layered := Frames.layered_initial
  values f name c h := by cases (Frames.own?_initial f name).symm.trans h
  current := Nat.zero_lt_one
  globals := Nat.zero_lt_one

theorem Grounded.openScope (h : m.Grounded) (hf : f < m.frames.all.size) :
    Grounded { m with frames := (m.frames.openScope f).2 } where
  layered := h.layered.openScope hf
  values g name c hc := by
    rw [Frames.own?_openScope] at hc
    rw [Frames.size_openScope]
    exact (h.values g name c hc).mono (Nat.le_succ _)
  current := by
    rw [Frames.size_openScope]
    exact Nat.lt_succ_of_lt h.current
  globals := by
    rw [Frames.size_openScope]
    exact Nat.lt_succ_of_lt h.globals

theorem Grounded.define (h : m.Grounded) (f : FrameId) (name : String) {v : Value}
    (hv : v.Only (Callable.Within m.frames.all.size)) :
    Grounded { m with frames := m.frames.define f name v } where
  layered := h.layered.define f name v
  values g other c hc := by
    rw [Frames.own?_define] at hc
    rw [Frames.size_define]
    split at hc
    · exact hv c (Option.some.inj hc)
    · exact h.values g other c hc
  current := by simpa using h.current
  globals := by simpa using h.globals

theorem Grounded.place (h : m.Grounded) (p : Place) : p.frame m < m.frames.all.size := by
  cases p with
  | current => exact h.current
  | globals => exact h.globals

end Machine

/-- Machines stay grounded. The world is the number of frames. -/
def Invariant.grounded (host : Host) (natives : host.Grounded) : Invariant host where
  World := Nat
  later := (· ≤ ·)
  machines n m := m.Grounded ∧ m.frames.all.size = n
  frames n f := f < n
  functions n f := f.Within n
  refl := Nat.le_refl
  trans := Nat.le_trans
  frames_later h hf := Nat.lt_of_lt_of_le hf h
  functions_later h hf := hf.mono h
  within h hf := ⟨{ h.1 with current := h.2 ▸ hf }, h.2⟩
  print h _ := ⟨{ h.1 with }, h.2⟩
  openScope {n m f} h hf := by
    obtain ⟨hm, rfl⟩ := h
    exact ⟨m.frames.all.size + 1, Nat.le_succ _, ⟨hm.openScope hf, by simp⟩, Nat.lt_succ_self _⟩
  define h _ hv name := by
    obtain ⟨hm, rfl⟩ := h
    exact ⟨hm.define _ name hv, by simp⟩
  newCallable {n m code} h hcode := by
    refine ⟨n, Nat.le_refl n, ⟨{ h.1 with }, h.2⟩, ?_⟩
    rintro g ⟨fn, hfn⟩
    exact hcode fn g hfn
  place h p := by
    obtain ⟨hm, rfl⟩ := h
    exact hm.place p
  owner {n m f g name} h hf hg := by
    obtain ⟨hm, rfl⟩ := h
    have hclosed (f g : FrameId) (hf : f < m.frames.all.size) (he : m.frames.enclosing? f = some g) :
        g < m.frames.all.size := Nat.lt_trans (hm.layered f g he) hf
    exact Frames.climb_closed hclosed hf _ _ (Frames.mem_chain_of_owner? hg)
  value h _ hv := by
    obtain ⟨hm, rfl⟩ := h
    rintro c rfl
    exact hm.values _ _ c hv
  captured hf hcode := hf _ ⟨_, hcode⟩
  native _ _ hargs := natives _ _ _ hargs

namespace Machine

variable {host : Host} {m m' : Machine}

theorem Grounded.leaves (h : m.Grounded) (natives : host.Grounded) {bound : Nat} {call : HostCall}
    (hcall : call.Mentions (· < m.frames.all.size) (Callable.Within m.frames.all.size))
    (hm' : call.leaves host bound m = some m') : m'.Grounded := by
  let I := Invariant.grounded host natives
  have hstart : I.machines m.frames.all.size m := ⟨h, rfl⟩
  obtain ⟨_, _, hend⟩ := I.leaves hstart hcall hm'
  exact hend.1

theorem Reached.grounded (h : m.Reached host) (natives : host.Grounded) : m.Grounded := by
  induction h with
  | new output => exact grounded_new output
  | next _ bound call hcall hm' ih => exact ih.leaves natives hcall hm'

/-- What `m'` has kept of the frame `f`: its place in the chains, and the names that it binds. -/
structure Keeps (m : Machine) (f : FrameId) (m' : Machine) : Prop where
  exist : f < m'.frames.all.size
  link : m'.frames.enclosing? f = m.frames.enclosing? f
  chain : m'.frames.chain f = m.frames.chain f
  depth : m'.frames.depth f = m.frames.depth f
  names : m.frames.names f ⊆ m'.frames.names f

theorem Evolves.keeps (h : m.Evolves m') (hm : m.frames.Layered) {f : FrameId}
    (hf : f < m.frames.all.size) : m.Keeps f m' := by
  have hchain : m'.frames.chain f = m.frames.chain f := hm.chain_grows h.grows hf
  exact {
    exist := Nat.lt_of_lt_of_le hf h.grows.size
    link := h.grows.link f hf
    chain := hchain
    depth := by rw [Frames.depth, Frames.depth, hchain]
    names := fun x hx => Frames.mem_names.mpr (h.grows.names f x (Frames.mem_names.mp hx)) }

/-- **Scope chains never change and never run in circles.** In all machines that a host can come to, a
frame has no link, or one to a frame that was made before it, so the way outwards that look-ups,
assignments and the depth take comes to an end. A new frame is none of those that there are. And whatever
a host call does, and however it ends, all frames keep their links, their chains and their names. -/
theorem scope_chains_persist (host : Host) (natives : host.Grounded) (m : Machine)
    (hm : m.Reached host) :
    (∀ f, (m.frames.enclosing? f = none ∨ ∃ g < f, m.frames.enclosing? f = some g) ∧
        m.frames.Walk f (m.frames.chain f)) ∧
      (∀ parent f m', (Run.openScope parent : Run RuntimeError FrameId) m = .ended (.ok f) m' →
        f < m'.frames.all.size ∧ ∀ g < m.frames.all.size, (g == f) = false) ∧
      ∀ bound (call : HostCall) m', call.Mentions (· < m.frames.all.size) (Callable.Within m.frames.all.size) →
        call.leaves host bound m = some m' → ∀ f < m.frames.all.size, m.Keeps f m' := by
  have hlayered : m.frames.Layered := (hm.grounded natives).layered
  refine ⟨fun f => ⟨?_, hlayered.walk f⟩, fun parent f m' h => ?_, fun bound call m' _ h f hf => ?_⟩
  · cases he : m.frames.enclosing? f with
    | none => exact .inl rfl
    | some g => exact .inr ⟨g, hlayered f g he, rfl⟩
  · cases h
    exact ⟨by simp, fun g hg => beq_false_of_ne (Nat.ne_of_lt hg)⟩
  · exact (HostCall.evolves h).keeps hlayered hf

/-- The native functions of this host run a block where they are called, and bind their argument in the
globals. -/
private def keepingHost : Host := fun _ args =>
  let x := args.headD .nil
  .execute .current [.block ⟨9, 0⟩ [.declare ⟨9, 0⟩ "x" none]] fun _ =>
    .define .globals "kept" x (.value x)

private theorem keepingHost_grounded : keepingHost.Grounded := by
  intro n fn args hargs
  have hx : (args.headD .nil).Only (Callable.Within n) := by
    cases args with
    | nil => exact Value.only_nil
    | cons v vs => exact hargs v (by simp)
  have hlearnt (r : Except Unwind Unit) :
      (args.headD .nil).Only (learnReturn (Callable.Within n) r) := hx.mono fun _ => .inl
  exact ⟨trivial, trivial, fun r => ⟨trivial, hlearnt r, hlearnt r⟩⟩

/-- A function whose calls bind a function in the very frame that it is declared in. It is handed to a
native function, which keeps it. -/
private def stepping : Program :=
  let read (name : String) : Expr := .variable ⟨1, 0⟩ name
  let call (f : String) (args : List Expr) : Expr := .call ⟨1, 0⟩ (read f) args
  [.function ⟨1, 0⟩ "counter" ["n"] [
      .function ⟨2, 0⟩ "step" [] [.expression ⟨2, 0⟩ (.assign ⟨2, 0⟩ "n" (read "step"))],
      .return ⟨3, 0⟩ (some (call "keep" [read "step"]))],
    .expression ⟨4, 0⟩ (call "counter" [.literal ⟨4, 0⟩ .nil]),
    .expression ⟨5, 0⟩ (call "kept" [])]

private def after (call : HostCall) (m : Machine) : Machine := (call.leaves keepingHost 9 m).getD m

private theorem reached_after {m : Machine} (hm : m.Reached keepingHost) {call : HostCall}
    (hcall : call.Mentions (· < m.frames.all.size) (Callable.Within m.frames.all.size))
    (h : (call.leaves keepingHost 9 m).isSome) : (after call m).Reached keepingHost := by
  obtain ⟨m', hm'⟩ := Option.isSome_iff_exists.mp h
  rw [after, hm', Option.getD_some]
  exact .next hm 9 call hcall hm'

/-- A machine with a frame for the call, and one in it for the block of the native function. -/
private def stepped : Machine :=
  after (.interpret stepping) (after (.defineCallable 0 "keep" (.native ⟨"keep", 1⟩)) .initial)

/-- A function of the innermost frame is called, which binds a name in a block and then fails. -/
private def failingCall : HostCall :=
  .call ⟨7, .closure ⟨"f", [], [.block ⟨6, 0⟩ [.declare ⟨6, 0⟩ "n" none,
    .expression ⟨7, 0⟩ (.unary ⟨7, 0⟩ .negate (.variable ⟨7, 0⟩ "kept"))]]⟩ 2⟩ [] ⟨8, 0⟩

theorem scope_chains_persist_captured :
    ∃ m', failingCall.leaves keepingHost 9 stepped = some m' ∧
      stepped.frames.Walk 2 [2, 1, 0] ∧ m'.frames.chain 2 = [2, 1, 0] ∧ m'.frames.names 1 = ["n", "step"] ∧
      stepped.Keeps 1 m' := by
  have hnew : Machine.initial.Reached keepingHost := .new .buffer
  have hreached : stepped.Reached keepingHost := by
    refine reached_after (reached_after hnew ?_ (by decide +kernel)) trivial (by decide +kernel)
    exact ⟨by decide, nofun⟩
  obtain ⟨hchains, _, hkeeps⟩ := scope_chains_persist keepingHost keepingHost_grounded stepped hreached
  have hsome : (failingCall.leaves keepingHost 9 stepped).isSome := by decide +kernel
  obtain ⟨m', hm'⟩ := Option.isSome_iff_exists.mp hsome
  have hmentions : failingCall.Mentions (· < stepped.frames.all.size)
      (Callable.Within stepped.frames.all.size) := by
    refine ⟨?_, nofun⟩
    rintro g ⟨fn, hfn⟩
    cases hfn
    decide +kernel
  have hkept := hkeeps 9 failingCall m' hmentions hm'
  have hchain : stepped.frames.chain 2 = [2, 1, 0] := by decide +kernel
  have hnames : (failingCall.leaves keepingHost 9 stepped).map (·.frames.names 1) =
      some ["n", "step"] := by decide +kernel
  rw [hm', Option.map_some] at hnames
  refine ⟨m', hm', hchain ▸ (hchains 2).2, ?_, Option.some.inj hnames, hkept 1 (by decide +kernel)⟩
  exact (hkept 2 (by decide +kernel)).chain.trans hchain

end Machine

end Lox
