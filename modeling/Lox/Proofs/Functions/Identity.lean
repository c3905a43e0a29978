import Lox.Proofs.Functions.Equality
import Lox.Proofs.Run.Points
import Lox.Proofs.Scoping.Calls

/-!
# The identity of function values

Function values are equal if they have the same number. That says something only if a number stands for one
function, whatever a program does with it. So all function values that have been made are kept account of:
they have different numbers, and a new one gets a number above all of them (`Machine.Identifies`). That is
an invariant of runs (`Invariant.identity`), as the steps of a run make new function values or hand on those
that there are. Native functions are taken to do so, too (`Host.Honest`).
-/

namespace Lox

variable {host : Host}

/-! ## Numbers -/

/-- The function values that have been made have different numbers below that of the next one, and there
are no others in the frames. -/
structure Machine.Identifies (m : Machine) (made : Callable → Prop) : Prop where
  bound : ∀ f name c, m.frames.own? f name = some (.callable c) → made c
  below : ∀ c, made c → c.id < m.nextId
  unique : ∀ c d, made c → made d → c.id = d.id → c = d

namespace Machine.Identifies

variable {m : Machine} {made : Callable → Prop}

theorem new (output : Output) : Identifies { Machine.initial with output } fun _ => False where
  bound f name c h := by cases (Frames.own?_initial f name).symm.trans h
  below _ h := h.elim
  unique _ _ h := h.elim

theorem openScope (h : m.Identifies made) (f : FrameId) :
    Identifies { m with frames := (m.frames.openScope f).2 } made where
  bound g name c hc := by
    rw [Frames.own?_openScope] at hc
    exact h.bound g name c hc
  below := h.below
  unique := h.unique

theorem define (h : m.Identifies made) (f : FrameId) (name : String) {v : Value} (hv : v.Only made) :
    Identifies { m with frames := m.frames.define f name v } made where
  bound g other c hc := by
    rw [Frames.own?_define] at hc
    split at hc
    · exact hv c (Option.some.inj hc)
    · exact h.bound g other c hc
  below := h.below
  unique := h.unique

theorem newCallable (h : m.Identifies made) (code : Code) :
    Identifies { m with nextId := m.nextId + 1 } fun c => made c ∨ c = ⟨m.nextId, code⟩ where
  bound f name c hc := .inl (h.bound f name c hc)
  below := by
    rintro c (hc | rfl)
    · exact Nat.lt_succ_of_lt (h.below c hc)
    · exact Nat.lt_succ_self m.nextId
  unique := by
    rintro c d (hc | rfl) (hd | rfl) heq
    · exact h.unique c d hc hd heq
    · exact absurd heq (Nat.ne_of_lt (h.below c hc))
    · exact absurd heq.symm (Nat.ne_of_lt (h.below d hd))
    · rfl

end Machine.Identifies

/-- Runs keep account of the function values. The world is what has been made so far. -/
def Invariant.identity (host : Host) (honest : host.Honest) : Invariant host where
  World := Callable → Prop
  later made made' := ∀ c, made c → made' c
  machines made m := m.Identifies made
  frames _ _ := True
  functions made c := made c
  refl _ _ h := h
  trans h h' c hc := h' c (h c hc)
  frames_later _ _ := trivial
  functions_later h hc := h _ hc
  within h _ := { h with }
  print h _ := { h with }
  openScope {made _ f} h _ := ⟨made, fun _ hc => hc, h.openScope f, trivial⟩
  define {_ _ f _} h _ hv name := h.define f name hv
  newCallable h _ := ⟨_, fun _ => .inl, h.newCallable _, .inr rfl⟩
  place _ _ := trivial
  owner _ _ _ := trivial
  value h _ hv := by
    rintro c rfl
    exact h.bound _ _ c hv
  captured _ _ := trivial
  native _ _ hargs := honest.obeys hargs

namespace Machine.Found

variable {m : Machine} {found : Callable → Prop}

theorem identifies (h : m.Found host found) (honest : host.Honest) :
    ∃ made, m.Identifies made ∧ ∀ c, found c → made c :=
  h.known (.identity host honest) Identifies.new fun _ _ _ _ _ => trivial

end Machine.Found

/-- The function value is equal to none of those. -/
def Callable.DiffersFrom (c : Callable) (found : Callable → Prop) : Prop :=
  ∀ d, found d → (Value.callable c).same (.callable d) = false

theorem Machine.Identifies.differs {m : Machine} {made found : Callable → Prop} (h : m.Identifies made)
    (hfound : ∀ c, found c → made c) (code : Code) :
    Callable.DiffersFrom ⟨m.nextId, code⟩ found := by
  intro d hd
  rw [← Bool.not_eq_true, Value.same_callable_iff]
  exact (Nat.ne_of_lt (h.below d (hfound d hd))).symm

/-! ## Copies -/

namespace Frames

variable {s : Frames} {f g e : FrameId} {x p : String} {v : Value} {names : List String}
  {values : List Value}

theorem get?_define_owner? (h : s.owner? f x = some g) (v : Value) :
    (s.define g x v).get? f x = some v := by
  have hbound := own?_of_owner? h
  obtain ⟨w, hw⟩ := Option.isSome_iff_exists.mp hbound
  have hown : (s.define g x v).own? g x = some v := by
    rw [own?_define, if_pos ⟨rfl, rfl, lt_size_of_own? hw⟩]
  have howner : (s.define g x v).owner? f x = s.owner? f x := by
    rw [owner?, owner?, chain_define]
    refine List.find?_congr fun k _ => ?_
    rw [own?_define]
    split
    · next hcond => rw [hcond.1, hbound, Option.isSome_some]
    · rfl
  rw [get?_eq_owner?_bind, howner, h, Option.bind_some, hown]

/-- A parameter is bound to its argument, and of several parameters of one name the last one is. -/
theorem own?_defineAll (hf : f < s.all.size) {i : Nat} (hp : names[i]? = some p)
    (hlast : p ∉ names.drop (i + 1)) (hv : values[i]? = some v) :
    (s.defineAll f names values).own? f p = some v := by
  rw [own?_defineAll_eq_lookup hf, lookup_reverse_zip_of_last hp hlast hv, Option.some_or]

theorem Layered.get?_call_of_not_mem (h : s.Layered) (he : e < s.all.size) (hx : x ∉ names)
    (values : List Value) :
    ((s.openScope e).2.defineAll s.all.size names values).get? s.all.size x = s.get? e x := by
  rw [h.get?_enter he, lookup_reverse_zip_of_not_mem hx, Option.none_or]

end Frames

/-- The function value `c` is the same wherever it is copied to. -/
structure Machine.Copies (m : Machine) (ctx : Context) (c : Callable) : Prop where
  /-- A variable has the function value that it stands for as its value. -/
  read : ∀ pos x, m.frames.get? m.current x = some (.callable c) →
    (Expr.variable pos x).eval ctx m = .ended (.ok (.callable c)) m
  /-- After an assignment the variable stands for the value that was assigned, and so does the assignment. -/
  assigned : ∀ pos x e m₁, e.eval ctx m = .ended (.ok (.callable c)) m₁ →
    (∃ v, m₁.frames.get? m₁.current x = some v) →
    ∃ m₂, (Expr.assign pos x e).eval ctx m = .ended (.ok (.callable c)) m₂ ∧
      m₂.frames.get? m₂.current x = some (.callable c)
  /-- In the frame that the body of a function is run in, a parameter stands for the argument, and of
  several parameters of one name the last one does. Other names stand for what they stand for in the frame
  that the function was declared in. -/
  called : ∀ (fn : Function) scope args, scope < m.frames.all.size → ∃ frame m₁,
    fn.call ctx scope args m = (Run.inScope frame (Stmt.execList ctx fn.body)).catchReturn m₁ ∧
      (∀ i p, fn.params[i]? = some p → p ∉ fn.params.drop (i + 1) → args[i]? = some (.callable c) →
        m₁.frames.get? frame p = some (.callable c)) ∧
      ∀ x, x ∉ fn.params → m.frames.get? scope x = some (.callable c) →
        m₁.frames.get? frame x = some (.callable c)
  /-- A return hands out the value of its expression, -/
  returned : ∀ pos e m₁, e.eval ctx m = .ended (.ok (.callable c)) m₁ →
    (Stmt.return pos (some e)).exec ctx m = .ended (.error (.return (.callable c))) m₁
  /-- and a call has it as its value. -/
  caught : ∀ (body : Run Unwind Unit) m₁, body m = .ended (.error (.return (.callable c))) m₁ →
    body.catchReturn m = .ended (.ok (.callable c)) m₁

theorem Machine.Grounded.copies {m : Machine} (h : m.Grounded) (ctx : Context) (c : Callable) :
    m.Copies ctx c where
  read pos x hx := by
    show Run.mapError (fun f => (⟨f, pos⟩ : RuntimeError)) (Run.lookupIn m.current x) m = _
    rw [Run.mapError, Run.continueWith, Run.lookupIn_eq_ok hx]
    rfl
  assigned pos x e m₁ he hx := by
    obtain ⟨g, hg⟩ : ∃ g, m₁.frames.owner? m₁.current x = some g := by
      rw [← Option.isSome_iff_exists, Frames.owner?_isSome_iff, ← Frames.get?_isSome_iff]
      exact Option.isSome_iff_exists.mpr hx
    refine ⟨{ m₁ with frames := m₁.frames.define g x (.callable c) }, ?_, Frames.get?_define_owner? hg _⟩
    have hassign : Run.assign x (.callable c) m₁ =
        .ended (.ok ()) { m₁ with frames := m₁.frames.define g x (.callable c) } := by
      show Run.assignIn m₁.current x (.callable c) m₁ = _
      rw [Run.assignIn, hg]
    rw [Expr.eval, Run.bind_apply, he]
    simp only [Run.bind_apply, Run.at, Run.mapError, Run.continueWith, hassign]
    rfl
  called fn scope args hscope := by
    refine ⟨m.frames.all.size, m.enter scope fn.params args, Function.call_apply ctx fn scope args m,
      fun i p hp hlast hv => ?_, fun x hx hc => ?_⟩
    · have hsize : m.frames.all.size < (m.frames.openScope scope).2.all.size := by simp
      exact Frames.get?_of_own? (Frames.own?_defineAll hsize hp hlast hv)
    · exact (h.layered.get?_call_of_not_mem hscope hx args).trans hc
  returned pos e m₁ he := by
    rw [Stmt.exec, Run.bind_apply, Run.within, Run.mapError, Run.continueWith, Expr.evalOption, he]
    rfl
  caught body m₁ hbody := by
    rw [Run.catchReturn, Run.continueWith, hbody]
    rfl

/-! ## Identity -/

theorem Stmt.exec_function_apply (ctx : Context) (pos : Pos) (name : String) (params : List String)
    (body : List Stmt) (m : Machine) :
    (Stmt.function pos name params body).exec ctx m =
      .ended (.ok ()) { m with
        frames := m.frames.define m.current name
          (.callable ⟨m.nextId, .closure ⟨name, params, body⟩ m.current⟩)
        nextId := m.nextId + 1 } := by
  rw [Stmt.exec]
  rfl

/-- By their equality the function values that have been found are told apart, and new ones from them. -/
structure Machine.Distinguishes (host : Host) (m : Machine) (found : Callable → Prop) : Prop where
  /-- What is bound in a frame has been found. -/
  bound : ∀ f name c, m.frames.own? f name = some (.callable c) → found c
  /-- Equal function values are the same in all: the number, and the native function, or the declaration
  and the frame that it was captured in. -/
  same : ∀ c d, found c → found d → (Value.callable c).same (.callable d) → c = d
  copies : ∀ ctx c, m.Copies ctx c
  /-- All points of a run, such as the rounds of a loop or the bodies of functions, are at machines that a
  host comes to, and the values kept for later, such as operands and arguments, have been found by then. -/
  points : ∀ bound task held q, task.Known found → Point.Reaches host ⟨bound, task, m⟩ held q →
    ∃ found', q.machine.Found host found' ∧ (∀ c, found c → found' c) ∧ ∀ v ∈ held, v.Only found'
  /-- Each execution of a function declaration makes a function value that differs from those found so far,
  also if the same declaration was executed in the same frame before. -/
  declared : ∀ bound pos name params body, ∃ m' c,
    Interpreter.execute host bound (.function pos name params body) m = .ended (.ok ()) m' ∧
      m'.frames.own? m.current name = some (.callable c) ∧
      c.code = .closure ⟨name, params, body⟩ m.current ∧ c.DiffersFrom found
  /-- So does each definition of a function that the host builds itself, -/
  defined : ∀ f name code, f < m.frames.all.size → ∃ m' c,
    (Interpreter.defineCallable f name code : Run Fault Value) m = .ended (.ok (.callable c)) m' ∧
      m'.frames.own? f name = some (.callable c) ∧ c.code = code ∧ c.DiffersFrom found
  /-- and of the native functions that come with the language. -/
  builtins : ∀ f, f < m.frames.all.size → ∃ m',
    (Interpreter.defineBuiltins f : Run Fault Unit) m = .ended (.ok ()) m' ∧
      ∀ fn ∈ Interpreter.builtins, ∃ c, m'.frames.own? f fn.name = some (.callable c) ∧
        c.code = .native fn ∧ c.DiffersFrom found

theorem Machine.Found.distinguishes {m : Machine} {found : Callable → Prop} (h : m.Found host found)
    (honest : host.Honest) : m.Distinguishes host found := by
  obtain ⟨made, hmade, hfound⟩ := h.identifies honest
  have hgrounded := h.grounded honest
  have fresh (code : Code) : Callable.DiffersFrom ⟨m.nextId, code⟩ found := hmade.differs hfound code
  have bound {f : FrameId} (hf : f < m.frames.all.size) (name : String) (v : Value) :
      (m.frames.define f name v).own? f name = some v := by
    rw [Frames.own?_define, if_pos ⟨rfl, rfl, hf⟩]
  constructor
  case bound => exact fun f name c hc => h.of_binds ⟨f, name, hc⟩
  case same =>
    intro c d hc hd hsame
    exact hmade.unique c d (hfound c hc) (hfound d hd) (Value.same_callable_iff.mp hsame)
  case copies => exact fun ctx c => hgrounded.copies ctx c
  case points =>
    intro n task held q htask hreaches
    obtain ⟨found', hq, hle, _, hheld⟩ := hreaches.known honest h htask
    exact ⟨found', hq, hle, hheld⟩
  case declared =>
    intro n pos name params body
    exact ⟨_, _, Stmt.exec_function_apply _ pos name params body m, bound hgrounded.current name _, rfl,
      fresh _⟩
  case defined =>
    intro f name code hf
    exact ⟨_, ⟨m.nextId, code⟩, rfl, bound hf name _, rfl, fresh code⟩
  case builtins =>
    intro f hf
    refine ⟨{ m with
      frames := m.frames.define f Native.clock.name (.callable ⟨m.nextId, .native Native.clock⟩)
      nextId := m.nextId + 1 }, rfl, fun fn hfn => ?_⟩
    obtain rfl := List.mem_singleton.mp hfn
    exact ⟨_, bound hf _ _, rfl, fresh _⟩

/-- **Function values have a reliable identity.** Let a host come to some machine, having found some function
values on the way, in frames or as results. If two of these are equal, then they are the same. Copies are
equal to their originals, as they are the same. New function values are equal to none of those found so far.
That holds at all points that a run comes to.

So equality is symmetric and transitive for all values, and reflexive for all but NaNs. -/
theorem Machine.functions_identified (host : Host) (honest : host.Honest) :
    (∀ (m : Machine) found, m.Found host found → m.Distinguishes host found) ∧
      (∀ v w : Value, v.same w = w.same v) ∧
      (∀ u v w : Value, u.same v → v.same w → u.same w) ∧
      ∀ v : Value, v.same v ↔ ∀ x, v = .number x → x.isNaN = false :=
  ⟨fun _ _ hm => hm.distinguishes honest, Value.same_comm, fun _ _ _ => Value.same_trans,
    fun _ => Value.same_self_iff⟩

/-- The native functions of this host hand back their argument. -/
private def handingHost : Host := fun _ args => .value (args.headD .nil)

private theorem handingHost_honest : handingHost.Honest := by
  intro fn args
  cases args with
  | nil => exact Value.only_nil
  | cons v vs => exact fun f hf => List.mem_cons.mpr (.inl hf.symm)

private def declaration : Stmt := .function ⟨1, 0⟩ "f" ["n"] []

/-- A loop that declares the function in each of its rounds. -/
private def redeclaring : Stmt := .loop ⟨1, 0⟩ (.literal ⟨1, 0⟩ (.bool true)) declaration

/-- The machine after the first round. -/
private def onceDeclared : Machine :=
  ((HostCall.execute declaration).leaves handingHost 3 .initial).getD .initial

private theorem redeclaring_reaches :
    Point.Reaches handingHost ⟨3, .exec redeclaring, .initial⟩ [] ⟨3, .exec declaration, onceDeclared⟩ := by
  have hround : Point.Turns handingHost ⟨3, .exec redeclaring, .initial⟩ []
      ⟨3, .exec redeclaring, onceDeclared⟩ := .again (v := .bool true) (by rfl) rfl (by rfl)
  have hbody : Point.Turns handingHost ⟨3, .exec redeclaring, onceDeclared⟩ []
      ⟨3, .exec declaration, onceDeclared⟩ := .loopBody (v := .bool true) (by rfl) rfl
  exact .step hround (.step hbody (.refl _))

/-- In its second round the loop declares another function, although in the same words and the same frame. -/
theorem Machine.functions_identified_again :
    handingHost.Honest ∧
      Point.Reaches handingHost ⟨3, .exec redeclaring, .initial⟩ [] ⟨3, .exec declaration, onceDeclared⟩ ∧
      ∃ m' c d, Interpreter.execute handingHost 3 declaration onceDeclared = .ended (.ok ()) m' ∧
        onceDeclared.frames.own? 0 "f" = some (.callable c) ∧ m'.frames.own? 0 "f" = some (.callable d) ∧
        d.code = c.code ∧ (Value.callable d).same (.callable c) = false := by
  have hdistinguishes := (functions_identified handingHost handingHost_honest).1
  have hnew := hdistinguishes .initial _ (.new .buffer)
  obtain ⟨found, hfound, _, _⟩ := hnew.points 3 (.exec redeclaring) _ _ trivial redeclaring_reaches
  have honce := hdistinguishes onceDeclared found hfound
  obtain ⟨m', d, hm', hd, hcode, hdiffers⟩ := honce.declared 3 ⟨1, 0⟩ "f" ["n"] []
  have hf : onceDeclared.frames.own? 0 "f" = some (.callable ⟨0, .closure ⟨"f", ["n"], []⟩ 0⟩) := by rfl
  exact ⟨handingHost_honest, redeclaring_reaches, m', _, d, hm', hf, hd, hcode,
    hdiffers _ (honce.bound 0 "f" _ hf)⟩

end Lox
