import Lox.Proofs.Base.Induction
import Lox.Proofs.Output.Printout

/-!
# Output is only ever appended to

What a run prints is appended to the buffer, text by text, and nobody reads it: with other text in the
buffer, or with an output that discards what is printed, the run ends in the same way and leaves the same
machine otherwise. An error or a return takes nothing back.

`Run.Writes` says so of a run and of what it prints, for all outputs and buffers at once. There is a rule
for each way to combine runs, and the evaluator follows by induction on syntax trees, and calls by
induction on how many of them may be open.
-/

namespace Lox

variable {ε ε' α β : Type}

def Outcome.onto (output : Output) (buffer : Buffer) : Outcome ε α → Outcome ε α
  | ended r m => ended r { m with output, buffer }
  | exhausted => exhausted

/-- The run appends what it prints to the buffer, if there is an output to it, and otherwise it takes no
notice of either. -/
def Run.Writes (x : Run ε α) (p : Printout) : Prop :=
  ∀ m output buffer,
    x { m with output, buffer } = (x m).onto output (output.printAll (p m) buffer)

namespace Run.Writes

/-! ## Steps -/

section steps

theorem print (text : String) : (Run.print text : Run ε Unit).Writes (.text text) := fun _ _ _ => rfl

theorem ofResult (r : Except ε α) : (Run.ofResult r).Writes .nothing := fun _ _ _ => rfl

theorem pure (a : α) : (Pure.pure a : Run ε α).Writes .nothing := fun _ _ _ => rfl

theorem fail (e : ε) : (Run.fail e : Run ε α).Writes .nothing := fun _ _ _ => rfl

theorem exhausted (p : Printout) : (Run.exhausted : Run ε α).Writes p := fun _ _ _ => rfl

theorem current : (Run.read (·.current) : Run ε FrameId).Writes .nothing := fun _ _ _ => rfl

theorem depth : (Run.read fun m => m.frames.depth m.current : Run ε Nat).Writes .nothing :=
  fun _ _ _ => rfl

theorem place (p : Place) : (Run.read p.frame : Run ε FrameId).Writes .nothing := by
  cases p <;> exact fun _ _ _ => rfl

theorem define (f : FrameId) (name : String) (v : Value) :
    (Run.define f name v : Run ε Unit).Writes .nothing := fun _ _ _ => rfl

theorem openScope (f : FrameId) : (Run.openScope f : Run ε FrameId).Writes .nothing := fun _ _ _ => rfl

theorem newCallable (code : Code) : (Run.newCallable code : Run ε Callable).Writes .nothing :=
  fun _ _ _ => rfl

theorem lookupIn (f : FrameId) (name : String) : (Run.lookupIn f name).Writes .nothing := by
  intro m output buffer
  simp only [Run.lookupIn]
  cases m.frames.get? f name <;> rfl

theorem assignIn (f : FrameId) (name : String) (v : Value) :
    (Run.assignIn f name v).Writes .nothing := by
  intro m output buffer
  simp only [Run.assignIn]
  cases m.frames.owner? f name <;> rfl

end steps

/-! ## Combinations -/

variable {p : Printout}

theorem continueWith {x : Run ε α} {f : Except ε α → Run ε' β} {next : Except ε α → Printout}
    (hx : x.Writes p) (hf : ∀ r, (f r).Writes (next r)) :
    (x.continueWith f).Writes (p.followedBy x next) := by
  intro m output buffer
  simp only [Run.continueWith, Printout.followedBy, hx m output buffer]
  cases x m with
  | exhausted => rfl
  | ended r m' =>
    show f r { m' with output, buffer := output.printAll (p m) buffer } =
      (f r m').onto output (output.printAll (p m ++ next r m') buffer)
    rw [Output.printAll_append]
    exact hf r m' output _

theorem bind {x : Run ε α} {f : α → Run ε β} {next : α → Printout} (hx : x.Writes p)
    (hf : ∀ a, (f a).Writes (next a)) : (x >>= f).Writes (p.andThen x next) := by
  rw [Run.bind_eq_continueWith]
  refine continueWith hx ?_
  rintro (e | a)
  · exact fail e
  · exact hf a

theorem after {x : Run ε α} {f : α → Run ε β} {next : α → Printout} (hx : x.Writes .nothing)
    (hf : ∀ a, (f a).Writes (next a)) : (x >>= f).Writes (.after x next) := bind hx hf

theorem continueWith_nothing {x : Run ε α} {f : Except ε α → Run ε' β} (hx : x.Writes p)
    (hf : ∀ r, (f r).Writes .nothing) : (x.continueWith f).Writes p := by
  have hboth := continueWith hx hf
  rwa [Printout.followedBy_nothing] at hboth

theorem bind_nothing {x : Run ε α} {f : α → Run ε β} (hx : x.Writes p)
    (hf : ∀ a, (f a).Writes .nothing) : (x >>= f).Writes p := by
  rw [Run.bind_eq_continueWith]
  refine continueWith_nothing hx ?_
  rintro (e | a)
  · exact fail e
  · exact hf a

theorem mapError {x : Run ε α} (hx : x.Writes p) (f : ε → ε') : (x.mapError f).Writes p :=
  continueWith_nothing hx fun _ => ofResult _

theorem inScope {x : Run ε α} (hx : x.Writes p) (f : FrameId) :
    (Run.inScope f x).Writes (p.inScope f) := by
  intro m output buffer
  have hscope := hx { m with current := f } output buffer
  simp only [Run.inScope, Printout.inScope]
  rw [hscope]
  cases x { m with current := f } <;> rfl

theorem repeatWhile {round : Run ε Bool} (h : round.Writes p) (n : Nat) :
    (Run.repeatWhile round n).Writes (p.rounds round n) := by
  induction n with
  | zero => exact exhausted _
  | succ n ih =>
    rw [Run.repeatWhile_succ]
    refine bind h fun again => ?_
    split
    · exact ih
    · exact pure ()

theorem defineHere (name : String) (v : Value) :
    (Run.defineHere name v : Run ε Unit).Writes .nothing := bind_nothing current fun f => define f name v

theorem lookup (name : String) : (Run.lookup name).Writes .nothing :=
  bind_nothing current fun f => lookupIn f name

theorem assign (name : String) (v : Value) : (Run.assign name v).Writes .nothing :=
  bind_nothing current fun f => assignIn f name v

theorem bindAll (f : FrameId) (names : List String) (values : List Value) :
    (Run.bindAll f names values : Run ε Unit).Writes .nothing := by
  induction names generalizing values with
  | nil => exact pure ()
  | cons name names ih =>
    cases values with
    | nil => exact pure ()
    | cons v values => exact bind_nothing (define f name v) fun _ => ih values

end Run.Writes

/-! ## The evaluator -/

/-- What calls print is all that they do with the output. -/
def Context.Writes (ctx : Context) (calls : Callable → List Value → Pos → Printout) : Prop :=
  ∀ f args site, (ctx.invoke f args site).Writes (calls f args site)

section evaluator

variable {ctx : Context} {calls : Callable → List Value → Pos → Printout}

theorem Expr.evalList_writes {es : List Expr} (h : ∀ e ∈ es, (e.eval ctx).Writes (e.prints ctx calls)) :
    (Expr.evalList ctx es).Writes (Expr.printsList ctx calls es) := by
  induction es with
  | nil => exact .pure []
  | cons e es ih =>
    obtain ⟨he, hes⟩ := List.forall_mem_cons.mp h
    rw [Expr.evalList, Expr.printsList]
    exact .bind he fun v => .bind_nothing (ih hes) fun vs => .pure (v :: vs)

theorem Stmt.execList_writes_of_forall {ss : List Stmt}
    (h : ∀ s ∈ ss, (s.exec ctx).Writes (s.prints ctx calls)) :
    (Stmt.execList ctx ss).Writes (Stmt.printsList ctx calls ss) := by
  induction ss with
  | nil => exact .pure ()
  | cons s ss ih =>
    obtain ⟨hs, hss⟩ := List.forall_mem_cons.mp h
    rw [Stmt.execList, Stmt.printsList]
    exact .bind hs fun _ => ih hss

variable (hctx : ctx.Writes calls)
include hctx

theorem Context.Writes.apply (pos : Pos) (callee : Value) (args : List Value) :
    (ctx.apply pos callee args).Writes (callee.callPrints calls pos args) := by
  cases callee with
  | callable f =>
    rw [Context.apply, Value.callPrints]
    split
    · exact hctx f args pos
    · exact .fail _
  | nil | bool _ | number _ | string _ => exact .fail _

theorem Expr.eval_writes (e : Expr) : (e.eval ctx).Writes (e.prints ctx calls) := by
  induction e with
  | literal pos x => exact .pure x.value
  | group pos e ih => exact ih
  | unary pos op e ih => exact .bind_nothing ih fun v => .ofResult _
  | binary pos op l r ihl ihr => exact .bind ihl fun v => .bind_nothing ihr fun w => .ofResult _
  | logical pos op l r ihl ihr =>
    rw [Expr.eval, Expr.prints]
    refine .bind ihl fun v => ?_
    split
    · exact .pure v
    · exact ihr
  | var pos name => exact .mapError (.lookup name) _
  | assign pos name e ih =>
    exact .bind_nothing ih fun v => .bind_nothing (.mapError (.assign name v) _) fun _ => .pure v
  | call pos callee args ihf ihargs =>
    rw [Expr.eval, Expr.prints]
    refine .bind ihf fun f => .bind (Expr.evalList_writes ihargs) fun vs => ?_
    exact hctx.apply pos f vs

theorem Expr.evalOption_writes (o : Option Expr) :
    (Expr.evalOption ctx o).Writes (Expr.printsOption ctx calls o) := by
  cases o with
  | none => exact .pure Value.nil
  | some e => exact e.eval_writes hctx

theorem Stmt.exec_writes (s : Stmt) : (s.exec ctx).Writes (s.prints ctx calls) := by
  have within (e : Expr) : ((e.eval ctx).within).Writes (e.prints ctx calls) :=
    .mapError (e.eval_writes hctx) _
  have withinOption (o : Option Expr) :
      ((Expr.evalOption ctx o).within).Writes (Expr.printsOption ctx calls o) :=
    .mapError (Expr.evalOption_writes hctx o) _
  induction s with
  | expression pos e => exact .bind_nothing (within e) fun _ => .pure ()
  | print pos e => exact .bind (within e) fun v => .print v.text
  | declare pos name initial => exact .bind_nothing (withinOption initial) fun v => .defineHere name v
  | block pos body ih =>
    rw [Stmt.exec, Stmt.prints]
    refine .after .current fun parent => .after (.openScope parent) fun f => ?_
    exact .inScope (Stmt.execList_writes_of_forall ih) f
  | cond pos test onTrue onFalse iht ihf =>
    rw [Stmt.exec, Stmt.prints]
    refine .bind (within test) fun v => ?_
    split
    · exact iht
    · cases onFalse with
      | none => exact .pure ()
      | some s => exact ihf s rfl
  | loop pos test body ih =>
    rw [Stmt.exec, Stmt.prints]
    refine .repeatWhile (.bind (within test) fun v => ?_) ctx.rounds
    split
    · exact .bind_nothing ih fun _ => .pure true
    · exact .pure false
  | function pos name params body ih =>
    refine .bind_nothing .current fun scope => .bind_nothing (.newCallable _) fun f => ?_
    exact .defineHere name (.callable f)
  | ret pos value => exact .bind_nothing (withinOption value) fun v => .fail _

theorem Stmt.execList_writes (ss : List Stmt) :
    (Stmt.execList ctx ss).Writes (Stmt.printsList ctx calls ss) :=
  execList_writes_of_forall fun s _ => s.exec_writes hctx

/-! ## Calls -/

theorem Function.call_writes (fn : Function) (scope : FrameId) (args : List Value) :
    (fn.call ctx scope args).Writes (fn.prints ctx calls scope args) := by
  refine .after (.openScope scope) fun frame => .after (.bindAll frame fn.params args) fun _ => ?_
  refine .continueWith_nothing (.inScope (Stmt.execList_writes hctx fn.body) frame) ?_
  rintro (⟨e | v⟩ | _)
  · exact .fail e
  · exact .pure v
  · exact .pure Value.nil

theorem Action.perform_writes (site : Pos) (a : Action) :
    (a.perform ctx site).Writes (a.prints ctx calls) := by
  induction a with
  | finish r => exact .ofResult _
  | print text next ih => exact .bind (.print text) fun _ => ih
  | depth next ih => exact .after .depth ih
  | lookup name next ih => exact .continueWith (.lookup name) ih
  | assign name v next ih => exact .continueWith (.assign name v) ih
  | define place name v next ih =>
    exact .after (.place place) fun f => .after (.define f name v) fun _ => ih
  | call f args inner next ih => exact .continueWith (hctx f args inner) fun r => ih _
  | execute place body next ih =>
    refine .after (.place place) fun f => ?_
    exact .continueWith (.inScope (Stmt.execList_writes hctx body) f) ih

end evaluator

theorem Callable.call_writes (host : Host) (bound : Nat) :
    (Context.ofBound host bound).Writes (Callable.prints host bound) := by
  induction bound with
  | zero => exact fun _ _ _ => .exhausted _
  | succ bound ih =>
    intro f args site
    obtain ⟨id, code⟩ := f
    cases code with
    | closure fn scope => exact fn.call_writes ih scope args
    | native fn => exact (host fn args).perform_writes ih site

/-! ## All that a host may run -/

/-- The texts, each followed by a line feed. -/
def asLines (texts : List String) : String := String.join (texts.map (· ++ "\n"))

theorem Buffer.println_eq (b : Buffer) (text : String) :
    b.println text = ⟨b.contents ++ (text ++ "\n")⟩ := by
  rw [println, String.push_eq_append, String.append_assoc]
  rfl

theorem Output.printAll_buffer (texts : List String) (b : Buffer) :
    Output.buffer.printAll texts b = ⟨b.contents ++ asLines texts⟩ := by
  induction texts generalizing b with
  | nil => simp [asLines, printAll]
  | cons text texts ih =>
    have hrest : Output.buffer.printAll (text :: texts) b = ⟨(b.println text).contents ++ asLines texts⟩ :=
      ih (b.println text)
    rw [hrest, Buffer.println_eq]
    simp [asLines, String.append_assoc]

theorem Output.printAll_silent (texts : List String) (b : Buffer) :
    Output.silent.printAll texts b = b := by
  induction texts with
  | nil => rfl
  | cons text texts ih => exact ih

/-- If the run ends, then the buffer has what was in it, followed by what the run prints, line by line. With
other text in the buffer the run ends in the same way and appends the same, and with an output that discards
all text it ends in the same way. All else in the machine that it leaves is the same too. -/
structure Run.Appends (x : Run ε α) (p : Printout) (m : Machine) : Prop where
  appended : ∀ r m', m.output = .buffer → x m = .ended r m' →
    m'.buffer.contents = m.buffer.contents ++ asLines (p m)
  otherBuffer : ∀ b r m', m.output = .buffer → x m = .ended r m' →
    x { m with buffer := b } = .ended r { m' with buffer := ⟨b.contents ++ asLines (p m)⟩ }
  silent : ∀ b r m', x m = .ended r m' →
    x { m with output := .silent, buffer := b } = .ended r { m' with output := .silent, buffer := b }

namespace Run.Writes

variable {x : Run ε α} {p : Printout} {m m' : Machine} {r : Except ε α}

theorem leaves (h : x.Writes p) (hx : x m = .ended r m') :
    m'.output = m.output ∧ m'.buffer = m.output.printAll (p m) m.buffer := by
  have hself : x m = (x m).onto m.output (m.output.printAll (p m) m.buffer) := h m m.output m.buffer
  rw [hx, Outcome.onto, Outcome.ended.injEq] at hself
  exact ⟨by rw [hself.2], by rw [hself.2]⟩

theorem appends (h : x.Writes p) (m : Machine) : x.Appends p m where
  appended r m' hm hx := by rw [(h.leaves hx).2, hm, Output.printAll_buffer]
  otherBuffer b r m' hm hx := by
    calc x { m with buffer := b }
      _ = (x m).onto m.output (m.output.printAll (p m) b) := h m m.output b
      _ = .ended r { m' with output := m.output, buffer := m.output.printAll (p m) b } := by rw [hx]; rfl
      _ = .ended r { m' with buffer := m.output.printAll (p m) b } := by rw [← (h.leaves hx).1]
      _ = .ended r { m' with buffer := ⟨b.contents ++ asLines (p m)⟩ } := by
        rw [hm, Output.printAll_buffer]
  silent b r m' hx := by
    have hrun := h m .silent b
    rwa [hx, Output.printAll_silent] at hrun

end Run.Writes

/-- **Output is only ever appended to, and never read.** A program, a statement, an expression, code in some
frame, or a call of a function that ends has appended to the buffer the texts that it printed on the way,
each followed by a line feed, in the order of the prints. This is so also if it ends with an error or a
return. What was in the buffer before, and whether there is one to print to, makes no other difference. -/
theorem Interpreter.output_appended (host : Host) (bound : Nat) (m : Machine) :
    let ctx := Context.ofBound host bound
    let calls := Callable.prints host bound
    (∀ program, (interpret host bound program).Appends (Stmt.printsList ctx calls program) m) ∧
      (∀ e, (evaluateAndPrint host bound e).Appends
        ((e.prints ctx calls).andThen (evaluate host bound e) fun v => .text v.text) m) ∧
      (∀ s, (execute host bound s).Appends (s.prints ctx calls) m) ∧
      (∀ body f, (executeIn host bound body f).Appends (.inScope f (Stmt.printsList ctx calls body)) m) ∧
      (∀ e, (evaluate host bound e).Appends (e.prints ctx calls) m) ∧
      ∀ f args site, (call host bound f args site).Appends (calls f args site) m := by
  intro ctx calls
  have hctx : ctx.Writes calls := Callable.call_writes host bound
  refine ⟨fun program => ?_, fun e => ?_, fun s => (s.exec_writes hctx).appends m, fun body f => ?_,
    fun e => (e.eval_writes hctx).appends m, fun f args site => (hctx f args site).appends m⟩
  · have hprogram : (interpret host bound program).Writes (Stmt.printsList ctx calls program) := by
      refine .continueWith_nothing (Stmt.execList_writes hctx program) ?_
      rintro (⟨e | v⟩ | _)
      · exact .fail e
      · exact .pure ()
      · exact .pure ()
    exact hprogram.appends m
  · have hshown : (evaluateAndPrint host bound e).Writes
        ((e.prints ctx calls).andThen (evaluate host bound e) fun v => .text v.text) :=
      .bind (e.eval_writes hctx) fun v => .bind_nothing (.print v.text) fun _ => .pure v
    exact hshown.appends m
  · exact Run.Writes.appends (.inScope (Stmt.execList_writes hctx body) f) m

/-- Operands print before the sum of their values is printed, and an error takes nothing back. -/
example :
    let call (x : String) : Expr := .call ⟨2, 0⟩ (.variable ⟨2, 0⟩ "f") [.literal ⟨2, 0⟩ (.string x)]
    let program : Program := [
      .function ⟨1, 0⟩ "f" ["x"] [
        .print ⟨1, 0⟩ (.variable ⟨1, 0⟩ "x"), .return ⟨1, 0⟩ (some (.variable ⟨1, 0⟩ "x"))],
      .print ⟨2, 0⟩ (.binary ⟨2, 0⟩ .add (call "a") (call "b")),
      .print ⟨3, 0⟩ (.unary ⟨3, 0⟩ .negate (call "c"))]
    let host := Native.clockHost (.ofInt 0)
    Stmt.printsList (.ofBound host 9) (Callable.prints host 9) program .initial = ["a", "b", "ab", "c"] := by
  decide +kernel

end Lox
