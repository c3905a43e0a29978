import Lox.Proofs.Run.Host
import Lox.Session.Step

/-!
# The commands of a session

What a command does to the machine is a host call or nothing (`Command.final?_run`), but for the commands that
replace the buffer, which touch nothing else. So what is known of host calls holds of sessions: between their
commands they are in the frame of the globals (`Session.answer_atTop`), and they keep the frames that they have
(`Session.Leads.keeps`).
-/

namespace Lox

variable {ε ε' α β : Type}

/-! ## The machine that a run leaves -/

theorem Outcome.map_snd_answer? (o : Outcome ε α) (value : Except ε α → Option Value) :
    (o.answer? value).map Prod.snd = o.final? := by
  cases o <;> rfl

namespace Run

variable {m : Machine}

theorem final?_continueWith {x : Run ε α} {f : Except ε α → Run ε' β}
    (hf : ∀ r m', (f r m').final? = some m') : (x.continueWith f m).final? = (x m).final? := by
  rw [continueWith]
  cases x m with
  | ended r m' => exact hf r m'
  | exhausted => rfl

theorem final?_mapError (f : ε → ε') (x : Run ε α) : (x.mapError f m).final? = (x m).final? :=
  final?_continueWith fun _ _ => rfl

theorem final?_bind {x : Run ε α} {f : α → Run ε β} (hf : ∀ a m', (f a m').final? = some m') :
    ((x >>= f) m).final? = (x m).final? := by
  rw [bind_apply]
  rcases x m with ⟨_ | a, m'⟩ | _
  · rfl
  · exact hf a m'
  · rfl

theorem final?_mapError_bind {x : Run ε α} {g : ε → ε'} {f : α → Run ε' β}
    (hf : ∀ a m', (f a m').final? = some m') : ((x.mapError g >>= f) m).final? = (x m).final? :=
  (final?_bind hf).trans (final?_mapError g x)

end Run

/-! ## Commands -/

namespace Command

variable {host : Host} {bound : Nat} {handles : Array FrameId} {m m' : Machine}

def value? (handles : Array FrameId) (m : Machine) (r : Ref) : Option Value :=
  handles[r.frame]?.bind (m.frames.get? · r.name)

/-- The host call that the command makes, if it makes one. -/
def hostCall? (handles : Array FrameId) (m : Machine) : Command → Option HostCall
  | interpret program => some (.interpret program)
  | report program => some (.interpretAndReport program (.collected ""))
  | quiet program => some (.interpretAndReport program .ignored)
  | echo expr => some (.evaluateAndPrint expr)
  | evaluate expr => some (.evaluate expr)
  | execute stmt => some (.execute stmt)
  | block body frame => handles[frame]?.map (.executeIn body)
  | native tool target frame => do
    let f ← handles[frame]?
    let fn ← Native.Toolkit.find? tool
    return .defineCallable f target (.native fn)
  | builtins frame => handles[frame]?.map .defineBuiltins
  | function fn captured target frame => do
    let outer ← handles[captured]?
    let f ← handles[frame]?
    return .defineCallable f target (.closure fn outer)
  | call name args site frame => do
    let .callable f ← value? handles m ⟨frame, name⟩ | none
    return .call f args site
  | scope frame => handles[frame]?.map .openScope
  | define target value => handles[target.frame]?.map (.define · target.name value)
  | assign target value => handles[target.frame]?.map (.assign · target.name value)
  | copy source target => do
    let v ← value? handles m source
    let f ← handles[target.frame]?
    return .define f target.name v
  | enclosing _ | isSame _ _ | depth _ | describe _ | get _ | info _ | equal _ _ | operate _ _ _ | lines
  | contents | clear | redirect _ => none

theorem final?_frameOf_bind (h : Handle) (f : FrameId → Run Reply α) :
    ((frameOf handles h >>= f) m).final? =
      match handles[h]? with
      | some g => (f g m).final?
      | none => some m := by
  rw [Run.bind_apply, frameOf]
  cases handles[h]? <;> rfl

theorem final?_valueOf_bind (r : Ref) (f : Value → Run Reply α) :
    ((valueOf handles r >>= f) m).final? =
      match value? handles m r with
      | some v => (f v m).final?
      | none => some m := by
  rw [value?, valueOf, bind_assoc, final?_frameOf_bind]
  cases handles[r.frame]? with
  | none => rfl
  | some g =>
    simp only [Run.bind_apply, Run.mapError, Run.continueWith, Run.lookupIn, Option.bind_some]
    cases m.frames.get? g r.name <;> rfl

theorem final?_replyToUnwind (x : Run Unwind Unit) : (replyToUnwind x m).final? = (x m).final? := by
  refine Run.final?_continueWith ?_
  rintro (⟨e | v⟩ | _) m'
  all_goals rfl

theorem final?_eq_leaves (c : HostCall) {x : Run ε α} {value : Except ε α → Option Value}
    (h : c.answer? host bound m = (x m).answer? value) : (x m).final? = c.leaves host bound m := by
  rw [HostCall.leaves, h, Outcome.map_snd_answer?]

theorem final?_interpretAndReport (program : Program) (reports : Reports) :
    (Interpreter.interpretAndReport host bound program reports m : Outcome ε _).final? =
      (HostCall.interpretAndReport program reports).leaves host bound m := by
  have hfinal {ε : Type} : (Interpreter.interpretAndReport host bound program reports m : Outcome ε _).final? =
      (Interpreter.interpret host bound program m).final? := by
    refine Run.final?_continueWith ?_
    rintro (_ | _) m'
    all_goals rfl
  rw [hfinal, ← hfinal]
  exact final?_eq_leaves (.interpretAndReport program reports) rfl

/-- **A command does to the machine what a host call does, or nothing.** -/
theorem final?_run {c : Command} (hc : c.replacesBuffer = false) :
    (c.run host bound handles m).final? =
      match c.hostCall? handles m with
      | some made => made.leaves host bound m
      | none => some m := by
  cases c with
  | interpret program =>
    exact (Run.final?_mapError_bind fun _ _ => rfl).trans (final?_eq_leaves (.interpret program) rfl)
  | report program | quiet program =>
    exact (Run.final?_bind fun _ _ => rfl).trans (final?_interpretAndReport program _)
  | echo expr =>
    exact (Run.final?_mapError_bind fun _ _ => rfl).trans (final?_eq_leaves (.evaluateAndPrint expr) rfl)
  | evaluate expr =>
    exact (Run.final?_mapError_bind fun _ _ => rfl).trans (final?_eq_leaves (.evaluate expr) rfl)
  | execute stmt => exact (final?_replyToUnwind _).trans (final?_eq_leaves (.execute stmt) rfl)
  | block body frame =>
    rw [run, final?_frameOf_bind, hostCall?]
    cases handles[frame]? with
    | none => rfl
    | some f => exact (final?_replyToUnwind _).trans (final?_eq_leaves (.executeIn body f) rfl)
  | native tool target frame =>
    rw [run, final?_frameOf_bind, hostCall?]
    generalize Native.Toolkit.find? tool = found
    cases handles[frame]? with
    | none => rfl
    | some f => cases found <;> rfl
  | builtins frame | scope frame | depth frame | describe frame =>
    rw [run, final?_frameOf_bind, hostCall?]
    cases handles[frame]? <;> rfl
  | function fn captured target frame =>
    rw [run, final?_frameOf_bind, hostCall?]
    cases handles[captured]? with
    | none => rfl
    | some outer =>
      refine (final?_frameOf_bind frame _).trans ?_
      cases handles[frame]? <;> rfl
  | «call» name args site frame =>
    rw [run, final?_valueOf_bind, hostCall?]
    rcases value? handles m ⟨frame, name⟩ with _ | ⟨_ | _ | _ | _ | f⟩
    any_goals rfl
    exact (Run.final?_mapError_bind fun _ _ => rfl).trans (final?_eq_leaves (.call f args site) rfl)
  | enclosing frame =>
    rw [run, final?_frameOf_bind, hostCall?]
    cases handles[frame]? with
    | none => rfl
    | some f =>
      refine (Run.final?_bind ?_).trans rfl
      rintro (_ | g) m'
      all_goals rfl
  | isSame first second =>
    rw [run, final?_frameOf_bind, hostCall?]
    cases handles[first]? with
    | none => rfl
    | some f =>
      refine (final?_frameOf_bind second _).trans ?_
      cases handles[second]? <;> rfl
  | define target value =>
    rw [run, final?_frameOf_bind, hostCall?]
    cases handles[target.frame]? <;> rfl
  | assign target value =>
    rw [run, final?_frameOf_bind, hostCall?]
    cases handles[target.frame]? with
    | none => rfl
    | some f =>
      exact (Run.final?_mapError_bind fun _ _ => rfl).trans (final?_eq_leaves (.assign f target.name value) rfl)
  | get source | info source =>
    rw [run, final?_valueOf_bind, hostCall?]
    cases value? handles m source <;> rfl
  | copy source target =>
    rw [run, final?_valueOf_bind, hostCall?]
    cases value? handles m source with
    | none => rfl
    | some v =>
      refine (final?_frameOf_bind target.frame _).trans ?_
      cases handles[target.frame]? <;> rfl
  | equal first second =>
    rw [run, final?_valueOf_bind, hostCall?]
    cases value? handles m first with
    | none => rfl
    | some v =>
      refine (final?_valueOf_bind second _).trans ?_
      cases value? handles m second <;> rfl
  | operate op first second =>
    rw [run, final?_valueOf_bind, hostCall?]
    cases value? handles m first with
    | none => rfl
    | some v =>
      refine (final?_valueOf_bind second _).trans ?_
      cases value? handles m second with
      | none => rfl
      | some w =>
        dsimp only
        cases op.apply v w <;> rfl
  | lines | contents => rfl
  | clear | redirect _ => cases hc

/-- A command that replaces the buffer touches nothing but what is printed, and where it goes. -/
theorem final?_run_of_replacesBuffer {c : Command} (hc : c.replacesBuffer = true) :
    ∃ output buffer, (c.run host bound handles m).final? = some { m with output, buffer } := by
  cases c with
  | clear => exact ⟨m.output, m.buffer.clear, rfl⟩
  | redirect target => cases target <;> exact ⟨_, _, rfl⟩
  | _ => cases hc

/-- Commands leave the current frame as it is, and lose nothing of the frames. -/
theorem run_keeps {c : Command} (h : (c.run host bound handles m).final? = some m') :
    m'.current = m.current ∧ m'.globals = m.globals ∧ m.frames.Grows m'.frames := by
  cases hc : c.replacesBuffer with
  | true =>
    obtain ⟨output, buffer, hfinal⟩ : ∃ output buffer,
        (c.run host bound handles m).final? = some { m with output, buffer } :=
      final?_run_of_replacesBuffer hc
    cases h.symm.trans hfinal
    exact ⟨rfl, rfl, .refl _⟩
  | false =>
    rw [final?_run hc] at h
    cases hmade : c.hostCall? handles m with
    | none =>
      simp only [hmade, Option.some.injEq] at h
      subst h
      exact ⟨rfl, rfl, .refl _⟩
    | some made =>
      simp only [hmade] at h
      have hevolves := HostCall.evolves h
      exact ⟨hevolves.current, hevolves.globals, hevolves.grows⟩

end Command

/-! ## Sessions -/

namespace Session

variable {host : Host} {bound : Nat} {s s' : Session} {c : Command} {answer : Answer}

/-- The machine of a session is the one that the command leaves, and the answer says where it is. -/
theorem final?_of_step (h : s.step host bound c = some (answer, s')) :
    (c.run host bound s.handles s.machine).final? = some s'.machine ∧
      answer.atTop = (s'.machine.current == s'.machine.globals) := by
  rw [step] at h
  cases hrun : c.run host bound s.handles s.machine with
  | exhausted => simp [hrun] at h
  | ended r m =>
    simp only [hrun, Option.some.injEq, Prod.mk.injEq] at h
    obtain ⟨rfl, rfl⟩ := h
    exact ⟨rfl, rfl⟩

/-- The host comes from the session `s` to another by any commands, whether or not they fail. -/
inductive Leads (host : Host) (s : Session) : Session → Prop
  | refl : Leads host s s
  | next {s' s'' : Session} {bound : Nat} {c : Command} {answer : Answer} (hs : Leads host s s')
    (h : s'.step host bound c = some (answer, s'')) : Leads host s s''

theorem Leads.keeps (h : s.Leads host s') : s'.machine.current = s.machine.current ∧
    s'.machine.globals = s.machine.globals ∧ s.machine.frames.Grows s'.machine.frames := by
  induction h with
  | refl => exact ⟨rfl, rfl, .refl _⟩
  | next _ hstep ih =>
    obtain ⟨hcurrent, hglobals, hgrows⟩ := Command.run_keeps (final?_of_step hstep).1
    exact ⟨hcurrent.trans ih.1, hglobals.trans ih.2.1, ih.2.2.trans hgrows⟩

/-- **Between its commands a session is in the frame of the globals**, and all answers say so. -/
theorem answer_atTop {builtins : Bool} (hs : (start builtins).Leads host s)
    (h : s.step host bound c = some (answer, s')) : answer.atTop := by
  have hstart : (start builtins).machine.current = (start builtins).machine.globals := by
    cases builtins <;> rfl
  obtain ⟨hcurrent, hglobals, _⟩ := (hs.next h).keeps
  rw [(final?_of_step h).2, hcurrent, hglobals, hstart]
  exact beq_self_eq_true _

end Session

end Lox
