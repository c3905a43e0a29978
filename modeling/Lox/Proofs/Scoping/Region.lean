import Lox.Proofs.Base.Agreement
import Lox.Proofs.Base.Conduct
import Lox.Proofs.Base.Coupled
import Lox.Proofs.Run.Evolution
import Lox.Proofs.Scoping.Reachability

/-!
# Runs within a region

A region is a set of frames and a set of function values that lead to nothing outside: functions in it
were declared in its frames, and frames in it bind functions in it only. Two machines that are alike in a
region take the same steps there. What they bind and print is the same, and they touch nothing outside.

A function's body brings its own frame, so a call keeps two machines together whichever frames are current
(`Region.Together`). All else needs the same current frame, within the region (`Region.Lockstep`).
-/

namespace Lox

/-- A native function that binds names and runs code in the globals only if `shared`. -/
def Conduct.sharing (shared : Prop) : Conduct where
  reaches place := place = .globals → shared
  runs _ := True

/-- Frames and function values that lead to nothing else. -/
structure Region (host : Host) where
  frames : FrameId → Prop
  functions : Callable → Prop
  /-- The globals are part of the region, so that native functions may bind names there. -/
  shared : Prop
  captured : ∀ f g, functions f → f.Captures g → frames g
  declared : ∀ id fn g, frames g → functions ⟨id, .closure fn g⟩
  native : ∀ f fn, functions f → f.code = .native fn → ∀ args, (∀ v ∈ args, v.Only functions) →
    (host fn args).Obeys (.sharing shared) functions

namespace Region

variable {host : Host} (R : Region host)

/-- Two machines are the same within the region, and what they make next is so as well. -/
structure Alike (a b : Machine) : Prop where
  size : a.frames.all.size = b.frames.all.size
  nextId : a.nextId = b.nextId
  agree : a.frames.Agree R.frames b.frames
  guarded : a.frames.Guarded R.frames R.functions
  fresh : ∀ f, a.frames.all.size ≤ f → R.frames f
  globals : R.shared → a.globals = b.globals ∧ R.frames a.globals

/-- From `m₀` to `m` the texts were printed, and frames outside the region were left alone. -/
structure Since (texts : List String) (m₀ m : Machine) : Prop where
  output : m.output = m₀.output
  printed : m.buffer = m₀.output.printAll texts m₀.buffer
  outside : m.frames.Agree (fun f => ¬ R.frames f) m₀.frames

/-- Machines that come from `a₀` and `b₀`, have printed the same, and are the same in the region. -/
def Together (a₀ b₀ a b : Machine) : Prop :=
  R.Alike a b ∧ ∃ texts, R.Since texts a₀ a ∧ R.Since texts b₀ b

/-- The same, with one current frame, in the region. -/
structure Lockstep (a₀ b₀ a b : Machine) : Prop where
  together : R.Together a₀ b₀ a b
  current : a.current = b.current
  inside : R.frames a.current

variable {R} {a₀ b₀ a b : Machine}

/-! ## Steps -/

namespace Since

variable {texts : List String} {m₀ m : Machine}

theorem refl (m : Machine) : R.Since [] m m := ⟨rfl, rfl, .refl _ _⟩

theorem print (h : R.Since texts m₀ m) (text : String) :
    R.Since (texts ++ [text]) m₀ { m with buffer := m.output.println text m.buffer } where
  output := h.output
  printed := by simp [Output.printAll, h.output, h.printed]
  outside := h.outside

theorem define (h : R.Since texts m₀ m) {f : FrameId} (hf : R.frames f) (name : String)
    (value : Value) : R.Since texts m₀ { m with frames := m.frames.define f name value } where
  output := h.output
  printed := h.printed
  outside := (Frames.agree_define (fun hn => hn hf) _ name value).trans h.outside

theorem openScope (h : R.Since texts m₀ m) (hsize : R.frames m.frames.all.size) (f : FrameId) :
    R.Since texts m₀ { m with frames := (m.frames.openScope f).2 } where
  output := h.output
  printed := h.printed
  outside := (Frames.agree_openScope (fun hn => hn hsize) f).trans h.outside

end Since

namespace Together

theorem print (h : R.Together a₀ b₀ a b) (text : String) :
    R.Together a₀ b₀ { a with buffer := a.output.println text a.buffer }
      { b with buffer := b.output.println text b.buffer } := by
  obtain ⟨⟨hsize, hid, hagree, hguarded, hfresh, hglobals⟩, texts, ha, hb⟩ := h
  exact ⟨⟨hsize, hid, hagree, hguarded, hfresh, hglobals⟩, _, ha.print text, hb.print text⟩

theorem define (h : R.Together a₀ b₀ a b) {f : FrameId} (hf : R.frames f) (name : String)
    {value : Value} (hv : value.Only R.functions) :
    R.Together a₀ b₀ { a with frames := a.frames.define f name value }
      { b with frames := b.frames.define f name value } := by
  obtain ⟨halike, texts, ha, hb⟩ := h
  refine ⟨?_, texts, ha.define hf name value, hb.define hf name value⟩
  exact {
    size := by simp [halike.size]
    nextId := halike.nextId
    agree := halike.agree.define f name value
    guarded := halike.guarded.define f name hv
    fresh := by simpa using halike.fresh
    globals := halike.globals }

theorem openScope (h : R.Together a₀ b₀ a b) {f : FrameId} (hf : R.frames f) :
    R.Together a₀ b₀ { a with frames := (a.frames.openScope f).2 }
      { b with frames := (b.frames.openScope f).2 } := by
  obtain ⟨halike, texts, ha, hb⟩ := h
  have hnew : R.frames a.frames.all.size := halike.fresh _ (Nat.le_refl _)
  refine ⟨?_, texts, ha.openScope hnew f, hb.openScope (halike.size ▸ hnew) f⟩
  exact {
    size := by simp [halike.size]
    nextId := halike.nextId
    agree := halike.agree.openScope halike.size f
    guarded := halike.guarded.openScope hf
    fresh := fun g hg => halike.fresh g (by simp at hg; omega)
    globals := halike.globals }

theorem number (h : R.Together a₀ b₀ a b) :
    R.Together a₀ b₀ { a with nextId := a.nextId + 1 } { b with nextId := b.nextId + 1 } := by
  obtain ⟨halike, texts, ha, hb⟩ := h
  refine ⟨?_, texts, ⟨ha.output, ha.printed, ha.outside⟩, ⟨hb.output, hb.printed, hb.outside⟩⟩
  exact { halike with nextId := by simp [halike.nextId] }

theorem within (h : R.Together a₀ b₀ a b) (f g : FrameId) :
    R.Together a₀ b₀ { a with current := f } { b with current := g } := by
  obtain ⟨⟨hsize, hid, hagree, hguarded, hfresh, hglobals⟩, texts, ha, hb⟩ := h
  exact ⟨⟨hsize, hid, hagree, hguarded, hfresh, hglobals⟩, texts,
    ⟨ha.output, ha.printed, ha.outside⟩, ⟨hb.output, hb.printed, hb.outside⟩⟩

end Together

theorem Together.get? (h : R.Together a₀ b₀ a b) {f : FrameId} (hf : R.frames f) (name : String) :
    a.frames.get? f name = b.frames.get? f name := h.1.agree.get? h.1.guarded.link hf name

theorem Together.owner? (h : R.Together a₀ b₀ a b) {f : FrameId} (hf : R.frames f) (name : String) :
    a.frames.owner? f name = b.frames.owner? f name := h.1.agree.owner? h.1.guarded.link hf name

theorem Lockstep.depth (h : R.Lockstep a₀ b₀ a b) :
    a.frames.depth a.current = b.frames.depth b.current := by
  have halike := h.together.1
  rw [← h.current]
  exact halike.agree.depth halike.guarded.link h.inside

end Region

/-! ## Runs -/

namespace Run.Agrees

variable {host : Host} {R : Region host} {a₀ b₀ : Machine} {ε α : Type} {E : ε → Prop} {V : α → Prop}

theorem print (text : String) :
    (Run.print text : Run ε Unit).Agrees (R.Together a₀ b₀) E fun _ => True :=
  fun _ _ h => ⟨h.print text, rfl, trivial⟩

theorem define {f : FrameId} (hf : R.frames f) (name : String) {v : Value} (hv : v.Only R.functions) :
    (Run.define f name v : Run ε Unit).Agrees (R.Together a₀ b₀) E fun _ => True :=
  fun _ _ h => ⟨h.define hf name hv, rfl, trivial⟩

theorem openScope {f : FrameId} (hf : R.frames f) :
    (Run.openScope f : Run ε FrameId).Agrees (R.Together a₀ b₀) E R.frames :=
  fun _ _ h => ⟨h.openScope hf, h.1.size, h.1.fresh _ (Nat.le_refl _)⟩

theorem newCallable {code : Code} (hcode : ∀ id, R.functions ⟨id, code⟩) :
    (Run.newCallable code : Run ε Callable).Agrees (R.Together a₀ b₀) E R.functions :=
  fun a _ h => ⟨h.number, congrArg (Callable.mk · code) h.1.nextId, hcode a.nextId⟩

theorem bindAll {f : FrameId} (hf : R.frames f) (names : List String) {vs : List Value}
    (hvs : ∀ v ∈ vs, v.Only R.functions) :
    (Run.bindAll f names vs : Run ε Unit).Agrees (R.Together a₀ b₀) E fun _ => True :=
  Run.bindAll_induction (.pure trivial) fun name v hv _ hx =>
    .bind (.define hf name (hvs v hv)) fun _ _ => hx

theorem lookupIn {f : FrameId} (hf : R.frames f) (name : String) :
    (Run.lookupIn f name).Agrees (R.Together a₀ b₀) (· = .undefinedVariable name)
      (Value.Only R.functions) := by
  intro a b h
  simp only [Run.lookupIn, ← h.get? hf name]
  split
  · next v hv => exact ⟨h, rfl, h.1.guarded.get? hf hv⟩
  · exact ⟨h, rfl, rfl⟩

theorem assignIn {f : FrameId} (hf : R.frames f) (name : String) {v : Value}
    (hv : v.Only R.functions) :
    (Run.assignIn f name v).Agrees (R.Together a₀ b₀) (· = .undefinedVariable name)
      fun _ => True := by
  intro a b h
  simp only [Run.assignIn, ← h.owner? hf name]
  split
  · next g hg => exact ⟨h.define (h.1.guarded.owner? hf hg) name hv, trivial, trivial⟩
  · exact ⟨h, rfl, rfl⟩

/-- A run that keeps machines together keeps them in lockstep, as it comes back to the current frame. -/
theorem lockstep {W : α → Prop} {x : Run ε α} (h : x.Agrees (R.Together a₀ b₀) E V)
    (hx : x.Evolving E W) : x.Agrees (R.Lockstep a₀ b₀) E V := by
  intro a b hab
  have ha := hx.all a
  have hb := hx.all b
  obtain ⟨r, a', s, b', hxa, hxb, h⟩ | ⟨hxa, hxb⟩ := (h a b hab.together).cases
  · rw [hxa] at ha ⊢
    rw [hxb] at hb ⊢
    have hcurrent : a'.current = b'.current := by
      rw [ha.current, hb.current, hab.current]
    have hinside : R.frames a'.current := by
      rw [ha.current]
      exact hab.inside
    exact ⟨⟨h.1, hcurrent, hinside⟩, h.2⟩
  · rw [hxa, hxb]
    trivial

/-- Within a frame of the region machines that are together are in lockstep. -/
theorem inScope {f : FrameId} (hf : R.frames f) {x : Run ε α}
    (hx : x.Agrees (R.Lockstep a₀ b₀) E V) : (Run.inScope f x).Agrees (R.Together a₀ b₀) E V := by
  intro a b hab
  refine .inScope ((hx _ _ ⟨hab.within f f, rfl, hf⟩).mono fun r a' s b' h => ?_)
  exact ⟨h.1.together.within a.current b.current, h.2⟩

theorem inScope_lockstep {f : FrameId} (hf : R.frames f) {x : Run ε α}
    (hx : x.Agrees (R.Lockstep a₀ b₀) E V) : (Run.inScope f x).Agrees (R.Lockstep a₀ b₀) E V := by
  intro a b hab
  refine .inScope ((hx _ _ ⟨hab.together.within f f, rfl, hf⟩).mono fun r a' s b' h => ?_)
  exact ⟨⟨h.1.together.within a.current b.current, hab.current, hab.inside⟩, h.2⟩

end Run.Agrees

/-! ## The judgement -/

/-- Runs within the region go the same way from machines in lockstep. -/
def Region.judgement {host : Host} (R : Region host) (a₀ b₀ : Machine) : Judgement host where
  holds E V x := x.Agrees (R.Lockstep a₀ b₀) E V
  nodes _ := True
  errors _ := True
  functions := R.functions
  frames := R.frames
  conduct := .sharing R.shared
  ofResult := .ofResult
  exhausted := .exhausted
  continueWith := .continueWith
  inScope hf hx := .inScope_lockstep hf hx
  print text := .lockstep (.print text) (.print text)
  current := .read fun _ _ h => ⟨h.current, h.inside⟩
  depth := .read fun _ _ h => ⟨h.depth, trivial⟩
  place {_ _ p} hp := .read fun a b h => by
    cases p with
    | current => exact ⟨h.current, h.inside⟩
    | globals => exact h.together.1.globals (hp rfl)
  openScope hf := .lockstep (.openScope hf) (.openScope _)
  define hf name _ hv := .lockstep (.define hf name hv) (.define _ name _)
  newCallable hcode := .lockstep (.newCallable hcode) (.newCallable _)
  lookupIn hf name := .lockstep (.lookupIn hf name) (.lookupIn _ name)
  assignIn hf name _ hv := .lockstep (.assignIn hf name hv) (.assignIn _ name _)
  raised _ _ := trivial
  failed _ _ := trivial
  heard _ := trivial
  executed _ _ _ := trivial
  declared _ hscope id := R.declared id _ _ hscope
  captured hf hcode := ⟨R.captured _ _ hf ⟨_, hcode⟩, fun _ _ => trivial⟩
  native hf hcode hargs := R.native _ _ hf hcode _ hargs

end Lox
