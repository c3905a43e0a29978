import Lox.Proofs.Run.Invariant
import Lox.Proofs.Run.Simulation

/-!
# What a host is given

A host finds function values in the answers to its calls, and in the frames. It can hand them on in later calls,
and it has no others (`Machine.Found`).

An invariant that is kept by the steps of runs holds of all machines and all function values that a host
comes to (`Machine.Found.known`).
-/

namespace Lox

namespace Machine

def Binds (m : Machine) (c : Callable) : Prop :=
  ∃ f name, m.frames.own? f name = some (.callable c)

/-- A machine that a host comes to from a new one, with the function values that it has found on the way:
those that were bound in a frame, and those that it was given. It names no others, and only frames that
exist. The calls may fail.

A run is made of runs of its parts, in the frames of its blocks and calls. A host can make these one after
the other, so it comes to all points of a run (`Point.Reaches.known`). -/
inductive Found (host : Host) : Machine → (Callable → Prop) → Prop
  | new (output : Output) : Found host { Machine.initial with output } fun _ => False
  | within {m : Machine} {found : Callable → Prop} (hm : Found host m found) {f : FrameId}
    (hf : f < m.frames.all.size) : Found host { m with current := f } found
  | next {m m' : Machine} {found : Callable → Prop} (hm : Found host m found) (bound : Nat)
    (call : HostCall) (hcall : call.Mentions (· < m.frames.all.size) found) {o : Option Value}
    (h : call.answer? host bound m = some (o, m')) :
    Found host m' fun c => found c ∨ m'.Binds c ∨ o = some (.callable c)

end Machine

/-- To name less is no obstacle. -/
theorem HostCall.Mentions.mono {F F' : FrameId → Prop} {C C' : Callable → Prop} {c : HostCall}
    (h : c.Mentions F C) (hF : ∀ f, F f → F' f) (hC : ∀ g, C g → C' g) : c.Mentions F' C' := by
  cases c with
  | execute _ | evaluate _ | interpret _ | interpretAndReport _ _ | evaluateAndPrint _ => trivial
  | executeIn _ f | openScope f | defineBuiltins f => exact hF f h
  | call f args _ => exact ⟨hC f h.1, fun v hv => (h.2 v hv).mono hC⟩
  | define f _ v | assign f _ v => exact ⟨hF f h.1, h.2.mono hC⟩
  | defineCallable f _ code => exact ⟨hF f h.1, fun fn scope hcode => hF scope (h.2 fn scope hcode)⟩

namespace Machine.Found

variable {host : Host} {m : Machine} {found : Callable → Prop}

theorem of_binds (h : m.Found host found) {c : Callable} (hc : m.Binds c) : found c := by
  induction h with
  | new output =>
    obtain ⟨f, name, hown⟩ := hc
    cases (Frames.own?_initial f name).symm.trans hown
  | within _ _ ih => exact ih hc
  | next _ _ _ _ _ _ => exact .inr (.inl hc)

/-- **What a host comes to is known**, as far as an invariant knows the new machine and all frames that
exist. -/
theorem known (h : m.Found host found) (I : Invariant host) {w₀ : I.World}
    (hnew : ∀ output, I.machines w₀ { Machine.initial with output })
    (hexist : ∀ w (m : Machine) f, I.machines w m → f < m.frames.all.size → I.frames w f) :
    ∃ w, I.machines w m ∧ ∀ c, found c → I.functions w c := by
  induction h with
  | new output => exact ⟨w₀, hnew output, fun _ => False.elim⟩
  | within _ hf ih =>
    obtain ⟨w, hm, hfound⟩ := ih
    exact ⟨w, I.within hm (hexist w _ _ hm hf), hfound⟩
  | next _ bound call hcall hend ih =>
    obtain ⟨w, hm, hfound⟩ := ih
    have hmentions := hcall.mono (fun f => hexist w _ f hm) hfound
    obtain ⟨w', hw, hm', ho⟩ := I.answers hm hmentions hend
    refine ⟨w', hm', ?_⟩
    rintro c (hc | ⟨f, name, hown⟩ | rfl)
    · exact I.functions_later hw (hfound c hc)
    · exact I.value hm' (hexist w' _ f hm' (Frames.lt_size_of_own? hown)) hown c rfl
    · exact ho _ rfl c rfl

end Machine.Found

end Lox
