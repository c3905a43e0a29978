import Lox.Scope.Frames

/-!
# Chains, growth and guarded frames

What the operations on frames do to chains and look-ups; how frames grow (`Frames.Grows`); and a set of
frames that nothing leads out of and whose function values all have a property (`Frames.Guarded`).
-/

namespace Lox

/-- If the value is a function, then one that satisfies `F`. -/
def Value.Only (F : Callable → Prop) (v : Value) : Prop := ∀ f, v = .callable f → F f

theorem Value.Only.mono {F G : Callable → Prop} {v : Value} (h : v.Only F) (hFG : ∀ f, F f → G f) :
    v.Only G := fun f hf => hFG f (h f hf)

@[simp] theorem Value.only_callable {F : Callable → Prop} {f : Callable} :
    (Value.callable f).Only F ↔ F f := by simp [Value.Only]

@[simp] theorem Value.only_nil {F : Callable → Prop} : Value.nil.Only F := nofun

@[simp] theorem Value.only_bool {F : Callable → Prop} {b : Bool} : (Value.bool b).Only F := nofun

@[simp] theorem Value.only_number {F : Callable → Prop} {x : Number} : (Value.number x).Only F := nofun

@[simp] theorem Value.only_string {F : Callable → Prop} {t : String} : (Value.string t).Only F := nofun

theorem Literal.only_value (F : Callable → Prop) (x : Literal) : x.value.Only F := by
  cases x <;> simp [Literal.value]

theorem Bindings.mem_names {α : Type} {b : Bindings α} {name : String} :
    name ∈ b.names ↔ (b.get? name).isSome := by
  rw [names, get?, List.mem_map, List.lookup_isSome_iff]
  simp only [beq_iff_eq]
  exact exists_congr fun e => and_congr_right fun _ => eq_comm

namespace Frames

variable {s t u : Frames} {f g : FrameId} {name : String}

theorem own?_initial (f : FrameId) (name : String) : initial.own? f name = none := by
  simp only [own?, initial, List.getElem?_toArray]
  cases f <;> rfl

theorem mem_names : name ∈ s.names f ↔ (s.own? f name).isSome := by
  rw [names, own?]
  cases s.all[f]? with
  | none => simp
  | some frame => exact Bindings.mem_names

@[simp] theorem size_openScope (s : Frames) (f : FrameId) :
    (s.openScope f).2.all.size = s.all.size + 1 := by simp [openScope]

@[simp] theorem own?_openScope (s : Frames) (f g : FrameId) (name : String) :
    (s.openScope f).2.own? g name = s.own? g name := by
  simp only [own?, openScope, Array.getElem?_push]
  split
  · next h => subst h; simp [Bindings.get?_empty]
  · rfl

theorem enclosing?_openScope (s : Frames) (f g : FrameId) :
    (s.openScope f).2.enclosing? g = if g = s.all.size then some f else s.enclosing? g := by
  simp only [enclosing?, openScope, Array.getElem?_push]
  split <;> rfl

theorem own?_eq_none (h : s.all.size ≤ f) : s.own? f name = none := by
  simp [own?, Array.getElem?_eq_none h]

theorem enclosing?_eq_none (h : s.all.size ≤ f) : s.enclosing? f = none := by
  simp [enclosing?, Array.getElem?_eq_none h]

theorem lt_size_of_own? {v : Value} (h : s.own? f name = some v) : f < s.all.size := by
  refine Nat.lt_of_not_le fun hf => ?_
  rw [own?_eq_none hf] at h
  cases h

theorem lt_size_of_enclosing? (h : s.enclosing? f = some g) : f < s.all.size := by
  refine Nat.lt_of_not_le fun hf => ?_
  simp [enclosing?, Array.getElem?_eq_none hf] at h

/-! ## The chain of a frame -/

theorem mem_chain_self (s : Frames) (f : FrameId) : f ∈ s.chain f := by simp [chain, climb]

/-- A set of frames that links do not lead out of contains the chains of its members. -/
theorem climb_closed {S : FrameId → Prop} (hS : ∀ f g, S f → s.enclosing? f = some g → S g)
    (hf : S f) (n : Nat) : ∀ g ∈ s.climb n f, S g := by
  induction n generalizing f with
  | zero => simp [climb]
  | succ n ih =>
    intro g hg
    rw [climb] at hg
    rcases List.mem_cons.mp hg with rfl | hg
    · exact hf
    · cases he : s.enclosing? f with
      | none => simp [he] at hg
      | some p =>
        simp only [he] at hg
        exact ih (hS f p hf he) g hg

/-- Chains are the same in frames with the same links. -/
theorem climb_congr {S : FrameId → Prop} (hlink : ∀ f, S f → s.enclosing? f = t.enclosing? f)
    (hS : ∀ f g, S f → s.enclosing? f = some g → S g) (hf : S f) (n : Nat) :
    s.climb n f = t.climb n f := by
  induction n generalizing f with
  | zero => rfl
  | succ n ih =>
    rw [climb, climb, ← hlink f hf]
    cases he : s.enclosing? f with
    | none => rfl
    | some g => simp only [ih (hS f g hf he)]

/-- More steps outwards meet at least as many frames, also when there are more frames. -/
theorem climb_subset (hst : ∀ f g, s.enclosing? f = some g → t.enclosing? f = some g) {n k : Nat}
    (h : n ≤ k) (f : FrameId) : s.climb n f ⊆ t.climb k f := by
  induction n generalizing k f with
  | zero => simp [climb]
  | succ n ih =>
    obtain ⟨k, rfl⟩ : ∃ l, k = l + 1 := ⟨k - 1, by omega⟩
    rw [climb, climb]
    refine List.cons_subset_cons f ?_
    cases he : s.enclosing? f with
    | none => simp
    | some p =>
      rw [hst f p he]
      exact ih (by omega) p

theorem exists_of_get? {v : Value} (h : s.get? f name = some v) :
    ∃ g ∈ s.chain f, s.own? g name = some v :=
  List.exists_of_findSome?_eq_some h

theorem mem_chain_of_owner? (h : s.owner? f name = some g) : g ∈ s.chain f :=
  List.mem_of_find?_eq_some h

theorem own?_of_owner? (h : s.owner? f name = some g) : (s.own? g name).isSome :=
  List.find?_some (p := fun g => (s.own? g name).isSome) h

theorem owner?_isSome_iff :
    (s.owner? f name).isSome ↔ ∃ g ∈ s.chain f, (s.own? g name).isSome := by
  rw [owner?, List.find?_isSome]

theorem get?_isSome_iff : (s.get? f name).isSome ↔ ∃ g ∈ s.chain f, (s.own? g name).isSome := by
  rw [get?, List.findSome?_isSome_iff]

theorem get?_eq_owner?_bind (s : Frames) (f : FrameId) (name : String) :
    s.get? f name = (s.owner? f name).bind fun g => s.own? g name := by
  rw [get?, owner?]
  induction s.chain f with
  | nil => rfl
  | cons g rest ih => cases h : s.own? g name <;> simp [h, ih]

theorem owner?_eq_none_iff : s.owner? f name = none ↔ s.get? f name = none := by
  rw [← Option.not_isSome_iff_eq_none, ← Option.not_isSome_iff_eq_none, owner?_isSome_iff,
    get?_isSome_iff]

/-! ## Growth -/

/-- `t` has the frames of `s`, with the same links and at least the same names, and maybe more. -/
structure Grows (s t : Frames) : Prop where
  size : s.all.size ≤ t.all.size
  link : ∀ f, f < s.all.size → t.enclosing? f = s.enclosing? f
  names : ∀ f name, (s.own? f name).isSome → (t.own? f name).isSome

theorem Grows.refl (s : Frames) : s.Grows s := ⟨Nat.le_refl _, fun _ _ => rfl, fun _ _ h => h⟩

theorem Grows.trans (h : s.Grows t) (h' : t.Grows u) : s.Grows u where
  size := Nat.le_trans h.size h'.size
  link f hf := (h'.link f (Nat.lt_of_lt_of_le hf h.size)).trans (h.link f hf)
  names f name hf := h'.names f name (h.names f name hf)

theorem grows_define (s : Frames) (f : FrameId) (name : String) (value : Value) :
    s.Grows (s.define f name value) where
  size := by simp
  link g _ := by simp
  names g other h := by
    rw [own?_define]
    split
    · rfl
    · exact h

theorem grows_openScope (s : Frames) (f : FrameId) : s.Grows (s.openScope f).2 where
  size := by simp
  link g hg := by rw [enclosing?_openScope, if_neg (Nat.ne_of_lt hg)]
  names g other h := by rwa [own?_openScope]

theorem Grows.enclosing? (h : s.Grows t) (he : s.enclosing? f = some g) :
    t.enclosing? f = some g := by
  rw [h.link f (lt_size_of_enclosing? he), he]

theorem Grows.get?_isSome (h : s.Grows t) (hf : (s.get? f name).isSome) :
    (t.get? f name).isSome := by
  rw [get?_isSome_iff] at hf ⊢
  obtain ⟨g, hg, hname⟩ := hf
  have hchain : g ∈ t.chain f := climb_subset (fun _ _ => h.enclosing?) (Nat.le_refl _) f hg
  exact ⟨g, hchain, h.names g name hname⟩

theorem get?_openScope_isSome (hp : f < s.all.size) (h : (s.get? f name).isSome) :
    ((s.openScope f).2.get? s.all.size name).isSome := by
  rw [get?_isSome_iff] at h ⊢
  obtain ⟨g, hg, hname⟩ := h
  have hgrows := grows_openScope s f
  have houter : g ∈ (s.openScope f).2.climb s.all.size f :=
    climb_subset (fun _ _ => hgrows.enclosing?) (Nat.succ_le_of_lt hp) f hg
  refine ⟨g, ?_, hgrows.names g name hname⟩
  rw [chain, climb, enclosing?_openScope, if_pos rfl]
  exact List.mem_cons_of_mem _ houter

theorem get?_define_isSome (hf : f < s.all.size) (name : String) (value : Value) :
    ((s.define f name value).get? f name).isSome := by
  have hown : ((s.define f name value).own? f name).isSome := by
    rw [own?_define, if_pos ⟨rfl, rfl, hf⟩]
    rfl
  rw [get?_isSome_iff]
  exact ⟨f, mem_chain_self _ f, hown⟩

/-! ## Guarded frames -/

/-- Links do not lead out of `S`, and frames in `S` bind no function values but such as satisfy `F`. -/
structure Guarded (S : FrameId → Prop) (F : Callable → Prop) (s : Frames) : Prop where
  link : ∀ f g, S f → s.enclosing? f = some g → S g
  value : ∀ f name v, S f → s.own? f name = some v → v.Only F

theorem guarded_initial (S : FrameId → Prop) (F : Callable → Prop) : initial.Guarded S F where
  link f g _ h := by
    cases f <;> cases h
  value f name v _ h := by
    rw [own?_initial] at h
    cases h

namespace Guarded

variable {S : FrameId → Prop} {F G : Callable → Prop}

theorem mono (h : s.Guarded S F) (hFG : ∀ f, F f → G f) : s.Guarded S G where
  link := h.link
  value f name v hf hv := (h.value f name v hf hv).mono hFG

theorem get? (h : s.Guarded S F) (hf : S f) {v : Value} (hv : s.get? f name = some v) :
    v.Only F := by
  obtain ⟨g, hg, hown⟩ := exists_of_get? hv
  exact h.value g name v (climb_closed h.link hf _ g hg) hown

theorem owner? (h : s.Guarded S F) (hf : S f) (hg : s.owner? f name = some g) : S g :=
  climb_closed h.link hf _ g (mem_chain_of_owner? hg)

theorem define (h : s.Guarded S F) (f : FrameId) (name : String) {value : Value}
    (hv : value.Only F) : (s.define f name value).Guarded S F where
  link g p hg hp := h.link g p hg (by simpa using hp)
  value g other v hg hown := by
    rw [own?_define] at hown
    split at hown
    · cases hown; exact hv
    · exact h.value g other v hg hown

theorem openScope (h : s.Guarded S F) (hf : S f) : (s.openScope f).2.Guarded S F where
  link g p hg hp := by
    rw [enclosing?_openScope] at hp
    split at hp
    · cases hp; exact hf
    · exact h.link g p hg hp
  value g other v hg hown := h.value g other v hg (by simpa using hown)

end Guarded

end Frames

end Lox
