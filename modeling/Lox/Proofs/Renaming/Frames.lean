import Lox.Proofs.Renaming.Zones
import Lox.Proofs.Run.Simulation
import Mathlib.Logic.Function.Basic

/-!
# Frames inside and outside of a function

Two runs, of a program and of the program in which a parameter `p` is renamed to `q`, make the same
frames with the same links. The frames that calls of the function make are inside, and so are those made
in them. A frame binds in one run what it binds in the other, under the name that the zone asks for
(`Frames.Alike`).

Inside and outside a name other than `p` is called the same, so it does not matter where a look-up ends.
For `p` it does: a look-up that starts inside must not get outside. It does not, as each frame inside
binds `p`, or lies in another one inside that was made before (`Frames.Anchored`).
-/

namespace Lox

/-- The zones of frames, as far as they are known. -/
abbrev Zones := FrameId → Option Zone

/-- A native function that works on its arguments, prints, measures the depth of the current frame, runs
code that mentions no names, and calls native functions only. -/
def Access.nameless : Access where
  depth := True
  runs _ body := Stmt.namesOfList body = []

/-- In runs of a program in which `p` is renamed to `q` each frame corresponds to itself. -/
def Correspondence.renaming (p q : String) : Correspondence where
  toTranslation := .renaming p q
  World := Zones
  later z z' := ∀ f k, z f = some k → z' f = some k
  frames z k f g := f = g ∧ z f = some k
  access := .nameless

namespace Frames

variable {p q : String} {host : Host} {z : Zones} {s t : Frames} {f : FrameId} {k : Zone}

/-! ## Frames that are alike -/

/-- Frames whose zone is known have the same links in both, which lead to frames whose zone is known, and
bind like values under the names of the zone. -/
structure Alike (p q : String) (host : Host) (z : Zones) (s t : Frames) : Prop where
  size : s.all.size = t.all.size
  known : ∀ f k, z f = some k → f < s.all.size
  link : ∀ f k, z f = some k → s.enclosing? f = t.enclosing? f
  closed : ∀ f k g, z f = some k → s.enclosing? f = some g →
    ∃ k', z g = some k' ∧ (k = .outside → k' = .outside)
  value : ∀ f k x, z f = some k → x ≠ q →
    Option.Rel ((Correspondence.renaming p q).Values host z) (s.own? f x) (t.own? f (k.rename p q x))

/-- Each frame inside binds `p`, or lies in a frame inside that was made before. -/
def Anchored (p : String) (z : Zones) (s : Frames) : Prop :=
  ∀ f, z f = some .inside → (s.own? f p).isSome ∨ ∃ g < f, s.enclosing? f = some g ∧ z g = some .inside

theorem Alike.define (h : s.Alike p q host z t) (hf : z f = some k) {x : String} (hx : x ≠ q)
    {v v' : Value} (hv : (Correspondence.renaming p q).Values host z v v') :
    (s.define f x v).Alike p q host z (t.define f (k.rename p q x) v') where
  size := by simpa using h.size
  known g l hg := by simpa using h.known g l hg
  link g l hg := by simpa using h.link g l hg
  closed g l g' hg he := h.closed g l g' hg (by simpa using he)
  value g l y hg hy := by
    have hlt : g < s.all.size := h.known g l hg
    rw [own?_define, own?_define, ← h.size]
    by_cases hbinding : g = f ∧ y = x
    · obtain ⟨rfl, rfl⟩ := hbinding
      cases hf.symm.trans hg
      rw [if_pos ⟨rfl, rfl, hlt⟩, if_pos ⟨rfl, rfl, hlt⟩]
      exact .some hv
    · -- Another name in this frame is called otherwise in the second run too.
      rw [if_neg fun h => hbinding ⟨h.1, h.2.1⟩, if_neg]
      · exact h.value g l y hg hy
      · rintro ⟨rfl, hname, _⟩
        cases hf.symm.trans hg
        exact hbinding ⟨rfl, Zone.rename_injective hy hx hname⟩

theorem Alike.defineAll (h : s.Alike p q host z t) (hf : z f = some k) {names : List String}
    (hnames : q ∉ names) {args args' : List Value}
    (hargs : List.Forall₂ ((Correspondence.renaming p q).Values host z) args args') :
    (s.defineAll f names args).Alike p q host z
      (t.defineAll f (names.map (k.rename p q)) args') := by
  induction names generalizing s t args args' with
  | nil => exact h
  | cons x names ih =>
    rw [List.mem_cons, not_or] at hnames
    cases hargs with
    | nil => exact h
    | cons hv hargs => exact ih (h.define hf (Ne.symm hnames.1) hv) hnames.2 hargs

/-! ### A new frame -/

/-- The zones, with that of the next frame. -/
def extend (s : Frames) (z : Zones) (k : Zone) : Zones := Function.update z s.all.size (some k)

theorem extend_self (s : Frames) (z : Zones) (k : Zone) : s.extend z k s.all.size = some k :=
  Function.update_self ..

theorem extend_cases {g : FrameId} {l : Zone} (h : s.extend z k g = some l) :
    g = s.all.size ∧ l = k ∨ g ≠ s.all.size ∧ z g = some l := by
  by_cases hg : g = s.all.size
  · subst hg
    rw [extend_self] at h
    exact .inl ⟨rfl, (Option.some.inj h).symm⟩
  · rw [extend, Function.update_of_ne hg] at h
    exact .inr ⟨hg, h⟩

theorem Alike.extend (h : s.Alike p q host z t) (k : Zone) {g : FrameId} {l : Zone}
    (hg : z g = some l) : s.extend z k g = some l := by
  rw [Frames.extend, Function.update_of_ne (Nat.ne_of_lt (h.known g l hg)), hg]

theorem Alike.values_extend (h : s.Alike p q host z t) (k : Zone) {v v' : Value}
    (hv : (Correspondence.renaming p q).Values host z v v') :
    (Correspondence.renaming p q).Values host (s.extend z k) v v' :=
  hv.mono (Correspondence.functions_mono fun _ _ _ hfg => ⟨hfg.1, h.extend k hfg.2⟩)

theorem Alike.openScope (h : s.Alike p q host z t) (hf : z f = some k) {k' : Zone}
    (hk : k' = .outside → k = .outside) :
    (s.openScope f).2.Alike p q host (s.extend z k') (t.openScope f).2 where
  size := by simp [h.size]
  known g l hg := by
    rw [size_openScope]
    rcases extend_cases hg with ⟨rfl, _⟩ | ⟨_, hg⟩
    · exact Nat.lt_succ_self _
    · exact Nat.lt_succ_of_lt (h.known g l hg)
  link g l hg := by
    rw [enclosing?_openScope, enclosing?_openScope, ← h.size]
    rcases extend_cases hg with ⟨rfl, _⟩ | ⟨hne, hg⟩
    · rw [if_pos rfl, if_pos rfl]
    · rw [if_neg hne, if_neg hne, h.link g l hg]
  closed g l g' hg he := by
    rw [enclosing?_openScope] at he
    rcases extend_cases hg with ⟨rfl, rfl⟩ | ⟨hne, hg⟩
    · rw [if_pos rfl] at he
      cases he
      exact ⟨k, h.extend l hf, hk⟩
    · rw [if_neg hne] at he
      obtain ⟨l', hl, hout⟩ := h.closed g l g' hg he
      exact ⟨l', h.extend k' hl, hout⟩
  value g l x hg hx := by
    rw [own?_openScope, own?_openScope]
    rcases extend_cases hg with ⟨rfl, rfl⟩ | ⟨_, hg⟩
    · rw [own?_eq_none (Nat.le_refl _), own?_eq_none (Nat.le_of_eq h.size.symm)]
      exact .none
    · exact Value.Like.rel_imp (h.value g l x hg hx) fun _ _ => h.values_extend k'

theorem Alike.enter (h : s.Alike p q host z t) (hf : z f = some k) {params params' : List String}
    {k' : Zone} (henters : (Translation.renaming p q).enters k params params' k')
    {args args' : List Value}
    (hargs : List.Forall₂ ((Correspondence.renaming p q).Values host z) args args') :
    ((s.openScope f).2.defineAll s.all.size params args).Alike p q host (s.extend z k')
      ((t.openScope f).2.defineAll t.all.size params' args') := by
  obtain ⟨hq, rfl, hk⟩ := henters
  have hout : k' = .outside → k = .outside := by
    rintro rfl
    rcases hk with hk | ⟨_, hk⟩
    · exact hk.symm
    · cases hk
  rw [← h.size]
  exact (h.openScope hf hout).defineAll (extend_self s z k') hq
    (hargs.imp fun _ _ => h.values_extend k')

/-- A new frame inside binds `p`, as it is a parameter, or lies in another frame inside. -/
theorem Anchored.enter (ha : Anchored p z s) (h : s.Alike p q host z t) (hf : z f = some k)
    {params params' : List String} {k' : Zone}
    (henters : (Translation.renaming p q).enters k params params' k') {args : List Value}
    (hlength : args.length = params.length) :
    Anchored p (s.extend z k') ((s.openScope f).2.defineAll s.all.size params args) := by
  have hgrows := grows_defineAll (s.openScope f).2 s.all.size params args
  intro g hg
  rcases extend_cases hg with ⟨rfl, rfl⟩ | ⟨hne, hg⟩
  · obtain ⟨_, _, hk | ⟨hp, _⟩⟩ := henters
    · subst hk
      refine .inr ⟨f, h.known f _ hf, ?_, h.extend _ hf⟩
      exact hgrows.enclosing? (by rw [enclosing?_openScope, if_pos rfl])
    · exact .inl (own?_defineAll_isSome (by simp) hp hlength)
  · rcases ha g hg with hown | ⟨g', hlt, he, hg'⟩
    · exact .inl (hgrows.names g p (by rwa [own?_openScope]))
    · refine .inr ⟨g', hlt, hgrows.enclosing? ?_, h.extend k' hg'⟩
      rw [enclosing?_openScope, if_neg hne, he]

theorem Anchored.define (ha : Anchored p z s) (f : FrameId) (x : String) (v : Value) :
    Anchored p z (s.define f x v) := by
  intro g hg
  refine (ha g hg).imp (fun hown => ?_) fun ⟨g', hlt, he, hg'⟩ => ⟨g', hlt, by simpa using he, hg'⟩
  exact (grows_define s f x v).names g p hown

/-! ### Finding names -/

theorem Alike.depth (h : s.Alike p q host z t) (hf : z f = some k) : s.depth f = t.depth f := by
  have hclosed (g g' : FrameId) (hg : ∃ l, z g = some l) (he : s.enclosing? g = some g') :
      ∃ l, z g' = some l := by
    obtain ⟨l, hg⟩ := hg
    obtain ⟨l', hl, _⟩ := h.closed g l g' hg he
    exact ⟨l', hl⟩
  have hlink (g : FrameId) (hg : ∃ l, z g = some l) : s.enclosing? g = t.enclosing? g := by
    obtain ⟨l, hg⟩ := hg
    exact h.link g l hg
  rw [Frames.depth, Frames.depth, chain, chain, climb_congr hlink hclosed ⟨k, hf⟩]

/-- The look-ups of a name go the same way. One of `p` that starts inside ends there, as there are fewer
frames around than it may climb. -/
theorem Alike.find_climb (h : s.Alike p q host z t) (ha : Anchored p z s) {x : String} (hx : x ≠ q)
    {n : Nat} (hf : z f = some k) (hn : k = .inside → x = p → f < n) :
    (Correspondence.renaming p q).Finds host z s t x (k.rename p q x)
      ((s.climb n f).find? fun g => (s.own? g x).isSome)
      ((t.climb n f).find? fun g => (t.own? g (k.rename p q x)).isSome) := by
  induction n generalizing f k with
  | zero => exact .nowhere (Zone.rename_eq_self fun hp => Nat.not_lt_zero f (hn hp.1 hp.2)).symm
  | succ n ih =>
    have hvalue := h.value f k x hf hx
    rw [climb, climb, List.find?_cons, List.find?_cons, ← h.link f k hf]
    generalize hown : s.own? f x = o, hown' : t.own? f (k.rename p q x) = o' at hvalue ⊢
    cases hvalue with
    | some hv => exact .binding ⟨rfl, hf⟩ ⟨hx, rfl⟩ hown hown' hv
    | none =>
      have inner (hp : k = .inside ∧ x = p) :
          ∃ g < f, s.enclosing? f = some g ∧ z g = some .inside := by
        obtain ⟨rfl, rfl⟩ := hp
        exact (ha f hf).resolve_left (by simp [hown])
      cases he : s.enclosing? f with
      | none =>
        refine .nowhere (Zone.rename_eq_self fun hp => ?_).symm
        obtain ⟨g, _, hg, _⟩ := inner hp
        cases he.symm.trans hg
      | some g =>
        -- Either `p` is looked up and the next frame is inside too, or the name is the same everywhere.
        by_cases hp : k = .inside ∧ x = p
        · obtain ⟨g', hlt, hg', hinside⟩ := inner hp
          cases he.symm.trans hg'
          have hbound : f < n + 1 := hn hp.1 hp.2
          rw [hp.1]
          exact ih hinside fun _ _ => Nat.lt_of_lt_of_le hlt (Nat.le_of_lt_succ hbound)
        · obtain ⟨l, hl, hout⟩ := h.closed f k g hf he
          have hinner (hl : l = .inside) : k = .inside := by
            cases k with
            | outside => cases (hout rfl).symm.trans hl
            | inside => rfl
          have hname : k.rename p q x = l.rename p q x := by
            cases l with
            | outside => exact Zone.rename_eq_self hp
            | inside => rw [hinner rfl]
          rw [hname]
          exact ih hl fun hinside hxp => absurd ⟨hinner hinside, hxp⟩ hp

theorem Alike.find (h : s.Alike p q host z t) (ha : Anchored p z s) {x : String} (hx : x ≠ q)
    (hf : z f = some k) :
    (Correspondence.renaming p q).Finds host z s t x (k.rename p q x) (s.owner? f x)
      (t.owner? f (k.rename p q x)) :=
  h.find_climb ha hx hf fun _ _ => Nat.lt_succ_self f

end Frames

/-! ## The simulation -/

/-- The machines of the two runs: their frames are alike, and all else is the same. -/
structure Machine.Renamed (p q : String) (host : Host) (z : Zones) (a b : Machine) : Prop where
  frames : a.frames.Alike p q host z b.frames
  anchored : Frames.Anchored p z a.frames
  globals : a.globals = b.globals
  global : ∃ k, z a.globals = some k
  nextId : a.nextId = b.nextId
  output : a.output = b.output
  buffer : a.buffer = b.buffer

/-- A run of a program goes together with that of the program in which a parameter is renamed. -/
def Simulation.renaming (p q : String) (host : Host) : Simulation host where
  toCorrespondence := .renaming p q
  machines := Machine.Renamed p q host
  refl _ _ _ hf := hf
  trans h h' f k hf := h' f k (h f k hf)
  persists h hfg := ⟨hfg.1, h _ _ hfg.2⟩
  within h _ _ := { h with }
  print h text := { h with buffer := by rw [h.output, h.buffer] }
  number h := ⟨h.nextId, { h with nextId := by rw [h.nextId] }⟩
  enter {z a b f _ k params params' k' args args'} h hfg henters hargs hlength := by
    obtain ⟨rfl, hf⟩ := hfg
    have hlater (g : FrameId) (l : Zone) (hg : z g = some l) : a.frames.extend z k' g = some l :=
      h.frames.extend k' hg
    refine ⟨a.frames.extend z k', hlater, ?_, h.frames.size, a.frames.extend_self z k'⟩
    obtain ⟨l, hl⟩ := h.global
    -- Native functions call no declared functions, so no parameter is without an argument.
    have hlength : args.length = params.length := hlength.resolve_right id
    exact {
      frames := h.frames.enter hf henters hargs
      anchored := h.anchored.enter h.frames hf henters hlength
      globals := h.globals
      global := ⟨l, hlater _ _ hl⟩
      nextId := h.nextId
      output := h.output
      buffer := h.buffer }
  find h hfg hxy := by
    obtain ⟨rfl, hf⟩ := hfg
    obtain ⟨hx, rfl⟩ := hxy
    exact h.frames.find h.anchored hx hf
  define h hfg hxy _ hv := by
    obtain ⟨rfl, hf⟩ := hfg
    obtain ⟨hx, rfl⟩ := hxy
    exact { h with frames := h.frames.define hf hx hv, anchored := h.anchored.define _ _ _ }
  lookups := False.elim
  depth _ _ _ _ _ h hfg := by
    obtain ⟨hcurrent, hf⟩ := hfg
    rw [← hcurrent]
    exact h.frames.depth hf
  place {z a b k} h hfg place := by
    have hplace : ∃ l, (Correspondence.renaming p q).frames z l (place.frame a) (place.frame b) := by
      cases place with
      | current => exact ⟨k, hfg⟩
      | globals =>
        obtain ⟨l, hl⟩ := h.global
        exact ⟨l, h.globals, hl⟩
    obtain ⟨l, hl⟩ := hplace
    refine ⟨l, hl, False.elim, fun body hbody => List.forall₂_same.mpr fun s hs => ?_⟩
    have hnone (x : String) : x ∉ s.names := by
      intro hx
      have hmem : x ∈ Stmt.namesOfList body := Stmt.mem_namesOfList.mpr ⟨s, hs, hx⟩
      rw [show Stmt.namesOfList body = [] from hbody] at hmem
      cases hmem
    exact Stmt.matches_self (hnone q) fun _ => hnone p
  sees h := h

end Lox
