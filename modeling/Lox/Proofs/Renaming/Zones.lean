import Lox.Proofs.Base.Matching
import Lox.Proofs.Renaming.Syntax

/-!
# Inside and outside of a function

When the parameter `p` of a function is renamed to `q`, what a name is called afterwards depends on where
it stands. There are two zones: inside, which is the body of the function, with all that is declared
there; and outside. Inside, `p` is called `q`. All other names stay.

A program in which a parameter is renamed matches the program as it was, outside
(`Stmt.RenamesParam.matches`).
-/

namespace Lox

/-- Where code stands. -/
inductive Zone where
  | outside
  /-- In the body of the function whose parameter is renamed. -/
  | inside
  deriving DecidableEq

/-- What a name is called in the zone, after `p` is renamed to `q`. -/
def Zone.rename (p q : String) : Zone → String → String
  | outside => id
  | inside => substitute p q

namespace Zone

variable {p q : String}

theorem rename_eq_self {k : Zone} {x : String} (h : ¬ (k = .inside ∧ x = p)) :
    k.rename p q x = x := by
  cases k with
  | outside => rfl
  | inside => exact if_neg fun hx => h ⟨rfl, hx⟩

/-- As long as the new name is not in use, names that were different stay so. -/
theorem rename_injective {x y : String} (hx : x ≠ q) (hy : y ≠ q) {k : Zone}
    (h : k.rename p q x = k.rename p q y) : x = y := by
  cases k with
  | outside => exact h
  | inside =>
    simp only [rename, substitute] at h
    split at h
    · next hxp =>
      split at h
      · next hyp => rw [hxp, hyp]
      · exact absurd h.symm hy
    · split at h
      · exact absurd h hx
      · exact h

end Zone

/-- The translation that renames `p` to `q` inside. A function whose parameter is called `p` may lead
inside, and from there nothing leads back. -/
def Translation.renaming (p q : String) : Translation where
  Kind := Zone
  names k x y := x ≠ q ∧ y = k.rename p q x
  declares _ := True
  enters k params params' k' :=
    q ∉ params ∧ params' = params.map (k'.rename p q) ∧ (k' = k ∨ p ∈ params ∧ k' = .inside)
  arity := by
    rintro _ _ _ _ ⟨_, rfl, _⟩
    rw [List.length_map]
  positions := (· = ·)

/-! ## Trees match -/

theorem Stmt.functions_subset_names (s : Stmt) : s.functions ⊆ s.names := by
  have list {ss : List Stmt} (ih : ∀ s ∈ ss, s.functions ⊆ s.names) :
      Stmt.functionsOfList ss ⊆ Stmt.namesOfList ss := by
    intro x hx
    obtain ⟨s, hs, hx⟩ := Stmt.mem_functionsOfList.mp hx
    exact Stmt.mem_namesOfList.mpr ⟨s, hs, ih s hs hx⟩
  induction s with
  | expression pos e => simp [Stmt.functions]
  | print pos e => simp [Stmt.functions]
  | declare pos x initial => simp [Stmt.functions]
  | block pos body ih => exact list ih
  | cond pos test onTrue onFalse iht ihf =>
    have hfalse : Stmt.functionsOfOption onFalse ⊆ Stmt.namesOfOption onFalse := by
      cases onFalse with
      | none => exact fun _ hx => hx
      | some s => exact ihf s rfl
    intro x hx
    rcases List.mem_append.mp hx with hx | hx
    · simp [Stmt.names, iht hx]
    · simp [Stmt.names, hfalse hx]
  | loop pos test body ih =>
    intro x hx
    simp [Stmt.names, ih hx]
  | function pos name params body ih =>
    refine List.cons_subset_cons name fun x hx => ?_
    exact List.mem_append_right _ (list ih hx)
  | ret pos value => simp [Stmt.functions]

section trees

variable {p q : String}

theorem Expr.matches_rename {e : Expr} (hq : q ∉ e.names) (k : Zone) :
    e.Matches (.renaming p q) k (e.rename (k.rename p q)) := by
  induction e with
  | literal pos x => exact .literal pos pos x
  | group pos e ih => exact .groupLeft pos (.groupRight pos (ih hq))
  | unary pos op e ih => exact .unary op rfl (ih hq)
  | binary pos op l r ihl ihr =>
    rw [Expr.names, List.mem_append, not_or] at hq
    exact .binary op rfl (ihl hq.1) (ihr hq.2)
  | logical pos op l r ihl ihr =>
    rw [Expr.names, List.mem_append, not_or] at hq
    exact .logical pos pos op (ihl hq.1) (ihr hq.2)
  | var pos x =>
    rw [Expr.names, List.mem_singleton] at hq
    exact .var rfl ⟨Ne.symm hq, rfl⟩
  | assign pos x e ih =>
    rw [Expr.names, List.mem_cons, not_or] at hq
    exact .assign rfl ⟨Ne.symm hq.1, rfl⟩ (ih hq.2)
  | call pos callee args ihf ihargs =>
    rw [Expr.names, List.mem_append, not_or] at hq
    have hargs (e : Expr) (he : e ∈ args) : e.Matches (.renaming p q) k (e.rename (k.rename p q)) :=
      ihargs e he fun hx => hq.2 (Expr.mem_namesOfList.mpr ⟨e, he, hx⟩)
    rw [Expr.rename, Expr.renameList_eq_map]
    exact .call_all rfl (ihf hq.1) (List.forall₂_map_right_iff.mpr (List.forall₂_same.mpr hargs))

theorem Expr.rel_matches_rename {o : Option Expr} (hq : q ∉ Expr.namesOfOption o) (k : Zone) :
    Option.Rel (Expr.Matches (.renaming p q) k) o (o.map (Expr.rename (k.rename p q))) := by
  cases o with
  | none => exact .none
  | some e => exact .some (Expr.matches_rename hq k)

theorem Stmt.matches_renameList {k : Zone} {ss : List Stmt} (h : ∀ s ∈ ss, q ∉ s.names →
      (k = .inside → p ∉ s.functions) → s.Matches (.renaming p q) k (s.rename (k.rename p q)))
    (hq : q ∉ Stmt.namesOfList ss) (hp : k = .inside → p ∉ Stmt.functionsOfList ss) :
    List.Forall₂ (Stmt.Matches (.renaming p q) k) ss (Stmt.renameList (k.rename p q) ss) := by
  rw [Stmt.renameList_eq_map]
  refine List.forall₂_map_right_iff.mpr (List.forall₂_same.mpr fun s hs => h s hs ?_ fun hk => ?_)
  · exact fun hx => hq (Stmt.mem_namesOfList.mpr ⟨s, hs, hx⟩)
  · exact fun hx => hp hk (Stmt.mem_functionsOfList.mpr ⟨s, hs, hx⟩)

theorem Stmt.matches_rename {s : Stmt} (hq : q ∉ s.names) {k : Zone}
    (hp : k = .inside → p ∉ s.functions) : s.Matches (.renaming p q) k (s.rename (k.rename p q)) := by
  induction s with
  | expression pos e => exact .expression pos pos (Expr.matches_rename hq k)
  | print pos e => exact .print pos pos (Expr.matches_rename hq k)
  | declare pos x initial =>
    rw [Stmt.names, List.mem_cons, not_or] at hq
    exact .declare pos pos trivial ⟨Ne.symm hq.1, rfl⟩ (Expr.rel_matches_rename hq.2 k)
  | block pos body ih =>
    exact .block_all pos pos ⟨List.not_mem_nil, rfl, .inl rfl⟩ (Stmt.matches_renameList ih hq hp)
  | cond pos test onTrue onFalse iht ihf =>
    rw [Stmt.names, List.mem_append, List.mem_append, not_or, not_or] at hq
    simp only [Stmt.functions, List.mem_append, not_or] at hp
    have htest := Expr.matches_rename (p := p) hq.1 k
    have htrue := iht hq.2.1 fun hk => (hp hk).1
    cases onFalse with
    | none => exact .ifThen pos pos htest htrue
    | some s => exact .ifElse pos pos htest htrue (ihf s rfl hq.2.2 fun hk => (hp hk).2)
  | loop pos test body ih =>
    rw [Stmt.names, List.mem_append, not_or] at hq
    exact .loop pos pos (Expr.matches_rename hq.1 k) (ih hq.2 hp)
  | function pos name params body ih =>
    simp only [Stmt.names, List.mem_cons, List.mem_append, not_or] at hq
    simp only [Stmt.functions, List.mem_cons, not_or] at hp
    have hname : k.rename p q name = name :=
      Zone.rename_eq_self fun hk => (hp hk.1).1 hk.2.symm
    rw [Stmt.rename, hname]
    refine .function_all pos pos trivial ⟨Ne.symm hq.1, hname.symm⟩ trivial ⟨hq.2.1, rfl, .inl rfl⟩ ?_
    exact Stmt.matches_renameList ih hq.2.2 fun hk => (hp hk).2
  | ret pos value => exact .ret pos pos (Expr.rel_matches_rename hq k)

theorem Stmt.matches_renameAll {ss : List Stmt} (hq : q ∉ Stmt.namesOfList ss) {k : Zone}
    (hp : k = .inside → p ∉ Stmt.functionsOfList ss) :
    List.Forall₂ (Stmt.Matches (.renaming p q) k) ss (Stmt.renameList (k.rename p q) ss) :=
  Stmt.matches_renameList (fun _ _ hq hp => Stmt.matches_rename hq hp) hq hp

theorem Expr.matches_self {e : Expr} (hq : q ∉ e.names) :
    e.Matches (.renaming p q) .outside e := by
  have hmatches := Expr.matches_rename (p := p) hq .outside
  have hself : e.rename (Zone.outside.rename p q) = e := Expr.rename_eq_self fun _ _ => rfl
  rwa [hself] at hmatches

theorem Stmt.matches_self {s : Stmt} (hq : q ∉ s.names) {k : Zone}
    (hp : k = .inside → p ∉ s.names) : s.Matches (.renaming p q) k s := by
  have hmatches := Stmt.matches_rename hq fun hk hx => hp hk (s.functions_subset_names hx)
  have hself : s.rename (k.rename p q) = s := by
    refine Stmt.rename_eq_self fun x hx => Zone.rename_eq_self ?_
    rintro ⟨hk, rfl⟩
    exact hp hk hx
  rwa [hself] at hmatches

/-- A change of one statement is a change of the list. -/
theorem Stmt.matches_among {before after : List Stmt} {s s' : Stmt}
    (hq : q ∉ Stmt.namesOfList (before ++ s :: after))
    (h : q ∉ s.names → s.Matches (.renaming p q) .outside s') :
    List.Forall₂ (Stmt.Matches (.renaming p q) .outside) (before ++ s :: after)
      (before ++ s' :: after) := by
  have hmem {t : Stmt} (ht : t ∈ before ++ s :: after) : q ∉ t.names :=
    fun hx => hq (Stmt.mem_namesOfList.mpr ⟨t, ht, hx⟩)
  have hself (ss : List Stmt) (hss : ss ⊆ before ++ s :: after) :
      List.Forall₂ (Stmt.Matches (.renaming p q) .outside) ss ss :=
    List.forall₂_same.mpr fun t ht => Stmt.matches_self (hmem (hss ht)) nofun
  refine List.rel_append (hself before (by simp)) (.cons (h (hmem (by simp))) (hself after ?_))
  intro t ht
  simp [ht]

theorem Stmt.RenamesParam.matches {s s' : Stmt} (h : s.RenamesParam p q s') (hq : q ∉ s.names) :
    s.Matches (.renaming p q) .outside s' := by
  induction h with
  | here pos name hparam hbody =>
    simp only [Stmt.names, List.mem_cons, List.mem_append, not_or] at hq
    have henters : (Translation.renaming p q).enters .outside _ _ .inside :=
      ⟨hq.2.1, rfl, .inr ⟨hparam, rfl⟩⟩
    refine .function_all pos pos trivial ⟨Ne.symm hq.1, rfl⟩ trivial henters ?_
    exact Stmt.matches_renameAll hq.2.2 fun _ => hbody
  | block pos before after _ ih =>
    exact .block_all pos pos ⟨List.not_mem_nil, rfl, .inl rfl⟩ (Stmt.matches_among hq ih)
  | onTrue pos test onFalse _ ih =>
    rw [Stmt.names, List.mem_append, List.mem_append, not_or, not_or] at hq
    have htest := Expr.matches_self (p := p) hq.1
    cases onFalse with
    | none => exact .ifThen pos pos htest (ih hq.2.1)
    | some t => exact .ifElse pos pos htest (ih hq.2.1) (Stmt.matches_self hq.2.2 fun hk => by cases hk)
  | onFalse pos test onTrue _ ih =>
    rw [Stmt.names, List.mem_append, List.mem_append, not_or, not_or] at hq
    have htrue := Stmt.matches_self (p := p) (k := .outside) hq.2.1 fun hk => by cases hk
    exact .ifElse pos pos (Expr.matches_self hq.1) htrue (ih hq.2.2)
  | loop pos test _ ih =>
    rw [Stmt.names, List.mem_append, not_or] at hq
    exact .loop pos pos (Expr.matches_self hq.1) (ih hq.2)
  | function pos name params before after _ ih =>
    simp only [Stmt.names, List.mem_cons, List.mem_append, not_or] at hq
    have henters : (Translation.renaming p q).enters .outside params params .outside :=
      ⟨hq.2.1, by simp [Zone.rename], .inl rfl⟩
    refine .function_all pos pos trivial ⟨Ne.symm hq.1, rfl⟩ trivial henters ?_
    exact Stmt.matches_among hq.2.2 ih

end trees

end Lox
