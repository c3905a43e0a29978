import Lox.Syntax.Printer
import Lox.Proofs.Base.Relabel
import Lox.Proofs.Printing.Sexp

/-!
# Trees as S-expressions

A printed tree is the text of an S-expression (`Expr.sexp`, `Stmt.sexp`). The tree can be taken out of it again,
but for positions and the bits of NaNs: two trees have one S-expression if and only if there is no other
difference between them (`Expr.sexp_eq_iff`, `Stmt.sexp_eq_iff`). The head and the length of a list tell which
constructor it is of, and only the length does that for the two uses of the minus sign.
-/

namespace Lox

/-! ## Bare trees -/

namespace Number

/-- One NaN for all. -/
def withoutPayload (x : Number) : Number := if x.isNaN then ⟨infinityBits + 1⟩ else x

variable {x y : Number}

theorem withoutPayload_eqUpToNaN (x : Number) : x.withoutPayload.EqUpToNaN x := by
  unfold withoutPayload
  split
  · next hx => exact .inr ⟨by decide, hx⟩
  · exact .refl x

theorem withoutPayload_eq_iff : x.withoutPayload = y.withoutPayload ↔ x.EqUpToNaN y := by
  constructor
  · intro h
    have hx := x.withoutPayload_eqUpToNaN
    have hy := y.withoutPayload_eqUpToNaN
    -- Equality of texts is symmetric and transitive.
    rw [← write_eq_iff] at hx hy ⊢
    rw [← hx, ← hy, h]
  · rintro (rfl | ⟨hx, hy⟩)
    · rfl
    · rw [withoutPayload, withoutPayload, if_pos hx, if_pos hy]

end Number

def Literal.bare (x : Literal) : Literal := x.relabel Number.withoutPayload

/-- The expression without positions and the bits of NaNs. -/
def Expr.bare (e : Expr) : Expr := e.relabel (fun _ => default) Number.withoutPayload

def Stmt.bare (s : Stmt) : Stmt := s.relabel (fun _ => default) Number.withoutPayload

@[simp]
theorem Expr.bare_literal (pos : Pos) (x : Literal) : (literal pos x).bare = .literal default x.bare := rfl

@[simp]
theorem Expr.bare_group (pos : Pos) (e : Expr) : (group pos e).bare = .group default e.bare := rfl

@[simp]
theorem Expr.bare_unary (pos : Pos) (op : UnaryOp) (e : Expr) :
    (unary pos op e).bare = .unary default op e.bare := rfl

@[simp]
theorem Expr.bare_binary (pos : Pos) (op : BinaryOp) (l r : Expr) :
    (binary pos op l r).bare = .binary default op l.bare r.bare := rfl

@[simp]
theorem Expr.bare_logical (pos : Pos) (op : LogicalOp) (l r : Expr) :
    (logical pos op l r).bare = .logical default op l.bare r.bare := rfl

@[simp]
theorem Expr.bare_variable (pos : Pos) (x : String) : («variable» pos x).bare = .variable default x := rfl

@[simp]
theorem Expr.bare_assign (pos : Pos) (x : String) (e : Expr) :
    (assign pos x e).bare = .assign default x e.bare := rfl

@[simp]
theorem Expr.bare_call (pos : Pos) (callee : Expr) (args : List Expr) :
    (call pos callee args).bare = .call default callee.bare (args.map Expr.bare) :=
  congrArg (Expr.call default callee.bare) (Expr.relabelList_eq_map _ _ args)

@[simp]
theorem Stmt.bare_expression (pos : Pos) (e : Expr) :
    (expression pos e).bare = .expression default e.bare := rfl

@[simp]
theorem Stmt.bare_print (pos : Pos) (e : Expr) : (print pos e).bare = .print default e.bare := rfl

@[simp]
theorem Stmt.bare_declare (pos : Pos) (x : String) (initial : Option Expr) :
    (declare pos x initial).bare = .declare default x (initial.map Expr.bare) := rfl

@[simp]
theorem Stmt.bare_block (pos : Pos) (body : List Stmt) :
    (block pos body).bare = .block default (body.map Stmt.bare) :=
  congrArg (Stmt.block default) (Stmt.relabelList_eq_map _ _ body)

@[simp]
theorem Stmt.bare_cond (pos : Pos) (test : Expr) (onTrue : Stmt) (onFalse : Option Stmt) :
    (cond pos test onTrue onFalse).bare =
      .cond default test.bare onTrue.bare (onFalse.map Stmt.bare) :=
  congrArg (Stmt.cond default test.bare onTrue.bare) (Stmt.relabelOption_eq_map _ _ onFalse)

@[simp]
theorem Stmt.bare_loop (pos : Pos) (test : Expr) (body : Stmt) :
    (loop pos test body).bare = .loop default test.bare body.bare := rfl

@[simp]
theorem Stmt.bare_function (pos : Pos) (name : String) (params : List String) (body : List Stmt) :
    (function pos name params body).bare = .function default name params (body.map Stmt.bare) :=
  congrArg (Stmt.function default name params) (Stmt.relabelList_eq_map _ _ body)

@[simp]
theorem Stmt.bare_return (pos : Pos) (value : Option Expr) :
    («return» pos value).bare = .return default (value.map Expr.bare) := rfl

/-! ## Trees as S-expressions -/

def Literal.sexp : Literal → Sexp
  | .number x => .word (String.ofList (x.write Number.shortInfinity))
  | .string text => .quoted text
  | .bool b => .word (if b then "true" else "false")
  | .nil => .word "nil"

mutual

/-- The expression as an S-expression. -/
def Expr.sexp : Expr → Sexp
  | .literal _ x => x.sexp
  | .group _ e => .list [.word "group", e.sexp]
  | .unary _ op e => .list [.word op.token, e.sexp]
  | .binary _ op l r => .list [.word op.token, l.sexp, r.sexp]
  | .logical _ op l r => .list [.word op.token, l.sexp, r.sexp]
  | .variable _ x => .list [.word "ident", .word x]
  | .assign _ x e => .list [.word "=", .word x, e.sexp]
  | .call _ callee args => .list (.word "call" :: callee.sexp :: Expr.sexps args)

def Expr.sexps : List Expr → List Sexp
  | [] => []
  | e :: es => e.sexp :: Expr.sexps es

end

mutual

def Stmt.sexp : Stmt → Sexp
  | .expression _ e => .list [.word ";", e.sexp]
  | .print _ e => .list [.word "print", e.sexp]
  | .declare _ x initial => .list (.word "var" :: .word x :: Expr.sexps initial.toList)
  | .block _ body => .list (.word "block" :: Stmt.sexps body)
  | .cond _ test onTrue none => .list [.word "if", test.sexp, onTrue.sexp]
  | .cond _ test onTrue (some onFalse) => .list [.word "if-else", test.sexp, onTrue.sexp, onFalse.sexp]
  | .loop _ test body => .list [.word "while", test.sexp, body.sexp]
  | .function _ name params body =>
    .list (.word "fun" :: .word name :: .list (params.map .word) :: Stmt.sexps body)
  | .return _ value => .list (.word "return" :: Expr.sexps value.toList)

def Stmt.sexps : List Stmt → List Sexp
  | [] => []
  | s :: ss => s.sexp :: Stmt.sexps ss

end

theorem Expr.sexps_eq_map (es : List Expr) : Expr.sexps es = es.map Expr.sexp := by
  induction es with
  | nil => rfl
  | cons e es ih => rw [Expr.sexps, ih, List.map_cons]

theorem Stmt.sexps_eq_map (ss : List Stmt) : Stmt.sexps ss = ss.map Stmt.sexp := by
  induction ss with
  | nil => rfl
  | cons s ss ih => rw [Stmt.sexps, ih, List.map_cons]

/-! ### Texts -/

theorem Literal.text_append (x : Literal) (rest : List Char) : x.text ++ rest = x.sexp.write rest := by
  rw [Literal.text.eq_def]
  cases x with
  | number x => simp [Literal.sexp]
  | string text => simp [Literal.sexp]
  | bool b => cases b <;> simp [Literal.sexp]
  | nil => simp [Literal.sexp]

theorem Expr.writeList_eq {es : List Expr} (hes : ∀ e ∈ es, ∀ rest, e.write rest = e.sexp.write rest)
    (rest : List Char) : Expr.writeList es rest = Sexp.writeTail (Expr.sexps es) rest := by
  induction es with
  | nil => rfl
  | cons e es ih =>
    rw [List.forall_mem_cons] at hes
    rw [Expr.writeList, Expr.sexps, Sexp.writeTail, hes.1, ih hes.2]

theorem Expr.write_eq (e : Expr) (rest : List Char) : e.write rest = e.sexp.write rest := by
  -- The printer is unfolded as a whole, as the equations of its cases take long to check for the keywords.
  induction e generalizing rest <;> rw [Expr.write.eq_def]
  case literal pos x => exact x.text_append rest
  case group pos e ih => simp [Expr.sexp, ih]
  case unary pos op e ih => simp [Expr.sexp, ih]
  case binary pos op l r ihl ihr => simp [Expr.sexp, ihl, ihr]
  case logical pos op l r ihl ihr => simp [Expr.sexp, ihl, ihr]
  case var pos x => simp [Expr.sexp]
  case assign pos x e ih => simp [Expr.sexp, ih]
  case call pos callee args ihf ihargs => simp [Expr.sexp, ihf, Expr.writeList_eq ihargs]

theorem writeParams_append (params : List String) (rest : List Char) :
    writeParams params ++ rest = Sexp.writeItems (params.map .word) rest := by
  rw [writeParams]
  induction params with
  | nil => rfl
  | cons x params ih =>
    cases params with
    | nil => simp
    | cons y params => simpa [List.intercalate_cons_cons] using ih

theorem Stmt.writeList_eq {ss : List Stmt} (hss : ∀ s ∈ ss, ∀ rest, s.write rest = s.sexp.write rest)
    (rest : List Char) : Stmt.writeList ss rest = Sexp.writeTail (Stmt.sexps ss) rest := by
  induction ss with
  | nil => rfl
  | cons s ss ih =>
    rw [List.forall_mem_cons] at hss
    rw [Stmt.writeList, Stmt.sexps, Sexp.writeTail, hss.1, ih hss.2]

theorem Stmt.write_eq (s : Stmt) (rest : List Char) : s.write rest = s.sexp.write rest := by
  induction s generalizing rest <;> rw [Stmt.write.eq_def]
  case expression pos e => simp [Stmt.sexp, e.write_eq]
  case print pos e => simp [Stmt.sexp, e.write_eq]
  case declare pos x initial =>
    cases initial with
    | none => simp [Stmt.sexp, Expr.sexps]
    | some e => simp [Stmt.sexp, Expr.sexps, e.write_eq]
  case block pos body ih => simp [Stmt.sexp, Stmt.writeList_eq ih]
  case cond pos test onTrue onFalse iht ihf =>
    cases onFalse with
    | none => simp [Stmt.sexp, test.write_eq, iht]
    | some onFalse => simp [Stmt.sexp, test.write_eq, iht, ihf onFalse rfl]
  case loop pos test body ih => simp [Stmt.sexp, test.write_eq, ih]
  case function pos name params body ih =>
    simp [Stmt.sexp, Stmt.writeList_eq ih, writeParams_append]
  case ret pos value =>
    cases value with
    | none => simp [Stmt.sexp, Expr.sexps]
    | some e => simp [Stmt.sexp, Expr.sexps, e.write_eq]

/-! ### Trees in S-expressions -/

/-- The number of the constructor that a printed expression is built with. The head of the S-expression tells
which one it is, and where both a unary and a binary operator may have it, the length does. -/
def Sexp.exprIdx : Sexp → Nat
  | .list (.word head :: parts) =>
    if head = "group" then 1
    else if head = "ident" then 5
    else if head = "=" then 6
    else if head = "call" then 7
    else if head = "and" ∨ head = "or" then 4
    else if parts.length = 1 then 2 else 3
  | _ => 0

theorem Expr.exprIdx_sexp (e : Expr) : e.sexp.exprIdx = e.ctorIdx := by
  cases e with
  | literal pos x => cases x <;> rfl
  | unary pos op e => cases op <;> simp [Expr.sexp, Sexp.exprIdx, UnaryOp.token, Expr.ctorIdx]
  | binary pos op l r => cases op <;> simp [Expr.sexp, Sexp.exprIdx, BinaryOp.token, Expr.ctorIdx]
  | logical pos op l r => cases op <;> simp [Expr.sexp, Sexp.exprIdx, LogicalOp.token, Expr.ctorIdx]
  | _ => simp [Expr.sexp, Sexp.exprIdx, Expr.ctorIdx]

theorem Expr.ctorIdx_eq_of_sexp_eq {e f : Expr} (h : e.sexp = f.sexp) : e.ctorIdx = f.ctorIdx := by
  rw [← e.exprIdx_sexp, ← f.exprIdx_sexp, h]

/-- The number of the constructor that a printed statement is built with, which the head tells. -/
def Sexp.stmtIdx : Sexp → Nat
  | .list (.word head :: _) =>
    if head = ";" then 0
    else if head = "print" then 1
    else if head = "var" then 2
    else if head = "block" then 3
    else if head = "if" ∨ head = "if-else" then 4
    else if head = "while" then 5
    else if head = "fun" then 6 else 7
  | _ => 7

theorem Stmt.stmtIdx_sexp (s : Stmt) : s.sexp.stmtIdx = s.ctorIdx := by
  cases s with
  | cond pos test onTrue onFalse =>
    cases onFalse <;> simp [Stmt.sexp, Sexp.stmtIdx, Stmt.ctorIdx]
  | _ => simp [Stmt.sexp, Sexp.stmtIdx, Stmt.ctorIdx]

theorem Stmt.ctorIdx_eq_of_sexp_eq {s t : Stmt} (h : s.sexp = t.sexp) : s.ctorIdx = t.ctorIdx := by
  rw [← s.stmtIdx_sexp, ← t.stmtIdx_sexp, h]

theorem UnaryOp.token_injective : Function.Injective UnaryOp.token := by
  intro op op' h
  cases op <;> cases op' <;> simp [UnaryOp.token] at h ⊢

theorem BinaryOp.token_injective : Function.Injective BinaryOp.token := by
  intro op op' h
  cases op <;> cases op' <;> simp [BinaryOp.token] at h ⊢

theorem LogicalOp.token_injective : Function.Injective LogicalOp.token := by
  intro op op' h
  cases op <;> cases op' <;> simp [LogicalOp.token] at h ⊢

/-- Neither of the letters is in a number text. -/
theorem Literal.number_sexp_ne {w : String} (x : Number) (hw : 't' ∈ w.toList ∨ 'l' ∈ w.toList) :
    (Literal.number x).sexp ≠ .word w := by
  intro h
  rw [← Sexp.word.inj h, String.toList_ofList] at hw
  rcases hw with ht | hl
  · exact absurd (Number.mem_write ht) (by decide)
  · exact absurd (Number.mem_write hl) (by decide)

theorem Literal.number_sexp_ne_bool (x : Number) (b : Bool) :
    (Literal.number x).sexp ≠ (Literal.bool b).sexp := by
  cases b with
  | false => exact Literal.number_sexp_ne x (.inr (by simp))
  | true => exact Literal.number_sexp_ne x (.inl (by simp))

theorem Literal.number_sexp_ne_nil (x : Number) : (Literal.number x).sexp ≠ Literal.nil.sexp :=
  Literal.number_sexp_ne x (.inr (by simp))

theorem Literal.bool_sexp_ne_nil (b : Bool) : (Literal.bool b).sexp ≠ Literal.nil.sexp := by
  cases b <;> simp [Literal.sexp]

theorem Literal.bare_eq_of_sexp_eq {x y : Literal} (h : x.sexp = y.sexp) : x.bare = y.bare := by
  cases x with
  | number x =>
    cases y with
    | number y =>
      have htext : x.write Number.shortInfinity = y.write Number.shortInfinity :=
        String.ofList_injective (Sexp.word.inj h)
      exact congrArg Literal.number (Number.withoutPayload_eq_iff.mpr (Number.write_eq_iff.mp htext))
    | string t => cases h
    | bool b => exact absurd h (Literal.number_sexp_ne_bool x b)
    | nil => exact absurd h (Literal.number_sexp_ne_nil x)
  | string s =>
    cases y with
    | string t => exact congrArg Literal.string (Sexp.quoted.inj h)
    | _ => cases h
  | bool a =>
    cases y with
    | number y => exact absurd h.symm (Literal.number_sexp_ne_bool y a)
    | string t => cases h
    | bool b => cases a <;> cases b <;> simp [Literal.sexp] at h ⊢
    | nil => exact absurd h (Literal.bool_sexp_ne_nil a)
  | nil =>
    cases y with
    | number y => exact absurd h.symm (Literal.number_sexp_ne_nil y)
    | string t => cases h
    | bool b => exact absurd h.symm (Literal.bool_sexp_ne_nil b)
    | nil => rfl

theorem map_eq_map_of_imp {α β γ : Type} {f : α → β} {g : α → γ} {as bs : List α}
    (himp : ∀ a ∈ as, ∀ b, f a = f b → g a = g b) (h : as.map f = bs.map f) : as.map g = bs.map g := by
  induction as generalizing bs with
  | nil =>
    rw [List.map_nil, eq_comm, List.map_eq_nil_iff] at h
    rw [h]
  | cons a as ih =>
    cases bs with
    | nil => cases h
    | cons b bs =>
      rw [List.forall_mem_cons] at himp
      obtain ⟨hhead, htail⟩ := List.cons.inj h
      rw [List.map_cons, List.map_cons, himp.1 b hhead, ih himp.2 htail]

theorem Expr.bare_eq_of_sexp_eq {e f : Expr} (h : e.sexp = f.sexp) : e.bare = f.bare := by
  induction e generalizing f with
  | literal pos x =>
    cases f with
    | literal pos' y => rw [Expr.bare_literal, Expr.bare_literal, Literal.bare_eq_of_sexp_eq h]
    | _ => cases Expr.ctorIdx_eq_of_sexp_eq h
  | group pos e ih =>
    cases f with
    | group pos' f =>
      simp only [Expr.sexp, Sexp.list.injEq, List.cons.injEq, and_true, true_and] at h
      rw [Expr.bare_group, Expr.bare_group, ih h]
    | _ => cases Expr.ctorIdx_eq_of_sexp_eq h
  | unary pos op e ih =>
    cases f with
    | unary pos' op' f =>
      simp only [Expr.sexp, Sexp.list.injEq, List.cons.injEq, Sexp.word.injEq, and_true] at h
      obtain rfl := UnaryOp.token_injective h.1
      rw [Expr.bare_unary, Expr.bare_unary, ih h.2]
    | _ => cases Expr.ctorIdx_eq_of_sexp_eq h
  | binary pos op l r ihl ihr =>
    cases f with
    | binary pos' op' l' r' =>
      simp only [Expr.sexp, Sexp.list.injEq, List.cons.injEq, Sexp.word.injEq, and_true] at h
      obtain rfl := BinaryOp.token_injective h.1
      rw [Expr.bare_binary, Expr.bare_binary, ihl h.2.1, ihr h.2.2]
    | _ => cases Expr.ctorIdx_eq_of_sexp_eq h
  | logical pos op l r ihl ihr =>
    cases f with
    | logical pos' op' l' r' =>
      simp only [Expr.sexp, Sexp.list.injEq, List.cons.injEq, Sexp.word.injEq, and_true] at h
      obtain rfl := LogicalOp.token_injective h.1
      rw [Expr.bare_logical, Expr.bare_logical, ihl h.2.1, ihr h.2.2]
    | _ => cases Expr.ctorIdx_eq_of_sexp_eq h
  | var pos x =>
    cases f with
    | «variable» pos' y =>
      simp only [Expr.sexp, Sexp.list.injEq, List.cons.injEq, Sexp.word.injEq, and_true, true_and] at h
      rw [Expr.bare_variable, Expr.bare_variable, h]
    | _ => cases Expr.ctorIdx_eq_of_sexp_eq h
  | assign pos x e ih =>
    cases f with
    | assign pos' y f =>
      simp only [Expr.sexp, Sexp.list.injEq, List.cons.injEq, Sexp.word.injEq, and_true, true_and] at h
      rw [Expr.bare_assign, Expr.bare_assign, h.1, ih h.2]
    | _ => cases Expr.ctorIdx_eq_of_sexp_eq h
  | call pos callee args ihf ihargs =>
    cases f with
    | call pos' callee' args' =>
      simp only [Expr.sexp, Expr.sexps_eq_map, Sexp.list.injEq, List.cons.injEq, true_and] at h
      have hargs : args.map Expr.bare = args'.map Expr.bare :=
        map_eq_map_of_imp (fun a ha b => ihargs a ha (f := b)) h.2
      rw [Expr.bare_call, Expr.bare_call, ihf h.1, hargs]
    | _ => cases Expr.ctorIdx_eq_of_sexp_eq h

theorem Expr.map_bare_eq_of_sexps_eq {o o' : Option Expr}
    (h : Expr.sexps o.toList = Expr.sexps o'.toList) : o.map Expr.bare = o'.map Expr.bare := by
  cases o with
  | none =>
    cases o' with
    | none => rfl
    | some f => cases h
  | some e =>
    cases o' with
    | none => cases h
    | some f => exact congrArg some (Expr.bare_eq_of_sexp_eq (List.cons.inj h).1)

theorem Stmt.bare_eq_of_sexp_eq {s t : Stmt} (h : s.sexp = t.sexp) : s.bare = t.bare := by
  induction s generalizing t with
  | expression pos e =>
    cases t with
    | expression pos' f =>
      simp only [Stmt.sexp, Sexp.list.injEq, List.cons.injEq, and_true, true_and] at h
      rw [Stmt.bare_expression, Stmt.bare_expression, Expr.bare_eq_of_sexp_eq h]
    | _ => cases Stmt.ctorIdx_eq_of_sexp_eq h
  | print pos e =>
    cases t with
    | print pos' f =>
      simp only [Stmt.sexp, Sexp.list.injEq, List.cons.injEq, and_true, true_and] at h
      rw [Stmt.bare_print, Stmt.bare_print, Expr.bare_eq_of_sexp_eq h]
    | _ => cases Stmt.ctorIdx_eq_of_sexp_eq h
  | declare pos x initial =>
    cases t with
    | declare pos' y initial' =>
      simp only [Stmt.sexp, Sexp.list.injEq, List.cons.injEq, Sexp.word.injEq, true_and] at h
      rw [Stmt.bare_declare, Stmt.bare_declare, h.1, Expr.map_bare_eq_of_sexps_eq h.2]
    | _ => cases Stmt.ctorIdx_eq_of_sexp_eq h
  | block pos body ih =>
    cases t with
    | block pos' body' =>
      simp only [Stmt.sexp, Stmt.sexps_eq_map, Sexp.list.injEq, List.cons.injEq, true_and] at h
      have hbody : body.map Stmt.bare = body'.map Stmt.bare :=
        map_eq_map_of_imp (fun s hs t => ih s hs (t := t)) h
      rw [Stmt.bare_block, Stmt.bare_block, hbody]
    | _ => cases Stmt.ctorIdx_eq_of_sexp_eq h
  | cond pos test onTrue onFalse iht ihf =>
    cases t with
    | cond pos' test' onTrue' onFalse' =>
      -- A branch is missing in both, or in neither.
      cases onFalse with
      | none =>
        cases onFalse' with
        | none =>
          simp only [Stmt.sexp, Sexp.list.injEq, List.cons.injEq, and_true, true_and] at h
          rw [Stmt.bare_cond, Stmt.bare_cond, Expr.bare_eq_of_sexp_eq h.1, iht h.2, Option.map_none]
        | some t => simp [Stmt.sexp] at h
      | some s =>
        cases onFalse' with
        | none => simp [Stmt.sexp] at h
        | some t =>
          simp only [Stmt.sexp, Sexp.list.injEq, List.cons.injEq, and_true, true_and] at h
          rw [Stmt.bare_cond, Stmt.bare_cond, Expr.bare_eq_of_sexp_eq h.1, iht h.2.1, Option.map_some,
            Option.map_some, ihf s rfl h.2.2]
    | _ => cases Stmt.ctorIdx_eq_of_sexp_eq h
  | loop pos test body ih =>
    cases t with
    | loop pos' test' body' =>
      simp only [Stmt.sexp, Sexp.list.injEq, List.cons.injEq, and_true, true_and] at h
      rw [Stmt.bare_loop, Stmt.bare_loop, Expr.bare_eq_of_sexp_eq h.1, ih h.2]
    | _ => cases Stmt.ctorIdx_eq_of_sexp_eq h
  | function pos name params body ih =>
    cases t with
    | function pos' name' params' body' =>
      simp only [Stmt.sexp, Stmt.sexps_eq_map, Sexp.list.injEq, List.cons.injEq, Sexp.word.injEq,
        true_and] at h
      obtain ⟨rfl, hparams, hbody⟩ := h
      obtain rfl := (List.map_inj_right fun _ _ => Sexp.word.inj).mp hparams
      have hbody : body.map Stmt.bare = body'.map Stmt.bare :=
        map_eq_map_of_imp (fun s hs t => ih s hs (t := t)) hbody
      rw [Stmt.bare_function, Stmt.bare_function, hbody]
    | _ => cases Stmt.ctorIdx_eq_of_sexp_eq h
  | ret pos value =>
    cases t with
    | «return» pos' value' =>
      simp only [Stmt.sexp, Sexp.list.injEq, List.cons.injEq, true_and] at h
      rw [Stmt.bare_return, Stmt.bare_return, Expr.map_bare_eq_of_sexps_eq h]
    | _ => cases Stmt.ctorIdx_eq_of_sexp_eq h

/-! ### Nothing more than bare trees -/

theorem Literal.sexp_bare (x : Literal) : x.bare.sexp = x.sexp := by
  cases x with
  | number x =>
    have htext := x.withoutPayload_eqUpToNaN.write Number.shortInfinity
    exact congrArg (fun text => Sexp.word (String.ofList text)) htext
  | _ => rfl

theorem Expr.sexps_map_bare {es : List Expr} (hes : ∀ e ∈ es, e.bare.sexp = e.sexp) :
    Expr.sexps (es.map Expr.bare) = Expr.sexps es := by
  rw [Expr.sexps_eq_map, Expr.sexps_eq_map, List.map_map]
  exact List.map_congr_left hes

theorem Expr.sexp_bare (e : Expr) : e.bare.sexp = e.sexp := by
  induction e with
  | literal pos x => exact x.sexp_bare
  | group pos e ih => rw [Expr.bare_group, Expr.sexp, Expr.sexp, ih]
  | unary pos op e ih => rw [Expr.bare_unary, Expr.sexp, Expr.sexp, ih]
  | binary pos op l r ihl ihr => rw [Expr.bare_binary, Expr.sexp, Expr.sexp, ihl, ihr]
  | logical pos op l r ihl ihr => rw [Expr.bare_logical, Expr.sexp, Expr.sexp, ihl, ihr]
  | var pos x => rfl
  | assign pos x e ih => rw [Expr.bare_assign, Expr.sexp, Expr.sexp, ih]
  | call pos callee args ihf ihargs =>
    rw [Expr.bare_call, Expr.sexp, Expr.sexp, ihf, Expr.sexps_map_bare ihargs]

theorem Expr.sexps_toList_bare (o : Option Expr) :
    Expr.sexps (o.map Expr.bare).toList = Expr.sexps o.toList := by
  rw [Option.toList_map]
  exact Expr.sexps_map_bare fun e _ => e.sexp_bare

theorem Stmt.sexps_map_bare {ss : List Stmt} (hss : ∀ s ∈ ss, s.bare.sexp = s.sexp) :
    Stmt.sexps (ss.map Stmt.bare) = Stmt.sexps ss := by
  rw [Stmt.sexps_eq_map, Stmt.sexps_eq_map, List.map_map]
  exact List.map_congr_left hss

theorem Stmt.sexp_bare (s : Stmt) : s.bare.sexp = s.sexp := by
  induction s with
  | expression pos e => rw [Stmt.bare_expression, Stmt.sexp, Stmt.sexp, e.sexp_bare]
  | print pos e => rw [Stmt.bare_print, Stmt.sexp, Stmt.sexp, e.sexp_bare]
  | declare pos x initial =>
    rw [Stmt.bare_declare, Stmt.sexp, Stmt.sexp, Expr.sexps_toList_bare]
  | block pos body ih => rw [Stmt.bare_block, Stmt.sexp, Stmt.sexp, Stmt.sexps_map_bare ih]
  | cond pos test onTrue onFalse iht ihf =>
    cases onFalse with
    | none => rw [Stmt.bare_cond, Option.map_none, Stmt.sexp, Stmt.sexp, test.sexp_bare, iht]
    | some s =>
      rw [Stmt.bare_cond, Option.map_some, Stmt.sexp, Stmt.sexp, test.sexp_bare, iht, ihf s rfl]
  | loop pos test body ih => rw [Stmt.bare_loop, Stmt.sexp, Stmt.sexp, test.sexp_bare, ih]
  | function pos name params body ih =>
    rw [Stmt.bare_function, Stmt.sexp, Stmt.sexp, Stmt.sexps_map_bare ih]
  | ret pos value => rw [Stmt.bare_return, Stmt.sexp, Stmt.sexp, Expr.sexps_toList_bare]

theorem Expr.sexp_eq_iff {e f : Expr} : e.sexp = f.sexp ↔ e.bare = f.bare :=
  ⟨Expr.bare_eq_of_sexp_eq, fun h => by rw [← e.sexp_bare, h, f.sexp_bare]⟩

theorem Stmt.sexp_eq_iff {s t : Stmt} : s.sexp = t.sexp ↔ s.bare = t.bare :=
  ⟨Stmt.bare_eq_of_sexp_eq, fun h => by rw [← s.sexp_bare, h, t.sexp_bare]⟩

end Lox
