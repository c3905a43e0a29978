import Lox.Proofs.Control.Return
import Lox.Proofs.Run.Bound

/-!
# A session is one program

A program may be run in pieces: a machine keeps everything between two runs that the next statement could
depend on. Running the pieces up to the first that fails is running the program, as long as no piece but
the last returns, for a return ends the piece that it stands in and not the session.

With one bound for all runs both are equal (`interpret_flatten`). That each piece may have a bound of its
own makes no difference, since a larger one changes nothing.
-/

namespace Lox

theorem Stmt.execList_append (ctx : Context) (ss ts : List Stmt) :
    Stmt.execList ctx (ss ++ ts) = Stmt.execList ctx ss >>= fun _ => Stmt.execList ctx ts := by
  induction ss with
  | nil => rfl
  | cons s ss ih => simp only [List.cons_append, Stmt.execList, ih, bind_assoc]

namespace Interpreter

variable {host : Host} {bound : Nat}

/-! ## One bound -/

/-- Without a return in the first part, the second is run if and only if the first does not fail. -/
theorem interpret_append {p : Program} (hp : Stmt.returnsList p = false) (q : Program) :
    interpret host bound (p ++ q) = interpret host bound p >>= fun _ => interpret host bound q := by
  let J := Judgement.evolving host
  funext m
  have hbody : (Stmt.execList (.ofBound host bound) p).Evolving Unwind.NoReturn fun _ => True :=
    Stmt.execList_noReturn (J.call bound) hp
  simp only [interpret, Stmt.execList_append, Run.bind_apply, Run.continueWith]
  cases h : Stmt.execList (.ofBound host bound) p m with
  | exhausted => rfl
  | ended r m' =>
    have hr : Ends Unwind.NoReturn (fun _ => True) r := Run.Keeps.of_ended (hbody m) (.refl m) h
    rcases r with (e | v) | _
    · rfl
    · exact hr.elim
    · rfl

/-- Programs, one after the other, up to the first that fails. -/
def interpretAll (host : Host) (bound : Nat) : List Program → Run RuntimeError Unit
  | [] => pure ()
  | p :: rest => interpret host bound p >>= fun _ => interpretAll host bound rest

theorem interpret_flatten (chunks : List Program)
    (h : ∀ p ∈ chunks.dropLast, Stmt.returnsList p = false) :
    interpretAll host bound chunks = interpret host bound chunks.flatten := by
  induction chunks with
  | nil => rfl
  | cons p rest ih =>
    cases rest with
    | nil => simp [interpretAll]
    | cons q rest =>
      rw [List.dropLast_cons_cons, List.forall_mem_cons] at h
      rw [interpretAll, ih h.2]
      exact (interpret_append h.1 _).symm

/-- Nothing is run after a return, and its value is dropped. -/
theorem interpret_return (pos pos' : Pos) (e : Expr) (q : Program) :
    interpret host bound (.return pos (some e) :: q) = interpret host bound [.expression pos' e] := by
  funext m
  simp only [interpret, Stmt.execList, Stmt.exec, Expr.evalOption, Run.within, Run.mapError,
    Run.bind_apply, Run.continueWith]
  cases e.eval (.ofBound host bound) m with
  | exhausted => rfl
  | ended r m' => cases r <;> rfl

/-! ## Bounds of their own -/

/-- With some bound, the program ends with `r` and leaves `m'`. -/
def Runs (host : Host) (p : Program) (m : Machine) (r : Except RuntimeError Unit) (m' : Machine) : Prop :=
  ∃ bound, interpret host bound p m = .ended r m'

/-- Programs are run one after the other on the same machine, up to the first that fails. -/
inductive Feeds (host : Host) : List Program → Machine → Except RuntimeError Unit → Machine → Prop
  | done (m : Machine) : Feeds host [] m (.ok ()) m
  | next {p : Program} {rest : List Program} {m m₁ m' : Machine} {r : Except RuntimeError Unit}
    (hp : Runs host p m (.ok ()) m₁) (hrest : Feeds host rest m₁ r m') : Feeds host (p :: rest) m r m'
  | failed {p : Program} {rest : List Program} {m m' : Machine} {e : RuntimeError}
    (hp : Runs host p m (.error e) m') : Feeds host (p :: rest) m (.error e) m'

theorem interpretAll_refines {n k : Nat} (hnk : n ≤ k) (chunks : List Program) :
    (interpretAll host n chunks).Refines (interpretAll host k chunks) := by
  induction chunks with
  | nil => exact .refl _
  | cons p rest ih => exact .bind (interpret_refines host hnk p) fun _ => ih

/-- One bound that is large enough serves all programs. -/
theorem feeds_iff {chunks : List Program} {m m' : Machine} {r : Except RuntimeError Unit} :
    Feeds host chunks m r m' ↔ ∃ bound, interpretAll host bound chunks m = .ended r m' := by
  constructor
  · intro h
    induction h with
    | done m => exact ⟨0, rfl⟩
    | @next p rest m m₁ m' r hp _ ih =>
      obtain ⟨n, hn⟩ := hp
      obtain ⟨k, hk⟩ := ih
      have hfirst := (interpret_refines host (Nat.le_max_left n k) p).ended hn
      have hrest := (interpretAll_refines (Nat.le_max_right n k) rest).ended hk
      refine ⟨max n k, ?_⟩
      rw [interpretAll, Run.bind_apply, hfirst]
      exact hrest
    | @failed p rest m m' e hp =>
      obtain ⟨n, hn⟩ := hp
      refine ⟨n, ?_⟩
      rw [interpretAll, Run.bind_apply, hn]
  · rintro ⟨bound, h⟩
    induction chunks generalizing m with
    | nil => cases h; exact .done _
    | cons p rest ih =>
      rw [interpretAll, Run.bind_apply] at h
      split at h
      · next m₁ hp => exact .next ⟨bound, hp⟩ (ih h)
      · next e m₁ hp => cases h; exact .failed ⟨bound, hp⟩
      · cases h

/-- **A session is one program.** Cut a program into pieces, none of which returns but maybe the last.
Running them one by one, up to the first that fails, ends if and only if the whole program does, with the
same result on the same machine. And what follows a return is not run: a program with a return outside of
functions is the program that evaluates the returned expression there and ends. -/
theorem session_iff_program (host : Host) :
    (∀ chunks : List Program, (∀ p ∈ chunks.dropLast, Stmt.returnsList p = false) →
        ∀ m r m', Feeds host chunks m r m' ↔ Runs host chunks.flatten m r m') ∧
      ∀ (p q : Program) (pos pos' : Pos) (e : Expr), Stmt.returnsList p = false →
        ∀ bound, interpret host bound (p ++ .return pos (some e) :: q) =
          interpret host bound (p ++ [.expression pos' e]) := by
  refine ⟨fun chunks h m r m' => ?_, fun p q pos pos' e hp bound => ?_⟩
  · rw [feeds_iff, Runs]
    simp only [interpret_flatten chunks h]
  · rw [interpret_append hp, interpret_append hp, interpret_return pos pos']

/-- A variable and a function that reads it. -/
private def declaring : Program :=
  [.declare ⟨1, 0⟩ "n" (some (.literal ⟨1, 0⟩ (.string "a"))),
    .function ⟨1, 0⟩ "f" [] [.return ⟨1, 0⟩ (some (.variable ⟨1, 0⟩ "n"))]]

private def reading : Expr := .call ⟨2, 0⟩ (.variable ⟨2, 0⟩ "f") []

/-- The declarations, a piece that prints and fails, and a piece that is not run any more. -/
private def pieces : List Program :=
  [declaring, [.print ⟨2, 0⟩ reading, .expression ⟨3, 0⟩ (.unary ⟨3, 0⟩ .negate reading)],
    [.print ⟨4, 0⟩ reading, .return ⟨4, 0⟩ none]]

theorem session_iff_program_failing :
    (∃ m', Feeds (Native.clockHost (.ofInt 0)) pieces .initial (.error ⟨.operandNotNumber, ⟨3, 0⟩⟩) m' ∧
        m'.buffer.contents = "a\n") ∧
      ∀ bound, interpret (Native.clockHost (.ofInt 0)) bound
          (declaring ++ .return ⟨2, 0⟩ (some reading) :: [.print ⟨3, 0⟩ reading]) =
        interpret (Native.clockHost (.ofInt 0)) bound (declaring ++ [.expression ⟨2, 0⟩ reading]) := by
  have failed : (interpret (Native.clockHost (.ofInt 0)) 9 pieces.flatten .initial).failed?.map
      (fun p => (p.1, p.2.buffer.contents)) = some (⟨.operandNotNumber, ⟨3, 0⟩⟩, "a\n") := by
    decide +kernel
  refine ⟨?_, (session_iff_program _).2 declaring _ ⟨2, 0⟩ ⟨2, 0⟩ reading (by decide)⟩
  obtain ⟨⟨e, m'⟩, hfailed, hseen⟩ := Option.map_eq_some_iff.mp failed
  obtain ⟨rfl, hprinted⟩ := Prod.mk.inj hseen
  have hrun := Outcome.eq_of_failed? hfailed
  exact ⟨m', ((session_iff_program _).1 pieces (by decide) .initial _ m').mpr ⟨9, hrun⟩, hprinted⟩

end Interpreter

end Lox
