import Lox.Value.Basic

/-!
# Equality of values

The equality of the language is symmetric and transitive. It is reflexive as well, but for NaNs: a NaN
differs from all values, itself included.
-/

namespace Lox

namespace Number

theorem ieeeEq_iff {x y : Number} :
    x.ieeeEq y ↔ x.isNaN = false ∧ y.isNaN = false ∧ (x = y ∨ x.isZero ∧ y.isZero) := by
  have hbits : x.bits = y.bits ↔ x = y := by
    cases x
    cases y
    simp
  simp only [ieeeEq, Bool.and_eq_true, Bool.or_eq_true, Bool.not_eq_true', beq_iff_eq, hbits, and_assoc]

theorem ieeeEq_self_iff {x : Number} : x.ieeeEq x ↔ x.isNaN = false := by
  rw [ieeeEq_iff]
  exact ⟨fun h => h.1, fun h => ⟨h, h, .inl rfl⟩⟩

theorem ieeeEq_symm {x y : Number} (h : x.ieeeEq y) : y.ieeeEq x := by
  rw [ieeeEq_iff] at h ⊢
  obtain ⟨hx, hy, h⟩ := h
  exact ⟨hy, hx, h.imp Eq.symm And.symm⟩

theorem ieeeEq_trans {x y z : Number} (hxy : x.ieeeEq y) (hyz : y.ieeeEq z) : x.ieeeEq z := by
  rw [ieeeEq_iff] at hxy hyz ⊢
  obtain ⟨hx, _, hxy⟩ := hxy
  obtain ⟨_, hz, hyz⟩ := hyz
  refine ⟨hx, hz, ?_⟩
  rcases hxy with rfl | hxy
  · exact hyz
  · rcases hyz with rfl | hyz
    · exact .inr hxy
    · exact .inr ⟨hxy.1, hyz.2⟩

end Number

namespace Value

theorem same_callable_iff {f g : Callable} : (callable f).same (callable g) ↔ f.id = g.id := beq_iff_eq

theorem same_symm {v w : Value} (h : v.same w) : w.same v := by
  cases v <;> cases w <;> simp only [same, beq_iff_eq, Bool.false_eq_true] at h ⊢
  · exact h.symm
  · exact Number.ieeeEq_symm h
  · exact h.symm
  · exact h.symm

theorem same_comm (v w : Value) : v.same w = w.same v :=
  Bool.eq_iff_iff.mpr ⟨same_symm, same_symm⟩

theorem same_trans {u v w : Value} (huv : u.same v) (hvw : v.same w) : u.same w := by
  cases u <;> cases v <;> simp only [same, beq_iff_eq, Bool.false_eq_true] at huv <;>
    cases w <;> simp only [same, beq_iff_eq, Bool.false_eq_true] at hvw ⊢
  · exact huv.trans hvw
  · exact Number.ieeeEq_trans huv hvw
  · exact huv.trans hvw
  · exact huv.trans hvw

theorem same_self_iff {v : Value} : v.same v ↔ ∀ x, v = number x → x.isNaN = false := by
  cases v with
  | number x => simp [same, Number.ieeeEq_self_iff]
  | nil | bool _ | string _ | callable _ => simp [same]

end Value

end Lox
