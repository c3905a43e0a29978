import Lox.Number.Decimal
import Mathlib.Order.Monotone.Basic
import Mathlib.Tactic.Ring

/-!
# Shortest decimals read back

The decimal of a finite double lies between the midpoints to the two neighbours of the double, or is a midpoint
itself and the double is even (`Decimal.ReadsBack`). That holds of all decimals that the search finds, and the
search finds one, at the latest on the grid that all doubles lie on (`Decimal.shortest_readsBack`).

As the intervals of two doubles have at most a midpoint in common, which belongs to one of them only, no
decimal stands for two doubles (`Decimal.ReadsBack.unique`).
-/

namespace Lox.Number

/-! ## The grid of the doubles -/

/-- From one double to the next is a step of the size that its exponent gives. -/
theorem scaled_succ (u : Nat) : scaled (u + 1) = scaled u + 2 ^ (u / 2 ^ 52 - 1) := by
  simp only [scaled, Nat.pow_eq]
  by_cases hfraction : u % 2 ^ 52 + 1 < 2 ^ 52
  · have hexponent : (u + 1) / 2 ^ 52 = u / 2 ^ 52 := by omega
    have hnext : (u + 1) % 2 ^ 52 = u % 2 ^ 52 + 1 := by omega
    rw [hexponent, hnext]
    split
    · next hzero => rw [hzero, Nat.zero_sub, pow_zero]
    · ring
  · -- The fraction is full, and the next double has the next exponent.
    have hexponent : (u + 1) / 2 ^ 52 = u / 2 ^ 52 + 1 := by omega
    have hnext : (u + 1) % 2 ^ 52 = 0 := by omega
    have hfull : u % 2 ^ 52 = 2 ^ 52 - 1 := by omega
    rw [hexponent, hnext, hfull, if_neg (Nat.succ_ne_zero _)]
    split
    · next hzero =>
      rw [hzero, Nat.zero_sub, Nat.zero_add, Nat.sub_self, pow_zero]
      omega
    · next hpositive =>
      obtain ⟨e, he⟩ := Nat.exists_eq_succ_of_ne_zero hpositive
      rw [he, Nat.succ_eq_add_one, Nat.add_sub_cancel, Nat.add_sub_cancel, pow_succ]
      ring

theorem scaled_strictMono : StrictMono scaled := by
  refine strictMono_nat_of_lt_succ fun u => ?_
  rw [scaled_succ]
  exact Nat.lt_add_of_pos_right (Nat.two_pow_pos _)

theorem two_pow_dvd_scaled (u : Nat) : 2 ^ (u / 2 ^ 52 - 1) ∣ scaled u := by
  simp only [scaled, Nat.pow_eq]
  split
  · next hzero => rw [hzero]; exact Nat.one_dvd _
  · exact Nat.dvd_mul_left _ _

namespace Interval

/-- The doubles up to the next one are multiples of the unit of the interval of `u`, and so is the one
before. -/
theorem two_pow_coarseness_dvd {u w : Nat} (h : u ≤ w + 1) : 2 ^ coarseness u ∣ scaled w := by
  refine Nat.dvd_trans (Nat.pow_dvd_pow 2 ?_) (two_pow_dvd_scaled w)
  simp only [coarseness, Nat.pow_eq]
  omega

theorem value_ofBits (u : Nat) : (ofBits u).value * 2 ^ coarseness u = scaled u :=
  Nat.div_mul_cancel (two_pow_coarseness_dvd (Nat.le_succ u))

theorem twiceLow_ofBits (u : Nat) :
    (ofBits u).twiceLow * 2 ^ coarseness u = scaled (u - 1) + scaled u :=
  Nat.div_mul_cancel (Nat.dvd_add (two_pow_coarseness_dvd (by omega))
    (two_pow_coarseness_dvd (Nat.le_succ u)))

theorem twiceHigh_ofBits (u : Nat) :
    (ofBits u).twiceHigh * 2 ^ coarseness u = scaled u + scaled (u + 1) :=
  Nat.div_mul_cancel (Nat.dvd_add (two_pow_coarseness_dvd (Nat.le_succ u))
    (two_pow_coarseness_dvd (by omega)))

variable {i : Interval} {u x step n : Nat}

theorem holds_iff :
    i.holds x ↔ i.twiceLow ≤ 2 * x ∧ 2 * x ≤ i.twiceHigh ∧
      (i.twiceLow = 2 * x ∨ 2 * x = i.twiceHigh → i.closed) := by
  unfold holds
  split
  · next hclosed => simp [hclosed]
  · next hopen =>
    simp only [Bool.and_eq_true, decide_eq_true_eq, hopen, Bool.false_eq_true, imp_false, not_or]
    omega

theorem holds_of_point? (h : i.point? step = some n) : i.holds (n * step) := by
  unfold point? at h
  simp only at h
  split at h
  · next hbelow =>
    split at h
    · next habove =>
      obtain rfl := Option.some.inj h
      rw [Nat.succ_mul]
      exact (Bool.and_eq_true_iff.mp habove).1
    · obtain rfl := Option.some.inj h
      exact hbelow
  · split at h
    · next habove =>
      obtain rfl := Option.some.inj h
      rw [Nat.succ_mul]
      exact habove
    · cases h

/-- A double lies in its own interval, whatever the unit. -/
theorem holds_value (hu : u ≠ 0) (hn : 0 < n) :
    ((ofBits u).refine n).holds ((ofBits u).refine n).value := by
  have hunit : 0 < 2 ^ coarseness u := Nat.two_pow_pos _
  have hvalue := value_ofBits u
  have hlow : (ofBits u).twiceLow < 2 * (ofBits u).value := by
    have hprevious : scaled (u - 1) < scaled u := scaled_strictMono (by omega)
    refine lt_of_mul_lt_mul_right ?_ hunit.le
    rw [twiceLow_ofBits, Nat.mul_assoc, hvalue]
    omega
  have hhigh : 2 * (ofBits u).value < (ofBits u).twiceHigh := by
    have hnext : scaled u < scaled (u + 1) := scaled_strictMono (Nat.lt_succ_self u)
    refine lt_of_mul_lt_mul_right ?_ hunit.le
    rw [twiceHigh_ofBits, Nat.mul_assoc, hvalue]
    omega
  have hlow' := Nat.mul_lt_mul_of_pos_right hlow hn
  have hhigh' := Nat.mul_lt_mul_of_pos_right hhigh hn
  rw [holds_iff, refine]
  dsimp only
  rw [← Nat.mul_assoc]
  exact ⟨hlow'.le, hhigh'.le, fun hends => absurd hends (by omega)⟩

/-- A grid that the middle of the interval lies on has a point for it. -/
theorem point?_isSome (hstep : step ∣ i.value) (hi : i.holds i.value) : (i.point? step).isSome := by
  unfold point?
  simp only [Nat.div_mul_cancel hstep, hi, if_true]
  split <;> rfl

end Interval

namespace Decimal

variable {d d' : Decimal} {u w : Nat}

/-! ## Decimals that read back -/

/-- The decimal lies between the midpoints to the neighbours of the double with magnitude bits `u`, or is one
of them and `u` is even. Twice the decimal and the sums of neighbours are compared, in a unit that makes all
of them whole. -/
def ReadsBack (d : Decimal) (u : Nat) : Prop :=
  let twice := 2 * (d.steps * 10 ^ d.exponent.toNat * 2 ^ finestBits)
  let low := (scaled (u - 1) + scaled u) * 10 ^ (-d.exponent).toNat
  let high := (scaled u + scaled (u + 1)) * 10 ^ (-d.exponent).toNat
  low ≤ twice ∧ twice ≤ high ∧ (low = twice ∨ twice = high → u % 2 = 0)

/-- The decimals are one number. -/
def SameValue (d d' : Decimal) : Prop :=
  d.steps * 10 ^ d.exponent.toNat * 10 ^ (-d'.exponent).toNat =
    d'.steps * 10 ^ d'.exponent.toNat * 10 ^ (-d.exponent).toNat

section units

variable {x y x' y' k l : Nat} (hk : 0 < k) (hl : 0 < l) (hx : x * k = x' * l) (hy : y * k = y' * l)
include hk hl hx hy

theorem le_iff_of_mul_eq : x ≤ y ↔ x' ≤ y' := by
  rw [← Nat.mul_le_mul_right_iff hk, hx, hy, Nat.mul_le_mul_right_iff hl]

theorem eq_iff_of_mul_eq : x = y ↔ x' = y' := by
  rw [← Nat.mul_left_inj hk.ne', hx, hy, Nat.mul_left_inj hl.ne']

end units

/-- The unit of the search is `2 ^ (c - b)` times finer or `2 ^ (b - c)` times coarser than `2 ^ (c - b)`. -/
theorem point_in_units (n p b c : Nat) :
    2 * (n * p * 2 ^ b) * 2 ^ (c - b) = 2 * (n * (p * 2 ^ (b - c))) * 2 ^ c := by
  have hunits : 2 ^ (b - c) * 2 ^ c = 2 ^ b * 2 ^ (c - b) := by
    rw [← pow_add, ← pow_add]
    exact congrArg (2 ^ ·) (by omega)
  calc 2 * (n * p * 2 ^ b) * 2 ^ (c - b)
    _ = 2 * n * p * (2 ^ b * 2 ^ (c - b)) := by ring
    _ = 2 * (n * (p * 2 ^ (b - c))) * 2 ^ c := by rw [← hunits]; ring

theorem end_in_units {q total c : Nat} (hq : q * 2 ^ c = total) (p b : Nat) :
    total * p * 2 ^ (c - b) = q * (p * 2 ^ (c - b)) * 2 ^ c := by
  rw [← hq]
  ring

/-- To lie in the interval of a double, in the unit of the search, is to read back as the double. -/
theorem readsBack_iff_holds {n : Nat} {exponent : Int} :
    ReadsBack ⟨n, exponent⟩ u ↔
      ((Interval.ofBits u).refine
          (10 ^ (-exponent).toNat * 2 ^ (Interval.coarseness u - finestBits))).holds
        (n * (10 ^ exponent.toNat * 2 ^ (finestBits - Interval.coarseness u))) := by
  have hdown : 0 < 2 ^ (Interval.coarseness u - finestBits) := Nat.two_pow_pos _
  have hup : 0 < 2 ^ Interval.coarseness u := Nat.two_pow_pos _
  have hpoint := point_in_units n (10 ^ exponent.toNat) finestBits (Interval.coarseness u)
  have hlow := end_in_units (Interval.twiceLow_ofBits u) (10 ^ (-exponent).toNat) finestBits
  have hhigh := end_in_units (Interval.twiceHigh_ofBits u) (10 ^ (-exponent).toNat) finestBits
  rw [Interval.holds_iff, ReadsBack]
  refine and_congr (le_iff_of_mul_eq hdown hup hlow hpoint)
    (and_congr (le_iff_of_mul_eq hdown hup hpoint hhigh) ?_)
  have hclosed : u % 2 = 0 ↔ (u % 2 == 0) = true := beq_iff_eq.symm
  exact imp_congr (or_congr (eq_iff_of_mul_eq hdown hup hlow hpoint)
    (eq_iff_of_mul_eq hdown hup hpoint hhigh)) hclosed

theorem readsBack_of_withExponent? {exponent : Int} (h : withExponent? exponent u = some d) :
    d.ReadsBack u := by
  obtain ⟨n, hpoint, rfl⟩ := Option.map_eq_some_iff.mp h
  exact readsBack_iff_holds.mpr (Interval.holds_of_point? hpoint)

/-- If two decimals of one value were both at their ends, the ends would be the same. -/
theorem eq_of_squeeze {x y p q a b : Nat} (ha : 0 < a) (hb : 0 < b) (hp : p ≤ x * a) (hq : y * b ≤ q)
    (hpq : p * b = q * a) (hxy : x ≤ y) : p = x * a ∧ y * b = q ∧ x = y := by
  have hleft : p * b ≤ x * a * b := Nat.mul_le_mul_right b hp
  have hmiddle : x * a * b ≤ y * a * b := Nat.mul_le_mul_right b (Nat.mul_le_mul_right a hxy)
  have hright : y * a * b ≤ q * a := by
    rw [Nat.mul_right_comm]
    exact Nat.mul_le_mul_right a hq
  have hpx : p * b = x * a * b := by omega
  have hxy' : x * a * b = y * a * b := by omega
  have hyq : y * b * a = q * a := by
    rw [Nat.mul_right_comm]
    omega
  exact ⟨Nat.eq_of_mul_eq_mul_right hb hpx, Nat.eq_of_mul_eq_mul_right ha hyq,
    Nat.eq_of_mul_eq_mul_right ha (Nat.eq_of_mul_eq_mul_right hb hxy')⟩

theorem SameValue.symm (h : d.SameValue d') : d'.SameValue d := Eq.symm h

/-- A decimal that reads back as two doubles is the midpoint between them, but then one of the two is odd. -/
theorem ReadsBack.le (h : d.ReadsBack u) (h' : d'.ReadsBack w) (hsame : d.SameValue d') : w ≤ u := by
  by_contra hlt
  obtain ⟨_, hhigh, htie⟩ := h
  obtain ⟨hlow, _, htie'⟩ := h'
  have hnext : scaled (u + 1) ≤ scaled w := scaled_strictMono.monotone (by omega)
  have hprevious : scaled u ≤ scaled (w - 1) := scaled_strictMono.monotone (by omega)
  have hvalue : 2 * (d.steps * 10 ^ d.exponent.toNat * 2 ^ finestBits) * 10 ^ (-d'.exponent).toNat =
      2 * (d'.steps * 10 ^ d'.exponent.toNat * 2 ^ finestBits) * 10 ^ (-d.exponent).toNat := by
    calc _ = 2 * (d.steps * 10 ^ d.exponent.toNat * 10 ^ (-d'.exponent).toNat) * 2 ^ finestBits := by ring
      _ = _ := by rw [hsame]; ring
  obtain ⟨hatHigh, hatLow, hends⟩ := eq_of_squeeze (Nat.pow_pos (by decide)) (Nat.pow_pos (by decide))
    hhigh hlow hvalue (Nat.add_le_add hprevious hnext)
  have hneighbours : u + 1 = w := scaled_strictMono.injective (by omega)
  have heven := htie (.inr hatHigh)
  have heven' := htie' (.inl hatLow)
  omega

theorem ReadsBack.unique (h : d.ReadsBack u) (h' : d'.ReadsBack w) (hsame : d.SameValue d') : u = w :=
  Nat.le_antisymm (h'.le h hsame.symm) (h.le h' hsame)

/-! ## The search -/

/-- All doubles lie on the grid of `2 ^ -1074`, so on that of `10 ^ -1074`. -/
theorem withExponent?_finest (hu : u ≠ 0) : (withExponent? (-finestBits) u).isSome := by
  rw [withExponent?]
  simp only [Nat.pow_eq, Option.isSome_map]
  generalize finestBits = b
  have hdown : (-(b : Int)).toNat = 0 := Int.toNat_of_nonpos (by omega)
  have hup : (- -(b : Int)).toNat = b := by omega
  rw [hdown, hup, pow_zero, Nat.one_mul]
  have hten : 2 ^ b ∣ 10 ^ b := pow_dvd_pow_of_dvd (by decide) b
  have hgrid : 2 ^ (b - Interval.coarseness u) ∣ 10 ^ b := (Nat.pow_dvd_pow 2 (Nat.sub_le _ _)).trans hten
  exact Interval.point?_isSome (Nat.dvd_mul_left_of_dvd (Nat.dvd_mul_right_of_dvd hgrid _) _)
    (Interval.holds_value hu (Nat.mul_pos (Nat.pow_pos (by decide)) (Nat.two_pow_pos _)))

theorem readsBack_of_search {fuel : Nat} {exponent : Int} (h : search fuel exponent u = some d) :
    d.ReadsBack u := by
  induction fuel generalizing exponent with
  | zero => cases h
  | succ fuel ih =>
    rw [search, Option.or_eq_some_iff] at h
    rcases h with h | ⟨_, h⟩
    · exact readsBack_of_withExponent? h
    · exact ih h

theorem search_isSome {fuel k : Nat} {exponent : Int} (hk : k < fuel)
    (h : (withExponent? (exponent - k) u).isSome) : (search fuel exponent u).isSome := by
  induction fuel generalizing exponent k with
  | zero => cases hk
  | succ fuel ih =>
    rw [search, Option.isSome_or, Bool.or_eq_true]
    cases k with
    | zero => exact .inl (by simpa using h)
    | succ k =>
      refine .inr (ih (Nat.lt_of_succ_lt_succ hk) ?_)
      have hnext : exponent - 1 - (k : Int) = exponent - ((k + 1 : Nat) : Int) := by omega
      rwa [hnext]

theorem startExponent_ge (u : Nat) : -(finestBits : Int) ≤ startExponent u := by
  rw [startExponent, finestBits]
  omega

theorem readsBack_zero : ReadsBack ⟨0, 0⟩ 0 := by
  refine ⟨?_, ?_, fun _ => rfl⟩
  · rw [show scaled (0 - 1) + scaled 0 = 0 from rfl, Nat.zero_mul]
    exact Nat.zero_le _
  · rw [Nat.zero_mul, Nat.zero_mul, Nat.mul_zero]
    exact Nat.zero_le _

/-- **The shortest decimal of a finite double reads back as the double.** -/
theorem shortest_readsBack (u : Nat) : (shortest u).ReadsBack u := by
  rw [shortest]
  split
  · next hzero =>
    subst hzero
    exact readsBack_zero
  · next hpositive =>
    have hstart := startExponent_ge u
    obtain ⟨k, hk⟩ : ∃ k : Nat, (k : Int) = startExponent u + finestBits :=
      ⟨_, Int.toNat_of_nonneg (by omega)⟩
    have hlast : startExponent u - k = -finestBits := by omega
    have hfound := withExponent?_finest hpositive
    rw [← hlast] at hfound
    have htried : k < (startExponent u + finestBits + 1).toNat := by omega
    obtain ⟨d, hd⟩ := Option.isSome_iff_exists.mp (search_isSome htried hfound)
    rw [hd]
    exact readsBack_of_search hd

end Decimal

end Lox.Number
