/-!
# Bindings

The names bound in one frame with their values, as a list that is strictly sorted by name. The order
is part of the type, so bindings with the same values under the same names are equal, and the list of
names is their sorted view.
-/

namespace Lox

variable {α : Type}

/-- Values under names, in strictly increasing order of the names. -/
structure Bindings (α : Type) where
  entries : List (String × α)
  sorted : entries.Pairwise fun a b => a.1 < b.1

namespace Bindings

def empty : Bindings α := ⟨[], .nil⟩

instance : Inhabited (Bindings α) := ⟨empty⟩

/-- The bound names in increasing order. -/
def names (b : Bindings α) : List String := b.entries.map Prod.fst

def get? (b : Bindings α) (name : String) : Option α := b.entries.lookup name

/-- Put a value under a name into a sorted list of entries. -/
def place (name : String) (value : α) : List (String × α) → List (String × α)
  | [] => [(name, value)]
  | (k, w) :: rest =>
    if name < k then (name, value) :: (k, w) :: rest
    else if name = k then (name, value) :: rest
    else (k, w) :: place name value rest

theorem mem_place {name : String} {value : α} {l : List (String × α)} {e : String × α}
    (h : e ∈ place name value l) : e = (name, value) ∨ e ∈ l := by
  induction l with
  | nil => simpa [place] using h
  | cons a rest ih => grind [place]

theorem pairwise_place (name : String) (value : α) {l : List (String × α)}
    (h : l.Pairwise fun a b => a.1 < b.1) : (place name value l).Pairwise fun a b => a.1 < b.1 := by
  induction l with
  | nil => simp [place]
  | cons a rest ih =>
    obtain ⟨k, w⟩ := a
    obtain ⟨hk, hrest⟩ := List.pairwise_cons.1 h
    simp only [place]
    split
    · next hlt =>
      refine List.pairwise_cons.2 ⟨fun e he => ?_, h⟩
      rcases List.mem_cons.1 he with rfl | he
      · exact hlt
      · exact String.lt_trans hlt (hk e he)
    · split
      · next heq => exact List.pairwise_cons.2 ⟨fun e he => heq ▸ hk e he, hrest⟩
      · next hlt hne =>
        refine List.pairwise_cons.2 ⟨fun e he => ?_, ih hrest⟩
        rcases mem_place he with rfl | he
        · exact Std.lt_of_le_of_ne (String.not_lt.1 hlt) (Ne.symm hne)
        · exact hk e he

/-- Bind a name to a value, whether or not it was bound before. -/
def set (b : Bindings α) (name : String) (value : α) : Bindings α :=
  ⟨place name value b.entries, pairwise_place name value b.sorted⟩

/-! ## Reading after writing -/

@[ext] theorem ext {b c : Bindings α} (h : b.entries = c.entries) : b = c := by
  cases b; cases c; cases h; rfl

@[simp] theorem get?_empty (name : String) : (empty : Bindings α).get? name = none := rfl

theorem lookup_place_self (name : String) (value : α) (l : List (String × α)) :
    (place name value l).lookup name = some value := by
  induction l with
  | nil => simp [place]
  | cons a rest ih =>
    obtain ⟨k, w⟩ := a
    simp only [place]
    split
    · simp
    · split
      · simp
      · next hne => simpa [List.lookup_cons, beq_false_of_ne hne] using ih

theorem lookup_place_of_ne {name other : String} (h : other ≠ name) (value : α)
    (l : List (String × α)) : (place name value l).lookup other = l.lookup other := by
  induction l with
  | nil => simp [place, List.lookup_cons, beq_false_of_ne h]
  | cons a rest ih =>
    obtain ⟨k, w⟩ := a
    simp only [place]
    split
    · simp [List.lookup_cons, beq_false_of_ne h]
    · split
      · next heq => subst heq; simp [List.lookup_cons, beq_false_of_ne h]
      · simp [List.lookup_cons, ih]

@[simp] theorem get?_set_self (b : Bindings α) (name : String) (value : α) :
    (b.set name value).get? name = some value := lookup_place_self name value b.entries

theorem get?_set_of_ne {name other : String} (h : other ≠ name) (b : Bindings α) (value : α) :
    (b.set name value).get? other = b.get? other := lookup_place_of_ne h value b.entries

end Bindings

end Lox
