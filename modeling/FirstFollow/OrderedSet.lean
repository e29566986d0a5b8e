/-! Finite sets kept as strictly ascending lists, so that sets with the same members are equal. -/

namespace FirstFollow

/-- A decidable strict order in which any two different elements are comparable. -/
class StrictOrder (α : Type) extends LT α where
  decLT : ∀ a b : α, Decidable (a < b)
  irrefl : ∀ a : α, ¬ a < a
  trans : ∀ {a b c : α}, a < b → b < c → a < c
  trichotomy : ∀ a b : α, a < b ∨ a = b ∨ b < a

namespace StrictOrder

variable {α : Type} [StrictOrder α]

instance (a b : α) : Decidable (a < b) := decLT a b

theorem asymm {a b : α} (h : a < b) : ¬ b < a := fun h' => irrefl a (trans h h')

theorem lt_of_ne_of_not_lt {a b : α} (h : a ≠ b) (h' : ¬ a < b) : b < a :=
  ((trichotomy a b).resolve_left h').resolve_left h

end StrictOrder

/-- Strings are ordered by their code points. -/
instance : StrictOrder String where
  decLT := inferInstance
  irrefl := String.lt_irrefl
  trans := String.lt_trans
  trichotomy a b := by
    by_cases h : a < b
    · exact .inl h
    · by_cases h' : b < a
      · exact .inr (.inr h')
      · exact .inr (.inl (String.le_antisymm (String.not_lt.mp h') (String.not_lt.mp h)))

variable {α : Type} [StrictOrder α]

/-! ### Merging -/

section Merging

variable [DecidableEq α]

/-- The ascending list of the members of two ascending lists. The second list is consumed by the
inner function. -/
def merge : List α → List α → List α
  | [] => id
  | x :: xs => into x (merge xs)
where
  into (x : α) (rest : List α → List α) : List α → List α
    | [] => x :: rest []
    | y :: ys =>
      if x = y then x :: rest ys
      else if x < y then x :: rest (y :: ys)
      else y :: into x rest ys

@[simp] theorem merge_nil_left (ys : List α) : merge [] ys = ys := rfl

theorem merge_cons_nil (x : α) (xs : List α) : merge (x :: xs) [] = x :: merge xs [] := rfl

theorem merge_cons_cons (x y : α) (xs ys : List α) :
    merge (x :: xs) (y :: ys) =
      if x = y then x :: merge xs ys
      else if x < y then x :: merge xs (y :: ys)
      else y :: merge (x :: xs) ys := rfl

@[simp] theorem mem_merge {a : α} {xs ys : List α} : a ∈ merge xs ys ↔ a ∈ xs ∨ a ∈ ys := by
  induction xs generalizing ys with
  | nil => simp
  | cons x xs ihx =>
    induction ys with
    | nil => simp [merge_cons_nil, ihx]
    | cons y ys ihy =>
      rw [merge_cons_cons]
      split
      next h =>
        subst h
        simp only [List.mem_cons, ihx]
        constructor
        · rintro (h | h | h) <;> simp [h]
        · rintro ((h | h) | h | h) <;> simp [h]
      next =>
        split
        · simp [ihx, or_assoc]
        · simp [ihy, or_left_comm]

theorem merge_ascending {xs ys : List α} (hx : xs.Pairwise (· < ·)) (hy : ys.Pairwise (· < ·)) :
    (merge xs ys).Pairwise (· < ·) := by
  induction xs generalizing ys with
  | nil => exact hy
  | cons x xs ihx =>
    have hx' := List.pairwise_cons.1 hx
    induction ys with
    | nil =>
      rw [merge_cons_nil, List.pairwise_cons]
      exact ⟨fun a ha => by simpa using hx'.1 a (by simpa using ha), ihx hx'.2 .nil⟩
    | cons y ys ihy =>
      have hy' := List.pairwise_cons.1 hy
      rw [merge_cons_cons]
      split
      next h =>
        subst h
        refine List.pairwise_cons.2 ⟨fun a ha => ?_, ihx hx'.2 hy'.2⟩
        rcases mem_merge.1 ha with ha | ha
        · exact hx'.1 a ha
        · exact hy'.1 a ha
      next hne =>
        split
        next hlt =>
          refine List.pairwise_cons.2 ⟨fun a ha => ?_, ihx hx'.2 hy⟩
          rcases mem_merge.1 ha with ha | ha
          · exact hx'.1 a ha
          · rcases List.mem_cons.1 ha with rfl | ha
            · exact hlt
            · exact StrictOrder.trans hlt (hy'.1 a ha)
        next hnlt =>
          have hgt := StrictOrder.lt_of_ne_of_not_lt hne hnlt
          refine List.pairwise_cons.2 ⟨fun a ha => ?_, ihy hy'.2⟩
          rcases mem_merge.1 ha with ha | ha
          · rcases List.mem_cons.1 ha with rfl | ha
            · exact hgt
            · exact StrictOrder.trans hgt (hx'.1 a ha)
          · exact hy'.1 a ha

end Merging

/-- Ascending lists with the same members are equal. -/
theorem eq_of_ascending {xs ys : List α} (hx : xs.Pairwise (· < ·)) (hy : ys.Pairwise (· < ·))
    (h : ∀ a, a ∈ xs ↔ a ∈ ys) : xs = ys := by
  induction xs generalizing ys with
  | nil =>
    cases ys with
    | nil => rfl
    | cons y ys => simpa using (h y).2 (by simp)
  | cons x xs ih =>
    cases ys with
    | nil => simpa using (h x).1 (by simp)
    | cons y ys =>
      have hx' := List.pairwise_cons.1 hx
      have hy' := List.pairwise_cons.1 hy
      have hxy : x = y := by
        rcases List.mem_cons.1 ((h x).1 (by simp)) with hxy | hxy
        · exact hxy
        · rcases List.mem_cons.1 ((h y).2 (by simp)) with hyx | hyx
          · exact hyx.symm
          · exact absurd (hx'.1 y hyx) (StrictOrder.asymm (hy'.1 x hxy))
      subst hxy
      congr 1
      refine ih hx'.2 hy'.2 fun a => ⟨fun ha => ?_, fun ha => ?_⟩
      · rcases List.mem_cons.1 ((h a).1 (by simp [ha])) with rfl | ha'
        · exact absurd (hx'.1 a ha) (StrictOrder.irrefl a)
        · exact ha'
      · rcases List.mem_cons.1 ((h a).2 (by simp [ha])) with rfl | ha'
        · exact absurd (hy'.1 a ha) (StrictOrder.irrefl a)
        · exact ha'

/-! ### Sets -/

structure OrderedSet (α : Type) [StrictOrder α] where
  toList : List α
  ascending : toList.Pairwise (· < ·)

namespace OrderedSet

instance [DecidableEq α] : DecidableEq (OrderedSet α) := fun a b =>
  decidable_of_iff (a.toList = b.toList) <| by
    cases a; cases b; simp

instance : Membership α (OrderedSet α) := ⟨fun s a => a ∈ s.toList⟩

theorem mem_def {s : OrderedSet α} {a : α} : a ∈ s ↔ a ∈ s.toList := Iff.rfl

instance [DecidableEq α] (a : α) (s : OrderedSet α) : Decidable (a ∈ s) :=
  inferInstanceAs (Decidable (a ∈ s.toList))

@[ext] protected theorem ext {s t : OrderedSet α} (h : ∀ a, a ∈ s ↔ a ∈ t) : s = t := by
  cases s with | mk xs hx =>
  cases t with | mk ys hy =>
  congr
  exact eq_of_ascending hx hy h

instance : EmptyCollection (OrderedSet α) := ⟨⟨[], .nil⟩⟩

instance : Inhabited (OrderedSet α) := ⟨∅⟩

@[simp] theorem not_mem_empty (a : α) : ¬ a ∈ (∅ : OrderedSet α) := List.not_mem_nil

instance : Singleton α (OrderedSet α) := ⟨fun a => ⟨[a], List.pairwise_singleton _ _⟩⟩

@[simp] theorem mem_singleton {a b : α} : a ∈ ({b} : OrderedSet α) ↔ a = b :=
  List.mem_singleton

def size (s : OrderedSet α) : Nat := s.toList.length

instance : HasSubset (OrderedSet α) := ⟨fun s t => ∀ a, a ∈ s → a ∈ t⟩

theorem subset_def {s t : OrderedSet α} : s ⊆ t ↔ ∀ a, a ∈ s → a ∈ t := Iff.rfl

@[simp] theorem subset_refl (s : OrderedSet α) : s ⊆ s := fun _ => id

theorem subset_trans {s t u : OrderedSet α} (h : s ⊆ t) (h' : t ⊆ u) : s ⊆ u :=
  fun a ha => h' a (h a ha)

theorem subset_antisymm {s t : OrderedSet α} (h : s ⊆ t) (h' : t ⊆ s) : s = t :=
  OrderedSet.ext fun a => ⟨h a, h' a⟩

variable [DecidableEq α]

/-- The second set is put into the first, which costs little if it is small. -/
instance : Union (OrderedSet α) :=
  ⟨fun s t => ⟨merge t.toList s.toList, merge_ascending t.ascending s.ascending⟩⟩

@[simp] theorem mem_union {a : α} {s t : OrderedSet α} : a ∈ s ∪ t ↔ a ∈ s ∨ a ∈ t :=
  mem_merge.trans or_comm

def ofList (xs : List α) : OrderedSet α := xs.foldr (fun a s => s ∪ {a}) ∅

@[simp] theorem mem_ofList {a : α} {xs : List α} : a ∈ ofList xs ↔ a ∈ xs := by
  induction xs with
  | nil => simp [ofList]
  | cons x xs ih =>
    rw [ofList, List.foldr_cons, mem_union, mem_singleton, List.mem_cons, or_comm]
    exact or_congr_right ih

theorem subset_iff_union_eq {s t : OrderedSet α} : s ⊆ t ↔ t ∪ s = t := by
  constructor
  · intro h
    ext a
    simp only [mem_union]
    exact ⟨fun ha => ha.elim id (h a), .inl⟩
  · intro h a ha
    rw [← h]
    exact mem_union.2 (.inr ha)

/-- One merge decides inclusion. -/
instance (s t : OrderedSet α) : Decidable (s ⊆ t) :=
  decidable_of_iff (t ∪ s = t) subset_iff_union_eq.symm

/-- The members other than `a`. -/
def erase (s : OrderedSet α) (a : α) : OrderedSet α :=
  ⟨s.toList.filter (· ≠ a), s.ascending.filter _⟩

@[simp] theorem mem_erase {a b : α} {s : OrderedSet α} : a ∈ s.erase b ↔ a ∈ s ∧ a ≠ b := by
  simp [erase, mem_def]

instance : Inter (OrderedSet α) := ⟨fun s t => ⟨s.toList.filter (· ∈ t), s.ascending.filter _⟩⟩

@[simp] theorem mem_inter {a : α} {s t : OrderedSet α} : a ∈ s ∩ t ↔ a ∈ s ∧ a ∈ t := by
  show a ∈ s.toList.filter (· ∈ t) ↔ _
  simp [mem_def]

end OrderedSet

end FirstFollow
