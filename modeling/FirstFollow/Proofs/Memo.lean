import FirstFollow.Proofs.Script
import Mathlib.Data.Finset.Card

/-!
The state of a memo between and within runs: the laws that every memo in use obeys (`Memo.Wf`),
the order in which a memo grows (`Memo.Extends`), and what closing the top of the stack does.
-/

namespace FirstFollow

namespace Keyed

variable {κ ν : Type} [DecidableEq κ]

theorem mem_keys_iff {a : Keyed κ ν} {k : κ} : k ∈ a.keys ↔ ∃ v, a.get? k = some v := by
  rw [← mem_def, ← get?_isSome_iff, Option.isSome_iff_exists]

end Keyed

namespace Memo

variable {m m' m'' : Memo} {n x : Symbol} {A : SymbolSet} {mark : Nat}

/-! ### Laws of a memo -/

/-- The unfinished sets are those on the stack, in its order and under ascending numbers, and no
set is both finished and unfinished. -/
structure Wf (m : Memo) : Prop where
  keys_eq : m.unfinished.keys = m.group
  ascending : m.group.Pairwise fun x y => ∀ u v,
    m.unfinished.get? x = some u → m.unfinished.get? y = some v → u.number < v.number
  below : ∀ x u, m.unfinished.get? x = some u → u.number < m.count
  apart : ∀ x ∈ m.group, m.done.get? x = none
  count_eq : m.count = m.done.size + m.group.length

theorem Wf.nodup (h : m.Wf) : m.group.Nodup := h.keys_eq ▸ m.unfinished.keys_nodup

theorem Wf.mem_group_iff (h : m.Wf) : x ∈ m.group ↔ ∃ u, m.unfinished.get? x = some u := by
  rw [← h.keys_eq, Keyed.mem_keys_iff]

theorem Wf.not_mem_group (h : m.Wf) (hx : m.unfinished.get? x = none) : x ∉ m.group := by
  rw [h.mem_group_iff]
  simp [hx]

theorem Wf.unfinished_of_empty (h : m.Wf) (hempty : m.group = []) (x : Symbol) :
    m.unfinished.get? x = none := by
  by_contra hu
  obtain ⟨u, hu⟩ := Option.ne_none_iff_exists'.1 hu
  have hmem := h.mem_group_iff.2 ⟨u, hu⟩
  simp [hempty] at hmem

theorem Wf.unfinished_of_done (h : m.Wf) (hx : m.done.get? x = some A) :
    m.unfinished.get? x = none := by
  by_contra hu
  obtain ⟨u, hu⟩ := Option.ne_none_iff_exists'.1 hu
  have hd := h.apart x (h.mem_group_iff.2 ⟨u, hu⟩)
  simp [hd] at hx

theorem fresh_wf (kind : SetKind) : (fresh kind).Wf where
  keys_eq := rfl
  ascending := .nil
  below := by simp [fresh]
  apart := by simp [fresh]
  count_eq := rfl

/-! ### Single changes -/

theorem get?_start (m : Memo) (n x : Symbol) : (m.start n).unfinished.get? x =
    if x = n then some ⟨m.count, ∅⟩ else m.unfinished.get? x :=
  Keyed.get?_set ..

@[simp] theorem start_group (m : Memo) (n : Symbol) : (m.start n).group = m.group ++ [n] := rfl

@[simp] theorem start_done (m : Memo) (n : Symbol) : (m.start n).done = m.done := rfl

@[simp] theorem start_count (m : Memo) (n : Symbol) : (m.start n).count = m.count + 1 := rfl

theorem Wf.start (h : m.Wf) (hd : m.done.get? n = none) (hu : m.unfinished.get? n = none) :
    (m.start n).Wf where
  keys_eq := by
    have hn : n ∉ m.unfinished := by rwa [← Keyed.get?_eq_none_iff]
    simp only [Memo.start, Keyed.keys_set, hn, if_false, h.keys_eq]
  ascending := by
    refine List.pairwise_append.2 ⟨h.ascending.imp_of_mem ?_, List.pairwise_singleton _ _, ?_⟩
    · intro x y hx hy hxy
      have hxn : x ≠ n := fun e => h.not_mem_group hu (e ▸ hx)
      have hyn : y ≠ n := fun e => h.not_mem_group hu (e ▸ hy)
      simpa [get?_start, hxn, hyn] using hxy
    · intro x hx y hy u v hxu hyv
      have hxn : x ≠ n := fun e => h.not_mem_group hu (e ▸ hx)
      obtain rfl := List.mem_singleton.1 hy
      rw [get?_start, if_neg hxn] at hxu
      rw [get?_start, if_pos rfl] at hyv
      cases hyv
      exact h.below x u hxu
  below := by
    intro x u hx
    rw [get?_start] at hx
    rw [start_count]
    split at hx
    · cases hx
      exact Nat.lt_succ_self _
    · exact Nat.lt_succ_of_lt (h.below x u hx)
  apart := by
    intro x hx
    rcases List.mem_append.1 hx with hx | hx
    · exact h.apart x hx
    · rw [List.mem_singleton.1 hx]
      exact hd
  count_eq := by
    simp only [start_count, start_done, start_group, List.length_append, List.length_singleton,
      h.count_eq]
    omega

theorem get?_grow (m : Memo) (n x : Symbol) (A : SymbolSet) : (m.grow n A).unfinished.get? x =
    (m.unfinished.get? x).map fun u => if x = n then ⟨u.number, u.part ∪ A⟩ else u := by
  unfold grow
  cases hn : m.unfinished.get? n with
  | none =>
    cases hx : m.unfinished.get? x with
    | none => simp
    | some u =>
      have hne : x ≠ n := by
        rintro rfl
        simp [hn] at hx
      simp [hne]
  | some u =>
    by_cases hx : x = n
    · subst hx
      simp [Keyed.get?_set, hn]
    · simp [Keyed.get?_set, hx]

@[simp] theorem grow_group (m : Memo) (n : Symbol) (A : SymbolSet) :
    (m.grow n A).group = m.group := by
  unfold grow; split <;> rfl

@[simp] theorem grow_done (m : Memo) (n : Symbol) (A : SymbolSet) :
    (m.grow n A).done = m.done := by
  unfold grow; split <;> rfl

@[simp] theorem grow_count (m : Memo) (n : Symbol) (A : SymbolSet) :
    (m.grow n A).count = m.count := by
  unfold grow; split <;> rfl

@[simp] theorem grow_kind (m : Memo) (n : Symbol) (A : SymbolSet) :
    (m.grow n A).kind = m.kind := by
  unfold grow; split <;> rfl

theorem get?_grow_number {u : Unfinished} (h : (m.grow n A).unfinished.get? x = some u) :
    ∃ u', m.unfinished.get? x = some u' ∧ u'.number = u.number := by
  rw [get?_grow] at h
  obtain ⟨u', hu', rfl⟩ := Option.map_eq_some_iff.1 h
  exact ⟨u', hu', by split <;> rfl⟩

theorem keys_grow (m : Memo) (n : Symbol) (A : SymbolSet) :
    (m.grow n A).unfinished.keys = m.unfinished.keys := by
  unfold grow
  split
  · rfl
  next u hu =>
    have hn : n ∈ m.unfinished := Keyed.mem_def.2 (Keyed.mem_keys_iff.2 ⟨u, hu⟩)
    simp [Keyed.keys_set, hn]

theorem Wf.grow (h : m.Wf) (n : Symbol) (A : SymbolSet) : (m.grow n A).Wf where
  keys_eq := by rw [keys_grow, grow_group, h.keys_eq]
  ascending := by
    rw [grow_group]
    apply h.ascending.imp
    intro x y hxy u v hu hv
    obtain ⟨u', hu', hun⟩ := get?_grow_number hu
    obtain ⟨v', hv', hvn⟩ := get?_grow_number hv
    rw [← hun, ← hvn]
    exact hxy u' v' hu' hv'
  below := by
    intro x u hu
    obtain ⟨u', hu', hun⟩ := get?_grow_number hu
    rw [← hun, grow_count]
    exact h.below x u' hu'
  apart := by simpa using h.apart
  count_eq := by simpa using h.count_eq

/-! ### Closing -/

/-- The set of `n` is taken as it is. -/
def finish (m : Memo) (n : Symbol) : Memo :=
  match m.part? n with
  | some A => m.complete n A
  | none => m

/-- What stands on the stack above `mark` is finished. -/
def close (m : Memo) (mark : Nat) : Memo :=
  (m.group.drop mark).foldl finish { m with group := m.group.take mark }

theorem finish_get? {u : Unfinished} (hn : m.unfinished.get? n = some u) (x : Symbol) :
    (m.finish n).unfinished.get? x = (if x = n then none else m.unfinished.get? x) ∧
      (m.finish n).done.get? x = if x = n then some u.part else m.done.get? x := by
  simp [finish, part?, hn, complete, Keyed.get?_erase, Keyed.get?_set]

@[simp] theorem finish_group (m : Memo) (n : Symbol) : (m.finish n).group = m.group := by
  unfold finish; split <;> rfl

@[simp] theorem finish_count (m : Memo) (n : Symbol) : (m.finish n).count = m.count := by
  unfold finish; split <;> rfl

@[simp] theorem finish_kind (m : Memo) (n : Symbol) : (m.finish n).kind = m.kind := by
  unfold finish; split <;> rfl

@[simp] theorem foldl_finish_group (m : Memo) (ns : List Symbol) :
    (ns.foldl finish m).group = m.group := by
  induction ns generalizing m with
  | nil => rfl
  | cons n ns ih => rw [List.foldl_cons, ih, finish_group]

@[simp] theorem foldl_finish_count (m : Memo) (ns : List Symbol) :
    (ns.foldl finish m).count = m.count := by
  induction ns generalizing m with
  | nil => rfl
  | cons n ns ih => rw [List.foldl_cons, ih, finish_count]

@[simp] theorem foldl_finish_kind (m : Memo) (ns : List Symbol) :
    (ns.foldl finish m).kind = m.kind := by
  induction ns generalizing m with
  | nil => rfl
  | cons n ns ih => rw [List.foldl_cons, ih, finish_kind]

theorem foldl_finish_get? {ns : List Symbol} (hns : ns.Nodup)
    (h : ∀ n ∈ ns, ∃ u, m.unfinished.get? n = some u) (x : Symbol) :
    (ns.foldl finish m).unfinished.get? x = (if x ∈ ns then none else m.unfinished.get? x) ∧
      (ns.foldl finish m).done.get? x = if x ∈ ns then m.part? x else m.done.get? x := by
  induction ns generalizing m with
  | nil => simp
  | cons n ns ih =>
    obtain ⟨u, hu⟩ := h n (by simp)
    have hn := (List.nodup_cons.1 hns).1
    have hrest : ∀ y ∈ ns, ∃ v, (m.finish n).unfinished.get? y = some v := by
      intro y hy
      have hyn : y ≠ n := fun e => hn (e ▸ hy)
      rw [(finish_get? hu y).1, if_neg hyn]
      exact h y (by simp [hy])
    rw [List.foldl_cons, (ih (List.nodup_cons.1 hns).2 hrest).1,
      (ih (List.nodup_cons.1 hns).2 hrest).2, (finish_get? hu x).1, (finish_get? hu x).2]
    by_cases hx : x = n
    · subst hx
      simp [hn, part?, hu]
    · simp [hx, part?, (finish_get? hu x).1]

theorem foldl_finish_keys {ns : List Symbol} (hns : ns.Nodup)
    (h : ∀ n ∈ ns, ∃ u, m.unfinished.get? n = some u) (hd : ∀ n ∈ ns, m.done.get? n = none) :
    (ns.foldl finish m).unfinished.keys = m.unfinished.keys.filter (· ∉ ns) ∧
      (ns.foldl finish m).done.keys = m.done.keys ++ ns := by
  induction ns generalizing m with
  | nil => simp [List.filter_true]
  | cons n ns ih =>
    obtain ⟨u, hu⟩ := h n (by simp)
    have hn := (List.nodup_cons.1 hns).1
    have hnd : n ∉ m.done := Keyed.get?_eq_none_iff.1 (hd n (by simp))
    have hne : ∀ y ∈ ns, y ≠ n := fun y hy e => hn (e ▸ hy)
    have hrest : ∀ y ∈ ns, ∃ v, (m.finish n).unfinished.get? y = some v := by
      intro y hy
      rw [(finish_get? hu y).1, if_neg (hne y hy)]
      exact h y (by simp [hy])
    have hdone : ∀ y ∈ ns, (m.finish n).done.get? y = none := by
      intro y hy
      rw [(finish_get? hu y).2, if_neg (hne y hy)]
      exact hd y (by simp [hy])
    have hkeys : (m.finish n).unfinished.keys = m.unfinished.keys.filter (· ≠ n) ∧
        (m.finish n).done.keys = m.done.keys ++ [n] := by
      simp [finish, part?, hu, complete, Keyed.keys_set, hnd]
    rw [List.foldl_cons, (ih (List.nodup_cons.1 hns).2 hrest hdone).1,
      (ih (List.nodup_cons.1 hns).2 hrest hdone).2, hkeys.1, hkeys.2, List.filter_filter]
    refine ⟨List.filter_congr fun y _ => ?_, by simp⟩
    simp [Bool.and_comm]

@[simp] theorem close_group (m : Memo) (mark : Nat) : (m.close mark).group = m.group.take mark := by
  simp [close]

@[simp] theorem close_count (m : Memo) (mark : Nat) : (m.close mark).count = m.count := by
  simp [close]

@[simp] theorem close_kind (m : Memo) (mark : Nat) : (m.close mark).kind = m.kind := by
  simp [close]

theorem Wf.mem_drop (h : m.Wf) : ∀ x ∈ m.group.drop mark, ∃ u, m.unfinished.get? x = some u :=
  fun _ hx => h.mem_group_iff.1 (List.drop_subset mark _ hx)

theorem Wf.nodup_drop (h : m.Wf) : (m.group.drop mark).Nodup :=
  h.nodup.sublist (List.drop_sublist mark _)

theorem Wf.close_unfinished (h : m.Wf) (mark : Nat) (x : Symbol) :
    (m.close mark).unfinished.get? x =
      if x ∈ m.group.drop mark then none else m.unfinished.get? x :=
  (foldl_finish_get? (m := { m with group := m.group.take mark }) h.nodup_drop h.mem_drop x).1

theorem Wf.close_done (h : m.Wf) (mark : Nat) (x : Symbol) : (m.close mark).done.get? x =
    if x ∈ m.group.drop mark then m.part? x else m.done.get? x :=
  (foldl_finish_get? (m := { m with group := m.group.take mark }) h.nodup_drop h.mem_drop x).2

theorem Wf.not_mem_drop_of_done (h : m.Wf) (hx : m.done.get? x = some A) :
    x ∉ m.group.drop mark := by
  intro hd
  simp [h.apart x (List.drop_subset mark _ hd)] at hx

/-- Closing leaves finished sets alone. -/
theorem Wf.close_done_of_done (h : m.Wf) (hx : m.done.get? x = some A) :
    (m.close mark).done.get? x = some A := by
  rw [h.close_done, if_neg (h.not_mem_drop_of_done hx), hx]

theorem Wf.not_mem_drop (h : m.Wf) (hx : x ∈ m.group.take mark) : x ∉ m.group.drop mark := by
  have hn := h.nodup
  rw [← List.take_append_drop mark m.group] at hn
  exact fun hd => (List.nodup_append.1 hn).2.2 x hx x hd rfl

theorem Wf.close_keys (h : m.Wf) (mark : Nat) :
    (m.close mark).unfinished.keys = m.unfinished.keys.filter (· ∉ m.group.drop mark) ∧
      (m.close mark).done.keys = m.done.keys ++ m.group.drop mark :=
  foldl_finish_keys (m := { m with group := m.group.take mark }) h.nodup_drop h.mem_drop
    fun x hx => h.apart x (List.drop_subset mark _ hx)

theorem Wf.close (h : m.Wf) (mark : Nat) : (m.close mark).Wf where
  keys_eq := by
    rw [(h.close_keys mark).1, close_group, h.keys_eq]
    conv_lhs => rw [← List.take_append_drop mark m.group]
    rw [List.filter_append]
    have htake : (m.group.take mark).filter (· ∉ m.group.drop mark) = m.group.take mark :=
      List.filter_eq_self.2 fun x hx => by simpa using h.not_mem_drop hx
    have hdrop : (m.group.drop mark).filter (· ∉ m.group.drop mark) = [] :=
      List.filter_eq_nil_iff.2 fun x hx => by simpa using hx
    simp only [List.take_append_drop]
    rw [htake, hdrop, List.append_nil]
  ascending := by
    rw [close_group]
    apply (h.ascending.sublist (List.take_sublist mark _)).imp_of_mem
    intro x y hx hy hxy
    simpa [h.close_unfinished, h.not_mem_drop hx, h.not_mem_drop hy] using hxy
  below := by
    intro x u hu
    rw [h.close_unfinished] at hu
    split at hu
    · cases hu
    · simpa using h.below x u hu
  apart := by
    intro x hx
    rw [close_group] at hx
    rw [h.close_done, if_neg (h.not_mem_drop hx)]
    exact h.apart x (List.take_subset mark _ hx)
  count_eq := by
    have hk := congrArg List.length (h.close_keys mark).2
    have hc := h.count_eq
    rw [List.length_append, Keyed.length_keys, Keyed.length_keys, List.length_drop] at hk
    rw [close_count, close_group, hk, List.length_take]
    omega

/-! ### Growth -/

/-- Finished sets stay as they are, unfinished ones stay on the stack and may grow, and what is
begun gets a new number. -/
structure Extends (m m' : Memo) : Prop where
  kind : m'.kind = m.kind
  done : ∀ x A, m.done.get? x = some A → m'.done.get? x = some A
  group : m.group <+: m'.group
  opened : ∀ x u, m.unfinished.get? x = some u →
    ∃ u', m'.unfinished.get? x = some u' ∧ u'.number = u.number ∧ u.part ⊆ u'.part
  fresh : ∀ x u', m'.unfinished.get? x = some u' → m.unfinished.get? x = none →
    m.count ≤ u'.number
  count : m.count ≤ m'.count

theorem Extends.refl (m : Memo) : m.Extends m where
  kind := rfl
  done _ _ := id
  group := List.prefix_refl _
  opened x u hu := ⟨u, hu, rfl, by simp⟩
  fresh x u hu hx := by simp [hx] at hu
  count := le_rfl

theorem Extends.trans (h : m.Extends m') (h' : m'.Extends m'') : m.Extends m'' where
  kind := h'.kind.trans h.kind
  done x A hx := h'.done x A (h.done x A hx)
  group := h.group.trans h'.group
  opened x u hu := by
    obtain ⟨u', hu', hn, hp⟩ := h.opened x u hu
    obtain ⟨u'', hu'', hn', hp'⟩ := h'.opened x u' hu'
    exact ⟨u'', hu'', hn'.trans hn, OrderedSet.subset_trans hp hp'⟩
  fresh x u'' hu'' hx := by
    cases hx' : m'.unfinished.get? x with
    | none => exact h.count.trans (h'.fresh x u'' hu'' hx')
    | some u' =>
      obtain ⟨v, hv, hn, -⟩ := h'.opened x u' hx'
      obtain rfl : v = u'' := Option.some.inj (hv.symm.trans hu'')
      exact hn ▸ h.fresh x u' hx' hx
  count := h.count.trans h'.count

theorem Extends.start (hu : m.unfinished.get? n = none) : m.Extends (m.start n) where
  kind := rfl
  done _ _ := id
  group := List.prefix_append _ _
  opened x u hx := by
    have hxn : x ≠ n := by
      rintro rfl
      simp [hu] at hx
    exact ⟨u, by simp [get?_start, hxn, hx], rfl, by simp⟩
  fresh x u' hu' hx := by
    rw [get?_start, hx] at hu'
    split at hu'
    · cases hu'
      exact le_rfl
    · cases hu'
  count := Nat.le_succ _

theorem Extends.grow (m : Memo) (n : Symbol) (A : SymbolSet) : m.Extends (m.grow n A) where
  kind := grow_kind m n A
  done := by simp
  group := by simp
  opened x u hu := by
    refine ⟨_, by rw [get?_grow, hu]; rfl, by split <;> rfl, ?_⟩
    intro a ha
    split
    · exact OrderedSet.mem_union.2 (.inl ha)
    · exact ha
  fresh x u' hu' hx := by
    obtain ⟨u, hu, -⟩ := get?_grow_number hu'
    simp [hx] at hu
  count := by simp

theorem Extends.mem_drop (h : (m.start n).Extends m') : n ∈ m'.group.drop m.group.length := by
  obtain ⟨t, ht⟩ := h.group
  rw [← ht, start_group, List.append_assoc, List.drop_left]
  simp

/-- Closing what was begun since leaves all that was there before. -/
theorem Extends.close (h : m.Extends m') (hm : m.Wf) (hm' : m'.Wf) :
    m.Extends (m'.close m.group.length) := by
  have htake : m'.group.take m.group.length = m.group := (List.prefix_iff_eq_take.1 h.group).symm
  have hout : ∀ x u, m.unfinished.get? x = some u → x ∉ m'.group.drop m.group.length := by
    intro x u hu
    exact hm'.not_mem_drop (htake.symm ▸ hm.mem_group_iff.2 ⟨u, hu⟩)
  exact {
    kind := by rw [close_kind, h.kind]
    done := by
      intro x A hx
      exact hm'.close_done_of_done (h.done x A hx)
    group := by rw [close_group, htake]
    opened := by
      intro x u hu
      rw [hm'.close_unfinished, if_neg (hout x u hu)]
      exact h.opened x u hu
    fresh := by
      intro x u' hu' hx
      rw [hm'.close_unfinished] at hu'
      split at hu'
      · cases hu'
      · exact h.fresh x u' hu' hx
    count := by
      rw [close_count]
      exact h.count }

end Memo

end FirstFollow
