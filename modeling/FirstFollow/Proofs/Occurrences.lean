import FirstFollow.Proofs.Modes
import Mathlib.Algebra.BigOperators.Group.Finset.Basic
import Mathlib.Data.List.Flatten

/-!
What the occurrence index lists. It is made in one pass over all rules, which puts each occurrence
beside its nonterminal. For each nonterminal it lists the positions at which that nonterminal stands
on right-hand sides, in the order of declaration (`Grammar.occurrencesOf_eq`).
-/

namespace FirstFollow

/-! ### Positions -/

namespace Derivation

/-- Where `n` stands. -/
def positions (d : Derivation) (n : Symbol) : List Nat :=
  (List.range d.length).filter fun i => d[i]? = some n

variable {d : Derivation} {s n : Symbol}

theorem positions_cons_self : positions (n :: d) n = 0 :: (positions d n).map Nat.succ := by
  simp [positions, List.range_succ_eq_map, List.filter_map, Function.comp_def]

theorem positions_cons_of_ne (h : s ≠ n) :
    positions (s :: d) n = (positions d n).map Nat.succ := by
  simp [positions, List.range_succ_eq_map, List.filter_map, Function.comp_def, h]

@[simp] theorem length_positions (d : Derivation) (n : Symbol) :
    (positions d n).length = d.count n := by
  induction d with
  | nil => rfl
  | cons s d ih =>
    by_cases h : s = n
    · rw [h, positions_cons_self, List.length_cons, List.length_map, ih, List.count_cons_self]
    · rw [positions_cons_of_ne h, List.length_map, ih, List.count_cons_of_ne h]

/-- At the first position of `n` nothing but other symbols stands before it. -/
theorem split_of_mem_take_positions {i : Nat} (h : i ∈ (positions d n).take 1) :
    ∃ before, d = before ++ n :: d.drop (i + 1) ∧ n ∉ before := by
  induction d generalizing i with
  | nil => simp [positions] at h
  | cons s d ih =>
    by_cases hs : s = n
    · subst hs
      rw [positions_cons_self, List.take_succ_cons, List.take_zero, List.mem_singleton] at h
      subst h
      exact ⟨[], rfl, List.not_mem_nil⟩
    · rw [positions_cons_of_ne hs, ← List.map_take] at h
      obtain ⟨j, hj, rfl⟩ := List.mem_map.1 h
      obtain ⟨before, hd, hbefore⟩ := ih hj
      exact ⟨s :: before, congrArg (s :: ·) hd, by simp [Ne.symm hs, hbefore]⟩

end Derivation

open FirstFollow.Derivation (positions positions_cons_self positions_cons_of_ne)

/-! ### Occurrences in one rule -/

namespace Rule

variable (r : Rule) (name : String)

/-- The right-hand side split at position `i`. -/
def occurrenceAt (i : Nat) : Occurrence := ⟨r, r.derivation.drop (i + 1)⟩

/-- Of the occurrences in a part of a right-hand side, those of one nonterminal. -/
def occurrencesNamed (every : Bool) (seen : List String) (d : Derivation) : List Occurrence :=
  (r.occurrences every seen d).filterMap fun o => if o.1 = name then some o.2 else none

variable {r name}

theorem occurrencesNamed_cons_self (every : Bool) (seen : List String) (rest : Derivation) :
    r.occurrencesNamed name every seen (.nonterminal name :: rest) =
      if every || name ∉ seen then ⟨r, rest⟩ :: r.occurrencesNamed name every (name :: seen) rest
      else r.occurrencesNamed name every seen rest := by
  rw [occurrencesNamed, occurrences]
  split
  · simp only [List.filterMap_cons, if_pos, occurrencesNamed]
  · rfl

/-- Any other symbol is passed over. -/
theorem occurrencesNamed_cons_of_ne {every : Bool} {s : Symbol} {rest : Derivation}
    (hs : s ≠ .nonterminal name) (seen : List String) :
    ∃ seen', (name ∈ seen' ↔ name ∈ seen) ∧ r.occurrencesNamed name every seen (s :: rest) =
      r.occurrencesNamed name every seen' rest := by
  cases s with
  | nonterminal name' =>
    have hname : name' ≠ name := fun h => hs (h ▸ rfl)
    rw [occurrencesNamed, occurrences]
    split
    · refine ⟨name' :: seen, by simp [hname.symm], ?_⟩
      simp only [List.filterMap_cons, if_neg hname, occurrencesNamed]
    · exact ⟨seen, Iff.rfl, rfl⟩
  | _ => exact ⟨seen, Iff.rfl, rfl⟩

theorem occurrencesNamed_every (seen : List String) (d : Derivation) :
    r.occurrencesNamed name true seen d =
      (positions d (.nonterminal name)).map fun i => ⟨r, d.drop (i + 1)⟩ := by
  induction d generalizing seen with
  | nil => rfl
  | cons s rest ih =>
    by_cases hs : s = .nonterminal name
    · rw [hs, occurrencesNamed_cons_self, if_pos (Bool.true_or _), ih, positions_cons_self,
        List.map_cons, List.map_map]
      rfl
    · obtain ⟨seen', -, hskip⟩ := occurrencesNamed_cons_of_ne hs seen
      rw [hskip, ih, positions_cons_of_ne hs, List.map_map]
      rfl

/-- A nonterminal that was seen is not listed again. -/
theorem occurrencesNamed_seen {seen : List String} (h : name ∈ seen) (d : Derivation) :
    r.occurrencesNamed name false seen d = [] := by
  induction d generalizing seen with
  | nil => rfl
  | cons s rest ih =>
    by_cases hs : s = .nonterminal name
    · rw [hs, occurrencesNamed_cons_self, if_neg (by simp [h]), ih h]
    · obtain ⟨seen', hseen, hskip⟩ := occurrencesNamed_cons_of_ne hs seen
      rw [hskip, ih (hseen.2 h)]

theorem occurrencesNamed_first {seen : List String} (h : name ∉ seen) (d : Derivation) :
    r.occurrencesNamed name false seen d =
      ((positions d (.nonterminal name)).take 1).map fun i => ⟨r, d.drop (i + 1)⟩ := by
  induction d generalizing seen with
  | nil => rfl
  | cons s rest ih =>
    by_cases hs : s = .nonterminal name
    · rw [hs, occurrencesNamed_cons_self, if_pos (by simp [h]),
        occurrencesNamed_seen List.mem_cons_self, positions_cons_self]
      rfl
    · obtain ⟨seen', hseen, hskip⟩ := occurrencesNamed_cons_of_ne hs seen
      rw [hskip, ih (mt hseen.1 h), positions_cons_of_ne hs, ← List.map_take, List.map_map]
      rfl

end Rule

/-! ### The index -/

namespace Grammar

variable (g : Grammar) (n : Symbol)

/-- One entry for each position of `n`, by rules and then by positions. -/
def allOccurrencesOf : List Occurrence :=
  g.rules.flatMap fun r => (positions r.derivation n).map r.occurrenceAt

/-- One entry for each rule in which `n` occurs, by its first position there. -/
def firstOccurrencesOf : List Occurrence :=
  g.rules.flatMap fun r => ((positions r.derivation n).take 1).map r.occurrenceAt

variable {g n}

theorem occurrencesOf_named {name : String} (hn : .nonterminal name ∈ g) (every : Bool) :
    g.occurrencesOf (.nonterminal name) every =
      .ok (g.rules.flatMap fun r => r.occurrencesNamed name every [] r.derivation) := by
  rw [occurrencesOf_eq_ok_iff]
  exact ⟨name, rfl, hn, List.filterMap_flatMap.symm⟩

theorem occurrencesOf_every (hn : n ∈ g) : g.occurrencesOf n true = .ok (g.allOccurrencesOf n) := by
  obtain ⟨name, -, rfl⟩ := mem_iff.1 hn
  rw [occurrencesOf_named hn]
  simp only [Rule.occurrencesNamed_every]
  rfl

theorem occurrencesOf_first (hn : n ∈ g) :
    g.occurrencesOf n false = .ok (g.firstOccurrencesOf n) := by
  obtain ⟨name, -, rfl⟩ := mem_iff.1 hn
  rw [occurrencesOf_named hn]
  simp only [Rule.occurrencesNamed_first List.not_mem_nil]
  rfl

theorem split_of_mem_firstOccurrencesOf {o : Occurrence} (h : o ∈ g.firstOccurrencesOf n) :
    ∃ before, o.derivation = before ++ n :: o.suffix ∧ n ∉ before := by
  obtain ⟨r, -, h⟩ := List.mem_flatMap.1 h
  obtain ⟨i, hi, rfl⟩ := List.mem_map.1 h
  exact Derivation.split_of_mem_take_positions hi

theorem firstOccurrencesOf_sublist : (g.firstOccurrencesOf n).Sublist (g.allOccurrencesOf n) :=
  List.Sublist.flatMap_right _ fun _ _ => (List.take_sublist _ _).map _

/-! ### Counting -/

theorem length_allOccurrencesOf : (g.allOccurrencesOf n).length = g.mentioned.count n := by
  simp [allOccurrencesOf, mentioned, List.length_flatMap, List.count_flatMap, Function.comp_def]

/-- Parts that are not longer and are equal put together are equal one by one. -/
theorem eq_of_flatMap_eq {α β : Type} {f f' : α → List β} (hf : ∀ a, (f a).Sublist (f' a))
    {as : List α} (h : as.flatMap f = as.flatMap f') : ∀ a ∈ as, f a = f' a := by
  induction as with
  | nil => simp
  | cons a as ih =>
    rw [List.flatMap_cons, List.flatMap_cons] at h
    have hrest := (List.Sublist.flatMap_right as fun a _ => hf a).length_le
    have hlength := congrArg List.length h
    rw [List.length_append, List.length_append] at hlength
    have ha : f a = f' a := (hf a).eq_of_length_le (by omega)
    rw [ha, List.append_right_inj] at h
    exact List.forall_mem_cons.2 ⟨ha, ih h⟩

theorem firstOccurrencesOf_eq_iff :
    g.firstOccurrencesOf n = g.allOccurrencesOf n ↔ ∀ r ∈ g.rules, r.derivation.count n ≤ 1 := by
  have hrule : ∀ r : Rule, ((positions r.derivation n).take 1).map r.occurrenceAt =
      (positions r.derivation n).map r.occurrenceAt ↔ r.derivation.count n ≤ 1 := by
    intro r
    rw [← Derivation.length_positions]
    constructor
    · intro h
      have hlength := congrArg List.length h
      simp only [List.length_map, List.length_take] at hlength
      omega
    · intro h
      rw [List.take_of_length_le h]
  constructor
  · intro h r hr
    exact (hrule r).1 (eq_of_flatMap_eq (fun r => (List.take_sublist _ _).map _) h r hr)
  · intro h
    exact List.flatMap_congr fun r hr => (hrule r).2 (h r hr)

theorem mem_of_mentioned (hn : n ∈ g.mentioned) (hnt : n.isNonterminal) : n ∈ g := by
  obtain ⟨r, hr, hn⟩ := List.mem_flatMap.1 hn
  exact (derives_iff.2 ⟨r, hr, rfl, rfl⟩ : g.Derives r.lhs r.derivation).mem_of_nonterminal hn hnt

theorem length_flatMap_allOccurrencesOf (g : Grammar) :
    (g.keys.flatMap g.allOccurrencesOf).length = g.mentioned.countP Symbol.isNonterminal := by
  have hcount : ∀ n ∈ g.keys, (g.allOccurrencesOf n).length =
      Multiset.count n (g.mentioned.filter Symbol.isNonterminal) := by
    intro n hn
    obtain ⟨name, -, rfl⟩ := mem_iff.1 hn
    rw [length_allOccurrencesOf, Multiset.coe_count, List.count_filter rfl]
  have hkeys : ∀ n ∈ (g.mentioned.filter Symbol.isNonterminal : Multiset Symbol),
      n ∈ g.keys.toFinset := by
    intro n hn
    obtain ⟨hn, hnt⟩ := List.mem_filter.1 (Multiset.mem_coe.1 hn)
    exact List.mem_toFinset.2 (mem_of_mentioned hn hnt)
  rw [List.length_flatMap, List.map_congr_left hcount, ← List.sum_toFinset _ g.keys_nodup,
    Multiset.sum_count_eq_card hkeys, Multiset.coe_card, List.countP_eq_length_filter]

/-- The occurrences of a nonterminal are its positions on right-hand sides, by declaration,
alternatives and positions. If only first ones count, they are its first positions in the
alternatives that hold it, which makes a sublist. Both lists are the same for all nonterminals if
and only if no alternative holds a nonterminal twice. Together, the full lists have as many entries
as nonterminals stand on right-hand sides. -/
theorem occurrencesOf_eq (g : Grammar) :
    (∀ n ∈ g, g.occurrencesOf n true = .ok (g.allOccurrencesOf n) ∧
      g.occurrencesOf n false = .ok (g.firstOccurrencesOf n) ∧
      (∀ o ∈ g.firstOccurrencesOf n,
        ∃ before, o.derivation = before ++ n :: o.suffix ∧ n ∉ before) ∧
      (g.firstOccurrencesOf n).Sublist (g.allOccurrencesOf n)) ∧
    ((∀ n ∈ g, g.occurrencesOf n false = g.occurrencesOf n true) ↔
      ∀ r ∈ g.rules, ∀ n, n.isNonterminal → r.derivation.count n ≤ 1) ∧
    (g.keys.flatMap g.allOccurrencesOf).length = g.mentioned.countP Symbol.isNonterminal := by
  refine ⟨fun n hn => ⟨occurrencesOf_every hn, occurrencesOf_first hn, fun o ho =>
    split_of_mem_firstOccurrencesOf ho, firstOccurrencesOf_sublist⟩, ?_,
    g.length_flatMap_allOccurrencesOf⟩
  have hsame : ∀ n ∈ g, g.occurrencesOf n false = g.occurrencesOf n true ↔
      ∀ r ∈ g.rules, r.derivation.count n ≤ 1 := by
    intro n hn
    rw [occurrencesOf_first hn, occurrencesOf_every hn, Except.ok.injEq, firstOccurrencesOf_eq_iff]
  constructor
  · intro h r hr n hnt
    by_cases hn : n ∈ r.derivation
    · have hkey : n ∈ g := mem_of_mentioned (List.mem_flatMap.2 ⟨r, hr, hn⟩) hnt
      exact (hsame n hkey).1 (h n hkey) r hr
    · rw [List.count_eq_zero_of_not_mem hn]
      exact Nat.zero_le 1
  · intro h n hn
    obtain ⟨name, -, rfl⟩ := mem_iff.1 hn
    exact (hsame _ hn).2 fun r hr => h r hr _ rfl

/-- `S` stands twice in its own first alternative. -/
theorem occurrencesOf_repeating :
    .nonterminal "S" ∈ repeating ∧
    (repeating.allOccurrencesOf (.nonterminal "S")).map Occurrence.suffix =
      [[.terminal "y", .nonterminal "S", .nonterminal "A"], [.nonterminal "A"]] ∧
    repeating.occurrencesOf (.nonterminal "S") true =
      .ok (repeating.allOccurrencesOf (.nonterminal "S")) ∧
    repeating.occurrencesOf (.nonterminal "S") false =
      .ok ((repeating.allOccurrencesOf (.nonterminal "S")).take 1) ∧
    ¬ ∀ n ∈ repeating, repeating.occurrencesOf n false = repeating.occurrencesOf n true := by
  obtain ⟨hkeys, hsame, -⟩ := occurrencesOf_eq repeating
  have hS : .nonterminal "S" ∈ repeating := by decide
  obtain ⟨hevery, hfirst, -⟩ := hkeys _ hS
  refine ⟨hS, by decide, hevery, ?_, fun h => ?_⟩
  · rw [hfirst]
    decide
  · have hcount := hsame.1 h (repeating.rules.head (by decide)) (List.head_mem _)
      (.nonterminal "S") rfl
    exact absurd hcount (by decide)

end Grammar

end FirstFollow
