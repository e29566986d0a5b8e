import FirstFollow.Candidate
import FirstFollow.Proofs.Order

/-!
Grammars as members of sets. Two grammars are compared without regard to the order of their
declarations, but a set tells them apart by it. So equal grammars may count as several.
-/

namespace FirstFollow

/-- Where members count as one only if they are the same, the size is that of the finite set. -/
theorem length_eraseDupsBy_map {α β : Type} [DecidableEq α] {r : β → β → Bool} {f : α → β}
    (h : ∀ a b, r (f a) (f b) = true ↔ a = b) (as : List α) :
    ((as.map f).eraseDupsBy r).length = as.toFinset.card := by
  match as with
  | [] => rfl
  | a :: as =>
    have hfilter : (as.map f).filter (fun b => r b (f a) = false) =
        (as.filter fun b => b ≠ a).map f := by
      rw [List.filter_map]
      congr 1
      refine List.filter_congr fun b _ => ?_
      rw [Function.comp, decide_eq_decide, ← Bool.not_eq_true, h]
    have hinsert : (a :: as).toFinset = insert a (as.filter fun b => b ≠ a).toFinset := by
      ext b
      by_cases hb : b = a <;> simp [hb]
    rw [List.map_cons, List.eraseDupsBy_cons, List.length_cons, hfilter,
      length_eraseDupsBy_map h (as.filter fun b => b ≠ a), hinsert,
      Finset.card_insert_of_notMem (by simp)]
termination_by as.length
decreasing_by exact Nat.lt_succ_of_le (List.length_filter_le _ _)

namespace Grammar

theorem derivations_eq_iff {g h : Grammar} {name : String} :
    g.derivations (.nonterminal name) = h.derivations (.nonterminal name) ↔
      g.productions.get? name = h.productions.get? name := by
  cases hg : g.productions.get? name <;> cases hh : h.productions.get? name <;>
    simp [derivations, lookup, hg, hh]

theorem same_iff {g h : Grammar} : g.Same h ↔
    g.startSymbol = h.startSymbol ∧ ∀ n, g.derivations n = h.derivations n := by
  rw [Same, Keyed.same_iff, startSymbol, startSymbol, Symbol.nonterminal.injEq]
  refine and_congr_right fun _ => ⟨fun hget n => ?_, fun hderivations name => ?_⟩
  · cases n with
    | nonterminal name => exact derivations_eq_iff.2 (hget name)
    | _ => rfl
  · exact derivations_eq_iff.1 (hderivations _)

theorem same_equivalence : Equivalence Same where
  refl _ := same_iff.2 ⟨rfl, fun _ => rfl⟩
  symm h := same_iff.2 ⟨(same_iff.1 h).1.symm, fun n => ((same_iff.1 h).2 n).symm⟩
  trans h h' := same_iff.2 ⟨(same_iff.1 h).1.trans (same_iff.1 h').1, fun n =>
    ((same_iff.1 h).2 n).trans ((same_iff.1 h').2 n)⟩

/-- The order of the declarations is all that equal grammars may differ in. -/
theorem eq_iff {g h : Grammar} : g = h ↔ g.Same h ∧ g.keys = h.keys := by
  constructor
  · rintro rfl
    exact ⟨same_equivalence.refl g, rfl⟩
  · rintro ⟨hsame, hkeys⟩
    have hnames : g.productions.keys = h.productions.keys :=
      List.map_injective_iff.2 (fun _ _ => Symbol.nonterminal.inj) hkeys
    have hproductions : g.productions = h.productions := Keyed.Same.eq_of_keys hsame.2 hnames
    cases g
    cases h
    cases hsame.1
    cases hproductions
    rfl

def sameSetoid : Setoid Grammar := ⟨Same, same_equivalence⟩

instance : DecidableRel sameSetoid.r := fun g h => inferInstanceAs (Decidable (g.Same h))

/-- How many classes of equal grammars there are in a list. -/
def classCount (gs : List Grammar) : Nat := (gs.toFinset.image (Quotient.mk sameSetoid)).card

theorem classCount_le (gs : List Grammar) : classCount gs ≤ gs.toFinset.card :=
  Finset.card_image_le

theorem classCount_eq_iff {gs : List Grammar} : classCount gs = gs.toFinset.card ↔
    ∀ g ∈ gs, ∀ h ∈ gs, g.Same h → g.keys = h.keys := by
  rw [classCount, Finset.card_image_iff]
  constructor
  · intro hinj g hg h hh hsame
    exact (eq_iff.1 (hinj (by simpa using hg) (by simpa using hh) (Quotient.sound hsame))).2
  · intro hkeys g hg h hh hclass
    have hsame : g.Same h := Quotient.exact hclass
    exact eq_iff.2 ⟨hsame, hkeys g (by simpa using hg) h (by simpa using hh) hsame⟩

end Grammar

namespace Candidate

theorem distinct_grammars (gs : List Grammar) :
    distinct (gs.map grammar) = .ok gs.toFinset.card := by
  have hcounted : ∀ g h, (grammar g).counted (grammar h) = true ↔ g = h := fun g h => by
    simp [counted]
  have hmembers : (gs.map grammar).forM checkMember = .ok () := by
    induction gs with
    | nil => rfl
    | cons g gs ih => exact ih
  rw [distinct, hmembers, ← length_eraseDupsBy_map hcounted gs]
  rfl

/-- Grammars are equal if they have the same start and the same alternatives everywhere, and this
is an equivalence. A set of them never has fewer members than there are classes. It has one for
each class if and only if equal grammars in it have their declarations in the same order. -/
theorem distinct_eq_classCount_iff (gs : List Grammar) :
    (∀ g h, (grammar g).same (grammar h) ↔
      g.startSymbol = h.startSymbol ∧ ∀ n, g.derivations n = h.derivations n) ∧
    Equivalence (fun g h => (grammar g).same (grammar h)) ∧
    ∃ k, distinct (gs.map grammar) = .ok k ∧ Grammar.classCount gs ≤ k ∧
      (k = Grammar.classCount gs ↔
        ∀ g ∈ gs, ∀ h ∈ gs, (grammar g).same (grammar h) → g.keys = h.keys) := by
  have hsame : ∀ g h, (grammar g).same (grammar h) ↔ g.Same h := fun g h => by simp [same]
  simp only [hsame]
  exact ⟨fun _ _ => Grammar.same_iff, Grammar.same_equivalence, gs.toFinset.card,
    distinct_grammars gs, Grammar.classCount_le gs, eq_comm.trans Grammar.classCount_eq_iff⟩

/-- Two equal grammars with their declarations in different orders are two members of a set. -/
theorem entangled_counted_twice :
    (grammar .entangled).same (grammar .entangledReversed) ∧
    distinct [grammar .entangled, grammar .entangledReversed] = .ok 2 ∧
    Grammar.classCount [.entangled, .entangledReversed] = 1 := by
  decide +kernel

end Candidate

end FirstFollow
