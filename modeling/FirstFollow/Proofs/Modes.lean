import FirstFollow.Proofs.Keys
import FirstFollow.Proofs.Order

/-!
The tables of both modes beside each other. Counting every occurrence adds to FOLLOW sets, but it
also changes in which order FIRST sets are asked for, and with that what they are.
-/

namespace FirstFollow

namespace Keyed

/-- Keys and sets make up the whole map. -/
theorem eq_of_sets {a b : Keyed Symbol SymbolSet} (hkeys : a.keys = b.keys)
    (hsets : a.sets = b.sets) : a = b := by
  have hmem : ∀ n, n ∈ a ↔ n ∈ b := fun n => by rw [mem_def, mem_def, hkeys]
  exact (same_of_sets hmem hsets).eq_of_keys hkeys

end Keyed

namespace Table

/-- The same FIRST sets, and FOLLOW sets that hold at least as much. -/
def WidensTo (t t' : Table) : Prop := t.first = t'.first ∧ t.follow.sets ≤ t'.follow.sets

/-- When every occurrence counts, larger FIRST sets lead to larger FOLLOW sets. So the tables of
the two modes differ by an addition to FOLLOW if and only if their FIRST sets are the same. They
are if they satisfy their equations in both, if FIRST sets do not depend on those that were asked
for before, and if no nonterminal that can vanish begins with itself. -/
theorem every_widens_iff (g : Grammar) : ∃ t events t' events',
    build g false = (.ok t, events) ∧ build g true = (.ok t', events') ∧
      (t.first.sets ≤ t'.first.sets → t.follow.sets ≤ t'.follow.sets) ∧
      (t.WidensTo t' ↔ t.first.sets = t'.first.sets) ∧
      (g.firstOperator t.first.sets = t.first.sets → g.firstOperator t'.first.sets = t'.first.sets →
        t.WidensTo t') ∧
      (∀ every, Builder.FirstIndependent g every → t.WidensTo t') ∧
      (g.VanishingAcyclic → t.WidensTo t') := by
  obtain ⟨t, events, m, hbuild, hm, hkeys, -, hfits, hfirst, hfollow⟩ := build_eq g false
  obtain ⟨t', events', m', hbuild', hm', hkeys', -, hfits', hfirst', hfollow'⟩ := build_eq g true
  have hle : t.first.sets ≤ t'.first.sets → t.follow.sets ≤ t'.follow.sets := by
    intro h
    rw [hfollow, hfollow']
    exact Grammar.followSets_le_every h
  have hwidens : t.first.sets = t'.first.sets → t.WidensTo t' := fun h =>
    ⟨Keyed.eq_of_sets (hkeys.trans hkeys'.symm) h, hle h.le⟩
  -- memos that fit the same sets have nothing to differ in
  have hcommon : (∃ F, m.Fits F ∧ m'.Fits F) → t.WidensTo t' := by
    rintro ⟨F, hF, hF'⟩
    apply hwidens
    funext n
    by_cases hn : n ∈ g
    · rw [hfits F hF n hn, hfits' F hF' n hn]
    · rw [Keyed.sets_of_not_mem, Keyed.sets_of_not_mem]
      · rwa [Keyed.mem_def, hkeys']
      · rwa [Keyed.mem_def, hkeys]
  refine ⟨t, events, t', events', hbuild, hbuild', hle, ⟨fun h => by rw [h.1], hwidens⟩, ?_, ?_, ?_⟩
  · intro h h'
    have hsound : t.first.sets ≤ g.firstSets := by
      rw [hfirst]
      exact hm.sets_subset
    have hsound' : t'.first.sets ≤ g.firstSets := by
      rw [hfirst']
      exact hm'.sets_subset
    apply hwidens
    exact (hsound.antisymm (Grammar.firstSets_least h.le)).trans
      (hsound'.antisymm (Grammar.firstSets_least h'.le)).symm
  · intro every h
    obtain ⟨F, hF⟩ := h.fits
    exact hcommon ⟨F, hF m hm, hF m' hm'⟩
  · exact fun h => hcommon ⟨g.firstSets, hm.exact h, hm'.exact h⟩

end Table

/-- `A` and `B` are entangled. Only behind the second `S` of the first alternative is FIRST of `A`
asked for before that of `B`. -/
def Grammar.repeating : Grammar where
  start := "S"
  productions := ⟨[
    ("S", [[.terminal "x", .nonterminal "S", .terminal "y", .nonterminal "S", .nonterminal "A"],
      [.terminal "w", .nonterminal "X", .nonterminal "A"]]),
    ("B", [[.nonterminal "B", .nonterminal "A", .terminal "a"], []]),
    ("A", [[.nonterminal "B"]]),
    ("X", [[.terminal "q"]])], by decide⟩
  start_mem := by decide
  closed := Grammar.firstRefusal?_eq_none_iff.1 (by decide)

/-- Counting every occurrence makes FIRST sets, and a FOLLOW set, of `repeating` smaller. -/
theorem Table.repeating_narrows : ∃ t events t' events',
    build .repeating false = (.ok t, events) ∧ build .repeating true = (.ok t', events') ∧
      t.first ≠ t'.first ∧ ¬ t.follow.sets ≤ t'.follow.sets := by
  obtain ⟨t, events, -, hbuild, -⟩ := build_eq .repeating false
  obtain ⟨t', events', -, hbuild', -⟩ := build_eq .repeating true
  have hfirst : (build .repeating false).1.toOption.map Table.first ≠
      (build .repeating true).1.toOption.map Table.first := by decide +kernel
  have hfollow : (build .repeating false).1.toOption.bind (·.follow.get? (.nonterminal "X")) =
      some (.ofList [.endMarker, .terminal "a", .terminal "y"]) := by decide +kernel
  have hfollow' : (build .repeating true).1.toOption.bind (·.follow.get? (.nonterminal "X")) =
      some (.ofList [.endMarker, .terminal "y"]) := by decide +kernel
  rw [hbuild, hbuild'] at hfirst
  rw [hbuild] at hfollow
  rw [hbuild'] at hfollow'
  refine ⟨t, events, t', events', hbuild, hbuild', fun h => hfirst (congrArg some h), fun hle => ?_⟩
  have ha : Symbol.terminal "a" ∈ t'.follow.sets (.nonterminal "X") := by
    apply hle
    rw [Keyed.sets_of_get? hfollow]
    simp
  rw [Keyed.sets_of_get? hfollow'] at ha
  simp at ha

end FirstFollow
