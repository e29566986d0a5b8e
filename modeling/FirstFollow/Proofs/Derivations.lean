import FirstFollow.Proofs.Changes
import FirstFollow.Proofs.Keys
import Mathlib.Logic.Relation

/-!
FIRST and FOLLOW against derivations. In a grammar in which `epsilon` stands alone or not at all,
each symbol of a least FIRST or FOLLOW set is justified by a derivation, and so is each symbol of
every set that a builder answers with, keeps or shows on the way (`Builder.run_justified`).
-/

namespace FirstFollow

open Relation

/-! ### Derivations -/

namespace Grammar

variable {g : Grammar} {n a : Symbol} {d u v : List Symbol}

/-- `epsilon` is a whole alternative wherever it stands. -/
def EpsilonAlone (g : Grammar) : Prop :=
  ∀ r ∈ g.rules, .epsilon ∈ r.derivation → r.derivation = [.epsilon]

instance : Decidable g.EpsilonAlone := inferInstanceAs (Decidable (∀ r ∈ g.rules, _))

/-- What an alternative puts in the place of its nonterminal. -/
def expansion (d : Derivation) : List Symbol := if d = [.epsilon] then [] else d

/-- One nonterminal is rewritten by one of its alternatives. -/
inductive Rewrites (g : Grammar) : List Symbol → List Symbol → Prop
  | intro {n : Symbol} {d : Derivation} (before after : List Symbol) : g.Derives n d →
      Rewrites g (before ++ n :: after) (before ++ (expansion d ++ after))

/-- Any number of rewritings. -/
def Yields (g : Grammar) : List Symbol → List Symbol → Prop := ReflTransGen g.Rewrites

theorem Rewrites.context (h : g.Rewrites u v) (before after : List Symbol) :
    g.Rewrites (before ++ (u ++ after)) (before ++ (v ++ after)) := by
  obtain ⟨before', after', hd⟩ := h
  simpa using Rewrites.intro (before ++ before') (after' ++ after) hd

theorem Yields.context (h : g.Yields u v) (before after : List Symbol) :
    g.Yields (before ++ (u ++ after)) (before ++ (v ++ after)) :=
  ReflTransGen.lift (fun w => before ++ (w ++ after)) (fun _ _ hw => hw.context before after) u v h

theorem Yields.trans {w : List Symbol} (h : g.Yields u v) (h' : g.Yields v w) : g.Yields u w :=
  ReflTransGen.trans h h'

theorem Derives.yields (h : g.Derives n d) : g.Yields [n] (expansion d) := by
  have hstep := Rewrites.intro [] [] h
  rw [List.append_nil] at hstep
  exact ReflTransGen.single hstep

/-- What a sequence can be rewritten to begin with, `epsilon` telling that it can vanish. -/
def beginnings (g : Grammar) (u : List Symbol) : Set Symbol :=
  {a | a = .epsilon ∧ g.Yields u [] ∨ a ≠ .epsilon ∧ ∃ rest, g.Yields u (a :: rest)}

/-- What can stand behind `n` in what a key is rewritten to, and the end where `n` can be the last
symbol of what the start symbol is rewritten to. -/
def followers (g : Grammar) (n : Symbol) : Set Symbol :=
  {a | (∃ m ∈ g, ∃ before after, g.Yields [m] (before ++ n :: a :: after)) ∨
    a = .endMarker ∧ ∃ before, g.Yields [g.startSymbol] (before ++ [n])}

theorem Yields.beginnings_subset (h : g.Yields u v) : g.beginnings v ⊆ g.beginnings u := by
  rintro a (⟨ha, hv⟩ | ⟨ha, rest, hv⟩)
  · exact .inl ⟨ha, h.trans hv⟩
  · exact .inr ⟨ha, rest, h.trans hv⟩

/-! ### FIRST -/

theorem EpsilonAlone.expansion_eq (hg : g.EpsilonAlone) (hd : g.Derives n d)
    (hne : d ≠ [.epsilon]) : expansion d = d ∧ .epsilon ∉ d := by
  obtain ⟨r, hr, -, rfl⟩ := derives_iff.1 hd
  exact ⟨if_neg hne, fun hε => hne (hg r hr hε)⟩

/-- A scan over symbols that are justified finds nothing else. -/
theorem scanSet_subset_beginnings (hd : .epsilon ∉ d) :
    scanSet (fun m => g.beginnings [m]) d ⊆ g.beginnings d := by
  induction d with
  | nil =>
    rintro a rfl
    exact .inl ⟨rfl, .refl⟩
  | cons s rest ih =>
    obtain ⟨hs, hrest⟩ := not_or.1 (mt List.mem_cons.2 hd)
    cases s with
    | nonterminal name =>
      rintro a (⟨⟨rfl, -⟩ | ⟨ha, tail, hyields⟩, hε⟩ | ⟨⟨-, hvanish⟩ | ⟨hε, -⟩, ha⟩)
      · exact absurd rfl hε
      · exact .inr ⟨ha, tail ++ rest, hyields.context [] rest⟩
      · exact (hvanish.context [] rest).beginnings_subset (ih hrest ha)
      · exact absurd rfl hε
    | _ =>
      rintro a rfl
      exact .inr ⟨Ne.symm hs, rest, .refl⟩

/-- Each symbol of a FIRST set is one that the nonterminal can be rewritten to begin with. -/
theorem EpsilonAlone.firstSets_le (hg : g.EpsilonAlone) :
    g.firstSets ≤ fun n => g.beginnings [n] := by
  apply firstSets_least
  rintro n a ⟨d, hd, ha⟩
  apply hd.yields.beginnings_subset
  by_cases hne : d = [.epsilon]
  · subst hne
    obtain rfl : a = .epsilon := ha
    exact .inl ⟨rfl, .refl⟩
  · obtain ⟨hexpansion, hε⟩ := hg.expansion_eq hd hne
    rw [hexpansion]
    exact scanSet_subset_beginnings hε ha

/-! ### FOLLOW -/

theorem Occurs.split {every : Bool} {o : Occurrence} (h : g.Occurs every n o) :
    ∃ before, o.derivation = before ++ n :: o.suffix := by
  obtain ⟨-, name, rfl, r, -, ho⟩ := occurs_iff.1 h
  obtain ⟨rfl, before, hd⟩ := Rule.mem_occurrences ho
  exact ⟨before, hd⟩

/-- The producer can be rewritten to the alternative in which an occurrence stands, in which there
is no `epsilon`. -/
theorem EpsilonAlone.occurrence_yields (hg : g.EpsilonAlone) {every : Bool} {o : Occurrence}
    (ho : g.Occurs every n o) : .epsilon ∉ o.suffix ∧
      ∃ before, g.Yields [o.producer] (before ++ n :: o.suffix) := by
  obtain ⟨before, hsplit⟩ := ho.split
  obtain ⟨-, name, rfl, -⟩ := occurs_iff.1 ho
  have hne : o.derivation ≠ [.epsilon] := by
    intro he
    have hmem : Symbol.nonterminal name ∈ o.derivation := by simp [hsplit]
    simp [he] at hmem
  obtain ⟨hexpansion, hε⟩ := hg.expansion_eq ho.derives hne
  refine ⟨fun hs => hε (ho.suffix_subset hs), before, ?_⟩
  rw [← hsplit, ← hexpansion]
  exact ho.derives.yields

/-- Each symbol of a FOLLOW set is one that can come after the nonterminal. -/
theorem EpsilonAlone.followSets_le (hg : g.EpsilonAlone) (every : Bool) :
    g.followSets every g.firstSets ≤ g.followers := by
  apply followSets_least
  rintro n a (⟨rfl, rfl⟩ | ⟨o, ho, hcase⟩)
  · exact .inr ⟨rfl, [], .refl⟩
  obtain ⟨hε, before, hproducer⟩ := hg.occurrence_yields ho
  have hsuffix : scanSet g.firstSets o.suffix ⊆ g.beginnings o.suffix :=
    (scanSet_mono hg.firstSets_le _).trans (scanSet_subset_beginnings hε)
  rcases hcase with ⟨ha, hne⟩ | ⟨hvanish, ha⟩
  · rcases hsuffix ha with ⟨rfl, -⟩ | ⟨-, rest, hrest⟩
    · exact absurd rfl hne
    · have hlast := hrest.context (before ++ [n]) []
      simp only [List.append_nil, List.append_assoc, List.singleton_append] at hlast
      exact .inl ⟨o.producer, ho.derives.mem, before, rest, hproducer.trans hlast⟩
  -- the suffix vanishes, so what comes after the producer comes after `n`
  · have hempty : g.Yields o.suffix [] := by
      rcases hvanish with hnil | hmem
      · rw [hnil]
        exact .refl
      · exact (hsuffix hmem).elim And.right fun h => absurd rfl h.1
    have hlast : g.Yields [o.producer] (before ++ [n]) := by
      have hcontext := hempty.context (before ++ [n]) []
      simp only [List.append_nil, List.append_assoc, List.singleton_append] at hcontext
      exact hproducer.trans hcontext
    rcases ha with ⟨m, hm, before', after, hyields⟩ | ⟨rfl, before', hyields⟩
    · refine .inl ⟨m, hm, before' ++ before, after, hyields.trans ?_⟩
      simpa using hlast.context before' (a :: after)
    · refine .inr ⟨rfl, before' ++ before, hyields.trans ?_⟩
      simpa using hlast.context before' []

end Grammar

/-! ### Builders -/

/-- The symbols that derivations justify in the set of `n`. -/
def Grammar.justified (g : Grammar) : SetKind → Symbol → Set Symbol
  | .first, n => g.beginnings [n]
  | .follow, n => g.followers n

/-- The symbols that derivations justify in an answer. A sequence is taken up to its first
`epsilon`, behind which no scan looks. -/
def Step.justified (g : Grammar) : Step → Set Symbol
  | .first n => g.justified .first n
  | .follow n => g.justified .follow n
  | .sequence d => g.beginnings (d.takeWhile (· ≠ .epsilon))
  | .every _ => ∅

theorem scanSet_takeWhile (F : Symbol → Set Symbol) (d : Derivation) :
    scanSet F (d.takeWhile (· ≠ .epsilon)) = scanSet F d := by
  induction d with
  | nil => rfl
  | cons s rest ih => cases s <;> simp_all [scanSet]

namespace Grammar.EpsilonAlone

variable {g : Grammar} (hg : g.EpsilonAlone)

include hg

theorem expected_subset (q : Step) : q.expected g true g.firstSets ⊆ q.justified g := by
  cases q with
  | first n => exact hg.firstSets_le n
  | follow n => exact hg.followSets_le true n
  | sequence d =>
    show scanSet g.firstSets d ⊆ _
    rw [← scanSet_takeWhile]
    refine (scanSet_mono hg.firstSets_le _).trans (scanSet_subset_beginnings fun hε => ?_)
    simpa using List.all_eq_true.1 List.all_takeWhile _ hε
  | every value => exact subset_rfl

/-- All that steady memos hold is justified. -/
theorem holds_justified {b : Builder} (hb : b.Steady g) {kind : SetKind} {x a : Symbol}
    (hx : (b.memos kind).Holds x a) : a ∈ g.justified kind x := by
  cases kind with
  | first => exact hg.firstSets_le x (hb.session.first.within.holds hx)
  | follow => exact hg.followSets_le true x (hb.session.within.holds hx)

end Grammar.EpsilonAlone

namespace Builder

/-- Where `epsilon` stands alone or not at all, derivations justify all that a builder comes up with
while it is asked about keys, in whatever modes: what its memos hold, what it answers, and the
parts and finished sets that its events show. -/
theorem run_justified {g : Grammar} (hg : g.EpsilonAlone) (every : Bool) {qs : List Step}
    (hqs : ∀ q ∈ qs, q.AboutKeys g) :
    (∀ kind x a, (((new g every).run qs).2.memos kind).Holds x a → a ∈ g.justified kind x) ∧
    List.Forall₂ (fun q o => q.AnsweredIn (q.justified g) o) qs ((new g every).run qs).1 ∧
    ∀ o ∈ ((new g every).run qs).1, ∀ kind x (A : SymbolSet),
      .reentered kind x A ∈ o.events ∨ .completed kind x A ∈ o.events →
        A.toSet ⊆ g.justified kind x := by
  obtain ⟨hb, hanswers⟩ := (steady_new g every).run hqs
  have hholds : ∀ {kind x a}, (((new g every).run qs).2.memos kind).Holds x a →
      a ∈ g.justified kind x := hg.holds_justified hb
  refine ⟨fun _ _ _ => hholds, hanswers.imp fun q o ho => ho.mono (hg.expected_subset q), ?_⟩
  intro o ho kind x A hA a ha
  have hnew := memos_new_wf g every
  have hchanges := run_changes hnew qs
  apply hholds
  rcases hA with hA | hA
  · exact hchanges.holds_of_reentered hnew (List.mem_flatMap.2 ⟨o, ho, hA⟩) a ha
  · exact .inl ⟨A, hchanges.done_of_completed hnew (List.mem_flatMap.2 ⟨o, ho, hA⟩), ha⟩

end Builder

/-- Two ways to leave something out: an alternative that is `epsilon` alone and an empty one. -/
def Grammar.optional : Grammar where
  start := "S"
  productions := ⟨[("S", [[.nonterminal "A", .nonterminal "S", .terminal "b"], [.epsilon]]),
    ("A", [[.terminal "a"], []])], by decide⟩
  start_mem := by decide
  closed := Grammar.firstRefusal?_eq_none_iff.1 (by decide)

theorem Builder.run_justified_optional : Grammar.optional.EpsilonAlone ∧
    (∀ q ∈ [Step.first (.nonterminal "S"), .every true, .follow (.nonterminal "A"),
      .sequence [.nonterminal "A", .nonterminal "S"]], q.AboutKeys .optional) ∧
    List.Forall₂ (fun q o => q.AnsweredIn (q.justified .optional) o)
      [Step.first (.nonterminal "S"), .every true, .follow (.nonterminal "A"),
        .sequence [.nonterminal "A", .nonterminal "S"]]
      ((new .optional false).run [.first (.nonterminal "S"), .every true,
        .follow (.nonterminal "A"), .sequence [.nonterminal "A", .nonterminal "S"]]).1 := by
  have hg : Grammar.optional.EpsilonAlone := by decide
  have hqs : ∀ q ∈ [Step.first (.nonterminal "S"), .every true, .follow (.nonterminal "A"),
      .sequence [.nonterminal "A", .nonterminal "S"]], q.AboutKeys .optional := by decide
  exact ⟨hg, hqs, (Builder.run_justified hg false hqs).2.1⟩

end FirstFollow
