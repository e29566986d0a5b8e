import FirstFollow.Proofs.Missing
import FirstFollow.Proofs.RoundTrip
import FirstFollow.Proofs.Termination

/-!
The two spellings of the empty derivation, `[]` and `[.epsilon]`. A scan of either finds `epsilon`
and asks for nothing, and neither holds an occurrence, so a grammar has the equations and the
occurrences of the grammar in which all are written `[]` (`Grammar.plain`). Only the budgets may
differ, and a budget is never used up (`Builder.run_budget`). So builders and tables do not depend
on the spelling (`Builder.run_respelt`).
-/

namespace FirstFollow

/-! ### Spellings -/

namespace Derivation

/-- The same derivation, or the empty one in both spellings. -/
def Respelt (d e : Derivation) : Prop :=
  d = e ∨ d = [] ∧ e = [.epsilon] ∨ d = [.epsilon] ∧ e = []

instance (d e : Derivation) : Decidable (Respelt d e) := inferInstanceAs (Decidable (_ ∨ _))

/-- The empty derivation is written `[]`. -/
def plain (d : Derivation) : Derivation := if d = [.epsilon] then [] else d

theorem Respelt.plain_eq {d e : Derivation} (h : Respelt d e) : plain d = plain e := by
  rcases h with rfl | ⟨rfl, rfl⟩ | ⟨rfl, rfl⟩ <;> rfl

/-- What does not tell the two spellings apart does not change. -/
theorem apply_plain {β : Sort*} {f : Derivation → β} (hf : f [] = f [.epsilon]) (d : Derivation) :
    f (plain d) = f d := by
  unfold plain
  split
  next h => rw [h, hf]
  next => rfl

theorem plain_subset (d : Derivation) : plain d ⊆ d := by
  unfold plain
  split
  · exact List.nil_subset _
  · exact List.Subset.refl _

end Derivation

open FirstFollow.Derivation (plain plain_subset apply_plain)

namespace Grammar

/-- Grammars that differ only in how some alternatives spell the empty derivation. -/
structure Respelt (g h : Grammar) : Prop where
  start_eq : g.start = h.start
  alternatives : List.Forall₂ (fun e f => e.1 = f.1 ∧ List.Forall₂ Derivation.Respelt e.2 f.2)
    g.productions.entries h.productions.entries

/-- All empty alternatives are written `[]`. -/
def plain (g : Grammar) : Grammar where
  start := g.start
  productions := g.productions.map fun _ ds => ds.map Derivation.plain
  start_mem := by
    rw [Keyed.mem_def, Keyed.keys_map]
    exact g.start_mem
  closed := by
    intro e he d hd s hs
    obtain ⟨e', he', rfl⟩ := List.mem_map.1 he
    obtain ⟨d', hd', rfl⟩ := List.mem_map.1 hd
    rw [Keyed.keys_map]
    exact g.closed e' he' d' hd' s (plain_subset d' hs)

theorem Respelt.plain_eq {g h : Grammar} (hgh : g.Respelt h) : g.plain = h.plain := by
  have hproductions : g.plain.productions = h.plain.productions := by
    apply Keyed.ext
    refine map_eq_of_forall₂ (fun e f hef => Prod.ext hef.1 ?_) hgh.alternatives
    exact map_eq_of_forall₂ (fun d d' hd => hd.plain_eq) hef.2
  have hstart : g.plain.start = h.plain.start := hgh.start_eq
  cases hg : g.plain
  cases hh : h.plain
  simp_all

variable (g : Grammar)

/-! ### Budgets -/

@[simp] theorem keys_plain : g.plain.keys = g.keys :=
  congrArg (List.map Symbol.nonterminal) (Keyed.keys_map _ _)

theorem mentioned_plain_subset : g.plain.mentioned ⊆ g.mentioned := by
  intro s hs
  obtain ⟨e', he', d', hd', hs⟩ := mem_mentioned.1 hs
  obtain ⟨e, he, rfl⟩ := List.mem_map.1 he'
  obtain ⟨d, hd, rfl⟩ := List.mem_map.1 hd'
  exact mem_mentioned.2 ⟨e, he, d, hd, plain_subset d hs⟩

theorem budget_plain_le : g.plain.budget ≤ g.budget := by
  have hcard : (g.plain.mentioned.filter (!·.isNonterminal)).toFinset.card ≤
      (g.mentioned.filter (!·.isNonterminal)).toFinset.card := by
    apply Finset.card_le_card
    intro s hs
    rw [List.mem_toFinset, List.mem_filter] at hs ⊢
    exact ⟨g.mentioned_plain_subset hs.1, hs.2⟩
  rw [budget_eq, budget_eq, keys_plain]
  refine ⟨le_rfl, ?_⟩
  show mostPasses _ ≤ mostPasses _
  rw [mostPasses, mostPasses, keys_plain]
  exact Nat.add_le_add_left (Nat.mul_le_mul_left _ (Nat.add_le_add_right hcard 2)) _

/-! ### Equations -/

theorem derivations_plain (n : Symbol) :
    g.plain.derivations n = (g.derivations n).map (List.map Derivation.plain) := by
  cases n with
  | nonterminal name =>
    rw [derivations, derivations, lookup, lookup, plain, Keyed.get?_map]
    cases g.productions.get? name <;> rfl
  | _ => rfl

end Grammar

section

variable {σ : Type} (g : Grammar)

theorem Script.alternatives_plain {ι : Type} (ds : List Derivation) :
    (alternatives (ds.map plain) : Script ι) = alternatives ds := by
  induction ds with
  | nil => rfl
  | cons d ds ih =>
    have hscanning : scanning (ι := ι) (plain d) = scanning d := apply_plain rfl d
    rw [List.map_cons, alternatives, hscanning, ih, alternatives]

theorem firstEquation_plain : (firstEquation g.plain : Equation σ) = firstEquation g := by
  have hscript : firstScript g.plain = firstScript g := by
    funext n
    rw [firstScript, g.derivations_plain, firstScript]
    cases g.derivations n with
    | ok ds => exact Script.alternatives_plain ds
    | error e => rfl
  rw [firstEquation_eq, hscript, firstEquation_eq]

variable [Recorder σ]

theorem firstOf_plain (b : Budget) : (firstOf g.plain b : Ask σ) = firstOf g b := by
  rw [firstOf, firstEquation_plain, firstOf]

theorem firstOfSequence_plain (b : Budget) (d : Derivation) :
    (firstOfSequence g.plain b d : Solve σ SymbolSet) = firstOfSequence g b d := by
  rw [firstOfSequence, firstOf_plain, firstOfSequence]

theorem followEquation_plain (index : Grammar.OccurrenceIndex) (b : Budget) :
    (followEquation g.plain index b : Equation (Session σ)) = followEquation g index b := by
  have hpart : followPart (σ := σ) g.plain b = followPart g b := by
    funext ask emit n o
    rw [followPart, firstOfSequence_plain, followPart]
  funext ask emit n
  rw [followEquation, hpart, followEquation]
  rfl

end

/-! ### Occurrences -/

/-- Neither spelling holds an occurrence. -/
theorem Rule.occurrences_plain (r : Rule) (every : Bool) :
    (Rule.mk r.head (plain r.derivation)).occurrences every [] (plain r.derivation) =
      r.occurrences every [] r.derivation :=
  apply_plain (f := fun d => (Rule.mk r.head d).occurrences every [] d) rfl r.derivation

namespace Grammar

variable (g : Grammar) (every : Bool)

theorem rules_plain :
    g.plain.rules = g.rules.map fun r => ⟨r.head, Derivation.plain r.derivation⟩ := by
  simp [rules, plain, Keyed.map, List.flatMap_map, List.map_flatMap, Function.comp_def]

theorem allOccurrences_plain : g.plain.allOccurrences every = g.allOccurrences every := by
  rw [allOccurrences, rules_plain, List.flatMap_map, allOccurrences]
  simp only [Rule.occurrences_plain]

theorem occurrenceIndex_plain : g.plain.occurrenceIndex every = g.occurrenceIndex every := by
  apply Keyed.ext
  rw [occurrenceIndex, allOccurrences_plain, occurrenceIndex]
  exact List.map_map

end Grammar

/-! ### Builders -/

namespace Builder

variable {g h : Grammar} {every : Bool}

/-- Whatever is asked, the budget of a grammar is not used up, and any larger one leads to the
same. -/
theorem run_budget (g : Grammar) (every : Bool) (qs : List Step) {c : Budget} (hc : g.budget ≤ c) :
    ((new g every).grant c).run qs =
      (((new g every).run qs).1, ((new g every).run qs).2.grant c) := by
  refine run_grant hc qs fun o ho => ?_
  rcases (stands_new g every).run_reply qs o ho with ⟨r, hr⟩ | ⟨n, -, hn⟩
  · simp [hr]
  · rw [hn]
    cases n <;> simp [Symbol.lookupError]

theorem firstSet_plain (g : Grammar) : firstSet g.plain = firstSet g := by
  funext c n
  rw [firstSet, firstOf_plain, firstSet]

theorem sequenceSet_plain (g : Grammar) : sequenceSet g.plain = sequenceSet g := by
  funext c d
  rw [sequenceSet, firstOfSequence_plain, sequenceSet]

theorem followSet_plain (g : Grammar) : followSet g.plain = followSet g := by
  funext index c n
  rw [followSet, followOf, followEquation_plain, followSet, followOf]

/-- The builder at work on the plain grammar. -/
def plain (b : Builder) : Builder := { b with grammar := b.grammar.plain }

theorem step_plain (b : Builder) (q : Step) :
    b.plain.step q = ((b.step q).1, (b.step q).2.plain) := by
  cases q with
  | first n =>
    rw [step, plain, firstSet_plain]
    rfl
  | follow n =>
    rw [step, plain, followSet_plain, Grammar.occurrenceIndex_plain]
    rfl
  | sequence d =>
    rw [step, plain, sequenceSet_plain]
    rfl
  | every value => rfl

theorem run_plain (b : Builder) (qs : List Step) :
    b.plain.run qs = ((b.run qs).1, (b.run qs).2.plain) := by
  induction qs generalizing b with
  | nil => rfl
  | cons q qs ih => simp only [run, step_plain, ih]

/-- A run over the plain grammar has the same outcomes and leaves the same memos. -/
theorem run_new_plain (g : Grammar) (every : Bool) (qs : List Step) :
    ((new g.plain every).run qs).1 = ((new g every).run qs).1 ∧
    ((new g.plain every).run qs).2.memos = ((new g every).run qs).2.memos := by
  -- the plain grammar may have the smaller budget, but gets by with that of `g` in the same way
  have hrun := run_budget g.plain every qs g.budget_plain_le
  have hgrant : (new g.plain every).grant g.budget = (new g every).plain := rfl
  rw [hgrant, run_plain, Prod.mk.injEq] at hrun
  exact ⟨hrun.1.symm, (congrArg memos hrun.2).symm⟩

end Builder

/-- The table of the plain grammar is the same, and made in the same way. -/
theorem Table.build_plain (g : Grammar) (every : Bool) :
    build g.plain every = build g every := by
  obtain ⟨rs, s, hrun, -⟩ := rows_eq (fun _ hn => hn) (Builder.sound_new g.plain every).session
  have hlarger : rows g.plain (g.plain.occurrenceIndex every) g.budget g.plain.keys
      (Builder.new g.plain every).session = (.ok rs, s) := by
    rw [rows_agrees g.budget_plain_le g.plain.keys _ (by rw [hrun]; simp), hrun]
  have hsame : rows g (g.occurrenceIndex every) g.budget g.keys (Builder.new g every).session =
      (.ok rs, s) := by
    rw [← hlarger, g.keys_plain, g.occurrenceIndex_plain, rows, rows, Builder.firstSet_plain,
      Builder.followSet_plain]
    rfl
  rw [build_of_rows hrun, build_of_rows hsame, g.keys_plain]

/-- `entangled` with its empty alternative written out. -/
def Grammar.entangledWithEpsilon : Grammar where
  start := "A"
  productions := ⟨[("A", [[.nonterminal "B"]]),
    ("B", [[.nonterminal "B", .nonterminal "A", .terminal "a"], [.epsilon]])], by decide⟩
  start_mem := by decide
  closed := Grammar.firstRefusal?_eq_none_iff.1 (by decide)

namespace Builder

/-- Grammars that differ only in how they spell the empty derivation cannot be told apart. The same
steps, failing ones included, have the same replies and events, so the same log, and leave the same
memos, and the tables are the same, with the same log. -/
theorem run_respelt {g h : Grammar} (hgh : g.Respelt h) (every : Bool) :
    (∀ qs, ((new g every).run qs).1 = ((new h every).run qs).1 ∧
      ((new g every).run qs).2.first = ((new h every).run qs).2.first ∧
      ((new g every).run qs).2.follow = ((new h every).run qs).2.follow) ∧
    Table.build g every = Table.build h every := by
  refine ⟨fun qs => ?_, ?_⟩
  · obtain ⟨houtcomes, hmemos⟩ := run_new_plain g every qs
    obtain ⟨houtcomes', hmemos'⟩ := run_new_plain h every qs
    rw [hgh.plain_eq] at houtcomes hmemos
    have hsame := hmemos.symm.trans hmemos'
    exact ⟨houtcomes.symm.trans houtcomes', congrFun hsame .first, congrFun hsame .follow⟩
  · rw [← Table.build_plain g, hgh.plain_eq, Table.build_plain h]

theorem run_respelt_entangled :
    Grammar.entangled.Respelt .entangledWithEpsilon ∧
    Grammar.entangled.budget ≠ Grammar.entangledWithEpsilon.budget ∧
    ((new .entangled false).run [.follow (.nonterminal "B"), .first (.nonterminal "Z")]).1 =
      ((new .entangledWithEpsilon false).run
        [.follow (.nonterminal "B"), .first (.nonterminal "Z")]).1 ∧
    Table.build .entangled true = Table.build .entangledWithEpsilon true := by
  have hrespelt : Grammar.entangled.Respelt .entangledWithEpsilon := ⟨rfl, by decide⟩
  exact ⟨hrespelt, by decide +kernel, ((run_respelt hrespelt false).1 _).1,
    (run_respelt hrespelt true).2⟩

end Builder

end FirstFollow
