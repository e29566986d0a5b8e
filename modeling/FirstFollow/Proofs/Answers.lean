import FirstFollow.Proofs.Follow

/-!
What a builder answers. Between questions its memos are sound (`Session.Sound`), and each answer is
what the equations say over the FIRST sets that are finished in the end, so also over those of the
whole run (`Builder.Sound.run`).
-/

namespace FirstFollow

variable {g : Grammar} {every : Bool}

/-- Both memos between questions. -/
structure Session.Sound (g : Grammar) (every : Bool) (s : Session (Session Trace)) : Prop where
  first : FirstMemo g s.around.memo
  follow : FollowMemo g every s.around.memo s.memo

/-- From sound memos, `x` gives the set that is `expected` over the FIRST sets finished then. -/
def Computes (g : Grammar) (every : Bool) (x : Builder.Compute SymbolSet)
    (expected : (Symbol → Set Symbol) → Set Symbol) : Prop :=
  ∀ s, s.Sound g every → ∃ A s', x s = (.ok A, s') ∧ s'.Sound g every ∧
    s.around.memo.Extends s'.around.memo ∧ ∀ F, s'.around.memo.Fits F → A.toSet = expected F

namespace Builder

/-- Questions about FIRST leave the memo of FOLLOW sets alone. -/
theorem firstSet_eq {n : Symbol} {s : Session (Session Trace)} (hs : FirstMemo g s.around.memo)
    (hn : n ∈ g) : ∃ A around, firstSet g g.budget n s = (.ok A, { s with around }) ∧
      FirstMemo g around.memo ∧ s.around.memo.Extends around.memo ∧
      around.memo.done.get? n = some A := by
  obtain ⟨A, around, hrun, hfirst, hext, hA⟩ := hs.firstOf_eq hn
  refine ⟨A, around, ?_, hfirst, hext, hA⟩
  apply Solve.within_ok
  rw [Solve.bind_ok hrun]
  rfl

theorem sequenceSet_eq {d : Derivation} {s : Session (Session Trace)}
    (hs : FirstMemo g s.around.memo) (hd : ∀ t ∈ d, t.isNonterminal → t ∈ g) :
    ∃ A around, sequenceSet g g.budget d s = (.ok A, { s with around }) ∧
      FirstMemo g around.memo ∧ s.around.memo.Extends around.memo ∧
      ∀ F, around.memo.Fits F → A.toSet = scanSet F d := by
  obtain ⟨A, around, hrun, h⟩ := hs.firstOfSequence_eq hd
  exact ⟨A, around, Solve.within_ok hrun, h⟩

theorem firstSet_computes {n : Symbol} (hn : n ∈ g) :
    Computes g every (firstSet g g.budget n) fun F => F n := by
  intro s hs
  obtain ⟨A, around, hrun, hfirst, hext, hA⟩ := firstSet_eq hs.first hn
  exact ⟨A, _, hrun, ⟨hfirst, hs.follow.extend hext⟩, hext, fun F hF => hF n A hA⟩

theorem sequenceSet_computes {d : Derivation} (hd : ∀ t ∈ d, t.isNonterminal → t ∈ g) :
    Computes g every (sequenceSet g g.budget d) fun F => scanSet F d := by
  intro s hs
  obtain ⟨A, around, hrun, hfirst, hext, hA⟩ := sequenceSet_eq hs.first hd
  exact ⟨A, _, hrun, ⟨hfirst, hs.follow.extend hext⟩, hext, hA⟩

theorem followSet_computes {n : Symbol} (hn : n ∈ g) :
    Computes g every (followSet g (g.occurrenceIndex every) g.budget n)
      fun F => g.followSets every F n := by
  intro s hs
  obtain ⟨A, s', hrun, hfirst, hfollow, hext, -, hA⟩ := hs.follow.followOf_eq hs.first hn
  refine ⟨A, s', ?_, ⟨hfirst, hfollow⟩, hext, fun F hF => hfollow.exact hF n A hA⟩
  rw [followSet, Solve.bind_ok hrun]
  rfl

end Builder

/-! ### Steps of a builder -/

/-- A question about keys of `g`. -/
def Step.Asks (g : Grammar) : Step → Prop
  | .first n | .follow n => n ∈ g
  | .sequence d => ∀ t ∈ d, t.isNonterminal → t ∈ g
  | .every _ => False

/-- The answer to a question over the FIRST sets `F`. -/
def Step.expected (g : Grammar) (every : Bool) (F : Symbol → Set Symbol) : Step → Set Symbol
  | .first n => F n
  | .follow n => g.followSets every F n
  | .sequence d => scanSet F d
  | .every _ => ∅

/-- The step succeeded and gave this set. -/
def Outcome.Gives (o : Outcome) (T : Set Symbol) : Prop :=
  ∃ A : SymbolSet, o.reply = .ok (.set A) ∧ A.toSet = T

namespace Builder

/-- The state of a builder between questions. -/
structure Sound (g : Grammar) (every : Bool) (b : Builder) : Prop where
  grammar_eq : b.grammar = g
  every_eq : b.every = every
  budget_eq : b.budget = g.budget
  session : b.session.Sound g every

theorem sound_new (g : Grammar) (every : Bool) : (new g every).Sound g every where
  grammar_eq := rfl
  every_eq := rfl
  budget_eq := rfl
  session := ⟨.fresh, .fresh g every _⟩

theorem compute_ok {b : Builder} {x : Compute SymbolSet} {A : SymbolSet}
    {s' : Session (Session Trace)} (hrun : x b.session = (.ok A, s')) :
    b.compute x = (⟨.ok (.set A), s'.around.around.events⟩,
      { b with first := s'.around.memo, follow := s'.memo }) := by
  have hrun' : StateT.run (ExceptT.run x) b.session = (.ok A, s') := hrun
  rw [compute, hrun']
  rfl

theorem Sound.compute {b : Builder} (hb : b.Sound g every) {x : Compute SymbolSet}
    {expected : (Symbol → Set Symbol) → Set Symbol} (hx : Computes g every x expected) :
    (b.compute x).2.Sound g every ∧ b.first.Extends (b.compute x).2.first ∧
      ∀ F, (b.compute x).2.first.Fits F → (b.compute x).1.Gives (expected F) := by
  obtain ⟨A, s', hrun, hs', hext, hA⟩ := hx b.session hb.session
  rw [compute_ok hrun]
  exact ⟨⟨hb.grammar_eq, hb.every_eq, hb.budget_eq, hs'.first, hs'.follow⟩, hext,
    fun F hF => ⟨A, rfl, hA F hF⟩⟩

theorem Sound.step {b : Builder} (hb : b.Sound g every) {q : Step} (hq : q.Asks g) :
    (b.step q).2.Sound g every ∧ b.first.Extends (b.step q).2.first ∧
      ∀ F, (b.step q).2.first.Fits F → (b.step q).1.Gives (q.expected g every F) := by
  obtain ⟨rfl, rfl, hbudget, -⟩ := id hb
  cases q with
  | first n =>
    unfold Builder.step
    rw [hbudget]
    exact hb.compute (firstSet_computes hq)
  | follow n =>
    unfold Builder.step
    rw [hbudget]
    exact hb.compute (followSet_computes hq)
  | sequence d =>
    unfold Builder.step
    rw [hbudget]
    exact hb.compute (sequenceSet_computes hq)
  | every value => exact hq.elim

/-- A run answers every question, as its equations say over the FIRST sets that it ends with. -/
theorem Sound.run {b : Builder} (hb : b.Sound g every) {qs : List Step}
    (hqs : ∀ q ∈ qs, q.Asks g) :
    (b.run qs).2.Sound g every ∧ b.first.Extends (b.run qs).2.first ∧
      ∀ F, (b.run qs).2.first.Fits F →
        List.Forall₂ (fun q o => o.Gives (q.expected g every F)) qs (b.run qs).1 := by
  induction qs generalizing b with
  | nil => exact ⟨hb, .refl _, fun _ _ => .nil⟩
  | cons q qs ih =>
    obtain ⟨hb₁, hext₁, hq⟩ := hb.step (hqs q (by simp))
    obtain ⟨hb', hext, hrest⟩ := ih hb₁ fun p hp => hqs p (by simp [hp])
    exact ⟨hb', hext₁.trans hext, fun F hF => .cons (hq F (hF.of_extends hext)) (hrest F hF)⟩

/-- If no nonterminal that can vanish begins with itself, every question about keys is answered with
the least sets, in whatever order the questions come. -/
theorem run_least {g : Grammar} (hg : g.VanishingAcyclic) (every : Bool) {qs : List Step}
    (hqs : ∀ q ∈ qs, q.Asks g) :
    List.Forall₂ (fun q o => o.Gives (q.expected g every g.firstSets)) qs
      ((new g every).run qs).1 := by
  obtain ⟨hb, -, hanswers⟩ := (sound_new g every).run hqs
  exact hanswers _ (hb.session.first.exact hg)

end Builder

/-- A nonterminal that begins with itself beside one that can vanish. -/
def Grammar.leftRecursive : Grammar where
  start := "S"
  productions := ⟨[("S", [[.nonterminal "S", .terminal "c"], [.nonterminal "A", .terminal "b"]]),
    ("A", [[.terminal "a"], []])], by decide⟩
  start_mem := by decide
  closed := Grammar.firstRefusal?_eq_none_iff.1 (by decide)

theorem Grammar.leftRecursive_vanishingAcyclic : leftRecursive.VanishingAcyclic := by
  have hderives : ∀ {n d}, leftRecursive.Derives n d →
      n = .nonterminal "S" ∧ (d = [.nonterminal "S", .terminal "c"] ∨
        d = [.nonterminal "A", .terminal "b"]) ∨
      n = .nonterminal "A" ∧ (d = [.terminal "a"] ∨ d = []) := by
    intro n d h
    obtain ⟨r, hr, rfl, rfl⟩ := derives_iff.1 h
    have hrules : leftRecursive.rules = [⟨"S", [.nonterminal "S", .terminal "c"]⟩,
      ⟨"S", [.nonterminal "A", .terminal "b"]⟩, ⟨"A", [.terminal "a"]⟩, ⟨"A", []⟩] := rfl
    rw [hrules] at hr
    simp only [List.mem_cons, List.not_mem_nil, or_false] at hr
    rcases hr with rfl | rfl | rfl | rfl <;> simp [Rule.lhs]
  have hbound : leftRecursive.firstSets ≤ fun n =>
      if n = .nonterminal "S" then {.terminal "a", .terminal "b"}
      else {.terminal "a", .epsilon} := by
    apply firstSets_least
    rintro n a ⟨d, hd, ha⟩
    rcases hderives hd with ⟨rfl, rfl | rfl⟩ | ⟨rfl, rfl | rfl⟩
    · simpa [scanSet] using ha
    · simpa [scanSet, or_comm] using ha
    · exact .inl (by simpa [scanSet] using ha)
    · exact .inr (by simpa [scanSet] using ha)
  intro n hε hcycle
  have hn : n ≠ .nonterminal "S" := by
    rintro rfl
    simpa using hbound _ hε
  -- only alternatives of `S` begin with a nonterminal
  obtain ⟨m, ⟨d, hd, hstarts⟩, -⟩ := Relation.TransGen.head'_iff.1 hcycle
  rcases hderives hd with ⟨hS, -⟩ | ⟨-, rfl | rfl⟩
  · exact hn hS
  · simpa [Symbol.isNonterminal] using (starts_cons.1 hstarts).1
  · exact starts_nil hstarts

theorem Builder.run_least_leftRecursive : Grammar.leftRecursive.VanishingAcyclic ∧
    (∀ q ∈ [Step.follow (.nonterminal "A"), .first (.nonterminal "S")],
      q.Asks Grammar.leftRecursive) ∧
    List.Forall₂ (fun q o => o.Gives
        (q.expected Grammar.leftRecursive true Grammar.leftRecursive.firstSets))
      [Step.follow (.nonterminal "A"), .first (.nonterminal "S")]
      ((Builder.new .leftRecursive true).run
        [Step.follow (.nonterminal "A"), .first (.nonterminal "S")]).1 := by
  have hqs : ∀ q ∈ [Step.follow (.nonterminal "A"), .first (.nonterminal "S")],
      q.Asks Grammar.leftRecursive := by
    intro q hq
    simp only [List.mem_cons, List.not_mem_nil, or_false] at hq
    rcases hq with rfl | rfl
    · show Symbol.nonterminal "A" ∈ Grammar.leftRecursive
      decide
    · show Symbol.nonterminal "S" ∈ Grammar.leftRecursive
      decide
  exact ⟨Grammar.leftRecursive_vanishingAcyclic, hqs,
    Builder.run_least Grammar.leftRecursive_vanishingAcyclic true hqs⟩

end FirstFollow
