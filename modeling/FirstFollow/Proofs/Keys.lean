import FirstFollow.Proofs.Tables

/-!
Questions about keys, the mode being switched at will between them. Each of them is answered
(`Builder.Steady.run`), and no set ever holds more than the least sets over every occurrence do.
-/

namespace FirstFollow

/-! ### Both modes -/

theorem Rule.occurrences_subset {r : Rule} {every : Bool} {seen seen' : List String}
    {d : Derivation} : r.occurrences every seen d ⊆ r.occurrences true seen' d := by
  induction d generalizing seen seen' with
  | nil => simp [occurrences]
  | cons s rest ih =>
    cases s with
    | nonterminal name =>
      simp only [occurrences, Bool.true_or, if_true]
      split
      · exact List.cons_subset_cons _ ih
      · exact List.subset_cons_of_subset _ ih
    | _ => exact ih

namespace Grammar

variable {g : Grammar} {every : Bool} {n : Symbol} {o : Occurrence} {F F' : Symbol → Set Symbol}

theorem Occurs.of_every (h : g.Occurs every n o) : g.Occurs true n o := by
  obtain ⟨hn, name, rfl, r, hr, ho⟩ := occurs_iff.1 h
  exact occurs_iff.2 ⟨hn, name, rfl, r, hr, Rule.occurrences_subset ho⟩

/-- More occurrences that count and larger FIRST sets make larger FOLLOW sets. -/
theorem followSets_le_every (hF : F ≤ F') : g.followSets every F ≤ g.followSets true F' := by
  apply followSets_least
  intro n a ha
  rw [← followSets_fixed]
  rcases ha with hstart | ⟨o, ho, ha | ⟨hvanish, ha⟩⟩
  · exact .inl hstart
  · exact .inr ⟨o, ho.of_every, .inl ⟨scanSet_mono hF _ ha.1, ha.2⟩⟩
  · exact .inr ⟨o, ho.of_every, .inr ⟨hvanish.imp_right fun hε => scanSet_mono hF _ hε, ha⟩⟩

end Grammar

/-! ### FOLLOW sets in either mode -/

variable {g : Grammar} {every : Bool} {n : Symbol}

/-- Bounds that hold in both modes, over FIRST sets that are not too large. -/
def followUpper (g : Grammar) : Bounds Derivation where
  key n := n ∈ g
  set := g.followSets true g.firstSets
  input d := ∃ n o, g.Occurs true n o ∧ d = o.suffix
  reply d A := A.toSet ⊆ scanSet g.firstSets d

theorem followScript_within_upper (hn : n ∈ g) :
    (followScript g (g.occurrenceIndex every) n).Within (followUpper g)
      (g.followSets true g.firstSets n) := by
  have hfixed : g.followOperator true g.firstSets (g.followSets true g.firstSets) n ⊆
      g.followSets true g.firstSets n := by
    rw [Grammar.followSets_fixed]
  apply followScript_within_of hn
  · exact fun hstart => hfixed (.inl ⟨hstart, rfl⟩)
  · exact fun _ hm => hm
  · exact fun o ho => ⟨n, o, ho.of_every, rfl⟩
  · exact fun o ho C hC a ha => hfixed (.inr ⟨o, ho.of_every, .inl ⟨hC ha.1, ha.2⟩⟩)
  · intro o ho hvanish a ha
    have hproducer : o.suffix = [] ∨ .epsilon ∈ scanSet g.firstSets o.suffix := by
      apply hvanish.imp_right
      rintro ⟨C, hC, hε⟩
      exact hC hε
    exact hfixed (.inr ⟨o, ho.of_every, .inr ⟨hproducer, ha⟩⟩)

theorem FirstMemo.scanned_subset {m : Memo} (h : FirstMemo g m) {d : Derivation} {A : SymbolSet}
    (hA : ∀ F, m.Fits F → Script.Scanned F d A) : A.toSet ⊆ scanSet g.firstSets d := by
  have hscan : A.toSet = scanSet m.done.sets d := hA _ m.fits_sets
  rw [hscan]
  exact scanSet_mono h.sets_subset d

theorem follow_sound_upper (g : Grammar) (every : Bool) :
    Solve.Sound (followScript g (g.occurrenceIndex every))
      (fun d _ A _ => A.toSet ⊆ scanSet g.firstSets d) (followUpper g) g.keys.toFinset g.symbols
      (fun d => Solve.within (firstOfSequence g g.budget d))
      fun a : Session Trace => FirstMemo g a.memo where
  script _ hn := followScript_within_upper hn
  replies _ _ _ _ h := h
  keys _ hn := List.mem_toFinset.2 hn
  symbols n _ := Grammar.followSets_subset_symbols (fun _ _ => g.firstSets_subset_symbols _) n
  call := by
    rintro d s hs ⟨x, o, ho, rfl⟩
    obtain ⟨A, around, hrun, h', -, hA⟩ := hs.firstOfSequence_eq fun t ht =>
      ho.derives.mem_of_nonterminal (ho.suffix_subset ht)
    exact ⟨A, around, Solve.within_ok hrun, h'.scanned_subset hA, h'⟩
  record _ _ h := h

/-- Both memos between questions about keys, in whatever modes these were asked. -/
structure Session.Steady (g : Grammar) (s : Session (Session Trace)) : Prop where
  first : FirstMemo g s.around.memo
  wf : s.memo.Wf
  group_eq : s.memo.group = []
  within : s.memo.Within (followUpper g)

/-- From steady memos, `x` gives a set within `T`. -/
def Gives (g : Grammar) (x : Builder.Compute SymbolSet) (T : Set Symbol) : Prop :=
  ∀ s : Session (Session Trace), s.Steady g →
    ∃ A s', x s = (.ok A, s') ∧ s'.Steady g ∧ A.toSet ⊆ T

namespace Builder

theorem firstSet_gives (hn : n ∈ g) : Gives g (firstSet g g.budget n) (g.firstSets n) := by
  intro s hs
  obtain ⟨A, around, hrun, hfirst, -, hA⟩ := firstSet_eq hs.first hn
  exact ⟨A, _, hrun, ⟨hfirst, hs.wf, hs.group_eq, hs.within⟩, hfirst.subset hA⟩

theorem sequenceSet_gives {d : Derivation} (hd : ∀ t ∈ d, t.isNonterminal → t ∈ g) :
    Gives g (sequenceSet g g.budget d) (scanSet g.firstSets d) := by
  intro s hs
  obtain ⟨A, around, hrun, hfirst, -, hA⟩ := sequenceSet_eq hs.first hd
  exact ⟨A, _, hrun, ⟨hfirst, hs.wf, hs.group_eq, hs.within⟩, hfirst.scanned_subset hA⟩

theorem followSet_gives (every : Bool) (hn : n ∈ g) :
    Gives g (followSet g (g.occurrenceIndex every) g.budget n)
      (g.followSets true g.firstSets n) := by
  intro s hs
  obtain ⟨⟨A, low⟩, s', hrun, hr, hfirst⟩ :=
    (follow_sound_upper g every).followOf_total ⟨hs.wf, hs.within, hs.first⟩ hn
  obtain ⟨-, -, hgroup⟩ := hr.settled_of_empty hs.wf hs.group_eq
  have hbound := hr.within (B := followUpper g) (fun _ => followScript_within_upper)
    (fun _ _ _ _ hc => hc) hs.wf hs.within (T := g.followSets true g.firstSets n) ⟨hn, rfl⟩
  refine ⟨A, s', ?_, ⟨hfirst, (hr.frame hs.wf).wf, hgroup, hbound.1⟩, hbound.2⟩
  rw [followSet, Solve.bind_ok hrun]
  rfl

end Builder

/-! ### Steps about keys -/

/-- A question about keys, or a switch of the mode. -/
def Step.AboutKeys (g : Grammar) : Step → Prop
  | .every _ => True
  | q => q.Asks g

instance (g : Grammar) : (q : Step) → Decidable (q.AboutKeys g)
  | .every _ => inferInstanceAs (Decidable True)
  | .first n | .follow n => inferInstanceAs (Decidable (n ∈ g))
  | .sequence d => inferInstanceAs (Decidable (∀ t ∈ d, t.isNonterminal → t ∈ g))

/-- The step succeeded with the kind of reply that it asks for, a set being within `T`. -/
def Step.AnsweredIn (T : Set Symbol) (o : Outcome) : Step → Prop
  | .every value => o.reply = .ok (.flag value)
  | .first _ | .follow _ | .sequence _ => ∃ A : SymbolSet, o.reply = .ok (.set A) ∧ A.toSet ⊆ T

theorem Step.AnsweredIn.mono {T T' : Set Symbol} {o : Outcome} {q : Step} (h : q.AnsweredIn T o)
    (hT : T ⊆ T') : q.AnsweredIn T' o := by
  cases q with
  | every value => exact h
  | first | follow | sequence =>
    obtain ⟨A, hreply, hA⟩ := h
    exact ⟨A, hreply, hA.trans hT⟩

namespace Builder

/-- A builder between questions about keys. -/
structure Steady (g : Grammar) (b : Builder) : Prop where
  grammar_eq : b.grammar = g
  budget_eq : b.budget = g.budget
  session : b.session.Steady g

theorem steady_new (g : Grammar) (every : Bool) : (new g every).Steady g where
  grammar_eq := rfl
  budget_eq := rfl
  session := ⟨.fresh, Memo.fresh_wf _, rfl, Memo.fresh_within _ _⟩

theorem Steady.compute {b : Builder} (hb : b.Steady g) {x : Compute SymbolSet} {T : Set Symbol}
    (hx : Gives g x T) : (b.compute x).2.Steady g ∧
      ∃ A : SymbolSet, (b.compute x).1.reply = .ok (.set A) ∧ A.toSet ⊆ T := by
  obtain ⟨A, s', hrun, hs', hA⟩ := hx b.session hb.session
  rw [compute_ok hrun]
  exact ⟨⟨hb.grammar_eq, hb.budget_eq, hs'.first, hs'.wf, hs'.group_eq, hs'.within⟩, A, rfl, hA⟩

/-- Questions about FIRST leave the memo of FOLLOW sets alone. -/
theorem Steady.step_first {b : Builder} (hb : b.Steady g) (hn : n ∈ g) :
    ∃ (A : SymbolSet) (s' : Session Trace),
      b.step (.first n) = (⟨.ok (.set A), s'.around.events⟩, { b with first := s'.memo }) ∧
        s'.memo.done.get? n = some A := by
  obtain ⟨rfl, hbudget, hs⟩ := hb
  obtain ⟨A, s', hrun, -, -, hA⟩ := firstSet_eq hs.first hn
  rw [← hbudget] at hrun
  exact ⟨A, s', compute_ok hrun, hA⟩

theorem Steady.step_sequence {b : Builder} (hb : b.Steady g) {d : Derivation}
    (hd : ∀ t ∈ d, t.isNonterminal → t ∈ g) :
    ∃ (A : SymbolSet) (s' : Session Trace),
      b.step (.sequence d) = (⟨.ok (.set A), s'.around.events⟩, { b with first := s'.memo }) ∧
        ∀ F, s'.memo.Fits F → A.toSet = scanSet F d := by
  obtain ⟨rfl, hbudget, hs⟩ := hb
  obtain ⟨A, s', hrun, -, -, hA⟩ := sequenceSet_eq hs.first hd
  rw [← hbudget] at hrun
  exact ⟨A, s', compute_ok hrun, hA⟩

theorem Steady.step {b : Builder} (hb : b.Steady g) {q : Step} (hq : q.AboutKeys g) :
    (b.step q).2.Steady g ∧ q.AnsweredIn (q.expected g true g.firstSets) (b.step q).1 := by
  obtain ⟨rfl, hbudget, hs⟩ := id hb
  cases q with
  | first n =>
    unfold Builder.step
    rw [hbudget]
    exact hb.compute (firstSet_gives hq)
  | follow n =>
    unfold Builder.step
    rw [hbudget]
    exact hb.compute (followSet_gives b.every hq)
  | sequence d =>
    unfold Builder.step
    rw [hbudget]
    exact hb.compute (sequenceSet_gives hq)
  | every value => exact ⟨⟨rfl, hbudget, hs⟩, rfl⟩

/-- Every question about keys is answered, with no more than the least sets over every
occurrence. -/
theorem Steady.run {b : Builder} (hb : b.Steady g) {qs : List Step}
    (hqs : ∀ q ∈ qs, q.AboutKeys g) : (b.run qs).2.Steady g ∧
      List.Forall₂ (fun q o => q.AnsweredIn (q.expected g true g.firstSets) o) qs (b.run qs).1 := by
  induction qs generalizing b with
  | nil => exact ⟨hb, .nil⟩
  | cons q qs ih =>
    obtain ⟨hb₁, hq⟩ := hb.step (hqs q (by simp))
    obtain ⟨hb', hrest⟩ := ih hb₁ fun p hp => hqs p (by simp [hp])
    exact ⟨hb', .cons hq hrest⟩

/-- Every table is made and has a row for each key, in their order. No question about keys fails,
whatever questions about keys came before it and in whatever modes. -/
theorem keys_never_fail (g : Grammar) :
    (∀ every, ∃ t events, Table.build g every = (.ok t, events) ∧
      t.first.keys = g.keys ∧ t.follow.keys = g.keys) ∧
    ∀ every (qs : List Step), (∀ q ∈ qs, q.AboutKeys g) → ∀ q : Step, q.AboutKeys g →
      q.AnsweredIn (q.expected g true g.firstSets) (((new g every).run qs).2.step q).1 := by
  constructor
  · intro every
    obtain ⟨t, events, -, hbuild, -, hfirst, hfollow, -⟩ := Table.build_eq g every
    exact ⟨t, events, hbuild, hfirst, hfollow⟩
  · intro every qs hqs q hq
    exact (((steady_new g every).run hqs).1.step hq).2

theorem keys_never_fail_entangled :
    (∀ q ∈ [Step.first (.nonterminal "A"), .every true, .follow (.nonterminal "B")],
      q.AboutKeys .entangled) ∧
    (Step.sequence [.nonterminal "B", .nonterminal "A"]).AboutKeys .entangled ∧
    (Step.sequence [.nonterminal "B", .nonterminal "A"]).AnsweredIn
      (scanSet Grammar.entangled.firstSets [.nonterminal "B", .nonterminal "A"])
      (((new .entangled false).run
        [.first (.nonterminal "A"), .every true, .follow (.nonterminal "B")]).2.step
          (.sequence [.nonterminal "B", .nonterminal "A"])).1 := by
  have hqs : ∀ q ∈ [Step.first (.nonterminal "A"), .every true, .follow (.nonterminal "B")],
      q.AboutKeys .entangled := by decide
  have hq : (Step.sequence [.nonterminal "B", .nonterminal "A"]).AboutKeys .entangled := by decide
  exact ⟨hqs, hq, (keys_never_fail .entangled).2 false _ hqs _ hq⟩

end Builder

end FirstFollow
