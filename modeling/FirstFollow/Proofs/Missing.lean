import FirstFollow.Proofs.Failures

/-!
Symbols without productions. The first question about one fails in each memo and leaves it on the
stack, where all later questions find it and answer with nothing (`Builder.missing_fails_once`).
Nothing else depends on them: the same steps without those questions have the same replies, the same
lines in the log and the same finished sets (`Builder.run_without_misses`).
-/

namespace FirstFollow

variable {g : Grammar} {every : Bool} {dead : SetKind → List Symbol} {kind : SetKind} {n : Symbol}
  {e : Error} {q : Step} {qs : List Step} {b b' : Builder}

/-- The error of looking up a symbol that is no key. -/
def Symbol.lookupError : Symbol → Error
  | nonterminal name => .undefined name none
  | _ => .lookupNotNonterminal

theorem Grammar.derivations_eq_error (hn : n ∉ g) : g.derivations n = .error n.lookupError := by
  cases n with
  | nonterminal name =>
    cases hget : g.productions.get? name with
    | some ds => exact absurd (mem_of_get? hget) hn
    | none => simp [derivations, lookup, hget, Symbol.lookupError]
  | _ => rfl

namespace Builder

/-- One memo is replaced. -/
def setMemo (b : Builder) : SetKind → Memo → Builder
  | .first, m => { b with first := m }
  | .follow, m => { b with follow := m }

theorem memos_setMemo (b : Builder) (kind : SetKind) (m : Memo) :
    (b.setMemo kind m).memos = Function.update b.memos kind m := by
  cases kind with
  | first => exact (Memos.update_first b.first b.follow m).symm
  | follow => exact (Memos.update_follow b.first b.follow m).symm

/-! ### Replies -/

/-- A step is answered, or it fails as looking up a symbol without productions does. -/
theorem Stands.step_reply (hb : b.Stands g dead) (q : Step) :
    (∃ r, (b.step q).1.reply = .ok r) ∨ ∃ n ∉ g, (b.step q).1.reply = .error n.lookupError := by
  rcases hb.step q with ⟨hok, -⟩ | ⟨kind, n, e, hn, he, hreply, -⟩
  · exact .inl hok
  · rw [Grammar.derivations_eq_error hn, Except.error.injEq] at he
    exact .inr ⟨n, hn, he ▸ hreply⟩

theorem Stands.run_reply (hb : b.Stands g dead) (qs : List Step) : ∀ o ∈ (b.run qs).1,
    (∃ r, o.reply = .ok r) ∨ ∃ n ∉ g, o.reply = .error n.lookupError := by
  induction qs generalizing b dead with
  | nil => simp [Builder.run]
  | cons q qs ih =>
    obtain ⟨dead', hb'⟩ := hb.exists_step q
    exact List.forall_mem_cons.2 ⟨hb.step_reply q, ih hb'⟩

/-! ### Single questions -/

theorem compute_error {x : Compute SymbolSet} {s' : Session (Session Trace)}
    (hrun : x b.session = (.error e, s')) :
    b.compute x = (⟨.error e, s'.around.around.events⟩,
      { b with first := s'.around.memo, follow := s'.memo }) := by
  have hrun' : StateT.run (ExceptT.run x) b.session = (.error e, s') := hrun
  rw [compute, hrun']
  rfl

namespace Stands

variable (hb : b.Stands g dead) (hwf : b.memos.Wf)

include hb hwf

/-- A symbol that was left on the stack is answered with nothing, and nothing else happens. -/
theorem step_buried (hn : n ∈ dead kind) :
    b.step (.about kind n) = (⟨.ok (.set ∅), [.reentered kind n ∅]⟩, b) := by
  obtain ⟨rfl, -, c, hc, habove⟩ := hb
  cases kind with
  | first =>
    have hkind : b.first.kind = .first := hwf.kind_eq .first
    obtain ⟨i, hask⟩ := Solve.ask_buried (firstEquation b.grammar) (s := b.session.around)
      (habove .first) (hc.idle .first) hn b.budget.passes b.budget.depth
    have hset : firstSet b.grammar b.budget n b.session =
        (.ok ∅, { b.session with around := b.session.around.note (.reentered · n ∅) }) := by
      apply Solve.within_ok
      rw [firstOf, Equation.solve, Solve.bind_ok hask]
      rfl
    refine (compute_ok hset).trans ?_
    show (Outcome.mk (.ok (.set ∅)) [.reentered b.first.kind n ∅], b) = _
    rw [hkind]
  | follow =>
    have hkind : b.follow.kind = .follow := hwf.kind_eq .follow
    obtain ⟨i, hask⟩ := Solve.ask_buried
      (followEquation b.grammar (b.grammar.occurrenceIndex b.every) b.budget)
      (habove .follow) (hc.idle .follow) hn b.budget.passes b.budget.depth
    have hset : followSet b.grammar (b.grammar.occurrenceIndex b.every) b.budget n b.session =
        (.ok ∅, b.session.note (.reentered · n ∅)) := by
      rw [followSet, followOf, Equation.solve, Solve.bind_ok hask]
      rfl
    refine (compute_ok hset).trans ?_
    show (Outcome.mk (.ok (.set ∅)) [.reentered b.follow.kind n ∅], b) = _
    rw [hkind]

/-- Any other symbol without productions is begun and fails. -/
theorem step_fails (hn : n ∉ g) (hdead : n ∉ dead kind) : b.step (.about kind n) =
    (⟨.error n.lookupError, [.entered kind n (b.memos kind).count]⟩,
      b.setMemo kind ((b.memos kind).start n)) := by
  obtain ⟨rfl, hbudget, c, hc, habove⟩ := hb
  have he := Grammar.derivations_eq_error hn
  cases kind with
  | first =>
    have hkind : b.first.kind = .first := hwf.kind_eq .first
    have hask := firstOf_fails (s := b.session.around) (habove .first) (hc.idle .first) hn hdead he
    have hset : firstSet b.grammar b.budget n b.session =
        (.error n.lookupError, { b.session with around := b.session.around.start n }) := by
      rw [hbudget, firstSet, Solve.within_apply, Solve.bind_error hask]
    refine (compute_error hset).trans ?_
    show (Outcome.mk (.error _) [.entered b.first.kind n b.first.count],
      b.setMemo .first (b.first.start n)) = _
    rw [hkind]
    rfl
  | follow =>
    have hkind : b.follow.kind = .follow := hwf.kind_eq .follow
    have hask := followOf_fails b.every (habove .follow) (hc.idle .follow) hn hdead he
    have hset : followSet b.grammar (b.grammar.occurrenceIndex b.every) b.budget n b.session =
        (.error n.lookupError, b.session.start n) := by
      rw [hbudget, followSet, Solve.bind_error hask]
    refine (compute_error hset).trans ?_
    show (Outcome.mk (.error _) [.entered b.follow.kind n b.follow.count],
      b.setMemo .follow (b.follow.start n)) = _
    rw [hkind]
    rfl

/-- Either way it is begun in the end. -/
theorem begun_step (hn : n ∉ g) : ((b.step (.about kind n)).2.memos kind).Begun n := by
  by_cases hdead : n ∈ dead kind
  · rw [hb.step_buried hwf hdead]
    exact (hb.begun_iff hn).2 hdead
  · rw [hb.step_fails hwf hn hdead, memos_setMemo, Function.update_self]
    exact Memo.begun_start _ n

end Stands

/-- After any run, the question for a symbol without productions fails in each memo if it was not
begun there, and only begins it. Otherwise it is answered with nothing and changes nothing; so it is
from the second time on, whatever happens in between. -/
theorem missing_fails_once (g : Grammar) (every : Bool) (qs : List Step) (kind : SetKind)
    (n : Symbol) (hn : n ∉ g) :
    g.derivations n = .error n.lookupError ∧
    (n ∉ (((new g every).run qs).2.memos kind).group →
      ((new g every).run qs).2.step (.about kind n) =
        (⟨.error n.lookupError, [.entered kind n (((new g every).run qs).2.memos kind).count]⟩,
          ((new g every).run qs).2.setMemo kind
            ((((new g every).run qs).2.memos kind).start n))) ∧
    (n ∈ (((new g every).run qs).2.memos kind).group →
      ((new g every).run qs).2.step (.about kind n) =
        (⟨.ok (.set ∅), [.reentered kind n ∅]⟩, ((new g every).run qs).2)) ∧
    ∀ qs', ((((new g every).run qs).2.step (.about kind n)).2.run qs').2.step (.about kind n) =
      (⟨.ok (.set ∅), [.reentered kind n ∅]⟩,
        ((((new g every).run qs).2.step (.about kind n)).2.run qs').2) := by
  have hnew := memos_new_wf g every
  have hwf := (run_changes hnew qs).memos_wf hnew
  obtain ⟨⟨dead, hb⟩, -⟩ := (stands_new g every).run hnew qs
  refine ⟨Grammar.derivations_eq_error hn, ?_, ?_, fun qs' => ?_⟩
  · intro hgroup
    rw [hb.group_eq kind] at hgroup
    exact hb.step_fails hwf hn hgroup
  · intro hgroup
    rw [hb.group_eq kind] at hgroup
    exact hb.step_buried hwf hgroup
  · have hstep := step_changes hwf (.about kind n)
    have hwf₁ := hstep.memos_wf hwf
    have hrun := run_changes hwf₁ qs'
    obtain ⟨⟨dead₁, hb₁⟩, -⟩ := hb.run hwf [.about kind n]
    obtain ⟨⟨dead', hb'⟩, -⟩ := hb₁.run hwf₁ qs'
    have hbegun := (hrun.begun_iff hwf₁).2 (.inl (hb.begun_step hwf hn))
    exact hb'.step_buried (hrun.memos_wf hwf₁) ((hb'.begun_iff hn).1 hbegun)

theorem missing_fails_once_entangled :
    .nonterminal "Z" ∉ Grammar.entangled ∧
    .nonterminal "Z" ∉ (((new .entangled true).run [.first (.nonterminal "A")]).2.memos
      .follow).group ∧
    (((new .entangled true).run [.first (.nonterminal "A")]).2.step
      (.follow (.nonterminal "Z"))).1.reply = .error (.undefined "Z" none) ∧
    .nonterminal "Z" ∈ (((new .entangled true).run [.first (.nonterminal "Z")]).2.memos
      .first).group ∧
    (((new .entangled true).run [.first (.nonterminal "Z")]).2.step
      (.first (.nonterminal "Z"))).1.reply = .ok (.set ∅) := by
  have hZ : .nonterminal "Z" ∉ Grammar.entangled := by decide
  have hnot : .nonterminal "Z" ∉ (((new .entangled true).run [.first (.nonterminal "A")]).2.memos
      .follow).group := by decide +kernel
  have hin : .nonterminal "Z" ∈ (((new .entangled true).run [.first (.nonterminal "Z")]).2.memos
      .first).group := by decide +kernel
  obtain ⟨-, hfails, -⟩ := missing_fails_once .entangled true [.first (.nonterminal "A")] .follow
    (.nonterminal "Z") hZ
  obtain ⟨-, -, hburied, -⟩ := missing_fails_once .entangled true [.first (.nonterminal "Z")] .first
    (.nonterminal "Z") hZ
  exact ⟨hZ, hnot, congrArg (·.1.reply) (hfails hnot), hin, congrArg (·.1.reply) (hburied hin)⟩

/-- Asked for a second time, a symbol without productions is answered as if it had an empty set, and
the first failure has changed the memo. -/
theorem missing_answered_with_nothing :
    .nonterminal "Z" ∉ Grammar.entangled ∧
    (((new .entangled false).run [.first (.nonterminal "Z"), .first (.nonterminal "Z")]).1.map
      Outcome.reply) = [.error (.undefined "Z" none), .ok (.set ∅)] ∧
    ((new .entangled false).step (.first (.nonterminal "Z"))).2.first ≠
      (new .entangled false).first := by
  decide +kernel

end Builder

/-! ### Runs without the failures -/

/-- A question for the set of a symbol without productions. -/
def Step.Misses (g : Grammar) : Step → Prop
  | .first n | .follow n => n ∉ g
  | .sequence _ | .every _ => False

instance (g : Grammar) : (q : Step) → Decidable (q.Misses g)
  | .first n | .follow n => inferInstanceAs (Decidable (n ∉ g))
  | .sequence _ | .every _ => inferInstanceAs (Decidable False)

theorem Step.misses_iff : q.Misses g ↔ ∃ kind n, n ∉ g ∧ q = .about kind n := by
  constructor
  · intro h
    cases q with
    | first n => exact ⟨.first, n, h, rfl⟩
    | follow n => exact ⟨.follow, n, h, rfl⟩
    | sequence d => exact h.elim
    | every value => exact h.elim
  · rintro ⟨_ | _, n, hn, rfl⟩ <;> exact hn

/-- Apart from sequences, a step that misses no symbol is about keys. -/
theorem Step.aboutKeys_of_not_misses (h : ¬ q.Misses g)
    (hd : ∀ d, q = .sequence d → ∀ t ∈ d, t.isNonterminal → t ∈ g) : q.AboutKeys g := by
  cases q with
  | first n => exact not_not.1 h
  | follow n => exact not_not.1 h
  | sequence d => exact hd d rfl
  | every value => trivial

/-- Traces that read alike in a log. -/
def Trace.SameLog (t t' : Trace) : Prop := logLines t.events = logLines t'.events

theorem Trace.sameLog_mirrors : Mirrors Trace.SameLog := by
  intro e e' t t' he h
  show logLines (t.push e).events = logLines (t'.push e').events
  simp only [logLines, Trace.events_push, List.filterMap_append, List.filterMap_cons, he] at h ⊢
  exact congrArg (· ++ _) h

/-- The same in the reply and the log. -/
def Outcome.Same (o o' : Outcome) : Prop := o.reply = o'.reply ∧ o.log = o'.log

namespace Builder

theorem firstSet_lockstep {R : Trace → Trace → Prop} (hR : Mirrors R) {c : Budget}
    {dead dead' : List Symbol} (hn : n ∈ g) :
    Solve.Lockstep (Session.Above (· ∈ g) dead' (Session.Above (· ∈ g) dead R)) Eq
      (firstSet g c n) (firstSet g c n) := by
  refine Solve.within_lockstep ((firstOf_lockstep hR hn).bind ?_)
  rintro a _ rfl
  exact Solve.Lockstep.pure rfl

/-- `b`, at work on keys only, and `b'`, the same above the symbols of `dead`. -/
structure Above (g : Grammar) (dead : SetKind → List Symbol) (b b' : Builder) : Prop where
  steady : b.Steady g
  grammar_eq : b'.grammar = b.grammar
  budget_eq : b'.budget = b.budget
  every_eq : b'.every = b.every
  memos : ∀ kind, (b.memos kind).Above (· ∈ g) (dead kind) (b'.memos kind)

theorem above_new (g : Grammar) (every : Bool) :
    Above g (fun _ => []) (new g every) (new g every) where
  steady := steady_new g every
  grammar_eq := rfl
  budget_eq := rfl
  every_eq := rfl
  memos kind := by cases kind <;> exact Memo.above_fresh _ _

namespace Above

theorem stands (h : Above g dead b b') : b'.Stands g dead where
  grammar_eq := h.grammar_eq.trans h.steady.grammar_eq
  budget_eq := h.budget_eq.trans h.steady.budget_eq
  session := ⟨b.session, h.steady.session, h.memos⟩

/-- What goes in lockstep above any symbols has the same outcome and leaves memos that stand above
the same symbols. -/
theorem compute (h : Above g dead b b') {x : Compute SymbolSet}
    (hx : Solve.Lockstep (Session.Above (· ∈ g) (dead .follow)
      (Session.Above (· ∈ g) (dead .first) Trace.SameLog)) Eq x x) :
    Outcome.Same (b.compute x).1 (b'.compute x).1 ∧
      ∀ kind, ((b.compute x).2.memos kind).Above (· ∈ g) (dead kind)
        ((b'.compute x).2.memos kind) := by
  have hend := hx b.session b'.session ⟨h.memos .follow, h.memos .first, rfl⟩
  rcases hrun : x b.session with ⟨r, s⟩
  rcases hrun' : x b'.session with ⟨r', s'⟩
  rw [hrun, hrun'] at hend
  have hmemos : s.Above (· ∈ g) (dead .follow)
      (Session.Above (· ∈ g) (dead .first) Trace.SameLog) s' →
      ∀ kind, (Memos.of s.around.memo s.memo kind).Above (· ∈ g) (dead kind)
        (Memos.of s'.around.memo s'.memo kind) := by
    rintro hs (_ | _)
    · exact hs.around.memo
    · exact hs.memo
  cases hend with
  | ok hAB hs =>
    subst hAB
    rw [compute_ok hrun, compute_ok hrun']
    exact ⟨⟨rfl, hs.around.around⟩, hmemos hs⟩
  | error e hs =>
    rw [compute_error hrun, compute_error hrun']
    exact ⟨⟨rfl, hs.around.around⟩, hmemos hs⟩

/-- Steps about keys go alike. -/
theorem step (h : Above g dead b b') (hq : q.AboutKeys g) :
    Outcome.Same (b.step q).1 (b'.step q).1 ∧ Above g dead (b.step q).2 (b'.step q).2 := by
  have hsteady := (h.steady.step hq).1
  obtain ⟨⟨rfl, hbudget, hs⟩, hgrammar, hbudget', hevery, hmemos⟩ := id h
  have hstep : Outcome.Same (b.step q).1 (b'.step q).1 ∧
      ∀ kind, ((b.step q).2.memos kind).Above (· ∈ b.grammar) (dead kind)
        ((b'.step q).2.memos kind) := by
    cases q with
    | first n =>
      unfold Builder.step
      rw [hgrammar, hbudget']
      exact h.compute (firstSet_lockstep Trace.sameLog_mirrors hq)
    | follow n =>
      unfold Builder.step
      rw [hgrammar, hbudget', hevery]
      exact h.compute (followSet_lockstep Trace.sameLog_mirrors b.every hq)
    | sequence d =>
      unfold Builder.step
      rw [hgrammar, hbudget']
      exact h.compute (Solve.within_lockstep (firstOfSequence_lockstep Trace.sameLog_mirrors hq))
    | every value => exact ⟨⟨rfl, rfl⟩, hmemos⟩
  refine ⟨hstep.1, hsteady, ?_, ?_, ?_, hstep.2⟩
  · cases q <;> exact hgrammar
  · cases q <;> exact hbudget'
  · cases q with
    | every value => rfl
    | first | follow | sequence => exact hevery

/-- A question that misses leaves one more symbol below, if any. -/
theorem step_misses (h : Above g dead b b') (hwf : b'.memos.Wf) (hq : q.Misses g) :
    ∃ dead', Above g dead' b (b'.step q).2 := by
  obtain ⟨kind, n, hn, rfl⟩ := Step.misses_iff.1 hq
  by_cases hdead : n ∈ dead kind
  · rw [h.stands.step_buried hwf hdead]
    exact ⟨dead, h⟩
  · rw [h.stands.step_fails hwf hn hdead]
    refine ⟨Function.update dead kind (dead kind ++ [n]), h.steady, ?_, ?_, ?_, fun k => ?_⟩
    · cases kind <;> exact h.grammar_eq
    · cases kind <;> exact h.budget_eq
    · cases kind <;> exact h.every_eq
    · rw [memos_setMemo]
      by_cases hk : k = kind
      · subst hk
        rw [Function.update_self, Function.update_self]
        exact (h.memos k).bury (h.steady.session.idle k) hn hdead
      · rw [Function.update_of_ne hk, Function.update_of_ne hk]
        exact h.memos k

/-- A run goes as it does without the questions that miss. -/
theorem run (h : Above g dead b b') (hwf : b'.memos.Wf) {qs : List Step}
    (hqs : ∀ q ∈ qs, ¬ q.Misses g → q.AboutKeys g) :
    List.Forall₂ Outcome.Same (b.run (qs.filter (¬ ·.Misses g))).1
        (((qs.zip (b'.run qs).1).filter (¬ ·.1.Misses g)).map Prod.snd) ∧
      ∃ dead', Above g dead' (b.run (qs.filter (¬ ·.Misses g))).2 (b'.run qs).2 := by
  induction qs generalizing b b' dead with
  | nil => exact ⟨.nil, dead, h⟩
  | cons q qs ih =>
    have hwf' := (step_changes hwf q).memos_wf hwf
    have hrest : ∀ p ∈ qs, ¬ p.Misses g → p.AboutKeys g := fun p hp => hqs p (by simp [hp])
    rw [Builder.run, List.zip_cons_cons]
    by_cases hq : q.Misses g
    · obtain ⟨dead₁, h₁⟩ := h.step_misses hwf hq
      have hrun := ih h₁ hwf' hrest
      simpa [hq] using hrun
    · obtain ⟨hsame, h₁⟩ := h.step (hqs q (by simp) hq)
      obtain ⟨houtcomes, hend⟩ := ih h₁ hwf' hrest
      have hkeep : (q :: qs).filter (¬ ·.Misses g) = q :: qs.filter (¬ ·.Misses g) := by simp [hq]
      rw [hkeep, Builder.run]
      refine ⟨?_, hend⟩
      simpa [hq] using List.Forall₂.cons hsame houtcomes

end Above

/-- Questions that miss disturb no others. A run whose sequences hold keys only has the same replies
and the same lines in the log for all other steps as the run without those questions, and both end
with the same finished sets of each kind. -/
theorem run_without_misses (g : Grammar) (every : Bool) {qs : List Step}
    (hqs : ∀ d, .sequence d ∈ qs → ∀ t ∈ d, t.isNonterminal → t ∈ g) :
    List.Forall₂ Outcome.Same ((new g every).run (qs.filter (¬ ·.Misses g))).1
        (((qs.zip ((new g every).run qs).1).filter (¬ ·.1.Misses g)).map Prod.snd) ∧
      ∀ kind, (((new g every).run qs).2.memos kind).done =
        (((new g every).run (qs.filter (¬ ·.Misses g))).2.memos kind).done := by
  have hkeys : ∀ q ∈ qs, ¬ q.Misses g → q.AboutKeys g := by
    rintro q hq hmisses
    exact Step.aboutKeys_of_not_misses hmisses fun d hd => hqs d (hd ▸ hq)
  obtain ⟨houtcomes, dead, hend⟩ := (above_new g every).run (memos_new_wf g every) hkeys
  exact ⟨houtcomes, fun kind => (hend.memos kind).done⟩

theorem run_without_misses_entangled :
    (∀ d, Step.sequence d ∈ [Step.first (.nonterminal "Z"),
        .sequence [.nonterminal "B", .terminal "b"], .follow .epsilon, .follow (.nonterminal "A")] →
      ∀ t ∈ d, t.isNonterminal → t ∈ Grammar.entangled) ∧
    (((new .entangled false).run [.first (.nonterminal "Z"),
        .sequence [.nonterminal "B", .terminal "b"], .follow .epsilon,
        .follow (.nonterminal "A")]).2.memos .first).done =
      (((new .entangled false).run [.sequence [.nonterminal "B", .terminal "b"],
        .follow (.nonterminal "A")]).2.memos .first).done := by
  have hqs : ∀ d, Step.sequence d ∈ [Step.first (.nonterminal "Z"),
      .sequence [.nonterminal "B", .terminal "b"], .follow .epsilon, .follow (.nonterminal "A")] →
      ∀ t ∈ d, t.isNonterminal → t ∈ Grammar.entangled := by
    intro d hd
    simp only [List.mem_cons, reduceCtorEq, Step.sequence.injEq, List.not_mem_nil, or_false,
      false_or] at hd
    subst hd
    decide
  exact ⟨hqs, (run_without_misses .entangled false hqs).2 .first⟩

end Builder

end FirstFollow
