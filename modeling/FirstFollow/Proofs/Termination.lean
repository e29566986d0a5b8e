import FirstFollow.Proofs.Budgets
import FirstFollow.Proofs.Changes
import FirstFollow.Proofs.Keys

/-!
Why computations end. Each set is begun at most once in the life of a builder
(`Memos.Changes.countP_enters_le`), each pass over a group but the last gains something
(`Solve.Settles`), and the budget of a grammar is never used up, so that it cuts nothing short
(`Builder.terminates`).
-/

namespace FirstFollow

/-! ### Each set is begun once -/

/-- The event tells that the set of `n` was begun. -/
def Event.enters (kind : SetKind) (n : Symbol) : Event → Bool
  | entered k m _ => k = kind ∧ m = n
  | _ => false

theorem Event.enters_iff {kind : SetKind} {n : Symbol} {e : Event} :
    e.enters kind n = true ↔ ∃ k, e = .entered kind n k := by
  cases e <;> simp [enters]

theorem Memo.Change.countP_enters_le {m m' : Memo} {es : List Event} (h : m.Change es m')
    (kind : SetKind) (n : Symbol) : es.countP (·.enters kind n) ≤ 1 := by
  cases h with
  | start hd hu => exact List.countP_le_length
  | close mark =>
    have hnone : (m.closing mark).countP (·.enters kind n) = 0 := by
      rw [List.countP_eq_zero]
      intro e he henters
      obtain ⟨k, rfl⟩ := Event.enters_iff.1 henters
      simp [Memo.closing] at he
    omega
  | grow | reentered | settling | recomputed => simp [Event.enters]

/-- Through whatever changes, a set is begun at most once. -/
theorem Memos.Changes.countP_enters_le {ms ms' : Memos} {es : List Event}
    (h : ms.Changes es ms') (hms : ms.Wf) (kind : SetKind) (n : Symbol) :
    es.countP (·.enters kind n) ≤ 1 := by
  induction h with
  | refl => simp
  | @step es es' ms' m k h hc ih =>
    rw [List.countP_append]
    by_cases hnew : ∃ e ∈ es', e.enters kind n
    · have hnone : es.countP (·.enters kind n) = 0 := by
        obtain ⟨e, he, henters⟩ := hnew
        obtain ⟨i, rfl⟩ := Event.enters_iff.1 henters
        have hfresh := (Memos.Changes.refl.step k hc).not_begun_of_entered (h.memos_wf hms) he
        rw [List.countP_eq_zero]
        intro e' he' henters'
        obtain ⟨j, rfl⟩ := Event.enters_iff.1 henters'
        exact hfresh ((h.begun_iff hms).2 (.inr ⟨j, he'⟩))
      rw [hnone, zero_add]
      exact hc.countP_enters_le kind n
    · have hnone : es'.countP (·.enters kind n) = 0 := by
        rw [List.countP_eq_zero]
        exact fun e he henters => hnew ⟨e, he, henters⟩
      omega

/-! ### Groups settle -/

namespace Solve

variable {σ : Type} [Recorder σ]

/-- The group above `mark` is settled by at most `bound` passes, each of them but the last one
gaining something. -/
def Settles (eq : Equation σ) (ask : Ask σ) (first mark bound : Nat) (s : Session σ) : Prop :=
  ∃ k s', k ≤ bound ∧ Passes eq ask first mark k s s' ∧
    ∀ passes, k ≤ passes → settle eq ask first mark passes s = (.ok (), s')

theorem Sound.settles {ι : Type} {script : Symbol → Script ι}
    {Calls : ι → σ → SymbolSet → σ → Prop} {B : Bounds ι} {keys symbols : Finset Symbol}
    {call : ι → Solve σ SymbolSet} {J : σ → Prop} (H : Sound script Calls B keys symbols call J)
    {passes : Nat} (hpasses : keys.card + keys.card * symbols.card < passes) {s : Session σ}
    (hs : Good B J s) {depth : Nat} (hdepth : (s.memo.unbegun keys).card ≤ depth)
    (first mark : Nat) : Settles (Script.equation call script)
      (Solve.ask (Script.equation call script) passes depth) first mark passes s := by
  obtain ⟨k, s', hk, hpass, -, -⟩ :=
    settle_passes H (ask_total H hpasses depth) first mark hs hdepth
  have hroom := s.memo.room_le keys symbols
  exact ⟨k, s', by omega, hpass, fun p hp => hpass.settle_eq hp⟩

end Solve

/-! ### Budgets -/

theorem OrderedSet.size_ofList {α : Type} [StrictOrder α] [DecidableEq α] (xs : List α) :
    (OrderedSet.ofList xs).size = xs.toFinset.card := by
  have hnodup : (OrderedSet.ofList xs).toList.Nodup := by
    apply (OrderedSet.ofList xs).ascending.imp
    rintro a _ h rfl
    exact StrictOrder.irrefl a h
  have hset : (OrderedSet.ofList xs).toList.toFinset = xs.toFinset := by
    ext a
    rw [List.mem_toFinset, List.mem_toFinset, ← OrderedSet.mem_def, OrderedSet.mem_ofList]
  rw [← hset, List.toFinset_card_of_nodup hnodup]
  rfl

/-- One pass more than there can be gains. Each key may join a group once, and its set may get each
symbol once: those that right-hand sides mention besides nonterminals, and the two reserved ones. -/
def Grammar.mostPasses (g : Grammar) : Nat :=
  1 + g.keys.length +
    g.keys.length * ((g.mentioned.filter (!·.isNonterminal)).toFinset.card + 2)

theorem Grammar.budget_eq (g : Grammar) : g.budget = ⟨g.keys.length, g.mostPasses⟩ := by
  have hkeys : g.keys.length = g.productions.size := by
    rw [keys, List.length_map, Keyed.length_keys]
  rw [mostPasses, hkeys, ← OrderedSet.size_ofList]
  rfl

/-! ### Questions and tables -/

theorem Step.AnsweredIn.reply_ok {T : Set Symbol} {o : Outcome} {q : Step} (h : q.AnsweredIn T o) :
    ∃ r, o.reply = .ok r := by
  cases q with
  | every value => exact ⟨_, h⟩
  | first | follow | sequence =>
    obtain ⟨A, hA, -⟩ := h
    exact ⟨_, hA⟩

theorem Builder.Steady.reply_ok {g : Grammar} {b : Builder} (hb : b.Steady g) {qs : List Step}
    (hqs : ∀ q ∈ qs, q.AboutKeys g) : ∀ o ∈ (b.run qs).1, ∃ r, o.reply = .ok r := by
  intro o ho
  obtain ⟨i, hi, rfl⟩ := List.getElem_of_mem ho
  obtain ⟨hlen, hall⟩ := List.forall₂_iff_get.1 (hb.run hqs).2
  exact (hall i (hlen ▸ hi) hi).reply_ok

theorem Table.rows_moves (g : Grammar) (index : Grammar.OccurrenceIndex) (c : Budget)
    (names : List Symbol) :
    Solve.Moves (fun s => s.memo.Wf ∧ s.around.memo.Wf) BothMove (rows g index c names) :=
  bothMove_hasChanges.mapM (fun n => bothMove_hasChanges.bind (Builder.firstSet_moves g c n)
    fun _ => bothMove_hasChanges.bind (Builder.followSet_moves g index c n)
      fun _ => bothMove_hasChanges.pure _) names

/-- A table is made in the same way with every larger budget, and begins each set once. -/
theorem Table.build_terminates (g : Grammar) (every : Bool) :
    ∃ t events rs s, build g every = (.ok t, events) ∧
      (∀ c, g.budget ≤ c → rows g (g.occurrenceIndex every) c g.keys
        (Builder.new g every).session = (.ok rs, s)) ∧
      ∀ kind n, events.countP (·.enters kind n) ≤ 1 := by
  obtain ⟨rs, s, hrun, -⟩ := rows_eq (fun _ hn => hn) (Builder.sound_new g every).session
  refine ⟨_, _, rs, s, build_of_rows hrun, fun c hc => ?_, fun kind n => ?_⟩
  · rw [rows_agrees hc g.keys _ (by simp [hrun]), hrun]
  · have hwf := Builder.memos_new_wf g every
    obtain ⟨es, hes, hchanges⟩ := rows_moves g (g.occurrenceIndex every) g.budget g.keys
      (Builder.new g every).session ⟨hwf.wf .follow, hwf.wf .first⟩
    rw [hrun] at hes
    have hevents : s.around.around.events = es := hes
    rw [hevents]
    simpa [Event.enters] using hchanges.countP_enters_le hwf kind n

namespace Builder

/-- With as much depth as there are keys, and `mostPasses` passes for each group, every question
about keys is answered and every table is made, in the same way as with any larger budget. No set is
begun twice, whatever is asked. From all sessions that keep the bounds, groups settle after at most
`mostPasses` passes, of which each but the last one gains something. -/
theorem terminates (g : Grammar) :
    g.budget = ⟨g.keys.length, g.mostPasses⟩ ∧
    (∀ every qs, (∀ q ∈ qs, q.AboutKeys g) →
      (∀ o ∈ ((new g every).run qs).1, ∃ r, o.reply = .ok r) ∧
      ∀ c, g.budget ≤ c → ((new g every).grant c).run qs =
        (((new g every).run qs).1, ((new g every).run qs).2.grant c)) ∧
    (∀ every, ∃ t events rs s, Table.build g every = (.ok t, events) ∧
      (∀ c, g.budget ≤ c → Table.rows g (g.occurrenceIndex every) c g.keys
        (new g every).session = (.ok rs, s)) ∧
      ∀ kind n, events.countP (·.enters kind n) ≤ 1) ∧
    (∀ every qs kind n,
      (((new g every).run qs).1.flatMap Outcome.events).countP (·.enters kind n) ≤ 1) ∧
    (∀ (s : Session Trace) depth first mark, Solve.Good (firstBounds g) (fun _ => True) s →
      (s.memo.unbegun g.keys.toFinset).card ≤ depth →
      Solve.Settles (firstEquation g) (Solve.ask (firstEquation g) g.mostPasses depth)
        first mark g.mostPasses s) ∧
    ∀ every (s : Session (Session Trace)) depth first mark,
      Solve.Good (followUpper g) (fun a => FirstMemo g a.memo) s →
      (s.memo.unbegun g.keys.toFinset).card ≤ depth →
      Solve.Settles (followEquation g (g.occurrenceIndex every) g.budget)
        (Solve.ask (followEquation g (g.occurrenceIndex every) g.budget) g.mostPasses depth)
        first mark g.mostPasses s := by
  have hpasses : g.keys.toFinset.card + g.keys.toFinset.card * g.symbols.card < g.mostPasses := by
    simpa [g.budget_eq] using g.room_lt_passes
  refine ⟨g.budget_eq, fun every qs hqs => ?_, Table.build_terminates g, fun every qs kind n => ?_,
    fun s depth first mark hs hdepth => ?_, fun every s depth first mark hs hdepth => ?_⟩
  · have hok := (steady_new g every).reply_ok hqs
    refine ⟨hok, fun c hc => run_grant hc qs fun o ho => ?_⟩
    obtain ⟨r, hr⟩ := hok o ho
    simp [hr]
  · have hwf := memos_new_wf g every
    exact (run_changes hwf qs).countP_enters_le hwf kind n
  · rw [firstEquation_eq]
    exact (first_sound g).settles hpasses hs hdepth first mark
  · rw [followEquation_eq]
    exact (follow_sound_upper g every).settles hpasses hs hdepth first mark

/-- The nonterminals of `entangled` are left-recursive, through each other too. -/
theorem terminates_entangled :
    (∀ o ∈ (((new .entangled false).grant ⟨5, 20⟩).run [.follow (.nonterminal "B"), .every true,
      .sequence [.nonterminal "A", .terminal "a"], .first (.nonterminal "A")]).1,
      ∃ r, o.reply = .ok r) ∧
    Solve.Settles (firstEquation .entangled) (Solve.ask (firstEquation .entangled) 9 2) 0 0 9
      (⟨(Memo.fresh .first).start (.nonterminal "A"), ∅⟩ : Session Trace) := by
  obtain ⟨hbudget, hrun, -, -, hfirst, -⟩ := terminates .entangled
  have hmost : Grammar.entangled.mostPasses = 9 := by decide +kernel
  have hdepth : Grammar.entangled.budget.depth = 2 := by rw [hbudget]; rfl
  constructor
  · obtain ⟨hok, hgrant⟩ := hrun false [.follow (.nonterminal "B"), .every true,
      .sequence [.nonterminal "A", .terminal "a"], .first (.nonterminal "A")] (by decide)
    have hlarger : Grammar.entangled.budget ≤ ⟨5, 20⟩ := by
      rw [hbudget, hmost]
      exact ⟨by decide, by decide⟩
    rw [hgrant ⟨5, 20⟩ hlarger]
    simpa only using hok
  · have hA : Symbol.nonterminal "A" ∈ Grammar.entangled := by decide
    rw [hmost] at hfirst
    apply hfirst
    · exact ⟨(Memo.fresh_wf _).start rfl rfl, (Memo.fresh_within _ _).start hA, trivial⟩
    · exact hdepth ▸ Grammar.entangled.unbegun_le_depth _

end Builder

end FirstFollow
