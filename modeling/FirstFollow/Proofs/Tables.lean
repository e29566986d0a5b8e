import FirstFollow.Proofs.Answers
import FirstFollow.Table

/-!
Tables. The FOLLOW sets of a table are the least ones over its FIRST sets. Its FIRST sets are never
too large, and they are the least ones if they satisfy their equations.
-/

namespace FirstFollow

variable {g : Grammar} {every : Bool}

theorem Grammar.keys_nodup (g : Grammar) : g.keys.Nodup :=
  g.productions.keys_nodup.map fun _ _ h => Symbol.nonterminal.inj h

namespace Table

/-- The rows of a table, from sound memos on, are sets that are finished in the end. -/
theorem rows_done {names : List Symbol} (hnames : ∀ n ∈ names, n ∈ g)
    {s : Session (Session Trace)} (hs : s.Sound g every) :
    ∃ rs s', rows g (g.occurrenceIndex every) g.budget names s = (.ok rs, s') ∧
      s'.Sound g every ∧ s.around.memo.Extends s'.around.memo ∧ s.memo.Extends s'.memo ∧
      rs.map Prod.fst = names ∧ ∀ r ∈ rs, s'.around.memo.done.get? r.1 = some r.2.1 ∧
        s'.memo.done.get? r.1 = some r.2.2 := by
  induction names generalizing s with
  | nil => exact ⟨[], s, rfl, hs, .refl _, .refl _, rfl, by simp⟩
  | cons n names ih =>
    have hn := hnames n (by simp)
    obtain ⟨A, around, hrun₁, hfirst, hext₁, hA⟩ := Builder.firstSet_eq hs.first hn
    obtain ⟨C, s₂, hrun₂, hfirst₂, hfollow₂, hext₂, hgrowth₂, hC⟩ :=
      FollowMemo.followOf_eq (s := { s with around }) (hs.follow.extend hext₁) hfirst hn
    obtain ⟨rs, s', hrun, hs', hext, hgrowth, hfst, hrs⟩ :=
      ih (fun m hm => hnames m (by simp [hm])) ⟨hfirst₂, hfollow₂⟩
    refine ⟨(n, A, C) :: rs, s', ?_, hs', (hext₁.trans hext₂).trans hext, hgrowth₂.trans hgrowth,
      by simp [hfst], List.forall_mem_cons.2 ⟨?_, hrs⟩⟩
    · rw [rows, List.mapM_cons, bind_assoc, Solve.bind_ok hrun₁, bind_assoc, Builder.followSet,
        bind_assoc, Solve.bind_ok hrun₂, pure_bind, pure_bind]
      exact Solve.bind_ok hrun
    · exact ⟨(hext₂.trans hext).done n A hA, hgrowth.done n C hC⟩

/-- Over the FIRST sets that are finished in the end, each row holds what the equations say. -/
theorem rows_eq {names : List Symbol} (hnames : ∀ n ∈ names, n ∈ g)
    {s : Session (Session Trace)} (hs : s.Sound g every) :
    ∃ rs s', rows g (g.occurrenceIndex every) g.budget names s = (.ok rs, s') ∧
      s'.Sound g every ∧ s.around.memo.Extends s'.around.memo ∧ rs.map Prod.fst = names ∧
      ∀ F, s'.around.memo.Fits F →
        ∀ r ∈ rs, r.2.1.toSet = F r.1 ∧ r.2.2.toSet = g.followSets every F r.1 := by
  obtain ⟨rs, s', hrun, hs', hext, -, hfst, hrs⟩ := rows_done hnames hs
  refine ⟨rs, s', hrun, hs', hext, hfst, fun F hF r hr => ?_⟩
  obtain ⟨hA, hC⟩ := hrs r hr
  exact ⟨hF _ _ hA, hs'.follow.exact hF _ _ hC⟩

/-- A map made of rows with different names has the sets of the rows, and no others. -/
theorem sets_ofList {rs : List (Symbol × SymbolSet)} (hkeys : rs.map Prod.fst = g.keys)
    {F : Symbol → Set Symbol} (hF : ∀ r ∈ rs, r.2.toSet = F r.1) (n : Symbol) :
    (n ∈ g → (Keyed.ofList rs).sets n = F n) ∧ (n ∉ g → (Keyed.ofList rs).sets n = ∅) := by
  have hnodup : (rs.map Prod.fst).Nodup := hkeys ▸ g.keys_nodup
  constructor
  · intro hn
    obtain ⟨r, hr, rfl⟩ := List.mem_map.1 (hkeys ▸ hn : n ∈ rs.map Prod.fst)
    have hget : (Keyed.ofList rs).get? r.1 = some r.2 := by
      rw [Keyed.get?_eq_some_iff, Keyed.entries_ofList hnodup]
      exact hr
    rw [Keyed.sets_of_get? hget, hF r hr]
  · intro hn
    apply Keyed.sets_of_not_mem
    rw [Keyed.mem_def, Keyed.keys_ofList hnodup, hkeys]
    exact hn

/-- A table is made of its rows. -/
theorem build_of_rows {rs : List (Symbol × SymbolSet × SymbolSet)} {s' : Session (Session Trace)}
    (h : rows g (g.occurrenceIndex every) g.budget g.keys (Builder.new g every).session =
      (.ok rs, s')) : build g every =
        (.ok ⟨.ofList (rs.map fun r => (r.1, r.2.1)), .ofList (rs.map fun r => (r.1, r.2.2))⟩,
          .tableBegun g.keys.length :: s'.around.around.events ++ [.tableComplete]) := by
  have hrun : StateT.run (ExceptT.run (rows g (g.occurrenceIndex every)
      (Builder.new g every).budget g.keys)) (Builder.new g every).session = (.ok rs, s') := h
  simp only [build, hrun]

/-- Every table is made, by a run over its rows. It holds the FIRST sets that the memo ends with and
the FOLLOW sets that are least over them. -/
theorem build_run (g : Grammar) (every : Bool) :
    ∃ t rs s', rows g (g.occurrenceIndex every) g.budget g.keys (Builder.new g every).session =
        (.ok rs, s') ∧
      build g every =
        (.ok t, .tableBegun g.keys.length :: s'.around.around.events ++ [.tableComplete]) ∧
      s'.Sound g every ∧ t.first.keys = g.keys ∧ t.follow.keys = g.keys ∧
      (∀ F, s'.around.memo.Fits F → ∀ n ∈ g, t.first.sets n = F n) ∧
      t.first.sets = s'.around.memo.done.sets ∧
      t.follow.sets = g.followSets every t.first.sets := by
  obtain ⟨rs, s', hrun, hs', -, hfst, hrs⟩ := rows_eq (fun _ hn => hn)
    (Builder.sound_new g every).session
  have hfirst : (rs.map fun r => (r.1, r.2.1)).map Prod.fst = g.keys := by
    rw [List.map_map, ← hfst]
    rfl
  have hfollow : (rs.map fun r => (r.1, r.2.2)).map Prod.fst = g.keys := by
    rw [List.map_map, ← hfst]
    rfl
  have hfits : ∀ F, s'.around.memo.Fits F → ∀ r ∈ rs.map fun r => (r.1, r.2.1),
      r.2.toSet = F r.1 := by
    intro F hF r hr
    obtain ⟨r', hr', rfl⟩ := List.mem_map.1 hr
    exact (hrs F hF r' hr').1
  have hsets : (Keyed.ofList (rs.map fun r => (r.1, r.2.1))).sets = s'.around.memo.done.sets := by
    funext n
    obtain ⟨hin, hout⟩ := sets_ofList hfirst (hfits _ s'.around.memo.fits_sets) n
    by_cases hn : n ∈ g
    · exact hin hn
    · rw [hout hn]
      refine (Set.eq_empty_of_subset_empty ?_).symm
      rintro a ⟨A, hA, -⟩
      exact hn (hs'.first.within.done n A hA).1
  refine ⟨_, rs, s', hrun, build_of_rows hrun, hs', ?_, ?_, ?_, hsets, ?_⟩
  · rw [Keyed.keys_ofList (hfirst ▸ g.keys_nodup), hfirst]
  · rw [Keyed.keys_ofList (hfollow ▸ g.keys_nodup), hfollow]
  · exact fun F hF n hn => (sets_ofList hfirst (hfits F hF) n).1 hn
  · have hrows : ∀ r ∈ rs.map fun r => (r.1, r.2.2),
        r.2.toSet = g.followSets every s'.around.memo.done.sets r.1 := by
      intro r hr
      obtain ⟨r', hr', rfl⟩ := List.mem_map.1 hr
      exact (hrs _ s'.around.memo.fits_sets r' hr').2
    rw [hsets]
    funext n
    obtain ⟨hin, hout⟩ := sets_ofList hfollow hrows n
    by_cases hn : n ∈ g
    · exact hin hn
    · rw [Grammar.followSets_of_not_mem hn]
      exact hout hn

theorem build_eq (g : Grammar) (every : Bool) :
    ∃ t events m, build g every = (.ok t, events) ∧ FirstMemo g m ∧
      t.first.keys = g.keys ∧ t.follow.keys = g.keys ∧
      (∀ F, m.Fits F → ∀ n ∈ g, t.first.sets n = F n) ∧ t.first.sets = m.done.sets ∧
      t.follow.sets = g.followSets every t.first.sets := by
  obtain ⟨t, rs, s', -, hbuild, hs', hrest⟩ := build_run g every
  exact ⟨t, _, s'.around.memo, hbuild, hs'.first, hrest⟩

/-- The FOLLOW sets of a table are the least ones over the FIRST sets beside them. -/
theorem follow_least (g : Grammar) (every : Bool) :
    ∃ t events, build g every = (.ok t, events) ∧ t.follow.keys = g.keys ∧
      t.follow.sets = g.followSets every t.first.sets := by
  obtain ⟨t, events, m, hbuild, -, -, hkeys, -, -, hfollow⟩ := build_eq g every
  exact ⟨t, events, hbuild, hkeys, hfollow⟩

/-- The FIRST sets of a table hold nothing that the least ones do not. They are the least ones if
and only if they satisfy their equations, and always if no nonterminal that can vanish begins with
itself. -/
theorem first_least_iff (g : Grammar) (every : Bool) :
    ∃ t events, build g every = (.ok t, events) ∧ t.first.keys = g.keys ∧
      t.first.sets ≤ g.firstSets ∧
      (t.first.sets = g.firstSets ↔ g.firstOperator t.first.sets = t.first.sets) ∧
      (g.VanishingAcyclic → t.first.sets = g.firstSets) := by
  obtain ⟨t, events, m, hbuild, hm, hkeys, -, hfits, hfirst, -⟩ := build_eq g every
  have hsound : t.first.sets ≤ g.firstSets := by
    rw [hfirst]
    exact hm.sets_subset
  refine ⟨t, events, hbuild, hkeys, hsound, ?_, ?_⟩
  · constructor
    · intro heq
      rw [heq]
      exact Grammar.firstSets_fixed
    · intro hfixed
      exact hsound.antisymm (Grammar.firstSets_least hfixed.le)
  · intro hg
    funext n
    by_cases hn : n ∈ g
    · exact hfits _ (hm.exact hg) n hn
    · exact Set.Subset.antisymm (hsound n) (by simp [Grammar.firstSets_of_not_mem hn])

end Table

/-- Both nonterminals can vanish, and each begins with the other. While `B` is computed again, `A`
is not yet known to vanish. -/
def Grammar.entangled : Grammar where
  start := "A"
  productions := ⟨[("A", [[.nonterminal "B"]]),
    ("B", [[.nonterminal "B", .nonterminal "A", .terminal "a"], []])], by decide⟩
  start_mem := by decide
  closed := Grammar.firstRefusal?_eq_none_iff.1 (by decide)

theorem Grammar.entangled_begins_with_a :
    .terminal "a" ∈ entangled.firstSets (.nonterminal "A") := by
  have hA : entangled.Derives (.nonterminal "A") [.nonterminal "B"] := ⟨_, rfl, by simp⟩
  have hB : entangled.Derives (.nonterminal "B")
      [.nonterminal "B", .nonterminal "A", .terminal "a"] := ⟨_, rfl, by simp⟩
  have hε : entangled.Derives (.nonterminal "B") [] := ⟨_, rfl, by simp⟩
  have hBε : .epsilon ∈ entangled.firstSets (.nonterminal "B") :=
    hε.scanSet_subset (by simp [scanSet])
  have hAε : .epsilon ∈ entangled.firstSets (.nonterminal "A") :=
    hA.scanSet_subset (by simp [scanSet, hBε])
  have hBa : .terminal "a" ∈ entangled.firstSets (.nonterminal "B") :=
    hB.scanSet_subset (by simp [scanSet, hBε, hAε])
  exact hA.scanSet_subset (by simp [scanSet, hBa])

/-- The table of `entangled` lacks a terminal that its start symbol begins with. -/
theorem Table.first_entangled_not_least : ∃ t events,
    Table.build .entangled true = (.ok t, events) ∧
      t.first.sets ≠ Grammar.entangled.firstSets := by
  obtain ⟨t, events, -, hbuild, -⟩ := Table.build_eq .entangled true
  refine ⟨t, events, hbuild, fun heq => ?_⟩
  have hget : (Table.build .entangled true).1.toOption.bind (·.first.get? (.nonterminal "A")) =
      some {Symbol.epsilon} := by decide +kernel
  rw [hbuild] at hget
  have ha := Grammar.entangled_begins_with_a
  rw [← heq, Keyed.sets_of_get? hget] at ha
  simp at ha

end FirstFollow
