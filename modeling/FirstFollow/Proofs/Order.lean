import FirstFollow.Proofs.Tables

/-!
What the order of questions, and that of declarations, can change. FOLLOW sets do not depend on
either but through FIRST sets, and FIRST sets depend on no more than the FIRST sets that were asked
for before.
-/

namespace FirstFollow

/-! ### FIRST sets and the events around them -/

/-- Without calls, what a run does to its memo follows from the memo alone. -/
theorem Run.unique {σ : Type} [Recorder σ] {script : Symbol → Script Empty} {t : Task Empty}
    {s s' : Session σ} {r : t.Result} (h : Run script NoCalls t s r s') {v v' : Session σ}
    {r₂ : t.Result} (h₂ : Run script NoCalls t v r₂ v') (hm : s.memo = v.memo) :
    r = r₂ ∧ s'.memo = v'.memo := by
  induction h generalizing v v' with
  | known hd =>
    obtain ⟨rfl, rfl⟩ := h₂.ask_of_done (hm ▸ hd)
    exact ⟨rfl, hm⟩
  | reentered hd hu =>
    rw [hm] at hd hu
    cases h₂ with
    | known hd₂ => simp [hd] at hd₂
    | reentered _ hu₂ =>
      obtain rfl := Option.some.inj (hu.symm.trans hu₂)
      exact ⟨rfl, hm⟩
    | left _ hu₂ _ _ _ | closed _ hu₂ _ _ _ _ _ => simp [hu] at hu₂
  | @left n s a s' A hd hu _ hlow hp ih =>
    rw [hm] at hd hu
    have hstart : (s.start n).memo = (v.start n).memo := congrArg (·.start n) hm
    cases h₂ with
    | known hd₂ => simp [hd] at hd₂
    | reentered _ hu₂ => simp [hu] at hu₂
    | left _ _ hplay _ hp₂ =>
      obtain ⟨rfl, hm'⟩ := ih hplay hstart
      rw [hm'] at hp
      obtain rfl := Option.some.inj (hp.symm.trans hp₂)
      exact ⟨rfl, hm'⟩
    | closed _ _ hplay hlow₂ _ _ _ =>
      obtain ⟨rfl, -⟩ := ih hplay hstart
      rw [← hm, hlow] at hlow₂
      cases hlow₂
  | @closed n s a s₁ s₂ s' A hd hu _ hlow _ hclose hA ih₁ ih₂ =>
    rw [hm] at hd hu
    have hstart : (s.start n).memo = (v.start n).memo := congrArg (·.start n) hm
    cases h₂ with
    | known hd₂ => simp [hd] at hd₂
    | reentered _ hu₂ => simp [hu] at hu₂
    | left _ _ hplay hlow₂ _ =>
      obtain ⟨rfl, -⟩ := ih₁ hplay hstart
      rw [← hm, hlow] at hlow₂
      cases hlow₂
    | closed _ _ hplay _ hfinish hclose₂ hA₂ =>
      obtain ⟨rfl, hm₁⟩ := ih₁ hplay hstart
      rw [← hm] at hfinish hclose₂
      obtain ⟨-, hm₂⟩ := ih₂ hfinish hm₁
      have hm' : s'.memo = v'.memo := by
        rw [(Solve.close_memo hclose).1, (Solve.close_memo hclose₂).1, hm₂]
      rw [hm'] at hA
      obtain rfl := Option.some.inj (hA.symm.trans hA₂)
      exact ⟨rfl, hm'⟩
  | done =>
    cases h₂
    exact ⟨rfl, hm⟩
  | @emit target A p sum s a s' _ ih =>
    cases h₂ with
    | emit h₂ =>
      refine ih h₂ ?_
      cases target with
      | none => exact hm
      | some n => exact congrArg (·.grow n A) hm
  | ask _ _ ih₁ ih₂ =>
    cases h₂ with
    | ask hask h₂ =>
      obtain ⟨rfl, hm₁⟩ := ih₁ hask hm
      exact ih₂ h₂ hm₁
  | @call _ i => exact i.elim
  | passed =>
    cases h₂
    exact ⟨rfl, hm⟩
  | same _ hp hsub _ ih₁ ih₂ =>
    cases h₂ with
    | same hplay hp₂ hsub₂ hpass =>
      obtain ⟨rfl, hm₁⟩ := ih₁ hplay hm
      exact ih₂ hpass hm₁
    | grew hplay hp₂ hsub₂ hpass =>
      obtain ⟨rfl, hm₁⟩ := ih₁ hplay hm
      rw [hm₁] at hp
      obtain rfl := Option.some.inj (hp.symm.trans hp₂)
      exact absurd hsub hsub₂
  | @grew first n rest grown s a s₁ A g s' _ hp hsub _ ih₁ ih₂ =>
    cases h₂ with
    | same hplay hp₂ hsub₂ hpass =>
      obtain ⟨rfl, hm₁⟩ := ih₁ hplay hm
      rw [hm₁] at hp
      obtain rfl := Option.some.inj (hp.symm.trans hp₂)
      exact absurd hsub₂ hsub
    | grew hplay hp₂ hsub₂ hpass =>
      obtain ⟨rfl, hm₁⟩ := ih₁ hplay hm
      exact ih₂ hpass (congrArg (·.grow n a.set) hm₁)
  | stable _ hlen ih =>
    cases h₂ with
    | stable hpass _ =>
      rw [← hm] at hpass
      exact ⟨rfl, (ih hpass hm).2⟩
    | again hpass hmore _ =>
      rw [← hm] at hpass hmore
      obtain ⟨rfl, hm₁⟩ := ih hpass hm
      rw [← hm₁] at hmore
      simp at hmore
      omega
  | again _ hmore _ ih₁ ih₂ =>
    cases h₂ with
    | stable hpass hlen =>
      rw [← hm] at hpass hlen
      obtain ⟨rfl, hm₁⟩ := ih₁ hpass hm
      rw [← hm₁] at hlen
      simp at hmore
      omega
    | again hpass _ hsettle =>
      rw [← hm] at hpass
      obtain ⟨-, hm₁⟩ := ih₁ hpass hm
      exact ih₂ hsettle hm₁
  | alone hlen =>
    cases h₂ with
    | alone _ => exact ⟨rfl, hm⟩
    | together hmany _ =>
      rw [← hm] at hmany
      simp at hmany
      omega
  | together hmany _ ih =>
    cases h₂ with
    | alone hlen =>
      rw [← hm] at hlen
      simp at hmany
      omega
    | together _ hsettle => exact ih hsettle hm

/-! ### The same grammar in another order -/

theorem Keyed.same_iff {κ ν : Type} [DecidableEq κ] {a b : Keyed κ ν} :
    a.Same b ↔ ∀ k, a.get? k = b.get? k := by
  constructor
  · rintro ⟨hsize, hall⟩ k
    cases hk : a.get? k with
    | some v => exact (hall _ (Keyed.get?_eq_some_iff.1 hk)).symm
    | none =>
      have hsub : a.keys ⊆ b.keys := by
        intro x hx
        obtain ⟨e, he, rfl⟩ := List.mem_map.1 hx
        exact Keyed.get?_isSome_iff.1 (by rw [hall e he]; rfl)
      have hperm : a.keys.Perm b.keys := by
        refine (a.keys_nodup.subperm hsub).perm_of_length_le (le_of_eq ?_)
        rw [Keyed.length_keys, Keyed.length_keys, hsize]
      have hnot : k ∉ b.keys := fun hmem => Keyed.get?_eq_none_iff.1 hk (hperm.mem_iff.2 hmem)
      exact (Keyed.get?_eq_none_iff.2 hnot).symm
  · intro h
    have hmem : ∀ k, k ∈ a.keys ↔ k ∈ b.keys := fun k => by
      rw [← Keyed.mem_def, ← Keyed.mem_def, ← Keyed.get?_isSome_iff, h, Keyed.get?_isSome_iff]
    have hperm : a.keys.Perm b.keys :=
      (List.perm_ext_iff_of_nodup a.keys_nodup b.keys_nodup).2 hmem
    constructor
    · rw [← Keyed.length_keys, ← Keyed.length_keys, hperm.length_eq]
    · exact fun e he => (h e.1).symm.trans (Keyed.get?_eq_some_iff.2 he)

theorem Keyed.Same.get?_eq {κ ν : Type} [DecidableEq κ] {a b : Keyed κ ν} (h : a.Same b) (k : κ) :
    a.get? k = b.get? k :=
  Keyed.same_iff.1 h k

/-- The values and the order of the keys make up the whole map. -/
theorem Keyed.Same.eq_of_keys {κ ν : Type} [DecidableEq κ] {a b : Keyed κ ν} (h : a.Same b)
    (hkeys : a.keys = b.keys) : a = b := by
  apply Keyed.ext
  apply List.ext_getElem
  · simpa [Keyed.keys] using congrArg List.length hkeys
  intro i hi hi'
  have hfst : (a.entries[i]).1 = (b.entries[i]).1 := by
    have hi : i < a.keys.length := by simpa [Keyed.keys] using hi
    simpa [Keyed.keys] using List.getElem_of_eq hkeys hi
  have ha := h.2 _ (List.getElem_mem hi)
  have hb : b.get? (b.entries[i]).1 = some (b.entries[i]).2 :=
    Keyed.get?_eq_some_iff.2 (List.getElem_mem hi')
  rw [hfst, hb] at ha
  exact Prod.ext hfst (Option.some.inj ha).symm

theorem Keyed.same_of_sets {a b : Keyed Symbol SymbolSet} (hkeys : ∀ n, n ∈ a ↔ n ∈ b)
    (hsets : a.sets = b.sets) : a.Same b := by
  rw [Keyed.same_iff]
  intro n
  cases hA : a.get? n with
  | none =>
    have hn : n ∉ b := fun hn => Keyed.get?_eq_none_iff.1 hA ((hkeys n).2 hn)
    exact (Keyed.get?_eq_none_iff.2 hn).symm
  | some A =>
    have hn : n ∈ b := (hkeys n).1 (Keyed.get?_isSome_iff.1 (by rw [hA]; rfl))
    obtain ⟨C, hC⟩ := Option.isSome_iff_exists.1 (Keyed.get?_isSome_iff.2 hn)
    rw [hC]
    congr 1
    apply OrderedSet.toSet_inj
    rw [← Keyed.sets_of_get? hA, ← Keyed.sets_of_get? hC, hsets]

namespace Grammar

variable {g g' : Grammar} {every : Bool} {n : Symbol} {d : Derivation} {o : Occurrence}

theorem Same.derivations_eq (h : g.Same g') (n : Symbol) : g.derivations n = g'.derivations n := by
  cases n with
  | nonterminal name =>
    show lookup g.productions _ = lookup g'.productions _
    simp only [lookup, h.2.get?_eq name]
  | _ => rfl

theorem Same.derives_iff (h : g.Same g') : g.Derives n d ↔ g'.Derives n d := by
  rw [Derives, Derives, h.derivations_eq]

theorem Same.mem_iff (h : g.Same g') : n ∈ g ↔ n ∈ g' := by
  have hname : ∀ name, name ∈ g.productions ↔ name ∈ g'.productions := by
    intro name
    rw [← Keyed.get?_isSome_iff, ← Keyed.get?_isSome_iff, h.2.get?_eq]
  simp only [Grammar.mem_iff, hname]

theorem Same.mem_rules_iff (h : g.Same g') {r : Rule} : r ∈ g.rules ↔ r ∈ g'.rules := by
  have hrule : ∀ g : Grammar, r ∈ g.rules ↔ g.Derives r.lhs r.derivation := by
    intro g
    rw [Grammar.derives_iff]
    constructor
    · exact fun hr => ⟨r, hr, rfl, rfl⟩
    · rintro ⟨r', hr', hl, hd⟩
      obtain ⟨head, derivation⟩ := r
      obtain ⟨head', derivation'⟩ := r'
      obtain rfl : head' = head := Symbol.nonterminal.inj hl
      obtain rfl : derivation' = derivation := hd
      exact hr'
  rw [hrule, hrule, h.derives_iff]

theorem Same.occurs_iff (h : g.Same g') : g.Occurs every n o ↔ g'.Occurs every n o := by
  simp only [Grammar.occurs_iff, h.mem_iff, h.mem_rules_iff]

theorem Same.followSets_eq (h : g.Same g') (F : Symbol → Set Symbol) :
    g.followSets every F = g'.followSets every F := by
  have hoperator : g.followOperator every F = g'.followOperator every F := by
    ext G n a
    show (_ ∨ _) ↔ (_ ∨ _)
    simp only [h.occurs_iff, startSymbol, h.1]
  rw [followSets, followSets, hoperator]

theorem Same.asks_iff (h : g.Same g') {q : Step} : q.Asks g ↔ q.Asks g' := by
  cases q with
  | first n => exact h.mem_iff
  | follow n => exact h.mem_iff
  | sequence d =>
    show (∀ t ∈ d, _ → _) ↔ (∀ t ∈ d, _ → _)
    simp only [h.mem_iff]
  | every value => exact Iff.rfl

theorem Same.expected_eq (h : g.Same g') (F : Symbol → Set Symbol) (q : Step) :
    q.expected g every F = q.expected g' every F := by
  cases q with
  | follow n => exact congrFun (h.followSets_eq F) n
  | _ => rfl

end Grammar

theorem FirstMemo.of_same {g g' : Grammar} (h : g.Same g') {m : Memo} (hm : FirstMemo g m) :
    FirstMemo g' m := by
  have hscript : firstScript g = firstScript g' := by
    funext n
    rw [firstScript, firstScript, h.derivations_eq]
  induction hm with
  | fresh => exact .fresh
  | ask _ hn hask ih => exact .ask ih (h.mem_iff.1 hn) (hscript ▸ hask)

/-! ### Independence -/

namespace Builder

variable {g : Grammar} {every : Bool} {n : Symbol} {m : Memo}

theorem run_append (b : Builder) (qs qs' : List Step) : b.run (qs ++ qs') =
    ((b.run qs).1 ++ ((b.run qs).2.run qs').1, ((b.run qs).2.run qs').2) := by
  induction qs generalizing b with
  | nil => rfl
  | cons q qs ih =>
    simp only [List.cons_append, run, ih]

theorem length_run (b : Builder) (qs : List Step) : (b.run qs).1.length = qs.length := by
  induction qs generalizing b with
  | nil => rfl
  | cons q qs ih => simp only [run, List.length_cons, ih]

theorem Sound.step_first {b : Builder} (hb : b.Sound g every) (hn : n ∈ g) :
    ∃ a s', Run (firstScript g) NoCalls (.ask n) ⟨b.first, (∅ : Trace)⟩ a s' ∧
      (b.step (.first n)).2.first = s'.memo := by
  obtain ⟨rfl, rfl, hbudget, hs⟩ := hb
  have hfirst : FirstMemo b.grammar b.first := hs.first
  obtain ⟨a, s', hrun, hr⟩ := firstOf_total (s := ⟨b.first, (∅ : Trace)⟩) hfirst.wf hfirst.within hn
  refine ⟨a, s', hr, ?_⟩
  have hset : firstSet b.grammar b.budget n b.session =
      (.ok a.set, { b.session with around := s' }) := by
    apply Solve.within_ok
    rw [hbudget]
    exact Solve.bind_ok hrun
  rw [Builder.step, compute_ok hset]

theorem asks_map_first {ns : List Symbol} (hns : ∀ x ∈ ns, x ∈ g) :
    ∀ q ∈ ns.map Step.first, q.Asks g := by
  intro q hq
  obtain ⟨x, hx, rfl⟩ := List.mem_map.1 hq
  exact hns x hx

/-- All FIRST sets that are ever found are found by questions about FIRST sets alone. -/
theorem firstMemo_reached (every : Bool) (h : FirstMemo g m) :
    ∃ ns : List Symbol, (∀ x ∈ ns, x ∈ g) ∧ ((new g every).run (ns.map .first)).2.first = m := by
  induction h with
  | fresh => exact ⟨[], by simp, rfl⟩
  | @ask s s' n a _ hn hask ih =>
    obtain ⟨ns, hns, hrun⟩ := ih
    have hb := ((sound_new g every).run (asks_map_first hns)).1
    obtain ⟨a₂, s₂, hask₂, hstep⟩ := hb.step_first hn
    refine ⟨ns ++ [n], fun x hx => ?_, ?_⟩
    · rcases List.mem_append.1 hx with hx | hx
      · exact hns x hx
      · rwa [List.mem_singleton.1 hx]
    · rw [List.map_append, run_append]
      exact hstep.trans (hask₂.unique hask hrun).2

/-- A question about a key, other than for a sequence. -/
def AsksKey (g : Grammar) : Step → Prop
  | .first n | .follow n => n ∈ g
  | .sequence _ | .every _ => False

/-- No order, of declarations or of questions, changes an answer or a table. -/
structure OrderIndependent (g : Grammar) (every : Bool) : Prop where
  answers : ∀ g₁ g₂ : Grammar, g₁.Same g → g₂.Same g → ∀ qs₁ qs₂ : List Step,
    (∀ q ∈ qs₁, AsksKey g q) → (∀ q ∈ qs₂, AsksKey g q) → ∀ q o₁ o₂,
      (q, o₁) ∈ qs₁.zip ((new g₁ every).run qs₁).1 →
      (q, o₂) ∈ qs₂.zip ((new g₂ every).run qs₂).1 → o₁.reply = o₂.reply
  tables : ∀ g₁ g₂ : Grammar, g₁.Same g → g₂.Same g →
    ∃ t₁ events₁ t₂ events₂, Table.build g₁ every = (.ok t₁, events₁) ∧
      Table.build g₂ every = (.ok t₂, events₂) ∧
      t₁.first.Same t₂.first ∧ t₁.follow.Same t₂.follow

/-- Whatever FIRST sets were asked for before, the next one is what it would have been at first. -/
def FirstIndependent (g : Grammar) (every : Bool) : Prop :=
  ∀ ns : List Symbol, (∀ x ∈ ns, x ∈ g) → ∀ n ∈ g,
    (((new g every).run (ns.map .first)).2.step (.first n)).1.reply =
      ((new g every).step (.first n)).1.reply

/-- The FIRST sets are then the same in all runs. -/
theorem FirstIndependent.fits (h : FirstIndependent g every) :
    ∃ F, ∀ m, FirstMemo g m → m.Fits F := by
  refine ⟨fun n => {a | ∃ A : SymbolSet, ((new g every).step (.first n)).1.reply = .ok (.set A) ∧
    a ∈ A}, fun m hm n A hA => ?_⟩
  obtain ⟨ns, hns, rfl⟩ := firstMemo_reached every hm
  have hn : n ∈ g := (hm.within.done n A hA).1
  obtain ⟨-, hext, hgives⟩ :=
    ((sound_new g every).run (asks_map_first hns)).1.step (q := .first n) hn
  obtain ⟨C, hreply, hC⟩ := hgives _ (Memo.fits_sets _)
  have hCA : C = A := by
    apply OrderedSet.toSet_inj
    rw [hC]
    exact Keyed.sets_of_get? (hext.done n A hA)
  rw [h ns hns n hn, hCA] at hreply
  ext a
  simp [hreply]

theorem asks_of_asksKey {q : Step} (h : AsksKey g q) : q.Asks g := by
  cases q with
  | first n => exact h
  | follow n => exact h
  | sequence d => exact h.elim
  | every value => exact h.elim

/-- A run over the same grammar in another order, seen over the FIRST sets `F`. -/
theorem gives_of_fits {F : Symbol → Set Symbol} (hF : ∀ m, FirstMemo g m → m.Fits F)
    {g' : Grammar} (hg : g'.Same g) {qs : List Step} (hqs : ∀ q ∈ qs, AsksKey g q) {q : Step}
    {o : Outcome} (ho : (q, o) ∈ qs.zip ((new g' every).run qs).1) :
    o.Gives (q.expected g every F) := by
  have hqs' : ∀ q ∈ qs, q.Asks g' := fun q hq => hg.asks_iff.2 (asks_of_asksKey (hqs q hq))
  obtain ⟨hb, -, hanswers⟩ := (sound_new g' every).run hqs'
  have hall := hanswers F (hF _ (hb.session.first.of_same hg))
  rw [← hg.expected_eq]
  exact (List.forall₂_iff_zip.1 hall).2 ho

theorem tables_same {F : Symbol → Set Symbol} (hF : ∀ m, FirstMemo g m → m.Fits F)
    {g₁ g₂ : Grammar} (h₁ : g₁.Same g) (h₂ : g₂.Same g) :
    ∃ t₁ events₁ t₂ events₂, Table.build g₁ every = (.ok t₁, events₁) ∧
      Table.build g₂ every = (.ok t₂, events₂) ∧
      t₁.first.Same t₂.first ∧ t₁.follow.Same t₂.follow := by
  obtain ⟨t₁, events₁, m₁, hbuild₁, hm₁, hkeys₁, hkeys₁', hfits₁, -, hfollow₁⟩ :=
    Table.build_eq g₁ every
  obtain ⟨t₂, events₂, m₂, hbuild₂, hm₂, hkeys₂, hkeys₂', hfits₂, -, hfollow₂⟩ :=
    Table.build_eq g₂ every
  have hmem : ∀ n, n ∈ g₁.keys ↔ n ∈ g₂.keys := fun n => h₁.mem_iff.trans h₂.mem_iff.symm
  have hfirst : t₁.first.sets = t₂.first.sets := by
    funext n
    by_cases hn : n ∈ g₁
    · rw [hfits₁ F (hF _ (hm₁.of_same h₁)) n hn, hfits₂ F (hF _ (hm₂.of_same h₂)) n ((hmem n).1 hn)]
    · rw [Keyed.sets_of_not_mem (t := t₁.first), Keyed.sets_of_not_mem (t := t₂.first)]
      · rw [Keyed.mem_def, hkeys₂]
        exact fun hn' => hn ((hmem n).2 hn')
      · rw [Keyed.mem_def, hkeys₁]
        exact hn
  refine ⟨t₁, events₁, t₂, events₂, hbuild₁, hbuild₂, ?_, ?_⟩
  · apply Keyed.same_of_sets _ hfirst
    intro n
    rw [Keyed.mem_def, Keyed.mem_def, hkeys₁, hkeys₂]
    exact hmem n
  · apply Keyed.same_of_sets
    · intro n
      rw [Keyed.mem_def, Keyed.mem_def, hkeys₁', hkeys₂']
      exact hmem n
    · rw [hfollow₁, hfollow₂, hfirst, h₁.followSets_eq, h₂.followSets_eq]

theorem orderIndependent_of_fits {F : Symbol → Set Symbol}
    (hF : ∀ m, FirstMemo g m → m.Fits F) : OrderIndependent g every := by
  constructor
  · intro g₁ g₂ h₁ h₂ qs₁ qs₂ hqs₁ hqs₂ q o₁ o₂ ho₁ ho₂
    obtain ⟨A₁, hreply₁, hA₁⟩ := gives_of_fits hF h₁ hqs₁ ho₁
    obtain ⟨A₂, hreply₂, hA₂⟩ := gives_of_fits hF h₂ hqs₂ ho₂
    rw [hreply₁, hreply₂, OrderedSet.toSet_inj (hA₁.trans hA₂.symm)]
  · intro g₁ g₂ h₁ h₂
    exact tables_same hF h₁ h₂

theorem OrderIndependent.firstIndependent (h : OrderIndependent g every) :
    FirstIndependent g every := by
  intro ns hns n hn
  have hsame : g.Same g := ⟨rfl, rfl, fun e he => Keyed.get?_eq_some_iff.2 he⟩
  have hkeys : ∀ q ∈ (ns ++ [n]).map Step.first, AsksKey g q := by
    intro q hq
    obtain ⟨x, hx, rfl⟩ := List.mem_map.1 hq
    rcases List.mem_append.1 hx with hx | hx
    · exact hns x hx
    · rwa [← List.mem_singleton.1 hx] at hn
  have hone : ∀ q ∈ [Step.first n], AsksKey g q := by
    intro q hq
    rw [List.mem_singleton.1 hq]
    exact hn
  refine h.answers g g hsame hsame _ _ hkeys hone (.first n) _ _ ?_ (List.mem_singleton.2 rfl)
  rw [List.map_append, run_append, List.zip_append (by rw [length_run])]
  exact List.mem_append_right _ (List.mem_singleton.2 rfl)

/-- Answers and tables depend on no order if and only if FIRST sets do not depend on the FIRST sets
that were asked for before. Neither matters if no nonterminal that can vanish begins with itself. -/
theorem orderIndependent_iff (g : Grammar) (every : Bool) :
    (OrderIndependent g every ↔ FirstIndependent g every) ∧
      (g.VanishingAcyclic → OrderIndependent g every) := by
  refine ⟨⟨OrderIndependent.firstIndependent, fun h => ?_⟩, fun hg => ?_⟩
  · obtain ⟨F, hF⟩ := h.fits
    exact orderIndependent_of_fits hF
  · exact orderIndependent_of_fits fun m hm => hm.exact hg

end Builder

/-- `Grammar.entangled` with its declarations in the other order. -/
def Grammar.entangledReversed : Grammar where
  start := "A"
  productions := ⟨[("B", [[.nonterminal "B", .nonterminal "A", .terminal "a"], []]),
    ("A", [[.nonterminal "B"]])], by decide⟩
  start_mem := by decide
  closed := Grammar.firstRefusal?_eq_none_iff.1 (by decide)

/-- Two orders of questions give different answers, and two orders of declarations different
tables. -/
theorem Builder.entangled_order_matters :
    ((Builder.new .entangled true).run
      [.first (.nonterminal "A"), .first (.nonterminal "B")]).1.map Outcome.reply =
        [.ok (.set {.epsilon}), .ok (.set {.epsilon})] ∧
    ((Builder.new .entangled true).run
      [.first (.nonterminal "B"), .first (.nonterminal "A")]).1.map Outcome.reply =
        [.ok (.set (.ofList [.epsilon, .terminal "a"])),
          .ok (.set (.ofList [.epsilon, .terminal "a"]))] ∧
    Grammar.entangledReversed.Same .entangled ∧
    (Table.build .entangledReversed true).1.toOption.bind (·.first.get? (.nonterminal "A")) ≠
      (Table.build .entangled true).1.toOption.bind (·.first.get? (.nonterminal "A")) ∧
    ¬ OrderIndependent .entangled true := by
  have hsame : Grammar.entangledReversed.Same .entangled := by decide
  have htables :
      (Table.build .entangledReversed true).1.toOption.bind (·.first.get? (.nonterminal "A")) ≠
        (Table.build .entangled true).1.toOption.bind (·.first.get? (.nonterminal "A")) := by
    decide +kernel
  refine ⟨by decide +kernel, by decide +kernel, hsame, htables, fun hindependent => ?_⟩
  obtain ⟨t₁, events₁, t₂, events₂, hbuild₁, hbuild₂, hfirst, -⟩ :=
    hindependent.tables .entangledReversed .entangled hsame (by decide)
  rw [hbuild₁, hbuild₂] at htables
  exact htables (hfirst.get?_eq _)

end FirstFollow
