import FirstFollow.Proofs.Changes
import FirstFollow.Proofs.Keys
import Mathlib.Logic.Relation

/-!
Which symbols FIRST and FOLLOW sets may hold at all. The least sets are bounded by the symbols on
right-hand sides, and `endMarker` gets no further than from producers to what stands in their rules.
What a memo has found is never lost, so the bounds that hold between questions have held in every
state on the way (`Builder.run_shaped`).
-/

namespace FirstFollow

open Relation

/-! ### Bounds -/

namespace Grammar

variable {g : Grammar} {every : Bool} {n m a : Symbol}

/-- `n` stands in a rule of `m`. -/
def StandsIn (g : Grammar) (n m : Symbol) : Prop := ∃ o, g.Occurs true n o ∧ o.producer = m

/-- What FIRST and FOLLOW of a nonterminal may hold. The end comes after a nonterminal only if the
start symbol can be reached from it by going to producers, or if it stands on a right-hand side. -/
def shape (g : Grammar) : SetKind → Symbol → Set Symbol
  | .first, _ => {a | a = .epsilon ∨ a ∈ g.mentioned ∧ ¬ a.isNonterminal}
  | .follow, n => {a | a ≠ .epsilon ∧ (a ∈ g.mentioned ∧ ¬ a.isNonterminal ∨
      a = .endMarker ∧ ReflTransGen g.StandsIn n g.startSymbol)}

theorem firstSets_le_shape (g : Grammar) : g.firstSets ≤ g.shape .first :=
  fun n => firstSets_subset (.inl rfl) (fun _ hs hn => .inr ⟨hs, hn⟩) n

theorem followSets_le_shape (g : Grammar) : g.followSets true g.firstSets ≤ g.shape .follow := by
  apply followSets_least
  rintro n a (⟨rfl, rfl⟩ | ⟨o, ho, ⟨ha, hne⟩ | ⟨-, hne, ha⟩⟩)
  · exact ⟨nofun, .inr ⟨rfl, .refl⟩⟩
  · have hsuffix : scanSet g.firstSets o.suffix ⊆ g.shape .first n :=
      scanSet_subset_of (.inl rfl) (fun _ hs hn => .inr ⟨hs, hn⟩) ho.derives ho.suffix_subset
        fun m _ => g.firstSets_le_shape m
    exact ⟨hne, .inl ((hsuffix ha).resolve_left hne)⟩
  · refine ⟨hne, ha.imp_right fun ⟨hend, hreach⟩ => ⟨hend, ?_⟩⟩
    exact hreach.head ⟨o, ho, rfl⟩

end Grammar

/-! ### Heads of scripts -/

namespace Memo

variable {h : Symbol → SymbolSet} {m : Memo}

/-- Every set that is begun holds what `h` tells. -/
structure Headed (h : Symbol → SymbolSet) (m : Memo) : Prop where
  done : ∀ x A, m.done.get? x = some A → h x ⊆ A
  unfinished : ∀ x u, m.unfinished.get? x = some u → h x ⊆ u.part

theorem fresh_headed (h : Symbol → SymbolSet) (kind : SetKind) : (fresh kind).Headed h where
  done := by simp [fresh]
  unfinished := by simp [fresh]

theorem Headed.grow (hm : m.Headed h) (n : Symbol) (A : SymbolSet) : (m.grow n A).Headed h where
  done := by simpa using hm.done
  unfinished := by
    intro x u hu
    rw [get?_grow] at hu
    obtain ⟨v, hv, rfl⟩ := Option.map_eq_some_iff.1 hu
    have hpart := hm.unfinished x v hv
    split
    next => exact fun a ha => OrderedSet.mem_union.2 (.inl (hpart a ha))
    next => exact hpart

/-- A set that is begun lacks its head only until it is emitted. -/
theorem Headed.enter (hm : m.Headed h) (n : Symbol) : ((m.start n).grow n (h n)).Headed h where
  done := by simpa using hm.done
  unfinished := by
    intro x u hu
    rw [get?_grow] at hu
    obtain ⟨v, hv, rfl⟩ := Option.map_eq_some_iff.1 hu
    rw [get?_start] at hv
    split at hv
    next hx =>
      subst hx
      simp only [if_true]
      exact fun a ha => OrderedSet.mem_union.2 (.inr ha)
    next hx =>
      rw [if_neg hx]
      exact hm.unfinished x v hv

theorem Headed.close (hm : m.Headed h) (hw : m.Wf) (mark : Nat) : (m.close mark).Headed h where
  done := by
    intro x A hA
    rw [hw.close_done] at hA
    split at hA
    · obtain ⟨u, hu, rfl⟩ := Option.map_eq_some_iff.1 hA
      exact hm.unfinished x u hu
    · exact hm.done x A hA
  unfinished := by
    intro x u hu
    rw [hw.close_unfinished] at hu
    split at hu
    · cases hu
    · exact hm.unfinished x u hu

end Memo

/-- What a task makes of a memo if it begins with handing out a part of the set that it is for. -/
def Task.opened {ι : Type} : Task ι → Memo → Memo
  | .play (some n) (.emit A _) _, m => m.grow n A
  | _, m => m

theorem Memo.Headed.opened {ι : Type} {h : Symbol → SymbolSet} {m : Memo} (hm : m.Headed h)
    (t : Task ι) : (t.opened m).Headed h := by
  unfold Task.opened
  split
  · exact hm.grow _ _
  · exact hm

/-- If each script begins with emitting its head, all sets that are begun hold it. -/
theorem Run.headed {ι σ : Type} [Recorder σ] {script : Symbol → Script ι}
    {Calls : ι → σ → SymbolSet → σ → Prop} {h : Symbol → SymbolSet}
    (hscript : ∀ n, ∃ p, script n = .emit (h n) p) {t : Task ι} {s s' : Session σ} {r : t.Result}
    (hrun : Run script Calls t s r s') (hs : s.memo.Wf) (ht : (t.opened s.memo).Headed h) :
    s'.memo.Headed h := by
  have henter : ∀ {m : Memo} n, m.Headed h →
      ((Task.play (some n) (script n) ∅).opened (m.start n)).Headed h := by
    intro m n hm
    obtain ⟨p, hp⟩ := hscript n
    rw [hp]
    exact hm.enter n
  induction hrun with
  | known _ | reentered _ _ | passed | alone _ => exact ht
  | @done target => cases target <;> exact ht
  | left hd hu _ _ _ ih => exact ih (hs.start hd hu) (henter _ ht)
  | closed hd hu hplay _ hfin hclose _ ih₁ ih₂ =>
    have hw₁ := (hplay.frame (hs.start hd hu)).wf
    have h₂ := ih₂ hw₁ (ih₁ (hs.start hd hu) (henter _ ht))
    rw [(Solve.close_memo hclose).1]
    exact h₂.close (hfin.frame hw₁).wf _
  | @emit target A p sum s a s' _ ih =>
    cases target with
    | none => exact ih hs ht
    | some n => exact ih (hs.grow n A) (ht.opened _)
  | @ask target n k sum s a s₁ b s' hask _ ih₁ ih₂ =>
    have hm : s.memo.Headed h := by cases target <;> exact ht
    exact ih₂ (hask.frame hs).wf ((ih₁ hs hm).opened _)
  | @call target i k sum s A around b s' _ _ ih =>
    have hm : s.memo.Headed h := by cases target <;> exact ht
    exact ih hs (hm.opened _)
  | same hplay _ _ _ ih₁ ih₂ => exact ih₂ (hplay.frame hs).wf (ih₁ hs ht)
  | @grew first n rest grown s a s₁ A g s' hplay _ _ _ ih₁ ih₂ =>
    exact ih₂ ((hplay.frame hs).wf.grow n a.set) ((ih₁ hs ht).grow n a.set)
  | stable _ _ ih => exact ih hs ht
  | again hpass _ _ ih₁ ih₂ => exact ih₂ (hpass.frame hs).wf (ih₁ hs ht)
  | together _ _ ih => exact ih hs ht

/-! ### Builders -/

namespace Builder

variable {g : Grammar} {b : Builder}

theorem Steady.holds_shape (hb : b.Steady g) {kind : SetKind} {x a : Symbol}
    (hx : (b.memos kind).Holds x a) : a ∈ g.shape kind x := by
  cases kind with
  | first => exact g.firstSets_le_shape x (hb.session.first.within.holds hx)
  | follow => exact g.followSets_le_shape x (hb.session.within.holds hx)

/-- FOLLOW of the start symbol begins with the end, in either mode. -/
theorem Steady.step_headed (hb : b.Steady g) {q : Step} (hq : q.AboutKeys g)
    (h : b.follow.Headed (startSet g)) : (b.step q).2.follow.Headed (startSet g) := by
  cases q with
  | first n =>
    obtain ⟨A, s', hstep, -⟩ := hb.step_first hq
    rw [hstep]
    exact h
  | follow n =>
    obtain ⟨rfl, hbudget, hs⟩ := hb
    obtain ⟨a, s', hrun, hr, -⟩ := (follow_sound_upper b.grammar b.every).followOf_total
      ⟨hs.wf, hs.within, hs.first⟩ hq
    have hset : followSet b.grammar (b.grammar.occurrenceIndex b.every) b.budget n
        b.session = (.ok a.set, s') := by
      rw [hbudget, followSet, Solve.bind_ok hrun]
      rfl
    have hstep : b.step (.follow n) = _ := compute_ok hset
    rw [hstep]
    exact hr.headed (fun n => ⟨_, rfl⟩) hs.wf h
  | sequence d =>
    obtain ⟨A, s', hstep, -⟩ := hb.step_sequence hq
    rw [hstep]
    exact h
  | every value => exact h

theorem Steady.run_headed (hb : b.Steady g) {qs : List Step} (hqs : ∀ q ∈ qs, q.AboutKeys g)
    (h : b.follow.Headed (startSet g)) : (b.run qs).2.follow.Headed (startSet g) := by
  induction qs generalizing b with
  | nil => exact h
  | cons q qs ih =>
    have hq := hqs q (by simp)
    exact ih (hb.step hq).1 (fun p hp => hqs p (by simp [hp])) (hb.step_headed hq h)

/-- The memos of a builder that is asked about keys, in whatever modes, move by single changes. In
each state on the way all sets, finished or not, hold nothing but what they may, and FOLLOW of the
start symbol, once it is finished, holds the end. So do the parts and the finished sets that events
show. -/
theorem run_shaped (g : Grammar) (every : Bool) {qs : List Step} (hqs : ∀ q ∈ qs, q.AboutKeys g) :
    (new g every).memos.Changes (((new g every).run qs).1.flatMap Outcome.events)
      ((new g every).run qs).2.memos ∧
    (∀ es es' ms, (new g every).memos.Changes es ms →
      ms.Changes es' ((new g every).run qs).2.memos →
        (∀ kind x a, (ms kind).Holds x a → a ∈ g.shape kind x) ∧
        ∀ A, (ms .follow).done.get? g.startSymbol = some A → .endMarker ∈ A) ∧
    ∀ o ∈ ((new g every).run qs).1, ∀ kind x (A : SymbolSet),
      .reentered kind x A ∈ o.events ∨ .completed kind x A ∈ o.events →
        A.toSet ⊆ g.shape kind x := by
  have hnew := memos_new_wf g every
  have hb := ((steady_new g every).run hqs).1
  have hheaded := (steady_new g every).run_headed hqs (Memo.fresh_headed _ _)
  have hchanges := run_changes hnew qs
  refine ⟨hchanges, fun es es' ms hbefore hafter => ⟨fun kind x a hx => ?_, fun A hA => ?_⟩,
    fun o ho kind x A hA a ha => hb.holds_shape ?_⟩
  -- nothing that was held before is lost, so the bounds of the last state are bounds of this one
  · exact hb.holds_shape (hafter.holds (hbefore.memos_wf hnew) hx)
  · have hend := hheaded.done _ _ (hafter.done (hbefore.memos_wf hnew) hA)
    exact hend _ (by simp [startSet])
  · rcases hA with hA | hA
    · exact hchanges.holds_of_reentered hnew (List.mem_flatMap.2 ⟨o, ho, hA⟩) a ha
    · exact .inl ⟨A, hchanges.done_of_completed hnew (List.mem_flatMap.2 ⟨o, ho, hA⟩), ha⟩

/-- The end is known to come after `B`, which leads to the start symbol. -/
theorem run_shaped_entangled :
    (∀ q ∈ [Step.first (.nonterminal "A"), .every true, .follow (.nonterminal "B")],
      q.AboutKeys .entangled) ∧
    (((new .entangled false).run [.first (.nonterminal "A"), .every true,
      .follow (.nonterminal "B")]).2.memos .follow).Holds (.nonterminal "B") .endMarker ∧
    .endMarker ∉ Grammar.entangled.mentioned ∧
    ReflTransGen Grammar.entangled.StandsIn (.nonterminal "B") (.nonterminal "A") := by
  have hqs : ∀ q ∈ [Step.first (.nonterminal "A"), .every true, .follow (.nonterminal "B")],
      q.AboutKeys .entangled := by decide
  have hmentioned : .endMarker ∉ Grammar.entangled.mentioned := by decide
  have hget : (((new .entangled false).run [.first (.nonterminal "A"), .every true,
      .follow (.nonterminal "B")]).2.memos .follow).done.get? (.nonterminal "B") =
        some (.ofList [.endMarker, .terminal "a"]) := by decide +kernel
  obtain ⟨hchanges, hstates, -⟩ := run_shaped .entangled false hqs
  have hholds : (((new .entangled false).run [.first (.nonterminal "A"), .every true,
      .follow (.nonterminal "B")]).2.memos .follow).Holds (.nonterminal "B") .endMarker :=
    .inl ⟨_, hget, by simp⟩
  obtain ⟨-, hend | ⟨-, hreach⟩⟩ := (hstates _ _ _ hchanges .refl).1 _ _ _ hholds
  · exact absurd hend.1 hmentioned
  · exact ⟨hqs, hholds, hmentioned, hreach⟩

end Builder

end FirstFollow
