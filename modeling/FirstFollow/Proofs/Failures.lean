import FirstFollow.Proofs.Beneath
import FirstFollow.Proofs.Changes

/-!
Steps that fail. A question about a symbol without productions fails the first time and leaves the
symbol at the bottom of the stack. All that a builder comes to in any run is a steady state above
such symbols (`Builder.Stands.run`), which tells what is left unfinished between steps
(`Builder.run_memo`).
-/

namespace FirstFollow

/-! ### Memos -/

namespace Memo

variable {key : Symbol → Prop} {dead : List Symbol} {m m' : Memo} {n x : Symbol}

theorem grow_empty (m : Memo) (n : Symbol) : m.grow n ∅ = m := by
  unfold grow
  cases hn : m.unfinished.get? n with
  | none => rfl
  | some u => simp only [OrderedSet.union_empty, Keyed.set_of_get? hn]

theorem above_fresh (key : Symbol → Prop) (kind : SetKind) :
    Above key [] (fresh kind) (fresh kind) :=
  ⟨rfl, rfl, rfl, rfl, by simp [fresh], by simp, by simp [fresh]⟩

/-- A memo in which only keys are finished and nothing is unfinished. -/
structure Idle (key : Symbol → Prop) (m : Memo) : Prop where
  done : ∀ x A, m.done.get? x = some A → key x
  unfinished : ∀ x, m.unfinished.get? x = none
  group_eq : m.group = []

namespace Above

variable (h : Above key dead m m') (hm : m.Idle key)

include h hm

theorem group_of_idle : m'.group = dead := by
  rw [h.group, hm.group_eq, List.append_nil]

/-- Apart from keys, exactly the symbols below are begun. -/
theorem begun_iff (hx : ¬ key x) : m'.Begun x ↔ x ∈ dead := by
  constructor
  · rintro (⟨A, hA⟩ | ⟨u, hu⟩)
    · exact absurd (hm.done x A (h.done ▸ hA)) hx
    · by_contra hdead
      rw [h.opened x hdead, hm.unfinished] at hu
      cases hu
  · intro hdead
    obtain ⟨-, i, hi⟩ := h.dead x hdead
    exact .inr ⟨_, hi⟩

/-- One more symbol is left on the stack. -/
theorem bury (hn : ¬ key n) (hdead : n ∉ dead) : Above key (dead ++ [n]) m (m'.start n) where
  kind := h.kind
  done := h.done
  group := by rw [start_group, h.group_of_idle hm, hm.group_eq, List.append_nil]
  count := by
    rw [start_count, h.count, List.length_append, List.length_singleton]
    omega
  opened := by
    intro x hx
    obtain ⟨hx, hxn⟩ := not_or.1 (mt List.mem_append.2 hx)
    rw [get?_start, if_neg (mt List.mem_singleton.2 hxn), h.opened x hx, hm.unfinished]
    rfl
  dead := by
    intro x hx
    rw [get?_start]
    rcases List.mem_append.1 hx with hx | hx
    · have hxn : x ≠ n := fun e => hdead (e ▸ hx)
      rw [if_neg hxn]
      exact h.dead x hx
    · obtain rfl := List.mem_singleton.1 hx
      exact ⟨hn, m'.count, by rw [if_pos rfl]⟩
  live := by simp [hm.group_eq]

end Above

end Memo

/-! ### Asking for a symbol without productions -/

namespace Solve

theorem bind_error {σ α β : Type} {x : Solve σ α} {f : α → Solve σ β} {s s' : Session σ}
    {e : Error} (h : x s = (.error e, s')) : (x >>= f) s = (.error e, s') := by
  rw [bind_apply, h]

variable {σ : Type} [Recorder σ] {eq : Equation σ} {key : Symbol → Prop} {dead : List Symbol}
  {m : Memo} {n : Symbol} {s : Session σ}

/-- Left on the stack, it is answered with nothing. -/
theorem ask_buried (eq : Equation σ) (h : m.Above key dead s.memo) (hm : m.Idle key) (hn : n ∈ dead)
    (passes depth : Nat) : ∃ i, Solve.ask eq passes depth n s =
      (.ok ⟨∅, .number i⟩, s.note (.reentered · n ∅)) := by
  obtain ⟨hkey, i, hi⟩ := h.dead n hn
  have hd : s.memo.done.get? n = none := by
    by_contra hd
    obtain ⟨A, hA⟩ := Option.ne_none_iff_exists'.1 hd
    exact hkey (hm.done n A (h.done ▸ hA))
  refine ⟨i, ?_⟩
  cases depth <;> rw [Solve.ask, consult_apply, hd, hi]

/-- Asked for the first time, it is begun and fails. -/
theorem ask_fails {e : Error} (h : m.Above key dead s.memo) (hm : m.Idle key) (hkey : ¬ key n)
    (hn : n ∉ dead) (heq : ∀ ask, eq ask (grow n) n (s.start n) = (.error e, s.start n))
    (passes depth : Nat) : Solve.ask eq passes (depth + 1) n s = (.error e, s.start n) := by
  have hbegun : ¬ s.memo.Begun n := mt (h.begun_iff hm hkey).1 hn
  have hd : s.memo.done.get? n = none := by
    by_contra hd
    exact hbegun (.inl (Option.ne_none_iff_exists'.1 hd))
  have hu : s.memo.unfinished.get? n = none := by
    by_contra hu
    exact hbegun (.inr (Option.ne_none_iff_exists'.1 hu))
  rw [Solve.ask, consult_apply, hd, hu]
  show enter eq passes (Solve.ask eq passes depth) n s = _
  rw [enter, bind_ok (memo_apply s), bind_ok (changeMemo_apply _ s), bind_ok (record_apply _ _)]
  exact bind_error (heq (Solve.ask eq passes depth))

end Solve

section

variable {σ : Type} [Recorder σ] {g : Grammar} {n : Symbol} {e : Error}

theorem Grammar.derivations_of_not_mem (hn : n ∉ g) : ∃ e, g.derivations n = .error e := by
  cases hd : g.derivations n with
  | error e => exact ⟨e, rfl⟩
  | ok ds =>
    obtain ⟨name, rfl, hname⟩ := lookup_eq_ok_iff.1 hd
    exact absurd (mem_of_get? hname) hn

/-- Maps with the same keys refuse a symbol alike. -/
theorem Grammar.lookup_error {ν μ : Type} {table : Keyed String ν} {table' : Keyed String μ}
    (hkeys : table'.keys = table.keys) (h : lookup table n = .error e) :
    lookup table' n = .error e := by
  cases n with
  | nonterminal name =>
    cases hget : table.get? name with
    | some v => simp [lookup, hget] at h
    | none =>
      have hget' : table'.get? name = none := by
        rw [Keyed.get?_eq_none_iff, Keyed.mem_def, hkeys, ← Keyed.mem_def, ← Keyed.get?_eq_none_iff]
        exact hget
      simpa [lookup, hget, hget'] using h
  | _ => simpa [lookup] using h

theorem Grammar.depth_pos (g : Grammar) : ∃ depth, g.budget.depth = depth + 1 := by
  apply Nat.exists_eq_add_one.2
  have hmem := g.start_mem
  rw [Keyed.mem_def] at hmem
  have hpos := List.length_pos_of_mem hmem
  rwa [Keyed.length_keys] at hpos

variable {m : Memo} {dead : List Symbol} {s : Session σ}

theorem firstOf_fails (h : m.Above (· ∈ g) dead s.memo) (hm : m.Idle (· ∈ g)) (hn : n ∉ g)
    (hdead : n ∉ dead) (he : g.derivations n = .error e) :
    firstOf g g.budget n s = (.error e, s.start n) := by
  obtain ⟨depth, hdepth⟩ := g.depth_pos
  rw [firstOf, firstEquation_eq, Equation.solve, hdepth]
  apply Solve.ask_fails h hm hn hdead
  intro ask
  rw [Script.equation, firstScript, he]
  rfl

theorem followOf_fails (every : Bool) {s : Session (Session σ)} (h : m.Above (· ∈ g) dead s.memo)
    (hm : m.Idle (· ∈ g)) (hn : n ∉ g) (hdead : n ∉ dead) (he : g.derivations n = .error e) :
    followOf g (g.occurrenceIndex every) g.budget n s = (.error e, s.start n) := by
  obtain ⟨depth, hdepth⟩ := g.depth_pos
  rw [followOf, followEquation_eq, Equation.solve, hdepth]
  apply Solve.ask_fails h hm hn hdead
  intro ask
  have hlookup : Grammar.lookup (g.occurrenceIndex every) n = .error e :=
    Grammar.lookup_error (Keyed.keys_map _ _) he
  have hstart : startSet g n = ∅ := by
    rw [startSet, if_neg]
    rintro rfl
    exact hn g.startSymbol_mem
  have hgrow : Solve.grow n ∅ (s.start n) = (.ok (), s.start n) := by
    rw [Solve.grow, Solve.changeMemo_apply, Memo.grow_empty]
  rw [Script.equation, followScript, hlookup, hstart, Script.play, Solve.bind_ok hgrow]
  rfl

end

/-! ### Both memos -/

def Session.memos (s : Session (Session Trace)) : Memos := .of s.around.memo s.memo

variable {α β : Type} {g : Grammar} {dead : SetKind → List Symbol} {kind : SetKind} {n : Symbol}

theorem FirstMemo.idle {m : Memo} (h : FirstMemo g m) : m.Idle (· ∈ g) where
  done x A hA := (h.within.done x A hA).1
  unfinished := h.wf.unfinished_of_empty h.group_eq
  group_eq := h.group_eq

theorem Session.Steady.idle {s : Session (Session Trace)} (h : s.Steady g) (kind : SetKind) :
    (s.memos kind).Idle (· ∈ g) := by
  cases kind with
  | first => exact h.first.idle
  | follow => exact ⟨fun x A hA => (h.within.done x A hA).1, h.wf.unfinished_of_empty h.group_eq,
      h.group_eq⟩

/-- The memos are steady ones above the symbols of `dead`. -/
def Session.Stands (g : Grammar) (dead : SetKind → List Symbol) (s : Session (Session Trace)) :
    Prop :=
  ∃ c : Session (Session Trace), c.Steady g ∧
    ∀ kind, (c.memos kind).Above (· ∈ g) (dead kind) (s.memos kind)

theorem Session.Stands.bury {s s' : Session (Session Trace)} (h : s.Stands g dead) (hn : n ∉ g)
    (hdead : n ∉ dead kind)
    (hs' : s'.memos = Function.update s.memos kind ((s.memos kind).start n)) :
    s'.Stands g (Function.update dead kind (dead kind ++ [n])) := by
  obtain ⟨c, hc, habove⟩ := h
  refine ⟨c, hc, fun k => ?_⟩
  rw [hs']
  by_cases hk : k = kind
  · subst hk
    rw [Function.update_self, Function.update_self]
    exact (habove k).bury (hc.idle k) hn hdead
  · rw [Function.update_of_ne hk, Function.update_of_ne hk]
    exact habove k

/-- How computations end: with a result above the same symbols, or with the error of one more. -/
inductive Lands (g : Grammar) (dead : SetKind → List Symbol) :
    Except Error α × Session (Session Trace) → Prop
  | same {a : α} {s : Session (Session Trace)} : s.Stands g dead → Lands g dead (.ok a, s)
  | failed {kind : SetKind} {n : Symbol} {e : Error} {s : Session (Session Trace)} : n ∉ g →
      g.derivations n = .error e → s.Stands g (Function.update dead kind (dead kind ++ [n])) →
      Lands g dead (.error e, s)

/-- Wherever `x` begins, it lands. -/
def AlwaysLands (g : Grammar) (x : Solve (Session Trace) α) : Prop :=
  ∀ dead s, s.Stands g dead → Lands g dead (x s)

namespace AlwaysLands

theorem pure (a : α) : AlwaysLands g (pure a) := fun _ _ hs => .same hs

theorem bind {x : Solve (Session Trace) α} {f : α → Solve (Session Trace) β}
    (hx : AlwaysLands g x) (hf : ∀ a, AlwaysLands g (f a)) : AlwaysLands g (x >>= f) := by
  intro dead s hs
  have hland := hx dead s hs
  rw [Solve.bind_apply]
  rcases hrun : x s with ⟨_ | a, s'⟩
  · rw [hrun] at hland
    cases hland with
    | failed hn he hs' => exact .failed hn he hs'
  · rw [hrun] at hland
    cases hland with
    | same hs' => exact hf a dead s' hs'

end AlwaysLands

theorem Solve.within_apply {σ : Type} (x : Solve σ α) (s : Session (Session σ)) :
    within x s = ((x s.around).1, { s with around := (x s.around).2 }) := rfl

theorem Solve.within_bind {σ : Type} (x : Solve σ α) (f : α → Solve σ β) :
    within (x >>= f) = within x >>= fun a => within (f a) := by
  funext s
  rw [bind_apply, within_apply, within_apply, bind_apply]
  rcases x s.around with ⟨_ | a, s'⟩ <;> rfl

theorem mirrors_true {σ : Type} [Recorder σ] : Mirrors fun _ _ : σ => True :=
  fun _ _ _ _ _ _ => trivial

theorem firstOf_lands (n : Symbol) : AlwaysLands g (Solve.within (firstOf g g.budget n)) := by
  rintro dead s ⟨c, hc, habove⟩
  by_cases hn : n ∈ g
  -- a key is answered above `dead` as it is in the steady session
  · obtain ⟨A, around, hrun, hfirst, -⟩ := hc.first.firstOf_eq hn
    have hstep := firstOf_lockstep (b := g.budget) mirrors_true hn c.around s.around
      ⟨habove .first, trivial⟩
    rw [Solve.within_apply]
    rw [hrun] at hstep
    generalize firstOf g g.budget n s.around = r at hstep
    cases hstep with
    | ok _ hs' =>
      refine .same ⟨{ c with around }, ⟨hfirst, hc.wf, hc.group_eq, hc.within⟩, fun kind => ?_⟩
      cases kind with
      | first => exact hs'.memo
      | follow => exact habove .follow
  by_cases hdead : n ∈ dead .first
  · obtain ⟨i, hrun⟩ := Solve.ask_buried (firstEquation g) (s := s.around) (habove .first)
      (hc.idle .first) hdead g.budget.passes g.budget.depth
    have hrun' : firstOf g g.budget n s.around = _ := hrun
    rw [Solve.within_apply, hrun']
    exact .same ⟨c, hc, habove⟩
  · obtain ⟨e, he⟩ := Grammar.derivations_of_not_mem hn
    have hrun := firstOf_fails (s := s.around) (habove .first) (hc.idle .first) hn hdead he
    rw [Solve.within_apply, hrun]
    refine .failed hn he (Session.Stands.bury ⟨c, hc, habove⟩ hn hdead ?_)
    exact (Memos.update_first s.around.memo s.memo _).symm

theorem scan_lands (d : Derivation) :
    AlwaysLands g (Solve.within (scan (firstOf g g.budget) d)) := by
  induction d with
  | nil => exact .pure _
  | cons s rest ih =>
    cases s with
    | nonterminal name =>
      rw [scan, Solve.within_bind]
      refine (firstOf_lands _).bind fun head => ?_
      split
      · rw [Solve.within_bind]
        exact ih.bind fun tail => .pure _
      · exact .pure _
    | _ => exact .pure _

/-- Where a symbol without productions was begun, the step failed with its error. -/
def Outcome.Blames (g : Grammar) (o : Outcome) : Prop :=
  ∀ kind n k, n ∉ g → .entered kind n k ∈ o.events →
    ∃ e, g.derivations n = .error e ∧ o.reply = .error e

namespace Builder

theorem firstSet_lands (n : Symbol) : AlwaysLands g (firstSet g g.budget n) := by
  rw [firstSet, Solve.within_bind]
  exact (firstOf_lands n).bind fun a => .pure _

theorem sequenceSet_lands (d : Derivation) : AlwaysLands g (sequenceSet g g.budget d) := by
  rw [sequenceSet, firstOfSequence, Solve.within_bind]
  exact (scan_lands d).bind fun a => .pure _

theorem followSet_lands (every : Bool) (n : Symbol) :
    AlwaysLands g (followSet g (g.occurrenceIndex every) g.budget n) := by
  rintro dead s ⟨c, hc, habove⟩
  by_cases hn : n ∈ g
  · obtain ⟨A, s', hrun, hs', -⟩ := followSet_gives every hn c hc
    have hend := followSet_lockstep (b := g.budget) mirrors_true every hn c s
      ⟨habove .follow, habove .first, trivial⟩
    rw [hrun] at hend
    generalize followSet g (g.occurrenceIndex every) g.budget n s = r at hend
    cases hend with
    | ok _ hs₁ =>
      refine .same ⟨s', hs', fun kind => ?_⟩
      cases kind with
      | first => exact hs₁.around.memo
      | follow => exact hs₁.memo
  by_cases hdead : n ∈ dead .follow
  · obtain ⟨i, hrun⟩ := Solve.ask_buried
      (followEquation g (g.occurrenceIndex every) g.budget) (habove .follow)
      (hc.idle .follow) hdead g.budget.passes g.budget.depth
    have hrun' : followOf g (g.occurrenceIndex every) g.budget n s = _ := hrun
    rw [followSet, Solve.bind_ok hrun']
    exact .same ⟨c, hc, habove⟩
  · obtain ⟨e, he⟩ := Grammar.derivations_of_not_mem hn
    have hrun := followOf_fails every (habove .follow) (hc.idle .follow) hn hdead he
    rw [followSet, Solve.bind_error hrun]
    refine .failed hn he (Session.Stands.bury ⟨c, hc, habove⟩ hn hdead ?_)
    exact (Memos.update_follow s.around.memo s.memo _).symm

/-! ### Steps -/

/-- A builder whose memos are steady above the symbols of `dead`. -/
structure Stands (g : Grammar) (dead : SetKind → List Symbol) (b : Builder) : Prop where
  grammar_eq : b.grammar = g
  budget_eq : b.budget = g.budget
  session : b.session.Stands g dead

theorem stands_new (g : Grammar) (every : Bool) : (new g every).Stands g fun _ => [] where
  grammar_eq := rfl
  budget_eq := rfl
  session := by
    refine ⟨(new g every).session, (steady_new g every).session, fun kind => ?_⟩
    cases kind <;> exact Memo.above_fresh _ _

namespace Stands

variable {b : Builder} (hb : b.Stands g dead)

include hb

theorem group_eq (kind : SetKind) : (b.memos kind).group = dead kind := by
  obtain ⟨c, hc, habove⟩ := hb.session
  exact (habove kind).group_of_idle (hc.idle kind)

theorem begun_iff (hn : n ∉ g) : (b.memos kind).Begun n ↔ n ∈ dead kind := by
  obtain ⟨c, hc, habove⟩ := hb.session
  exact (habove kind).begun_iff (hc.idle kind) hn

theorem not_mem (hn : n ∈ dead kind) : n ∉ g := by
  obtain ⟨c, hc, habove⟩ := hb.session
  exact ((habove kind).dead n hn).1

theorem compute {x : Compute SymbolSet} (hx : AlwaysLands g x) :
    ((∃ r, (b.compute x).1.reply = .ok r) ∧ (b.compute x).2.Stands g dead) ∨
    ∃ kind n e, n ∉ g ∧ g.derivations n = .error e ∧ (b.compute x).1.reply = .error e ∧
      (b.compute x).2.Stands g (Function.update dead kind (dead kind ++ [n])) := by
  have hland := hx dead b.session hb.session
  rcases hrun : x b.session with ⟨r, s'⟩
  have hcompute : b.compute x = (⟨r.map .set, s'.around.around.events⟩,
      { b with first := s'.around.memo, follow := s'.memo }) := by
    have hrun' : StateT.run (ExceptT.run x) b.session = (r, s') := hrun
    rw [Builder.compute, hrun']
  rw [hrun] at hland
  rw [hcompute]
  cases hland with
  | same hs' => exact .inl ⟨⟨_, rfl⟩, hb.grammar_eq, hb.budget_eq, hs'⟩
  | failed hn he hs' => exact .inr ⟨_, _, _, hn, he, rfl, hb.grammar_eq, hb.budget_eq, hs'⟩

/-- A step is answered and leaves the stacks as they are, or it fails with the error of a symbol
without productions, which it leaves on one of them. -/
theorem step (q : Step) :
    ((∃ r, (b.step q).1.reply = .ok r) ∧ (b.step q).2.Stands g dead) ∨
    ∃ kind n e, n ∉ g ∧ g.derivations n = .error e ∧ (b.step q).1.reply = .error e ∧
      (b.step q).2.Stands g (Function.update dead kind (dead kind ++ [n])) := by
  obtain ⟨rfl, hbudget, hs⟩ := id hb
  cases q with
  | first n =>
    unfold Builder.step
    rw [hbudget]
    exact hb.compute (firstSet_lands n)
  | follow n =>
    unfold Builder.step
    rw [hbudget]
    exact hb.compute (followSet_lands b.every n)
  | sequence d =>
    unfold Builder.step
    rw [hbudget]
    exact hb.compute (sequenceSet_lands d)
  | every value => exact .inl ⟨⟨_, rfl⟩, rfl, hbudget, hs⟩

theorem exists_step (q : Step) : ∃ dead', (b.step q).2.Stands g dead' := by
  rcases hb.step q with ⟨-, hb'⟩ | ⟨kind, n, e, -, -, -, hb'⟩
  · exact ⟨dead, hb'⟩
  · exact ⟨_, hb'⟩

variable (hwf : b.memos.Wf)

include hwf

theorem step_blames (q : Step) : (b.step q).1.Blames g := by
  intro kind n k hn hk
  have hchanges := step_changes hwf q
  have hbefore : n ∉ dead kind := mt (hb.begun_iff hn).2 (hchanges.not_begun_of_entered hwf hk)
  have hafter : ((b.step q).2.memos kind).Begun n := (hchanges.begun_iff hwf).2 (.inr ⟨k, hk⟩)
  -- begun only now, it is the symbol that the step left on the stack
  rcases hb.step q with ⟨-, hb'⟩ | ⟨kind', n', e, -, he, hreply, hb'⟩
  · exact absurd ((hb'.begun_iff hn).1 hafter) hbefore
  · have hmem := (hb'.begun_iff hn).1 hafter
    by_cases hk' : kind = kind'
    · subst hk'
      rw [Function.update_self] at hmem
      obtain rfl := List.mem_singleton.1 ((List.mem_append.1 hmem).resolve_left hbefore)
      exact ⟨e, he, hreply⟩
    · rw [Function.update_of_ne hk'] at hmem
      exact absurd hmem hbefore

/-- After any run the memos are steady above symbols without productions. -/
theorem run (qs : List Step) : (∃ dead', (b.run qs).2.Stands g dead') ∧
    ∀ o ∈ (b.run qs).1, o.Blames g := by
  induction qs generalizing b dead with
  | nil => exact ⟨⟨dead, hb⟩, by simp [Builder.run]⟩
  | cons q qs ih =>
    have hwf' := (step_changes hwf q).memos_wf hwf
    obtain ⟨dead', hb'⟩ := hb.exists_step q
    obtain ⟨hstands, hblames⟩ := ih hb' hwf'
    exact ⟨hstands, List.forall_mem_cons.2 ⟨hb.step_blames hwf q, hblames⟩⟩

end Stands

end Builder

/-! ### What is left between steps -/

/-- The question for one set. -/
def Step.about : SetKind → Symbol → Step
  | .first, n => .first n
  | .follow, n => .follow n

theorem Solve.ask_done {σ : Type} [Recorder σ] {eq : Equation σ} {s : Session σ} {A : SymbolSet}
    (h : s.memo.done.get? n = some A) (passes depth : Nat) :
    Solve.ask eq passes depth n s = (.ok ⟨A, .settled⟩, s) := by
  cases depth <;> rw [Solve.ask, consult_apply, h]

namespace Builder

/-- A finished set is given again, and nothing else happens. -/
theorem step_of_done {b : Builder} {A : SymbolSet} (h : (b.memos kind).done.get? n = some A) :
    b.step (.about kind n) = (⟨.ok (.set A), []⟩, b) := by
  cases kind with
  | first =>
    have hask : firstOf b.grammar b.budget n b.session.around = (.ok ⟨A, .settled⟩, _) :=
      Solve.ask_done h b.budget.passes b.budget.depth
    have hset : firstSet b.grammar b.budget n b.session = (.ok A, b.session) := by
      apply Solve.within_ok
      rw [Solve.bind_ok hask]
      rfl
    exact compute_ok hset
  | follow =>
    have hask : followOf b.grammar (b.grammar.occurrenceIndex b.every) b.budget n b.session =
        (.ok ⟨A, .settled⟩, _) := Solve.ask_done h b.budget.passes b.budget.depth
    have hset : followSet b.grammar (b.grammar.occurrenceIndex b.every) b.budget n b.session =
        (.ok A, b.session) := by
      rw [followSet, Solve.bind_ok hask]
      rfl
    exact compute_ok hset

/-- Between the steps of any run, failing ones included, each memo obeys its laws. Its finished sets
stay what they are and are given again with nothing else happening. Unfinished are exactly the
symbols without productions that were begun in it by a step that failed with their error, so none
if all questions were about keys. -/
theorem run_memo (g : Grammar) (every : Bool) (qs : List Step) (kind : SetKind) :
    (((new g every).run qs).2.memos kind).Wf ∧
    (((new g every).run qs).2.memos kind).group.Nodup ∧
    (∀ n A, (((new g every).run qs).2.memos kind).done.get? n = some A →
      (∀ qs' : List Step,
        ((((new g every).run qs).2.run qs').2.memos kind).done.get? n = some A) ∧
      ((new g every).run qs).2.step (.about kind n) =
        (⟨.ok (.set A), []⟩, ((new g every).run qs).2)) ∧
    (∀ n, n ∈ (((new g every).run qs).2.memos kind).group ↔ n ∉ g ∧
      ∃ o ∈ ((new g every).run qs).1, (∃ k, .entered kind n k ∈ o.events) ∧
        ∃ e, g.derivations n = .error e ∧ o.reply = .error e) ∧
    ((∀ q ∈ qs, q.AboutKeys g) → (((new g every).run qs).2.memos kind).group = [] ∧
      (((new g every).run qs).2.memos kind).unfinished = ∅) := by
  have hnew := memos_new_wf g every
  have hchanges := run_changes hnew qs
  have hwf := hchanges.memos_wf hnew
  obtain ⟨⟨dead, hb⟩, hblames⟩ := (stands_new g every).run hnew qs
  refine ⟨hwf.wf kind, (hwf.wf kind).nodup, fun n A hA => ⟨fun qs' => ?_, step_of_done hA⟩, ?_, ?_⟩
  · exact (run_changes hwf qs').done hwf hA
  · intro n
    rw [hb.group_eq kind]
    constructor
    · intro hn
      have hng := hb.not_mem hn
      rcases (hchanges.begun_iff hnew).1 ((hb.begun_iff hng).2 hn) with hold | ⟨k, hk⟩
      · exact absurd (((stands_new g every).begun_iff hng).1 hold) List.not_mem_nil
      · obtain ⟨o, ho, hk⟩ := List.mem_flatMap.1 hk
        exact ⟨hng, o, ho, ⟨k, hk⟩, hblames o ho kind n k hng hk⟩
    · rintro ⟨hng, o, ho, ⟨k, hk⟩, -⟩
      apply (hb.begun_iff hng).1
      exact (hchanges.begun_iff hnew).2 (.inr ⟨k, List.mem_flatMap.2 ⟨o, ho, hk⟩⟩)
  · intro hqs
    have hempty := (((steady_new g every).run hqs).1.session.idle kind).group_eq
    have hkeys := (hwf.wf kind).keys_eq.trans hempty
    exact ⟨hempty, Keyed.ext (List.map_eq_nil_iff.1 hkeys)⟩

theorem run_memo_entangled :
    (((new .entangled true).run [.first (.nonterminal "A"), .first (.nonterminal "Z")]).2.memos
      .first).done.get? (.nonterminal "A") = some {Symbol.epsilon} ∧
    ((new .entangled true).run [.first (.nonterminal "A"), .first (.nonterminal "Z")]).2.step
      (.first (.nonterminal "A")) = (⟨.ok (.set {Symbol.epsilon}), []⟩, ((new .entangled true).run
        [.first (.nonterminal "A"), .first (.nonterminal "Z")]).2) ∧
    (∀ q ∈ [Step.first (.nonterminal "A")], q.AboutKeys .entangled) ∧
    (((new .entangled true).run [.first (.nonterminal "A")]).2.memos .first).group = [] ∧
    (((new .entangled true).run [.first (.nonterminal "A")]).2.memos .first).unfinished = ∅ := by
  have hdone : (((new .entangled true).run
      [.first (.nonterminal "A"), .first (.nonterminal "Z")]).2.memos .first).done.get?
        (.nonterminal "A") = some {Symbol.epsilon} := by decide +kernel
  have hqs : ∀ q ∈ [Step.first (.nonterminal "A")], q.AboutKeys .entangled := by decide
  exact ⟨hdone, ((run_memo .entangled true _ .first).2.2.1 _ _ hdone).2, hqs,
    (run_memo .entangled true _ .first).2.2.2.2 hqs⟩

/-- A question about a symbol without productions leaves it on the stack. -/
example : (((new .entangled true).run [.first (.nonterminal "Z")]).2.memos .first).group =
    [.nonterminal "Z"] := by decide +kernel

end Builder

end FirstFollow
