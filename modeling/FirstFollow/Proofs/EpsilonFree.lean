import FirstFollow.Proofs.Changes

/-!
FOLLOW sets hold no `epsilon`. What is put into one is the end, what a suffix can begin with, less
`epsilon`, or another FOLLOW set. So nothing would change if `epsilon` were taken out again once all
parts of a set are found (`followOf_discarding`), and no state on the way to the answers has it in a
FOLLOW set (`Builder.run_follow_epsilonFree`).
-/

namespace FirstFollow

variable {σ α β : Type} {a n : Symbol}

/-! ### Memos -/

namespace Memo

variable {m : Memo} {A : SymbolSet}

/-- A memo that obeys its laws and has `a` in no set, finished or not. -/
structure FreeOf (a : Symbol) (m : Memo) : Prop where
  wf : m.Wf
  within : m.Within (⟨fun _ => True, fun _ => {a}ᶜ, nofun, nofun⟩ : Bounds Empty)

namespace FreeOf

theorem fresh (a : Symbol) (kind : SetKind) : (Memo.fresh kind).FreeOf a :=
  ⟨fresh_wf kind, fresh_within _ kind⟩

theorem start (h : m.FreeOf a) (hd : m.done.get? n = none) (hu : m.unfinished.get? n = none) :
    (m.start n).FreeOf a :=
  ⟨h.wf.start hd hu, h.within.start trivial⟩

theorem grow (h : m.FreeOf a) (n : Symbol) (hA : a ∉ A) : (m.grow n A).FreeOf a :=
  ⟨h.wf.grow n A, h.within.grow (Set.subset_compl_singleton_iff.2 hA)⟩

theorem close (h : m.FreeOf a) (mark : Nat) : (m.close mark).FreeOf a :=
  ⟨h.wf.close mark, h.within.close h.wf mark⟩

theorem not_holds (h : m.FreeOf a) (x : Symbol) : ¬ m.Holds x a := fun hx => h.within.holds hx rfl

theorem not_mem_done (h : m.FreeOf a) (hA : m.done.get? n = some A) : a ∉ A :=
  fun ha => h.not_holds n (.inl ⟨A, hA, ha⟩)

theorem not_mem_unfinished (h : m.FreeOf a) {u : Unfinished} (hu : m.unfinished.get? n = some u) :
    a ∉ u.part :=
  fun ha => h.not_holds n (.inr ⟨u, hu, ha⟩)

end FreeOf

/-- Takes a symbol out of an unfinished set. -/
def discard (m : Memo) (n a : Symbol) : Memo :=
  match m.unfinished.get? n with
  | none => m
  | some u => { m with unfinished := m.unfinished.set n ⟨u.number, u.part.erase a⟩ }

theorem FreeOf.discard_eq (h : m.FreeOf a) (n : Symbol) : m.discard n a = m := by
  unfold discard
  cases hu : m.unfinished.get? n with
  | none => rfl
  | some u =>
    simp only [OrderedSet.erase_eq_self (h.not_mem_unfinished hu), Keyed.set_of_get? hu]

end Memo

/-! ### Computations -/

/-- Two computations have come to the same. They have left a memo that is free of `a`, also where
they failed, and what they gave is in `Q`. -/
structure Solve.Spared (a : Symbol) (Q : α → Prop) (r r' : Except Error α × Session σ) :
    Prop where
  same : r' = r
  free : r.2.memo.FreeOf a
  result : ∀ v, r.1 = .ok v → Q v

/-- So it is wherever the memo is free of `a` before. -/
def Solve.Spares (a : Symbol) (Q : α → Prop) (x y : Solve σ α) : Prop :=
  ∀ s, s.memo.FreeOf a → Spared a Q (x s) (y s)

namespace Solve.Spares

variable {Q : α → Prop} {R : β → Prop}

theorem pure {v : α} (hv : Q v) : Spares a Q (pure v : Solve σ α) (pure v) := by
  intro s hs
  refine ⟨rfl, hs, fun w hw => ?_⟩
  cases hw
  exact hv

theorem throw (e : Error) : Spares a Q (throw e : Solve σ α) (throw e) :=
  fun _ hs => ⟨rfl, hs, nofun⟩

theorem bind {x y : Solve σ α} {f f' : α → Solve σ β} (hx : Spares a Q x y)
    (hf : ∀ v, Q v → Spares a R (f v) (f' v)) : Spares a R (x >>= f) (y >>= f') := by
  intro s hs
  obtain ⟨heq, hfree, hv⟩ := hx s hs
  rw [bind_apply, bind_apply, heq]
  rcases hrun : x s with ⟨_ | v, s'⟩
  · rw [hrun] at hfree
    exact ⟨rfl, hfree, nofun⟩
  · rw [hrun] at hfree hv
    exact hf v (hv v rfl) s' hfree

theorem memo : Spares a (fun _ => True) (memo : Solve σ Memo) memo :=
  fun _ hs => ⟨rfl, hs, fun _ _ => trivial⟩

theorem part (n : Symbol) : Spares a (a ∉ ·) (part n : Solve σ SymbolSet) (part n) := by
  intro s hs
  rw [part_apply]
  cases hA : s.memo.part? n with
  | none => exact ⟨rfl, hs, nofun⟩
  | some A =>
    obtain ⟨u, hu, rfl⟩ := Option.map_eq_some_iff.1 hA
    refine ⟨rfl, hs, fun C hC => ?_⟩
    cases hC
    exact hs.not_mem_unfinished hu

theorem doneSet (n : Symbol) : Spares a (a ∉ ·) (doneSet n : Solve σ SymbolSet) (doneSet n) := by
  intro s hs
  rw [doneSet_apply]
  cases hA : s.memo.done.get? n with
  | none => exact ⟨rfl, hs, nofun⟩
  | some A =>
    refine ⟨rfl, hs, fun C hC => ?_⟩
    cases hC
    exact hs.not_mem_done hA

theorem grow (n : Symbol) {A : SymbolSet} (hA : a ∉ A) :
    Spares a (fun _ => True) (grow n A : Solve σ Unit) (grow n A) :=
  fun _ hs => ⟨rfl, hs.grow n hA, fun _ _ => trivial⟩

theorem within (x : Solve σ α) :
    Spares a (fun _ => True) (within x : Solve (Session σ) α) (within x) :=
  fun _ hs => ⟨rfl, hs, fun _ _ => trivial⟩

theorem foldlM {f f' : β → α → Solve σ β} (hf : ∀ b x, R b → Spares a R (f b x) (f' b x))
    (xs : List α) {b : β} (hb : R b) : Spares a R (xs.foldlM f b) (xs.foldlM f' b) := by
  induction xs generalizing b with
  | nil => exact pure hb
  | cons x xs ih => exact bind (hf b x hb) fun _ hc => ih hc

variable [Recorder σ]

theorem record (e : SetKind → Event) :
    Spares a (fun _ => True) (record e : Solve σ Unit) (record e) :=
  fun _ hs => ⟨rfl, hs, fun _ _ => trivial⟩

theorem close (mark : Nat) :
    Spares a (fun _ => True) (close mark : Solve σ Unit) (close mark) := by
  intro s hs
  rw [close_apply hs.wf]
  exact ⟨rfl, hs.close mark, fun _ _ => trivial⟩

end Solve.Spares

/-! ### Equations -/

/-- Both ways to ask do the same and spare `a`. -/
def Ask.Spares (a : Symbol) (ask ask' : Ask σ) : Prop :=
  ∀ n, Solve.Spares a (fun r => a ∉ r.set) (ask n) (ask' n)

/-- Both equations do the same and spare `a` if that is true of what they ask for and of what is
done with the parts that they hand out. -/
def Equation.Spares (a : Symbol) (eq eq' : Equation σ) : Prop :=
  ∀ ⦃ask ask' : Ask σ⦄, ask.Spares a ask' → ∀ ⦃emit : SymbolSet → Solve σ Unit⦄,
    (∀ A, a ∉ A → Solve.Spares a (fun _ => True) (emit A) (emit A)) →
      Ask.Spares a (eq ask emit) (eq' ask' emit)

namespace Solve.Spares

variable [Recorder σ] {eq eq' : Equation σ} {ask ask' : Ask σ}

theorem recompute (heq : eq.Spares a eq') (hask : ask.Spares a ask') (first : Nat) (n : Symbol) :
    Spares a (fun _ => True) (recompute eq ask first n) (recompute eq' ask' first n) := by
  refine bind (heq hask (fun _ _ => pure trivial) n) fun answer hanswer => ?_
  refine bind (record _) fun _ _ => bind (part n) fun A _ => ?_
  split
  · exact pure trivial
  · exact bind (grow n hanswer) fun _ _ => pure trivial

theorem pass (heq : eq.Spares a eq') (hask : ask.Spares a ask') (first mark : Nat) :
    Spares a (fun _ => True) (pass eq ask first mark) (pass eq' ask' first mark) := by
  refine bind memo fun m _ => foldlM (fun grown n _ => ?_) _ trivial
  exact bind (recompute heq hask first n) fun _ _ => pure trivial

theorem settle (heq : eq.Spares a eq') (hask : ask.Spares a ask') (first mark passes : Nat) :
    Spares a (fun _ => True) (settle eq ask first mark passes)
      (settle eq' ask' first mark passes) := by
  induction passes with
  | zero => exact throw _
  | succ passes ih =>
    refine bind memo fun m _ => bind (pass heq hask first mark) fun grown _ => ?_
    refine bind memo fun m' _ => ?_
    split
    · exact ih
    · exact pure trivial

theorem enter (heq : eq.Spares a eq') (hask : ask.Spares a ask') (passes : Nat) {s : Session σ}
    (hs : s.memo.FreeOf a) (hd : s.memo.done.get? n = none) (hu : s.memo.unfinished.get? n = none) :
    Spared a (fun r => a ∉ r.set) (enter eq passes ask n s) (enter eq' passes ask' n s) := by
  have hclose : Spares a (fun r => a ∉ r.set) (do
      Solve.close s.memo.group.length
      return ⟨← Solve.doneSet n, .settled⟩ : Solve σ Answer) _ :=
    bind (close _) fun _ _ => bind (doneSet n) fun A hA => pure hA
  rw [Solve.enter, Solve.enter, bind_ok (memo_apply s), bind_ok (changeMemo_apply _ s),
    bind_ok (record_apply _ _), bind_ok (memo_apply s), bind_ok (changeMemo_apply _ s),
    bind_ok (record_apply _ _)]
  refine bind (heq hask (fun A hA => grow n hA) n) (fun answer hanswer => ?_) (s.start n)
    (hs.start hd hu)
  split
  · exact bind (part n) fun A hA => pure hA
  · refine bind memo fun m _ => ?_
    dsimp only
    split
    · refine bind (record _) fun _ _ => ?_
      exact bind (settle heq hask _ _ passes) fun _ _ => hclose
    · exact hclose

/-- A set that is begun is answered from the memo. -/
theorem consult {x y : Solve σ Answer} (henter : ∀ s : Session σ, s.memo.FreeOf a →
      s.memo.done.get? n = none → s.memo.unfinished.get? n = none →
        Spared a (fun r => a ∉ r.set) (x s) (y s)) :
    Spares a (fun r => a ∉ r.set) (consult n x) (consult n y) := by
  intro s hs
  rw [consult_apply, consult_apply]
  cases hd : s.memo.done.get? n with
  | some A =>
    refine ⟨rfl, hs, fun r hr => ?_⟩
    cases hr
    exact hs.not_mem_done hd
  | none =>
    cases hu : s.memo.unfinished.get? n with
    | some u =>
      refine ⟨rfl, hs, fun r hr => ?_⟩
      cases hr
      exact hs.not_mem_unfinished hu
    | none => exact henter s hs hd hu

end Solve.Spares

namespace Equation

/-- What an equation spares is in no set that is asked for. -/
theorem Spares.solve [Recorder σ] {eq eq' : Equation σ} (heq : eq.Spares a eq') (b : Budget) :
    Ask.Spares a (eq.solve b) (eq'.solve b) := by
  suffices hask : ∀ depth,
      Ask.Spares a (Solve.ask eq b.passes depth) (Solve.ask eq' b.passes depth) from hask b.depth
  intro depth
  induction depth with
  | zero => exact fun n => .consult fun s hs _ _ => Solve.Spares.throw _ s hs
  | succ depth ih =>
    exact fun n => .consult fun s hs hd hu => Solve.Spares.enter heq ih b.passes hs hd hu

/-- Takes `a` out of what is found in the end, in the memo and in the answer. -/
def discarding (a : Symbol) (eq : Equation σ) : Equation σ := fun ask emit n => do
  let answer ← eq ask emit n
  Solve.changeMemo (·.discard n a)
  return ⟨answer.set.erase a, answer.low⟩

theorem Spares.discarding {eq : Equation σ} (h : eq.Spares a eq) :
    eq.Spares a (eq.discarding a) := by
  intro ask ask' hask emit hemit n s hs
  obtain ⟨heq, hfree, hanswer⟩ := h hask hemit n s hs
  refine ⟨?_, hfree, hanswer⟩
  rw [Equation.discarding, Solve.bind_apply, heq]
  rcases hrun : eq ask emit n s with ⟨_ | answer, s'⟩
  · rfl
  · simp only [hrun] at hfree hanswer
    show (Except.ok (Answer.mk (answer.set.erase a) answer.low),
      { s' with memo := s'.memo.discard n a }) = _
    rw [OrderedSet.erase_eq_self (hanswer answer rfl), hfree.discard_eq]

end Equation

/-! ### FOLLOW -/

section

variable [Recorder σ] {g : Grammar} {index : Grammar.OccurrenceIndex} {b : Budget}

theorem Solve.Spares.followPart {ask ask' : Ask (Session σ)} (hask : ask.Spares .epsilon ask')
    {emit : SymbolSet → Solve (Session σ) Unit}
    (hemit : ∀ A, .epsilon ∉ A → Spares .epsilon (fun _ => True) (emit A) (emit A)) (n : Symbol)
    (o : Occurrence) : Spares .epsilon (fun r => .epsilon ∉ r.set) (followPart g b ask emit n o)
      (followPart g b ask' emit n o) := by
  have hproducer : Spares .epsilon (fun r => .epsilon ∉ r.set) (do
      let answer ← ask o.producer
      emit answer.set
      return answer) _ :=
    bind (hask o.producer) fun answer h => bind (hemit _ h) fun _ _ => pure h
  unfold FirstFollow.followPart
  split
  · split
    · exact pure (OrderedSet.not_mem_empty _)
    · exact hproducer
  · refine bind (within _) fun first _ => ?_
    have hfirst : .epsilon ∉ first.erase .epsilon := by simp
    refine bind (hemit _ hfirst) fun _ _ => ?_
    split
    next h => exact pure h
    next =>
      refine bind (hask o.producer) fun answer h => bind (hemit _ h) fun _ _ => pure ?_
      simpa [Answer.join] using h

/-- Nothing that the equation of FOLLOW finds is `epsilon`. -/
theorem followEquation_spares :
    (followEquation g index b : Equation (Session σ)).Spares .epsilon
      (followEquation g index b) := by
  intro ask ask' hask emit hemit n
  have hstart : .epsilon ∉
      (if n = g.startSymbol then ⟨{.endMarker}, .settled⟩ else ∅ : Answer).set := by
    split
    · simp
    · exact OrderedSet.not_mem_empty _
  refine .bind (hemit _ hstart) fun _ _ => ?_
  cases Grammar.lookup index n with
  | error e => exact .throw e
  | ok occurrences =>
    refine .foldlM (fun sum o hsum => ?_) occurrences hstart
    refine .bind (.followPart hask hemit n o) fun part hpart => .pure ?_
    simpa [Answer.join] using ⟨hsum, hpart⟩

/-- FOLLOW sets would be computed in the same way if `epsilon` were taken out in the end. -/
theorem followOf_discarding {s : Session (Session σ)} (hs : s.memo.FreeOf .epsilon) (n : Symbol) :
    ((followEquation g index b).discarding .epsilon).solve b n s = followOf g index b n s :=
  (followEquation_spares.discarding.solve b n s hs).1

end

/-! ### Builders -/

namespace Builder

variable {b : Builder}

theorem step_follow_freeOf (hb : b.follow.FreeOf .epsilon) (q : Step) :
    (b.step q).2.follow.FreeOf .epsilon := by
  cases q with
  | first | sequence | every => exact hb
  | follow n =>
    have hspares : Solve.Spares .epsilon (fun _ => True)
        (followSet b.grammar (b.grammar.occurrenceIndex b.every) b.budget n) _ :=
      .bind (followEquation_spares.solve b.budget n) fun _ _ => .pure trivial
    exact (hspares b.session hb).free

theorem run_follow_freeOf (hb : b.follow.FreeOf .epsilon) (qs : List Step) :
    (b.run qs).2.follow.FreeOf .epsilon := by
  induction qs generalizing b with
  | nil => exact hb
  | cons q qs ih => exact ih (step_follow_freeOf hb q)

/-- Whatever a builder is asked, also where it fails, no FOLLOW set holds `epsilon` in any state on
the way, and no part and no finished set that an event shows does. -/
theorem run_follow_epsilonFree (g : Grammar) (every : Bool) (qs : List Step) :
    (∀ es es' ms, (new g every).memos.Changes es ms →
      ms.Changes es' ((new g every).run qs).2.memos → ∀ x, ¬ (ms .follow).Holds x .epsilon) ∧
    ∀ o ∈ ((new g every).run qs).1, ∀ x (A : SymbolSet),
      .reentered .follow x A ∈ o.events ∨ .completed .follow x A ∈ o.events → .epsilon ∉ A := by
  have hnew := memos_new_wf g every
  have hfree := run_follow_freeOf (b := new g every) (.fresh .epsilon .follow) qs
  have hchanges := run_changes hnew qs
  refine ⟨fun es es' ms hbefore hafter x hx => ?_, fun o ho x A hA ha => ?_⟩
  · exact hfree.not_holds x (hafter.holds (hbefore.memos_wf hnew) hx)
  · rcases hA with hA | hA
    · exact hfree.not_holds x
        (hchanges.holds_of_reentered hnew (List.mem_flatMap.2 ⟨o, ho, hA⟩) _ ha)
    · exact hfree.not_mem_done
        (hchanges.done_of_completed hnew (List.mem_flatMap.2 ⟨o, ho, hA⟩)) ha

end Builder

end FirstFollow
