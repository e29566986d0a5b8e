import FirstFollow.Proofs.Total
import FirstFollow.Builder

/-!
The single changes that computations make to a memo, and the events that go with them. All that a
computation does to its session, also one that fails midway, is a sequence of such changes
(`Solve.ask_moves`, `Builder.step_changes`), so what each change preserves holds in every state that
a builder reaches.
-/

namespace FirstFollow

/-- The kind of sets that an event tells of. -/
def Event.kind? : Event → Option SetKind
  | reentered kind _ _ | settling kind _ | completed kind _ _ | entered kind _ _
  | recomputed kind _ _ _ | closed kind _ => some kind
  | grammarMade _ _ | tableBegun _ | tableComplete => none

namespace Memo

variable {m m' : Memo} {n x a : Symbol} {A : SymbolSet} {es : List Event}

/-- The events of closing the group above `mark`. -/
def closing (m : Memo) (mark : Nat) : List Event :=
  .closed m.kind (m.group.drop mark) ::
    (m.group.drop mark).filterMap fun n => (m.part? n).map (.completed m.kind n)

/-- A single change of a memo, with the events that are taken down. -/
inductive Change (m : Memo) : List Event → Memo → Prop
  | start {n : Symbol} : m.done.get? n = none → m.unfinished.get? n = none →
      Change m [.entered m.kind n m.count] (m.start n)
  | grow (n : Symbol) (A : SymbolSet) : Change m [] (m.grow n A)
  | reentered {n : Symbol} {u : Unfinished} : m.unfinished.get? n = some u →
      Change m [.reentered m.kind n u.part] m
  | settling (size : Nat) : Change m [.settling m.kind size] m
  | recomputed (first : Nat) (n : Symbol) (low : Low) :
      Change m [.recomputed m.kind first n low] m
  | close (mark : Nat) : Change m (m.closing mark) (m.close mark)

/-! ### What a change preserves -/

namespace Change

theorem kind_eq (h : m.Change es m') : m'.kind = m.kind := by
  cases h with
  | grow n A => exact grow_kind m n A
  | close mark => exact close_kind m mark
  | _ => rfl

theorem wf (h : m.Change es m') (hm : m.Wf) : m'.Wf := by
  cases h with
  | start hd hu => exact hm.start hd hu
  | grow n A => exact hm.grow n A
  | close mark => exact hm.close mark
  | reentered | settling | recomputed => exact hm

/-- Finished sets stay as they are. -/
theorem done (h : m.Change es m') (hm : m.Wf) (hA : m.done.get? x = some A) :
    m'.done.get? x = some A := by
  cases h with
  | grow n B => rwa [grow_done]
  | close mark => exact hm.close_done_of_done hA
  | start | reentered | settling | recomputed => exact hA

theorem events_kind (h : m.Change es m') : ∀ e ∈ es, e.kind? = some m.kind := by
  cases h with
  | close mark =>
    intro e he
    rcases List.mem_cons.1 he with rfl | he
    · rfl
    · obtain ⟨n, -, hn⟩ := List.mem_filterMap.1 he
      obtain ⟨A, -, rfl⟩ := Option.map_eq_some_iff.1 hn
      rfl
  | start | grow | reentered | settling | recomputed => simp [Event.kind?]

end Change

theorem begun_start_iff : (m.start n).Begun x ↔ m.Begun x ∨ x = n := by
  simp only [Begun, start_done, get?_start]
  by_cases h : x = n
  · simp [h]
  · simp [h]

theorem begun_grow_iff : (m.grow n A).Begun x ↔ m.Begun x := by
  simp only [Begun, grow_done, get?_grow]
  cases m.unfinished.get? x <;> simp

theorem Wf.begun_close_iff (hm : m.Wf) (mark : Nat) : (m.close mark).Begun x ↔ m.Begun x := by
  simp only [Begun, hm.close_done, hm.close_unfinished]
  by_cases hx : x ∈ m.group.drop mark
  · obtain ⟨u, hu⟩ := hm.mem_drop x hx
    simp [hx, part?, hu]
  · simp [hx]

/-- Nothing that a set has been found to hold is lost. -/
theorem Change.holds (h : m.Change es m') (hm : m.Wf) (hx : m.Holds x a) : m'.Holds x a := by
  cases h with
  | start hd hu => exact (Extends.start hu).holds hx
  | grow n A => exact (Extends.grow m n A).holds hx
  | reentered | settling | recomputed => exact hx
  | close mark =>
    rcases hx with ⟨A, hA, ha⟩ | ⟨u, hu, ha⟩
    · exact .inl ⟨A, hm.close_done_of_done hA, ha⟩
    · by_cases hmem : x ∈ m.group.drop mark
      · exact .inl ⟨u.part, by rw [hm.close_done, if_pos hmem, part?, hu]; rfl, ha⟩
      · exact .inr ⟨u, by rw [hm.close_unfinished, if_neg hmem, hu], ha⟩

/-! ### What events tell -/

/-- Since the memo was `m₀`, the events `es` told what was newly begun, and no set that they show
was ever larger than it is now. -/
structure Recounted (m₀ : Memo) (es : List Event) (m : Memo) : Prop where
  begun : ∀ x, m.Begun x ↔ m₀.Begun x ∨ ∃ k, .entered m.kind x k ∈ es
  fresh : ∀ x k, .entered m.kind x k ∈ es → ¬ m₀.Begun x
  reentered : ∀ x P, .reentered m.kind x P ∈ es → ∀ a ∈ P, m.Holds x a
  completed : ∀ x A, .completed m.kind x A ∈ es → m.done.get? x = some A

theorem Recounted.refl (m : Memo) : m.Recounted [] m where
  begun := by simp
  fresh := by simp
  reentered := by simp
  completed := by simp

/-- Events of other kinds tell nothing of a memo. -/
theorem Recounted.append_other {m₀ : Memo} (h : m₀.Recounted es m) {es' : List Event}
    (hes' : ∀ e ∈ es', e.kind? ≠ some m.kind) : m₀.Recounted (es ++ es') m := by
  have hmem : ∀ e : Event, e.kind? = some m.kind → (e ∈ es ++ es' ↔ e ∈ es) := by
    intro e he
    rw [List.mem_append, or_iff_left]
    exact fun he' => hes' e he' he
  constructor
  · intro x
    rw [h.begun x]
    exact or_congr_right (exists_congr fun k => (hmem _ rfl).symm)
  · exact fun x k hk => h.fresh x k ((hmem _ rfl).1 hk)
  · exact fun x P hP => h.reentered x P ((hmem _ rfl).1 hP)
  · exact fun x A hA => h.completed x A ((hmem _ rfl).1 hA)

theorem Recounted.change {m₀ : Memo} (h : m₀.Recounted es m) (hm : m.Wf) {es' : List Event}
    (hc : m.Change es' m') : m₀.Recounted (es ++ es') m' where
  begun := by
    intro x
    rw [hc.kind_eq]
    simp only [List.mem_append, exists_or, ← or_assoc, ← h.begun x]
    cases hc with
    | start hd hu => simp [begun_start_iff]
    | grow n A => simp [begun_grow_iff]
    | close mark => simp [hm.begun_close_iff, closing]
    | reentered | settling | recomputed => simp
  fresh := by
    intro x k hk
    rw [hc.kind_eq] at hk
    rcases List.mem_append.1 hk with hk | hk
    · exact h.fresh x k hk
    · cases hc with
      | start hd hu =>
        simp only [List.mem_singleton, Event.entered.injEq, true_and] at hk
        obtain ⟨rfl, -⟩ := hk
        exact fun hbegun => not_begun hd hu ((h.begun x).2 (.inl hbegun))
      | close mark => simp [closing] at hk
      | grow | reentered | settling | recomputed => simp at hk
  reentered := by
    intro x P hP a ha
    rw [hc.kind_eq] at hP
    rcases List.mem_append.1 hP with hP | hP
    · exact hc.holds hm (h.reentered x P hP a ha)
    · cases hc with
      | reentered hu =>
        simp only [List.mem_singleton, Event.reentered.injEq, true_and] at hP
        obtain ⟨rfl, rfl⟩ := hP
        exact .inr ⟨_, hu, ha⟩
      | close mark => simp [closing] at hP
      | start | grow | settling | recomputed => simp at hP
  completed := by
    intro x A hA
    rw [hc.kind_eq] at hA
    rcases List.mem_append.1 hA with hA | hA
    · exact hc.done hm (h.completed x A hA)
    · cases hc with
      | close mark =>
        simp only [closing, List.mem_cons, reduceCtorEq, false_or, List.mem_filterMap,
          Option.map_eq_some_iff, Event.completed.injEq, true_and] at hA
        obtain ⟨n, hn, B, hB, rfl, rfl⟩ := hA
        rw [hm.close_done, if_pos hn, hB]
      | start | grow | reentered | settling | recomputed => simp at hA

end Memo

/-! ### Computations move by changes -/

/-- Takes down events in their order. -/
def Recorder.recordAll {σ : Type} [Recorder σ] (es : List Event) (a : σ) : σ :=
  es.foldl (fun a e => Recorder.record e a) a

/-- A preorder on sessions that has all changes of the memo and keeps sessions good. -/
structure Solve.HasChanges {σ : Type} [Recorder σ] (Good : Session σ → Prop)
    (Reach : Session σ → Session σ → Prop) : Prop where
  refl : ∀ s, Reach s s
  trans : ∀ {s s' s''}, Reach s s' → Reach s' s'' → Reach s s''
  change : ∀ {s es m}, s.memo.Change es m → Reach s ⟨m, Recorder.recordAll es s.around⟩
  keeps : ∀ {s s'}, Reach s s' → Good s → Good s'
  wf : ∀ {s}, Good s → s.memo.Wf

namespace Solve

variable {ι σ α β : Type} [Recorder σ] {Good : Session σ → Prop}
  {Reach : Session σ → Session σ → Prop}

/-- Whatever `x` comes to, it moves within `Reach`. -/
def Moves (Good : Session σ → Prop) (Reach : Session σ → Session σ → Prop) (x : Solve σ α) :
    Prop :=
  ∀ s, Good s → Reach s (x s).2

theorem finishOne_around {ns : List Symbol} (hns : ns.Nodup) {s s' : Session σ}
    (h : ns.forM finishOne s = (.ok (), s')) : s'.around = Recorder.recordAll
      (ns.filterMap fun n => (s.memo.part? n).map (.completed s.memo.kind n)) s.around := by
  induction ns generalizing s with
  | nil =>
    cases h
    rfl
  | cons n ns ih =>
    obtain ⟨hn, hns⟩ := List.nodup_cons.1 hns
    rw [List.forM_eq_forM, List.forM_cons] at h
    cases hp : s.memo.part? n with
    | none =>
      rw [bind_apply, finishOne_error hp] at h
      cases h
    | some A =>
      obtain ⟨u, hu, rfl⟩ := Option.map_eq_some_iff.1 hp
      rw [bind_ok (finishOne_apply hp)] at h
      have hrest : ∀ x ∈ ns, (s.memo.finish n).part? x = s.memo.part? x := by
        intro x hx
        have hxn : x ≠ n := fun e => hn (e ▸ hx)
        rw [Memo.part?, (Memo.finish_get? hu x).1, if_neg hxn, Memo.part?]
      have hnext := ih hns h
      simp only [Session.note_memo, Memo.finish_kind] at hnext
      rw [hnext, List.filterMap_cons, hp, List.filterMap_congr fun x hx => by rw [hrest x hx]]
      simp [Recorder.recordAll, Session.note]

/-- Closing the top of a memo is a single change. -/
theorem close_apply {s : Session σ} (h : s.memo.Wf) (mark : Nat) : close mark s =
    (.ok (), ⟨s.memo.close mark, Recorder.recordAll (s.memo.closing mark) s.around⟩) := by
  obtain ⟨s', hs'⟩ := close_ok h mark
  have haround := hs'
  rw [close_eq] at haround
  rw [hs']
  congr 1
  have hmemo := (close_memo hs').1
  have hrec := finishOne_around h.nodup_drop haround
  cases s' with
  | mk memo around =>
    simp only at hmemo hrec
    rw [hmemo, hrec]
    rfl

variable (hR : HasChanges Good Reach)

include hR

namespace HasChanges

theorem pure (a : α) : Moves Good Reach (pure a : Solve σ α) := fun s _ => hR.refl s

theorem throw (e : Error) : Moves Good Reach (throw e : Solve σ α) := fun s _ => hR.refl s

theorem bind {x : Solve σ α} {f : α → Solve σ β} (hx : Moves Good Reach x)
    (hf : ∀ a, Moves Good Reach (f a)) : Moves Good Reach (x >>= f) := by
  intro s hs
  have hmove := hx s hs
  rw [bind_apply]
  rcases hrun : x s with ⟨_ | a, s'⟩
  · simpa only [hrun] using hmove
  · rw [hrun] at hmove
    exact hR.trans hmove (hf a s' (hR.keeps hmove hs))

theorem memo : Moves Good Reach (memo : Solve σ Memo) := fun s _ => hR.refl s

theorem part (n : Symbol) : Moves Good Reach (part n : Solve σ SymbolSet) := by
  intro s _
  rw [part_apply]
  cases s.memo.part? n <;> exact hR.refl s

theorem doneSet (n : Symbol) : Moves Good Reach (doneSet n : Solve σ SymbolSet) := by
  intro s _
  rw [doneSet_apply]
  cases s.memo.done.get? n <;> exact hR.refl s

theorem grow (n : Symbol) (A : SymbolSet) : Moves Good Reach (grow n A : Solve σ Unit) :=
  fun _ _ => hR.change (.grow n A)

theorem close (mark : Nat) : Moves Good Reach (close mark : Solve σ Unit) := by
  intro s hs
  rw [close_apply (hR.wf hs)]
  exact hR.change (.close mark)

theorem foldlM {f : β → α → Solve σ β} (hf : ∀ b a, Moves Good Reach (f b a)) (as : List α)
    (b : β) : Moves Good Reach (as.foldlM f b) := by
  induction as generalizing b with
  | nil => exact hR.pure b
  | cons a as ih => exact hR.bind (hf b a) ih

theorem mapM {f : α → Solve σ β} (hf : ∀ a, Moves Good Reach (f a)) (as : List α) :
    Moves Good Reach (as.mapM f) := by
  induction as with
  | nil => exact hR.pure []
  | cons a as ih =>
    rw [List.mapM_cons]
    exact hR.bind (hf a) fun b => hR.bind ih fun bs => hR.pure _

end HasChanges

variable {call : ι → Solve σ SymbolSet} {script : Symbol → Script ι} {ask : Ask σ}

theorem play_moves (hcall : ∀ i, Moves Good Reach (call i)) (hask : ∀ n, Moves Good Reach (ask n))
    {emit : SymbolSet → Solve σ Unit} (hemit : ∀ A, Moves Good Reach (emit A)) (p : Script ι)
    (sum : Answer) : Moves Good Reach (p.play call ask emit sum) := by
  induction p generalizing sum with
  | done => exact hR.pure sum
  | fail e => exact hR.throw e
  | emit A p ih => exact hR.bind (hemit A) fun _ => ih _
  | ask n k ih => exact hR.bind (hask n) fun a => ih _ _
  | call i k ih => exact hR.bind (hcall i) fun A => ih _ _

theorem recompute_moves (hcall : ∀ i, Moves Good Reach (call i))
    (hask : ∀ n, Moves Good Reach (ask n)) (first : Nat) (n : Symbol) :
    Moves Good Reach (recompute (Script.equation call script) ask first n) := by
  refine hR.bind (play_moves hR hcall hask (fun _ => hR.pure ()) _ _) fun answer => ?_
  refine hR.bind (fun s _ => hR.change (.recomputed first n answer.low)) fun _ => ?_
  refine hR.bind (hR.part n) fun A => ?_
  split
  · exact hR.pure false
  · exact hR.bind (hR.grow n answer.set) fun _ => hR.pure true

theorem pass_moves (hcall : ∀ i, Moves Good Reach (call i)) (hask : ∀ n, Moves Good Reach (ask n))
    (first mark : Nat) : Moves Good Reach (pass (Script.equation call script) ask first mark) := by
  refine hR.bind hR.memo fun m => hR.foldlM (fun grown n => ?_) _ _
  exact hR.bind (recompute_moves hR hcall hask first n) fun g => hR.pure _

theorem settle_moves (hcall : ∀ i, Moves Good Reach (call i)) (hask : ∀ n, Moves Good Reach (ask n))
    (first mark passes : Nat) :
    Moves Good Reach (settle (Script.equation call script) ask first mark passes) := by
  induction passes with
  | zero => exact hR.throw _
  | succ passes ih =>
    refine hR.bind hR.memo fun m => hR.bind (pass_moves hR hcall hask first mark) fun grown => ?_
    refine hR.bind hR.memo fun m' => ?_
    split
    · exact ih
    · exact hR.pure ()

theorem enter_moves (hcall : ∀ i, Moves Good Reach (call i)) (hask : ∀ n, Moves Good Reach (ask n))
    (passes : Nat) {n : Symbol} {s : Session σ} (hs : Good s) (hd : s.memo.done.get? n = none)
    (hu : s.memo.unfinished.get? n = none) :
    Reach s (enter (Script.equation call script) passes ask n s).2 := by
  have hstart : Reach s (s.start n) := hR.change (.start hd hu)
  have hclose : Moves Good Reach
      (close s.memo.group.length >>= fun _ => doneSet n >>= fun A => pure (Answer.mk A .settled)) :=
    hR.bind (hR.close _) fun _ => hR.bind (hR.doneSet n) fun A => hR.pure _
  rw [enter, bind_ok (memo_apply s), bind_ok (changeMemo_apply _ s), bind_ok (record_apply _ _)]
  refine hR.trans hstart (hR.bind (x := Script.equation call script ask (grow n) n)
    (play_moves hR hcall hask (hR.grow n) _ _) (fun answer => ?_) (s.start n) (hR.keeps hstart hs))
  split
  · exact hR.bind (hR.part n) fun A => hR.pure _
  · refine hR.bind hR.memo fun m => ?_
    dsimp only
    split
    · refine hR.bind (fun s _ => hR.change (.settling _)) fun _ => ?_
      exact hR.bind (settle_moves hR hcall hask _ _ passes) fun _ => hclose
    · exact hclose

/-- Asking moves by changes, also where it fails. -/
theorem ask_moves (hcall : ∀ i, Moves Good Reach (call i)) (passes depth : Nat) (n : Symbol) :
    Moves Good Reach (Solve.ask (Script.equation call script) passes depth n) := by
  induction depth generalizing n with
  | zero =>
    intro s _
    rw [Solve.ask, consult_apply]
    cases s.memo.done.get? n with
    | some A => exact hR.refl s
    | none =>
      cases hu : s.memo.unfinished.get? n with
      | some u => exact hR.change (.reentered hu)
      | none => exact hR.refl s
  | succ depth ih =>
    intro s hs
    rw [Solve.ask, consult_apply]
    cases hd : s.memo.done.get? n with
    | some A => exact hR.refl s
    | none =>
      cases hu : s.memo.unfinished.get? n with
      | some u => exact hR.change (.reentered hu)
      | none => exact enter_moves hR hcall ih passes hs hd hu

theorem scan_moves (hask : ∀ n, Moves Good Reach (ask n)) (d : Derivation) :
    Moves Good Reach (scan ask d) := by
  induction d with
  | nil => exact hR.pure _
  | cons s rest ih =>
    cases s with
    | nonterminal name =>
      refine hR.bind (hask _) fun head => ?_
      split
      · exact hR.bind ih fun tail => hR.pure _
      · exact hR.pure _
    | _ => exact hR.pure _

end Solve

/-! ### Both memos -/

/-- The memo of each kind. -/
abbrev Memos := SetKind → Memo

namespace Memos

def of (first follow : Memo) : Memos
  | .first => first
  | .follow => follow

/-- Both memos obey their laws, each under its own kind. -/
structure Wf (ms : Memos) : Prop where
  wf : ∀ kind, (ms kind).Wf
  kind_eq : ∀ kind, (ms kind).kind = kind

/-- Memos that move by changes of either of them. -/
inductive Changes (ms : Memos) : List Event → Memos → Prop
  | refl : Changes ms [] ms
  | step {es es' : List Event} {ms' : Memos} {m : Memo} (kind : SetKind) : Changes ms es ms' →
      (ms' kind).Change es' m → Changes ms (es ++ es') (Function.update ms' kind m)

variable {ms ms' ms'' : Memos} {es es' : List Event}

theorem Changes.trans (h : ms.Changes es ms') (h' : ms'.Changes es' ms'') :
    ms.Changes (es ++ es') ms'' := by
  induction h' with
  | refl => simpa using h
  | step kind _ hc ih =>
    rw [← List.append_assoc]
    exact ih.step kind hc

/-- What a single change of a memo preserves is preserved throughout. -/
theorem Changes.preserves (h : ms.Changes es ms') {kind : SetKind} {P : Memo → Prop}
    (hP : ∀ m es m', P m → m.Change es m' → P m') (hms : P (ms kind)) : P (ms' kind) := by
  induction h with
  | refl => exact hms
  | @step es es' ms' m k _ hc ih =>
    by_cases hk : kind = k
    · subst hk
      rw [Function.update_self]
      exact hP _ _ _ ih hc
    · rwa [Function.update_of_ne hk]

theorem Changes.wf (h : ms.Changes es ms') (kind : SetKind) (hms : (ms kind).Wf) :
    (ms' kind).Wf :=
  h.preserves (fun _ _ _ hm hc => hc.wf hm) hms

theorem Changes.memos_wf (h : ms.Changes es ms') (hms : ms.Wf) : ms'.Wf where
  wf kind := h.wf kind (hms.wf kind)
  kind_eq kind := h.preserves (P := fun m => m.kind = kind)
    (fun _ _ _ hm hc => hc.kind_eq.trans hm) (hms.kind_eq kind)

/-- The events of a sequence of changes tell of both memos. -/
theorem Changes.recounted (h : ms.Changes es ms') (hms : ms.Wf) (kind : SetKind) :
    (ms kind).Recounted es (ms' kind) := by
  induction h with
  | refl => exact .refl _
  | @step es es' ms' m k h hc ih =>
    have hms' := h.memos_wf hms
    by_cases hk : kind = k
    · subst hk
      rw [Function.update_self]
      exact ih.change (hms'.wf kind) hc
    · rw [Function.update_of_ne hk]
      refine ih.append_other fun e he => ?_
      rw [hc.events_kind e he, hms'.kind_eq, hms'.kind_eq]
      simpa using Ne.symm hk

namespace Changes

variable (h : ms.Changes es ms') (hms : ms.Wf) {kind : SetKind} {x : Symbol} {A : SymbolSet}

include h hms

/-- Finished sets stay as they are. -/
theorem done (hA : (ms kind).done.get? x = some A) : (ms' kind).done.get? x = some A :=
  (h.preserves (P := fun m => m.Wf ∧ m.done.get? x = some A)
    (fun _ _ _ hm hc => ⟨hc.wf hm.1, hc.done hm.1 hm.2⟩) ⟨hms.wf kind, hA⟩).2

/-- Nothing that a set has been found to hold is lost. -/
theorem holds {a : Symbol} (hx : (ms kind).Holds x a) : (ms' kind).Holds x a :=
  (h.preserves (P := fun m => m.Wf ∧ m.Holds x a)
    (fun _ _ _ hm hc => ⟨hc.wf hm.1, hc.holds hm.1 hm.2⟩) ⟨hms.wf kind, hx⟩).2

theorem begun_iff :
    (ms' kind).Begun x ↔ (ms kind).Begun x ∨ ∃ k, .entered kind x k ∈ es := by
  have hbegun := (h.recounted hms kind).begun x
  rwa [(h.memos_wf hms).kind_eq] at hbegun

theorem not_begun_of_entered {k : Nat} (hk : .entered kind x k ∈ es) : ¬ (ms kind).Begun x := by
  rw [← (h.memos_wf hms).kind_eq kind] at hk
  exact (h.recounted hms kind).fresh x k hk

theorem holds_of_reentered (hA : .reentered kind x A ∈ es) : ∀ a ∈ A, (ms' kind).Holds x a := by
  rw [← (h.memos_wf hms).kind_eq kind] at hA
  exact (h.recounted hms kind).reentered x A hA

theorem done_of_completed (hA : .completed kind x A ∈ es) : (ms' kind).done.get? x = some A := by
  rw [← (h.memos_wf hms).kind_eq kind] at hA
  exact (h.recounted hms kind).completed x A hA

end Changes

theorem update_first (first follow m : Memo) :
    Function.update (of first follow) .first m = of m follow := by
  funext kind
  cases kind <;> rfl

theorem update_follow (first follow m : Memo) :
    Function.update (of first follow) .follow m = of first m := by
  funext kind
  cases kind <;> rfl

end Memos

/-! ### Steps of a builder -/

theorem Trace.events_recordAll (es : List Event) (t : Trace) :
    Trace.events (Recorder.recordAll es t) = t.events ++ es := by
  induction es generalizing t with
  | nil => simp [Recorder.recordAll]
  | cons e es ih =>
    show Trace.events (Recorder.recordAll es (t.push e)) = _
    rw [ih, events_push, List.append_assoc]
    rfl

theorem Session.recordAll_eq {σ : Type} [Recorder σ] (es : List Event) (s : Session σ) :
    Recorder.recordAll es s = ⟨s.memo, Recorder.recordAll es s.around⟩ := by
  induction es generalizing s with
  | nil => rfl
  | cons e es ih => exact ih { s with around := Recorder.record e s.around }

/-- The memo of FIRST sets moves by changes, whatever the other memo. -/
def FirstMove (s s' : Session Trace) : Prop :=
  ∃ es, s'.around.events = s.around.events ++ es ∧
    ∀ follow, (Memos.of s.memo follow).Changes es (Memos.of s'.memo follow)

theorem firstMove_hasChanges : Solve.HasChanges (fun s => s.memo.Wf) FirstMove where
  refl _ := ⟨[], by simp, fun _ => .refl⟩
  trans := by
    rintro s s' s'' ⟨es, he, hc⟩ ⟨es', he', hc'⟩
    exact ⟨es ++ es', by rw [he', he, List.append_assoc], fun follow =>
      (hc follow).trans (hc' follow)⟩
  change := by
    intro s es m hc
    refine ⟨es, Trace.events_recordAll es s.around, fun follow => ?_⟩
    rw [← Memos.update_first s.memo follow m]
    exact .step .first .refl hc
  keeps := by
    rintro s s' ⟨es, -, hc⟩ hs
    exact (hc (.fresh .follow)).wf .first hs
  wf := id

/-- Both memos move by changes. -/
def BothMove (s s' : Session (Session Trace)) : Prop :=
  ∃ es, s'.around.around.events = s.around.around.events ++ es ∧
    (Memos.of s.around.memo s.memo).Changes es (Memos.of s'.around.memo s'.memo)

theorem bothMove_hasChanges :
    Solve.HasChanges (fun s => s.memo.Wf ∧ s.around.memo.Wf) BothMove where
  refl _ := ⟨[], by simp, .refl⟩
  trans := by
    rintro s s' s'' ⟨es, he, hc⟩ ⟨es', he', hc'⟩
    exact ⟨es ++ es', by rw [he', he, List.append_assoc], hc.trans hc'⟩
  change := by
    intro s es m hc
    rw [Session.recordAll_eq]
    refine ⟨es, Trace.events_recordAll es s.around.around, ?_⟩
    rw [← Memos.update_follow s.around.memo s.memo m]
    exact .step .follow .refl hc
  keeps := by
    rintro s s' ⟨es, -, hc⟩ ⟨hs, hs₁⟩
    exact ⟨hc.wf .follow hs, hc.wf .first hs₁⟩
  wf := And.left

theorem Solve.within_moves {α : Type} {x : Solve Trace α}
    (hx : Solve.Moves (fun s => s.memo.Wf) FirstMove x) :
    Solve.Moves (fun s => s.memo.Wf ∧ s.around.memo.Wf) BothMove (Solve.within x) := by
  intro s hs
  obtain ⟨es, he, hc⟩ := hx s.around hs.2
  exact ⟨es, he, hc s.memo⟩

section

variable {g : Grammar} {index : Grammar.OccurrenceIndex} {b : Budget}
  {Good : Session Trace → Prop} {Reach : Session Trace → Session Trace → Prop}

theorem firstOf_moves (hR : Solve.HasChanges Good Reach) (n : Symbol) :
    Solve.Moves Good Reach (firstOf g b n) := by
  rw [firstOf, firstEquation_eq]
  exact Solve.ask_moves hR nofun b.passes b.depth n

theorem firstOfSequence_moves (hR : Solve.HasChanges Good Reach) (d : Derivation) :
    Solve.Moves Good Reach (firstOfSequence g b d) :=
  hR.bind (Solve.scan_moves hR (firstOf_moves hR) d) fun _ => hR.pure _

theorem followOf_moves (n : Symbol) :
    Solve.Moves (fun s => s.memo.Wf ∧ s.around.memo.Wf) BothMove (followOf g index b n) := by
  rw [followOf, followEquation_eq]
  exact Solve.ask_moves bothMove_hasChanges
    (fun d => Solve.within_moves (firstOfSequence_moves firstMove_hasChanges d)) b.passes b.depth n

end

namespace Builder

/-- The memos of a builder. -/
def memos (b : Builder) : Memos := .of b.first b.follow

theorem firstSet_moves (g : Grammar) (c : Budget) (n : Symbol) :
    Solve.Moves (fun s => s.memo.Wf ∧ s.around.memo.Wf) BothMove (firstSet g c n) :=
  Solve.within_moves <| firstMove_hasChanges.bind (firstOf_moves firstMove_hasChanges n) fun _ =>
    firstMove_hasChanges.pure _

theorem followSet_moves (g : Grammar) (index : Grammar.OccurrenceIndex) (c : Budget) (n : Symbol) :
    Solve.Moves (fun s => s.memo.Wf ∧ s.around.memo.Wf) BothMove (followSet g index c n) :=
  bothMove_hasChanges.bind (followOf_moves n) fun _ => bothMove_hasChanges.pure _

theorem compute_changes {b : Builder} (hb : b.memos.Wf) {x : Compute SymbolSet}
    (hx : Solve.Moves (fun s => s.memo.Wf ∧ s.around.memo.Wf) BothMove x) :
    b.memos.Changes (b.compute x).1.events (b.compute x).2.memos := by
  obtain ⟨es, he, hc⟩ := hx b.session ⟨hb.wf .follow, hb.wf .first⟩
  have hevents : (b.compute x).1.events = es := he
  rw [hevents]
  exact hc

/-- A step of a builder, whether it succeeds or fails, moves the memos by changes, and its events
are those that go with the changes. -/
theorem step_changes {b : Builder} (hb : b.memos.Wf) (q : Step) :
    b.memos.Changes (b.step q).1.events (b.step q).2.memos := by
  cases q with
  | first n => exact compute_changes hb (firstSet_moves _ _ n)
  | follow n => exact compute_changes hb (followSet_moves _ _ _ n)
  | sequence d =>
    exact compute_changes hb (Solve.within_moves (firstOfSequence_moves firstMove_hasChanges d))
  | every value => exact .refl

/-- So does a run, the events of its steps in their order. -/
theorem run_changes {b : Builder} (hb : b.memos.Wf) (qs : List Step) :
    b.memos.Changes ((b.run qs).1.flatMap Outcome.events) (b.run qs).2.memos := by
  induction qs generalizing b with
  | nil => exact .refl
  | cons q qs ih =>
    have hstep := step_changes hb q
    exact hstep.trans (ih (hstep.memos_wf hb))

theorem memos_new_wf (g : Grammar) (every : Bool) : (new g every).memos.Wf where
  wf kind := by cases kind <;> exact Memo.fresh_wf _
  kind_eq kind := by cases kind <;> rfl

end Builder

end FirstFollow
