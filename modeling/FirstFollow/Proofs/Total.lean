import FirstFollow.Proofs.Bounds
import Mathlib.Data.Finset.Prod

/-!
Runs within bounds succeed. Each key is begun at most once, which bounds the depth, and every pass
over a group but the last adds a symbol to a set or a nonterminal to the group, which bounds the
number of passes (`Solve.ask_total`).
-/

namespace FirstFollow

namespace Memo

variable {m m' : Memo} {n x a : Symbol} {keys symbols : Finset Symbol}

/-- The set of `x` is finished or unfinished. -/
def Begun (m : Memo) (x : Symbol) : Prop :=
  (∃ A, m.done.get? x = some A) ∨ ∃ u, m.unfinished.get? x = some u

/-- The set of `x` has been found to hold `a`. -/
def Holds (m : Memo) (x a : Symbol) : Prop :=
  (∃ A, m.done.get? x = some A ∧ a ∈ A) ∨ ∃ u, m.unfinished.get? x = some u ∧ a ∈ u.part

theorem Extends.begun (h : m.Extends m') (hx : m.Begun x) : m'.Begun x := by
  rcases hx with ⟨A, hA⟩ | ⟨u, hu⟩
  · exact .inl ⟨A, h.done x A hA⟩
  · obtain ⟨u', hu', -⟩ := h.opened x u hu
    exact .inr ⟨u', hu'⟩

theorem Extends.holds (h : m.Extends m') (hx : m.Holds x a) : m'.Holds x a := by
  rcases hx with ⟨A, hA, ha⟩ | ⟨u, hu, ha⟩
  · exact .inl ⟨A, h.done x A hA, ha⟩
  · obtain ⟨u', hu', -, hp⟩ := h.opened x u hu
    exact .inr ⟨u', hu', hp a ha⟩

theorem not_begun (hd : m.done.get? x = none) (hu : m.unfinished.get? x = none) : ¬ m.Begun x := by
  simp [Begun, hd, hu]

theorem begun_start (m : Memo) (n : Symbol) : (m.start n).Begun n :=
  .inr ⟨_, by rw [get?_start, if_pos rfl]⟩

open Classical in
/-- The keys that are still to be begun. -/
noncomputable def unbegun (keys : Finset Symbol) (m : Memo) : Finset Symbol :=
  keys.filter fun x => ¬ m.Begun x

open Classical in
/-- The members that sets may still get. -/
noncomputable def missing (keys symbols : Finset Symbol) (m : Memo) : Finset (Symbol × Symbol) :=
  (keys ×ˢ symbols).filter fun p => ¬ m.Holds p.1 p.2

/-- How much may still happen to a memo. -/
noncomputable def room (keys symbols : Finset Symbol) (m : Memo) : Nat :=
  (m.unbegun keys).card + (m.missing keys symbols).card

theorem Extends.unbegun_subset (h : m.Extends m') (keys : Finset Symbol) :
    m'.unbegun keys ⊆ m.unbegun keys := by
  intro x hx
  simp only [unbegun, Finset.mem_filter] at hx ⊢
  exact ⟨hx.1, fun hb => hx.2 (h.begun hb)⟩

theorem Extends.missing_subset (h : m.Extends m') (keys symbols : Finset Symbol) :
    m'.missing keys symbols ⊆ m.missing keys symbols := by
  intro p hp
  simp only [missing, Finset.mem_filter] at hp ⊢
  exact ⟨hp.1, fun hb => hp.2 (h.holds hb)⟩

theorem Extends.unbegun_le (h : m.Extends m') (keys : Finset Symbol) :
    (m'.unbegun keys).card ≤ (m.unbegun keys).card :=
  Finset.card_le_card (h.unbegun_subset keys)

theorem Extends.room_le (h : m.Extends m') : m'.room keys symbols ≤ m.room keys symbols :=
  Nat.add_le_add (h.unbegun_le keys) (Finset.card_le_card (h.missing_subset keys symbols))

theorem Extends.unbegun_lt (h : m.Extends m') (hx : x ∈ keys) (hm : ¬ m.Begun x)
    (hm' : m'.Begun x) : (m'.unbegun keys).card < (m.unbegun keys).card := by
  refine Finset.card_lt_card ((Finset.ssubset_iff_of_subset (h.unbegun_subset keys)).2 ⟨x, ?_⟩)
  simp [unbegun, hx, hm, hm']

theorem Extends.room_lt_of_begun (h : m.Extends m') (hx : x ∈ keys) (hm : ¬ m.Begun x)
    (hm' : m'.Begun x) : m'.room keys symbols < m.room keys symbols :=
  Nat.add_lt_add_of_lt_of_le (h.unbegun_lt hx hm hm')
    (Finset.card_le_card (h.missing_subset keys symbols))

theorem Extends.room_lt_of_holds (h : m.Extends m') (hx : x ∈ keys) (ha : a ∈ symbols)
    (hm : ¬ m.Holds x a) (hm' : m'.Holds x a) : m'.room keys symbols < m.room keys symbols := by
  refine Nat.add_lt_add_of_le_of_lt (h.unbegun_le keys) (Finset.card_lt_card ?_)
  refine (Finset.ssubset_iff_of_subset (h.missing_subset keys symbols)).2 ⟨(x, a), ?_⟩
  simp [missing, hx, ha, hm, hm']

theorem unbegun_le_card (m : Memo) (keys : Finset Symbol) :
    (m.unbegun keys).card ≤ keys.card := by
  apply Finset.card_le_card
  intro x hx
  simp only [unbegun, Finset.mem_filter] at hx
  exact hx.1

theorem room_le (m : Memo) (keys symbols : Finset Symbol) :
    m.room keys symbols ≤ keys.card + keys.card * symbols.card := by
  have hpairs : m.missing keys symbols ⊆ keys ×ˢ symbols := by
    intro p hp
    simp only [missing, Finset.mem_filter] at hp
    exact hp.1
  rw [← Finset.card_product]
  exact Nat.add_le_add (m.unbegun_le_card keys) (Finset.card_le_card hpairs)

/-- Between `m` and `m'`, a set of the group above `mark` was found to hold one more symbol, or a
nonterminal joined the group. -/
def Gains (mark : Nat) (m m' : Memo) : Prop :=
  (∃ n ∈ m.group.drop mark, ∃ a, ¬ m.Holds n a ∧ m'.Holds n a) ∨ ∃ n ∈ m'.group, n ∉ m.group

section

variable {ι : Type} {B : Bounds ι}

theorem Within.key (h : m.Within B) (hx : m.Begun x) : B.key x := by
  rcases hx with ⟨A, hA⟩ | ⟨u, hu⟩
  · exact (h.done x A hA).1
  · exact (h.unfinished x u hu).1

theorem Holds.begun (hx : m.Holds x a) : m.Begun x :=
  hx.imp (fun ⟨A, hA, _⟩ => ⟨A, hA⟩) fun ⟨u, hu, _⟩ => ⟨u, hu⟩

theorem Within.holds (h : m.Within B) (hx : m.Holds x a) : a ∈ B.set x := by
  rcases hx with ⟨A, hA, ha⟩ | ⟨u, hu, ha⟩
  · exact (h.done x A hA).2 ha
  · exact (h.unfinished x u hu).2 ha

/-- Every gain uses up room. -/
theorem Gains.room_lt {mark : Nat} (h : m.Gains mark m') (hext : m.Extends m') (hm : m.Wf)
    (hm' : m'.Wf) (hB : m'.Within B) (hkeys : ∀ n, B.key n → n ∈ keys)
    (hsymbols : ∀ n, B.key n → B.set n ⊆ symbols) :
    m'.room keys symbols < m.room keys symbols := by
  rcases h with ⟨n, -, a, hnot, ha⟩ | ⟨n, hn, hnot⟩
  · have hn := hB.key ha.begun
    exact hext.room_lt_of_holds (hkeys n hn) (Finset.mem_coe.1 (hsymbols n hn (hB.holds ha)))
      hnot ha
  · obtain ⟨u, hu⟩ := hm'.mem_group_iff.1 hn
    have hbegun : m'.Begun n := .inr ⟨u, hu⟩
    refine hext.room_lt_of_begun (hkeys n (hB.key hbegun)) ?_ hbegun
    rintro (⟨A, hA⟩ | hopen)
    · simp [hm'.unfinished_of_done (hext.done n A hA)] at hu
    · exact hnot (hm.mem_group_iff.2 hopen)

end

end Memo

namespace Run

variable {ι σ : Type} [Recorder σ] {script : Symbol → Script ι}
  {Calls : ι → σ → SymbolSet → σ → Prop}

/-- A pass that finds a set grown adds a symbol to the set of a member. -/
theorem holds_of_pass {first : Nat} {members : List Symbol} {s s' : Session σ}
    (h : Run script Calls (.pass first members false) s true s') (hs : s.memo.Wf) :
    ∃ n ∈ members, ∃ a, ¬ s.memo.Holds n a ∧ s'.memo.Holds n a := by
  induction members generalizing s with
  | nil => cases h
  | cons n rest ih =>
    cases h with
    | same hplay hp hsub hpass =>
      have hf := hplay.frame hs
      obtain ⟨x, hx, a, hnot, ha⟩ := ih hpass hf.wf
      exact ⟨x, List.mem_cons_of_mem n hx, a, fun hold => hnot (hf.growth.holds hold), ha⟩
    | @grew first n rest grown s a s₁ A g s' hplay hp hsub hpass =>
      have hf := hplay.frame hs
      have hpass' := hpass.frame (hf.wf.grow n a.set)
      obtain ⟨u, hu, rfl⟩ := Option.map_eq_some_iff.1 hp
      obtain ⟨b, hb, hbA⟩ : ∃ b, b ∈ a.set ∧ b ∉ u.part := by
        simpa [OrderedSet.subset_def] using hsub
      have hnot : ¬ s₁.memo.Holds n b := by
        rintro (⟨A, hA, -⟩ | ⟨v, hv, hbv⟩)
        · simp [hf.wf.unfinished_of_done hA] at hu
        · obtain rfl : v = u := Option.some.inj (hv.symm.trans hu)
          exact hbA hbv
      have hgrown : (s₁.memo.grow n a.set).Holds n b :=
        .inr ⟨_, by rw [Memo.get?_grow, hu]; rfl, by simp [hb]⟩
      exact ⟨n, List.mem_cons_self, b, fun hold => hnot (hf.growth.holds hold),
        hpass'.growth.holds hgrown⟩

theorem joined_of_length {t : Task ι} {s s' : Session σ} {r : t.Result}
    (h : Run script Calls t s r s') (hs : s.memo.Wf)
    (hlen : s.memo.group.length < s'.memo.group.length) :
    ∃ n ∈ s'.memo.group, n ∉ s.memo.group := by
  have hf := h.frame hs
  obtain ⟨rest, hrest⟩ := hf.growth.group
  cases rest with
  | nil => simp [← hrest] at hlen
  | cons n rest =>
    have hnd := hf.wf.nodup
    rw [← hrest] at hnd
    exact ⟨n, by simp [← hrest],
      fun hmem => (List.nodup_append.1 hnd).2.2 n hmem n (by simp) rfl⟩

/-- A pass that is not the last one gains something. -/
theorem gains_of_pass {first mark : Nat} {s s' : Session σ} {grown : Bool}
    (h : Run script Calls (.pass first (s.memo.group.drop mark) false) s grown s')
    (hs : s.memo.Wf) (hmore : grown = true ∨ s.memo.group.length < s'.memo.group.length) :
    s.memo.Gains mark s'.memo := by
  rcases hmore with rfl | hlen
  · exact .inl (h.holds_of_pass hs)
  · exact .inr (h.joined_of_length hs hlen)

end Run

namespace Solve

variable {ι σ : Type} [Recorder σ] {script : Symbol → Script ι}
  {Calls : ι → σ → SymbolSet → σ → Prop} {B : Bounds ι} {keys symbols : Finset Symbol}
  {call : ι → Solve σ SymbolSet} {J : σ → Prop}

/-- Sessions from which all goes well. -/
structure Good (B : Bounds ι) (J : σ → Prop) (s : Session σ) : Prop where
  wf : s.memo.Wf
  within : s.memo.Within B
  around : J s.around

/-- What makes runs of `script` succeed: scripts and calls within the bounds, only finitely many
keys and symbols, and calls that succeed. -/
structure Sound (script : Symbol → Script ι) (Calls : ι → σ → SymbolSet → σ → Prop) (B : Bounds ι)
    (keys symbols : Finset Symbol) (call : ι → Solve σ SymbolSet) (J : σ → Prop) : Prop where
  script : ∀ n, B.key n → (script n).Within B (B.set n)
  replies : Run.RepliesWithin B Calls
  keys : ∀ n, B.key n → n ∈ keys
  symbols : ∀ n, B.key n → B.set n ⊆ symbols
  call : ∀ i s, J s.around → B.input i → ∃ A around,
    call i s = (.ok A, { s with around }) ∧ Calls i s.around A around ∧ J around
  record : ∀ e a, J a → J (Recorder.record e a)

/-- The computation `x` succeeds, in a run that is one of `t`. -/
def Succeeds (script : Symbol → Script ι) (Calls : ι → σ → SymbolSet → σ → Prop) (J : σ → Prop)
    (t : Task ι) (x : Solve σ t.Result) (s : Session σ) : Prop :=
  ∃ r s', x s = (.ok r, s') ∧ Run script Calls t s r s' ∧ J s'.around

/-- Every key is answered while at most `depth` keys are still to be begun. -/
def AskSucceeds (script : Symbol → Script ι) (Calls : ι → σ → SymbolSet → σ → Prop) (B : Bounds ι)
    (keys : Finset Symbol) (J : σ → Prop) (depth : Nat) (ask : Ask σ) : Prop :=
  ∀ n s, Good B J s → B.key n → (s.memo.unbegun keys).card ≤ depth →
    Succeeds script Calls J (.ask n) (ask n) s

/-- `k` passes settle the group above `mark`, each of them but the last one gaining something. -/
inductive Passes (eq : Equation σ) (ask : Ask σ) (first mark : Nat) :
    Nat → Session σ → Session σ → Prop
  | last {s s'} : pass eq ask first mark s = (.ok false, s') →
      s'.memo.group.length ≤ s.memo.group.length → Passes eq ask first mark 1 s s'
  | more {k s grown s₁ s'} : pass eq ask first mark s = (.ok grown, s₁) →
      grown = true ∨ s.memo.group.length < s₁.memo.group.length → s.memo.Gains mark s₁.memo →
      Passes eq ask first mark k s₁ s' → Passes eq ask first mark (k + 1) s s'

/-- As many passes may be made, or more. -/
theorem Passes.settle_eq {eq : Equation σ} {ask : Ask σ} {first mark k passes : Nat}
    {s s' : Session σ} (h : Passes eq ask first mark k s s') (hk : k ≤ passes) :
    settle eq ask first mark passes s = (.ok (), s') := by
  induction h generalizing passes with
  | @last s s' hpass hlen =>
    obtain ⟨passes, rfl⟩ : ∃ p, passes = p + 1 := ⟨passes - 1, by omega⟩
    rw [settle, bind_ok (memo_apply s), bind_ok hpass, bind_ok (memo_apply s'),
      if_neg (by simpa using hlen)]
    rfl
  | @more k s grown s₁ s' hpass hmore _ _ ih =>
    obtain ⟨passes, rfl⟩ : ∃ p, passes = p + 1 := ⟨passes - 1, by omega⟩
    rw [settle, bind_ok (memo_apply s), bind_ok hpass, bind_ok (memo_apply s₁),
      if_pos (by simpa using hmore)]
    exact ih (by omega)

theorem recompute_apply {eq : Equation σ} {ask : Ask σ} (first : Nat) {n : Symbol}
    {s s₁ : Session σ} {a : Answer} {A : SymbolSet}
    (hrun : eq ask (fun _ => pure ()) n s = (.ok a, s₁)) (hA : s₁.memo.part? n = some A) :
    recompute eq ask first n s =
      if a.set ⊆ A then (.ok false, s₁.note (.recomputed · first n a.low))
      else (.ok true, (s₁.note (.recomputed · first n a.low)).grow (some n) a.set) := by
  have hpart : part n (s₁.note (.recomputed · first n a.low)) =
      (.ok A, s₁.note (.recomputed · first n a.low)) := by
    rw [part_apply, Session.note_memo, hA]
  rw [recompute, bind_ok hrun, bind_ok (record_apply _ s₁)]
  rw [Session.note] at hpart ⊢
  rw [bind_ok hpart]
  split
  · rfl
  · rfl

theorem consult_apply (n : Symbol) (enter : Solve σ Answer) (s : Session σ) :
    consult n enter s =
      match s.memo.done.get? n with
      | some A => (.ok ⟨A, .settled⟩, s)
      | none =>
        match s.memo.unfinished.get? n with
        | some u => (.ok ⟨u.part, .number u.number⟩, s.note (.reentered · n u.part))
        | none => enter s := by
  rw [consult, bind_ok (memo_apply s)]
  cases s.memo.done.get? n with
  | some A => rfl
  | none => cases s.memo.unfinished.get? n <;> rfl

omit [Recorder σ] in
/-- What comes behind a branch may stand behind the branch that is taken. -/
theorem branch_apply {α : Type} {c : Prop} [Decidable c] {x y : Solve σ Unit}
    {f : Unit → Solve σ α} {s s' : Session σ}
    (h : (if c then (do x; y) else pure ()) s = (.ok (), s')) :
    (if c then (do x; let r ← y; f r) else f ()) s = f () s' := by
  split
  next hc =>
    rw [if_pos hc] at h
    rw [← bind_assoc, bind_ok h]
  next hc =>
    rw [if_neg hc] at h
    cases h
    rfl

variable (H : Sound script Calls B keys symbols call J)

include H

/-- More may be known of the calls. -/
theorem Sound.tracks {Reach : σ → σ → Prop} (hcall : ∀ i s A around, J s.around → B.input i →
      call i s = (.ok A, { s with around }) → Reach s.around around) :
    Sound script (fun i a A a' => Calls i a A a' ∧ Reach a a') B keys symbols call J where
  script := H.script
  replies i a A a' h := H.replies i a A a' h.1
  keys := H.keys
  symbols := H.symbols
  call i s hs hi := by
    obtain ⟨A, around, hrun, hc, haround⟩ := H.call i s hs hi
    exact ⟨A, around, hrun, ⟨hc, hcall i s A around hs hi hrun⟩, haround⟩
  record := H.record

theorem Sound.after {t : Task ι} {s s' : Session σ} {r : t.Result} {T : Set Symbol}
    (h : Run script Calls t s r s') (hs : Good B J s) (ht : Run.Bounded B T t) (hJ : J s'.around) :
    Good B J s' ∧ Run.ResultIn T t r :=
  have hw := h.within H.script H.replies hs.wf hs.within ht
  ⟨⟨(h.frame hs.wf).wf, hw.1, hJ⟩, hw.2⟩

theorem play_total {depth : Nat} {ask : Ask σ} (hask : AskSucceeds script Calls B keys J depth ask)
    (target : Option Symbol) (emit : SymbolSet → Solve σ Unit)
    (hemit : ∀ A s, emit A s = (.ok (), s.grow target A)) {T : Set Symbol} (p : Script ι)
    {sum : Answer} {s : Session σ} (hs : Good B J s)
    (ht : Run.Bounded B T (.play target p sum)) (hdepth : (s.memo.unbegun keys).card ≤ depth) :
    Succeeds script Calls J (.play target p sum) (p.play call ask emit sum) s := by
  induction p generalizing sum s with
  | done => exact ⟨sum, s, rfl, .done, hs.around⟩
  | fail e => exact ht.1.elim
  | emit A p ih =>
    obtain ⟨⟨hA, hp⟩, hsum, htarget⟩ := ht
    have hsum' : (sum.join ⟨A, .settled⟩).set.toSet ⊆ T := by
      rw [Answer.join_set, OrderedSet.toSet_union]
      exact Set.union_subset hsum hA
    have hgrow : Good B J (s.grow target A) ∧ s.memo.Extends (s.grow target A).memo := by
      cases target with
      | none => exact ⟨hs, .refl _⟩
      | some n =>
        exact ⟨⟨hs.wf.grow n A, hs.within.grow (hA.trans (htarget n rfl)), hs.around⟩, .grow _ n A⟩
    obtain ⟨a, s', hrun, hr, hJ⟩ := ih hgrow.1 ⟨hp, hsum', htarget⟩
      ((hgrow.2.unbegun_le keys).trans hdepth)
    exact ⟨a, s', by rw [Script.play, bind_ok (hemit A s), hrun], .emit hr, hJ⟩
  | ask n k ih =>
    obtain ⟨⟨hn, hk⟩, hsum, htarget⟩ := ht
    obtain ⟨a, s₁, hrun₁, hr₁, hJ₁⟩ := hask n s hs hn hdepth
    obtain ⟨hs₁, ha⟩ := H.after hr₁ hs ⟨hn, rfl⟩ hJ₁
    have ht' : Run.Bounded B T (.play target (k a.set) (sum.join ⟨∅, a.low⟩)) :=
      ⟨hk _ ha, by simpa using hsum, htarget⟩
    obtain ⟨b, s', hrun, hr, hJ⟩ := ih a.set hs₁ ht'
      (((hr₁.frame hs.wf).growth.unbegun_le keys).trans hdepth)
    exact ⟨b, s', by rw [Script.play, bind_ok hrun₁, hrun], .ask hr₁ hr, hJ⟩
  | call i k ih =>
    obtain ⟨⟨hi, hk⟩, hsum, htarget⟩ := ht
    obtain ⟨A, around, hrun₁, hc, hJ₁⟩ := H.call i s hs.around hi
    have ht' : Run.Bounded B T (.play target (k A) sum) :=
      ⟨hk A (H.replies i _ _ _ hc), hsum, htarget⟩
    obtain ⟨b, s', hrun, hr, hJ⟩ := ih A (s := { s with around }) ⟨hs.wf, hs.within, hJ₁⟩ ht' hdepth
    exact ⟨b, s', by rw [Script.play, bind_ok hrun₁, hrun], .call hc hr, hJ⟩

theorem pass_total {depth : Nat} {ask : Ask σ} (hask : AskSucceeds script Calls B keys J depth ask)
    (first : Nat) (members : List Symbol) (grown : Bool) {s : Session σ} (hs : Good B J s)
    (hm : ∀ n ∈ members, ∃ u, s.memo.unfinished.get? n = some u)
    (hdepth : (s.memo.unbegun keys).card ≤ depth) :
    Succeeds script Calls J (.pass first members grown) (members.foldlM (fun grown n =>
      return (← recompute (Script.equation call script) ask first n) || grown) grown) s := by
  induction members generalizing grown s with
  | nil => exact ⟨grown, s, rfl, .passed, hs.around⟩
  | cons n rest ih =>
    obtain ⟨u, hu⟩ := hm n (by simp)
    have hn : B.key n := (hs.within.unfinished n u hu).1
    have ht := Run.bounded_again (H.script n hn)
    obtain ⟨a, s₁, hrun₁, hr₁, hJ₁⟩ := play_total H hask none (fun _ => pure ())
      (fun _ _ => rfl) (script n) hs ht hdepth
    obtain ⟨hs₁, ha⟩ := H.after hr₁ hs ht hJ₁
    have hf := hr₁.frame hs.wf
    have hA : s₁.memo.part? n = some u.part := by
      rw [Memo.part?, hf.keeps n u (by simp [Task.touches]) hu]
      rfl
    have hrest : ∀ x ∈ rest, ∃ u, s₁.memo.unfinished.get? x = some u := by
      intro x hx
      obtain ⟨v, hv⟩ := hm x (by simp [hx])
      exact ⟨v, hf.keeps x v (by simp [Task.touches]) hv⟩
    have hagain : Script.equation call script ask (fun _ => pure ()) n s = (.ok a, s₁) := hrun₁
    have hstep := recompute_apply first hagain hA
    have hdepth₁ := (hf.growth.unbegun_le keys).trans hdepth
    rw [Succeeds, List.foldlM_cons]
    by_cases hsub : a.set ⊆ u.part
    · rw [if_pos hsub] at hstep
      obtain ⟨g, s', hrun, hr, hJ⟩ := ih grown (s := s₁.note (.recomputed · first n a.low))
        ⟨hs₁.wf, hs₁.within, H.record _ _ hs₁.around⟩ hrest hdepth₁
      refine ⟨g, s', ?_, .same hr₁ hA hsub hr, hJ⟩
      rw [bind_assoc, bind_ok hstep, pure_bind]
      exact hrun
    · rw [if_neg hsub] at hstep
      have hgood : Good B J ((s₁.note (.recomputed · first n a.low)).grow (some n) a.set) :=
        ⟨hs₁.wf.grow n a.set, hs₁.within.grow ha, H.record _ _ hs₁.around⟩
      have hrest' : ∀ x ∈ rest, ∃ u, (s₁.memo.grow n a.set).unfinished.get? x = some u := by
        intro x hx
        obtain ⟨v, hv⟩ := hrest x hx
        exact ⟨_, by rw [Memo.get?_grow, hv]; rfl⟩
      obtain ⟨g, s', hrun, hr, hJ⟩ := ih true hgood hrest'
        (((Memo.Extends.grow s₁.memo n a.set).unbegun_le keys).trans hdepth₁)
      refine ⟨g, s', ?_, .grew hr₁ hA hsub hr, hJ⟩
      rw [bind_assoc, bind_ok hstep, pure_bind]
      exact hrun

/-- The group above `mark` is settled by a number of passes that depends on nothing but the session,
each of them but the last one gaining something. -/
theorem settle_passes {depth : Nat} {ask : Ask σ}
    (hask : AskSucceeds script Calls B keys J depth ask) (first mark : Nat) {s : Session σ}
    (hs : Good B J s) (hdepth : (s.memo.unbegun keys).card ≤ depth) :
    ∃ k s', k ≤ 1 + s.memo.room keys symbols ∧
      Passes (Script.equation call script) ask first mark k s s' ∧
      Run script Calls (.settle first mark) s () s' ∧ J s'.around := by
  induction hroom : s.memo.room keys symbols using Nat.strong_induction_on generalizing s with
  | _ room ih =>
    obtain ⟨g, s₁, hrun₁, hr₁, hJ₁⟩ := pass_total H hask first
      (s.memo.group.drop mark) false hs hs.wf.mem_drop hdepth
    obtain ⟨hs₁, -⟩ := H.after (T := ∅) hr₁ hs (hs.within.key_of_drop hs.wf mark) hJ₁
    have hf := hr₁.frame hs.wf
    have hpass : pass (Script.equation call script) ask first mark s = (.ok g, s₁) := by
      rw [pass, bind_ok (memo_apply s)]
      exact hrun₁
    by_cases hmore : g = true ∨ s.memo.group.length < s₁.memo.group.length
    · have hgains := hr₁.gains_of_pass hs.wf hmore
      have hlt := hgains.room_lt hf.growth hs.wf hs₁.wf hs₁.within H.keys H.symbols
      obtain ⟨k, s', hk, hpasses, hr, hJ⟩ := ih _ (hroom ▸ hlt) hs₁
        ((hf.growth.unbegun_le keys).trans hdepth) rfl
      exact ⟨k + 1, s', by omega, .more hpass hmore hgains hpasses, .again hr₁ hmore hr, hJ⟩
    · obtain ⟨hg, hlen⟩ := not_or.1 hmore
      obtain rfl : g = false := by simpa using hg
      exact ⟨1, s₁, by omega, .last hpass (by omega), .stable hr₁ (by omega), hJ₁⟩

theorem settle_total {depth : Nat} {ask : Ask σ}
    (hask : AskSucceeds script Calls B keys J depth ask) (first mark passes : Nat)
    {s : Session σ} (hs : Good B J s) (hdepth : (s.memo.unbegun keys).card ≤ depth)
    (hroom : s.memo.room keys symbols < passes) :
    Succeeds script Calls J (.settle first mark)
      (settle (Script.equation call script) ask first mark passes) s := by
  obtain ⟨k, s', hk, hpasses, hr, hJ⟩ := settle_passes H hask first mark hs hdepth
  exact ⟨(), s', hpasses.settle_eq (by omega), hr, hJ⟩

theorem finish_total {depth : Nat} {ask : Ask σ}
    (hask : AskSucceeds script Calls B keys J depth ask) (first mark : Nat) {passes : Nat}
    (low : Low) {s : Session σ} (hs : Good B J s) (hdepth : (s.memo.unbegun keys).card ≤ depth)
    (hroom : s.memo.room keys symbols < passes) :
    Succeeds script Calls J (.finish first mark low)
      (if low ≠ .settled ∨ 1 < s.memo.group.length - mark then do
        record (.settling · (s.memo.group.length - mark))
        settle (Script.equation call script) ask first mark passes
      else pure ()) s := by
  split
  next hmany =>
    obtain ⟨r, s', hrun, hr, hJ⟩ := settle_total H hask first mark passes
      (s := s.note (.settling · (s.memo.group.length - mark)))
      ⟨hs.wf, hs.within, H.record _ _ hs.around⟩ hdepth hroom
    refine ⟨r, s', ?_, .together hmany hr, hJ⟩
    rw [bind_ok (record_apply _ s)]
    exact hrun
  next hone =>
    obtain ⟨hlow, hlen⟩ := not_or.1 hone
    obtain rfl : low = .settled := by simpa using hlow
    exact ⟨(), s, rfl, .alone (by omega), hs.around⟩

theorem enter_total {depth passes : Nat} {ask : Ask σ}
    (hask : AskSucceeds script Calls B keys J depth ask)
    (hpasses : keys.card + keys.card * symbols.card < passes) {n : Symbol} {s : Session σ}
    (hs : Good B J s) (hn : B.key n) (hd : s.memo.done.get? n = none)
    (hu : s.memo.unfinished.get? n = none)
    (hdepth : (s.memo.unbegun keys).card ≤ depth + 1) :
    Succeeds script Calls J (.ask n) (enter (Script.equation call script) passes ask n) s := by
  have hstart : Good B J (s.start n) :=
    ⟨hs.wf.start hd hu, hs.within.start hn, H.record _ _ hs.around⟩
  have hlt := (Memo.Extends.start hu).unbegun_lt (H.keys n hn) (Memo.not_begun hd hu)
    (Memo.begun_start s.memo n)
  have hdepth₀ : ((s.start n).memo.unbegun keys).card ≤ depth := by
    rw [Session.start_memo]
    omega
  have ht := Run.bounded_first (H.script n hn)
  obtain ⟨a, s₁, hrun₁, hr₁, hJ₁⟩ := play_total H hask (some n) (grow n) (fun _ _ => rfl)
    (script n) hstart ht hdepth₀
  obtain ⟨hs₁, -⟩ := H.after hr₁ hstart ht hJ₁
  have hf := hr₁.frame hstart.wf
  have hfirst : Script.equation call script ask (grow n) n (s.start n) = (.ok a, s₁) := hrun₁
  have hopen : ∃ u, s₁.memo.unfinished.get? n = some u :=
    hf.wf.mem_group_iff.1 (hf.growth.group.subset (by simp))
  rw [Succeeds, enter, bind_ok (memo_apply s), bind_ok (changeMemo_apply _ s),
    bind_ok (record_apply _ _)]
  show ∃ r s', (Script.equation call script ask (grow n) n >>= _) (s.start n) = _ ∧ _
  rw [bind_ok hfirst]
  cases hlow : a.low.below s.memo.count with
  | true =>
    obtain ⟨u, hu₁⟩ := hopen
    have hpart : s₁.memo.part? n = some u.part := by simp [Memo.part?, hu₁]
    have hget : part n s₁ = (.ok u.part, s₁) := by rw [part_apply, hpart]
    refine ⟨⟨u.part, a.low⟩, s₁, ?_, .left hd hu hr₁ hlow hpart, hJ₁⟩
    rw [if_pos rfl, bind_ok hget]
    rfl
  | false =>
    have hdepth₁ := (hf.growth.unbegun_le keys).trans hdepth₀
    have hroom : s₁.memo.room keys symbols < passes :=
      (s₁.memo.room_le keys symbols).trans_lt hpasses
    obtain ⟨⟨⟩, s₂, hrun₂, hr₂, hJ₂⟩ := finish_total H hask s.memo.count
      s.memo.group.length a.low hs₁ hdepth₁ hroom
    have hf₂ := hr₂.frame hf.wf
    obtain ⟨s₃, hclose⟩ := close_ok hf₂.wf s.memo.group.length
    obtain ⟨hmemo, hrec⟩ := close_memo hclose
    have hmem : n ∈ s₂.memo.group.drop s.memo.group.length := (hf.growth.trans hf₂.growth).mem_drop
    obtain ⟨u, hu₂⟩ := hf₂.wf.mem_drop n hmem
    have hdone : s₃.memo.done.get? n = some u.part := by
      rw [hmemo, hf₂.wf.close_done, if_pos hmem, Memo.part?, hu₂]
      rfl
    have hget : doneSet n s₃ = (.ok u.part, s₃) := by rw [doneSet_apply, hdone]
    refine ⟨⟨u.part, .settled⟩, s₃, ?_, .closed hd hu hr₁ hlow hr₂ hclose hdone,
      hrec.preserves H.record hJ₂⟩
    rw [if_neg (by simp), bind_ok (memo_apply s₁)]
    exact (branch_apply hrun₂).trans ((bind_ok hclose).trans (bind_ok hget))

theorem consult_total {n : Symbol} {enter : Solve σ Answer} {s : Session σ} (hs : Good B J s)
    (henter : s.memo.done.get? n = none → s.memo.unfinished.get? n = none →
      Succeeds script Calls J (.ask n) enter s) :
    Succeeds script Calls J (.ask n) (consult n enter) s := by
  rw [Succeeds, consult_apply]
  cases hd : s.memo.done.get? n with
  | some A => exact ⟨_, s, rfl, .known hd, hs.around⟩
  | none =>
    cases hu : s.memo.unfinished.get? n with
    | some u => exact ⟨_, _, rfl, .reentered hd hu, H.record _ _ hs.around⟩
    | none => exact henter hd hu

/-- With as much depth as keys are to be begun, and more passes than there is room, every key is
answered. -/
theorem ask_total {passes : Nat} (hpasses : keys.card + keys.card * symbols.card < passes)
    (depth : Nat) : AskSucceeds script Calls B keys J depth
      (Solve.ask (Script.equation call script) passes depth) := by
  induction depth with
  | zero =>
    intro n s hs hn hdepth
    refine consult_total H hs fun hd hu => ?_
    have hlt := (Memo.Extends.start hu).unbegun_lt (H.keys n hn) (Memo.not_begun hd hu)
      (Memo.begun_start s.memo n)
    omega
  | succ depth ih =>
    intro n s hs hn hdepth
    exact consult_total H hs fun hd hu => enter_total H ih hpasses hs hn hd hu hdepth

end Solve

end FirstFollow
