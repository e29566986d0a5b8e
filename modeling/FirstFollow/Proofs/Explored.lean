import FirstFollow.Proofs.Closed

/-!
Why groups are closed at the right time. While a set is found first-hand, all that stands on the
stack leads to it, and what it leads to is finished or stands no lower than its low number
(`FirstPass`). So a group that is closed rests on nothing below it, and is closed as a whole
(`Run.explored`).
-/

namespace FirstFollow

open Relation

variable {ι σ : Type} {script : Symbol → Script ι} {Calls : ι → σ → SymbolSet → σ → Prop}
  {B : Bounds ι} {ok : Symbol → SymbolSet → Prop} {R : Symbol → Symbol → Prop}

namespace Memo

variable {m m' : Memo} {low low' : Low} {mark k : Nat} {x y n : Symbol}

/-- The set of `y` is finished, or unfinished with a number that is at least `low`. -/
def Rests (m : Memo) (low : Low) (y : Symbol) : Prop :=
  (∃ A, m.done.get? y = some A) ∨
    ∃ u, m.unfinished.get? y = some u ∧ low.below (u.number + 1) = true

theorem Rests.extend (h : m.Rests low y) (hm : m.Extends m')
    (hlow : ∀ i, low.below i = true → low'.below i = true) : m'.Rests low' y := by
  rcases h with ⟨A, hA⟩ | ⟨u, hu, hl⟩
  · exact .inl ⟨A, hm.done y A hA⟩
  · obtain ⟨u', hu', hnum, -⟩ := hm.opened y u hu
    exact .inr ⟨u', hu', hlow _ (hnum ▸ hl)⟩

/-- What the set of `n`, begun under the number `k`, and the sets begun since lead to, when those in
`seen` are asked for. -/
structure FirstPass (R : Symbol → Symbol → Prop) (n : Symbol) (k : Nat) (seen : Symbol → Prop)
    (low : Low) (m : Memo) : Prop where
  self : ∃ u, m.unfinished.get? n = some u ∧ u.number = k
  up : ∀ x u, m.unfinished.get? x = some u → ReflTransGen R x n
  above : ∀ x u, m.unfinished.get? x = some u → x ≠ n → k ≤ u.number →
    ReflTransGen R n x ∧ ∀ y, R x y → m.Rests low y
  seen : ∀ y, seen y → m.Rests low y
  leads : m.Rooted (TransGen R n) low

namespace FirstPass

variable {seen seen' : Symbol → Prop}

theorem mono (h : m.FirstPass R n k seen low) (hseen : ∀ y, seen' y → seen y) :
    m.FirstPass R n k seen' low :=
  ⟨h.self, h.up, h.above, fun y hy => h.seen y (hseen y hy), h.leads⟩

theorem start (hup : ∀ x u, m.unfinished.get? x = some u → ReflTransGen R x n) (hm : m.Wf) :
    (m.start n).FirstPass R n m.count (fun _ => False) .settled where
  self := ⟨⟨m.count, ∅⟩, by simp [get?_start], rfl⟩
  up := by
    intro x u hu
    rw [get?_start] at hu
    split at hu
    next hx =>
      subst hx
      exact .refl
    next => exact hup x u hu
  above := by
    intro x u hu hx hle
    rw [get?_start, if_neg hx] at hu
    exact absurd (hm.below x u hu) (by omega)
  seen := fun _ => False.elim
  leads := .settled _ _

theorem grow (h : m.FirstPass R n k seen low) (A : SymbolSet) :
    (m.grow n A).FirstPass R n k seen low where
  self := by
    obtain ⟨u, hu, hnum⟩ := h.self
    exact ⟨⟨u.number, u.part ∪ A⟩, by simp [get?_grow, hu], hnum⟩
  up := by
    intro x u hu
    obtain ⟨v, hv, -⟩ := get?_grow_number hu
    exact h.up x v hv
  above := by
    intro x u hu hx hle
    obtain ⟨v, hv, hnum⟩ := get?_grow_number hu
    obtain ⟨hnx, hnext⟩ := h.above x v hv hx (hnum ▸ hle)
    exact ⟨hnx, fun y hy => (hnext y hy).extend (.grow m n A) fun _ => id⟩
  seen := fun y hy => (h.seen y hy).extend (.grow m n A) fun _ => id
  leads := h.leads.extend (.grow m n A)

end FirstPass

/-- What is known of an answer `a` to `n`, asked for in `m` and given in `m'`. -/
structure Answered (script : Symbol → Script ι) (B : Bounds ι) (ok : Symbol → SymbolSet → Prop)
    (R : Symbol → Symbol → Prop) (n : Symbol) (m : Memo) (a : Answer) (m' : Memo) : Prop where
  closed : m'.Closed script B.reply
  ok : ok n a.set
  rests : m'.Rests a.low n
  leads : ∀ p, R p n → m.Rooted (TransGen R p) a.low
  fresh : ∀ x u, m'.unfinished.get? x = some u → m.unfinished.get? x = none →
    ReflTransGen R n x ∧ (∃ y v, m.unfinished.get? y = some v ∧ ReflTransGen R x y) ∧
      ∀ y, R x y → m'.Rests a.low y

/-- A first pass goes on behind an answer. -/
theorem FirstPass.join {seen : Symbol → Prop} {a : Answer} (h : m.FirstPass R n k seen low)
    (hm : m.Extends m') (hny : R n y) (ha : Answered script B ok R y m a m') :
    m'.FirstPass R n k (fun z => seen z ∨ z = y) (low.min a.low) where
  self := by
    obtain ⟨u, hu, hnum⟩ := h.self
    obtain ⟨u', hu', hnum', -⟩ := hm.opened n u hu
    exact ⟨u', hu', hnum'.trans hnum⟩
  up := by
    intro x u' hu'
    cases hx : m.unfinished.get? x with
    | some u => exact h.up x u hx
    | none =>
      obtain ⟨-, ⟨z, v, hv, hxz⟩, -⟩ := ha.fresh x u' hu' hx
      exact hxz.trans (h.up z v hv)
  above := by
    intro x u' hu' hxn hle
    cases hx : m.unfinished.get? x with
    | some u =>
      obtain ⟨v, hv, hnum, -⟩ := hm.opened x u hx
      obtain rfl : v = u' := Option.some.inj (hv.symm.trans hu')
      obtain ⟨hnx, hnext⟩ := h.above x u hx hxn (hnum ▸ hle)
      exact ⟨hnx, fun z hz => (hnext z hz).extend hm fun i hi => by simp [hi]⟩
    | none =>
      obtain ⟨hyx, -, hnext⟩ := ha.fresh x u' hu' hx
      exact ⟨.head hny hyx, fun z hz => (hnext z hz).extend (.refl m') fun i hi => by simp [hi]⟩
  seen := by
    rintro z (hz | rfl)
    · exact (h.seen z hz).extend hm fun i hi => by simp [hi]
    · exact ha.rests.extend (.refl m') fun i hi => by simp [hi]
  leads := (h.leads.min (ha.leads n hny)).extend hm

/-! ### What stands above a mark -/

theorem Extends.drop_iff (h : m.Extends m') (hm : m.Wf) (hm' : m'.Wf) :
    x ∈ m'.group.drop m.group.length ↔ ∃ u, m'.unfinished.get? x = some u ∧ m.count ≤ u.number := by
  have htake : m'.group.take m.group.length = m.group := (List.prefix_iff_eq_take.1 h.group).symm
  constructor
  · intro hx
    obtain ⟨u, hu⟩ := hm'.mem_drop x hx
    refine ⟨u, hu, h.fresh x u hu ?_⟩
    by_contra hopen
    obtain ⟨v, hv⟩ := Option.ne_none_iff_exists'.1 hopen
    exact hm'.not_mem_drop (htake.symm ▸ hm.mem_group_iff.2 ⟨v, hv⟩) hx
  · rintro ⟨u, hu, hle⟩
    have hmem := hm'.mem_group_iff.2 ⟨u, hu⟩
    rw [← List.take_append_drop m.group.length m'.group, List.mem_append, htake] at hmem
    refine hmem.resolve_left fun hold => ?_
    obtain ⟨v, hv⟩ := hm.mem_group_iff.1 hold
    obtain ⟨v', hv', hnum, -⟩ := h.opened x v hv
    obtain rfl : v' = u := Option.some.inj (hv'.symm.trans hu)
    have hlt := hm.below x v hv
    omega

/-- Nothing is begun anew by what is closed down to where it began. -/
theorem Extends.close_fresh (h : m.Extends m') (hm : m.Wf) (hm' : m'.Wf) {u : Unfinished}
    (hu : (m'.close m.group.length).unfinished.get? x = some u) :
    ∃ v, m.unfinished.get? x = some v := by
  have hmem := (hm'.close m.group.length).mem_group_iff.2 ⟨u, hu⟩
  rw [close_group, ← List.prefix_iff_eq_take.1 h.group] at hmem
  exact hm.mem_group_iff.1 hmem

namespace FirstPass

variable {seen : Symbol → Prop}

/-- What stands above the mark is what `n` leads to there. -/
theorem down (h : m'.FirstPass R n m.count seen low) (hm : m.Wf) (hm' : m'.Wf)
    (hext : m.Extends m') : ∀ x ∈ m'.group.drop m.group.length, ReflTransGen R n x := by
  intro x hx
  obtain ⟨u, hu, hle⟩ := (hext.drop_iff hm hm').1 hx
  by_cases hxn : x = n
  · subst hxn
    exact .refl
  · exact (h.above x u hu hxn hle).1

/-- All that stands there leads to `n`. -/
theorem leads_back (h : m'.FirstPass R n k seen low) (hm' : m'.Wf) :
    ∀ x ∈ m'.group.drop mark, ReflTransGen R x n := by
  intro x hx
  obtain ⟨u, hu⟩ := hm'.mem_drop x hx
  exact h.up x u hu

/-- A member rests on the sets that it leads to. -/
theorem rests (h : m'.FirstPass R n m.count (R n) low) (hm : m.Wf) (hm' : m'.Wf)
    (hext : m.Extends m') : ∀ x ∈ m'.group.drop m.group.length, ∀ y, R x y → m'.Rests low y := by
  intro x hx y hxy
  obtain ⟨u, hu, hle⟩ := (hext.drop_iff hm hm').1 hx
  by_cases hxn : x = n
  · subst hxn
    exact h.seen y hxy
  · exact (h.above x u hu hxn hle).2 y hxy

/-- If the pass rests on nothing below it, what the members lead to is finished or a member. -/
theorem next (h : m'.FirstPass R n m.count (R n) low) (hm : m.Wf) (hm' : m'.Wf)
    (hext : m.Extends m') (hlow : low.below m.count = false) :
    ∀ x ∈ m'.group.drop m.group.length, ∀ y, R x y →
      (∃ A, m'.done.get? y = some A) ∨ y ∈ m'.group.drop m.group.length := by
  intro x hx y hxy
  rcases h.rests hm hm' hext x hx y hxy with hdone | ⟨v, hv, hbelow⟩
  · exact .inl hdone
  · refine .inr ((hext.drop_iff hm hm').2 ⟨v, hv, ?_⟩)
    cases low with
    | settled => simp [Low.below] at hbelow
    | number l =>
      simp only [Low.below, decide_eq_true_eq, decide_eq_false_iff_not] at hbelow hlow
      omega

/-- When a first pass is through and rests on nothing below it, its group may be settled. -/
theorem ready (h : m'.FirstPass R n m.count (R n) low) (hm : m.Wf) (hm' : m'.Wf)
    (hext : m.Extends m') (hlow : low.below m.count = false)
    (hmany : low ≠ .settled ∨ 1 < m'.group.length - m.group.length) :
    m'.Ready R m.group.length := by
  have hdown := h.down hm hm' hext
  have hup : ∀ x ∈ m'.group.drop m.group.length, ReflTransGen R x n := h.leads_back hm'
  have hself : TransGen R n n := by
    rcases hmany with hlow' | hlen
    · cases low with
      | settled => exact absurd rfl hlow'
      | number l =>
        obtain ⟨y, u, hu, -, hny⟩ := h.leads l rfl
        exact hny.trans_left (h.up y u hu)
    · -- besides `n` there is another member, which `n` leads to and which leads to `n`
      obtain ⟨x, hx, hxn⟩ : ∃ x ∈ m'.group.drop m.group.length, x ≠ n := by
        by_contra hall
        push Not at hall
        have hsub : m'.group.drop m.group.length ⊆ [n] := fun x hx => by simp [hall x hx]
        have hle := (hm'.nodup_drop.subperm hsub).length_le
        rw [List.length_drop, List.length_singleton] at hle
        omega
      have hnx := (reflTransGen_iff_eq_or_transGen.1 (hdown x hx)).resolve_left hxn
      exact hnx.trans_left (hup x hx)
  exact ⟨h.next hm hm' hext hlow,
    fun x hx => .trans_right (hup x hx) (hself.trans_left (hdown x hx))⟩

end FirstPass

end Memo

namespace Run

variable [Recorder σ] {s s' s₁ : Session σ} {n : Symbol} {a : Answer}

/-- A set that was found alone and rests on nothing unfinished is closed as it stands. -/
theorem closed_alone (hcalls : RepliesWithin B Calls)
    (h : Run script Calls (.play (some n) (script n) ∅) (s.start n) a s₁) (hs : s.memo.Wf)
    (hd : s.memo.done.get? n = none) (hu : s.memo.unfinished.get? n = none)
    (hlow : a.low = .settled) (hlen : s₁.memo.group.length - s.memo.group.length ≤ 1) :
    ∀ x ∈ s₁.memo.group.drop s.memo.group.length, ∀ u, s₁.memo.unfinished.get? x = some u →
      (script x).ClosedAt (s₁.memo.close s.memo.group.length).done.get? B.reply u.part := by
  have hstart := hs.start hd hu
  have hf := h.frame hstart
  have hn : n ∈ s₁.memo.group.drop s.memo.group.length := hf.growth.mem_drop
  obtain ⟨y, hy⟩ : ∃ y, s₁.memo.group.drop s.memo.group.length = [y] := by
    refine List.length_eq_one_iff.1 (Nat.le_antisymm (by simpa using hlen) ?_)
    exact List.length_pos_of_mem hn
  intro x hx u hxu
  rw [hy, List.mem_singleton] at hx hn
  obtain rfl : n = x := hn.trans hx.symm
  obtain ⟨v, hv, -, hpart⟩ := h.part_collects (u := ⟨s.memo.count, ∅⟩) hstart
    (by simp [Memo.get?_start]) (OrderedSet.subset_refl _)
  obtain rfl : v = u := Option.some.inj (hv.symm.trans hxu)
  exact (h.closed_of_settled hcalls hstart hlow).2.mono
    (fun z C hz => hf.wf.close_done_of_done hz) hpart

omit [Recorder σ] in
/-- The answer of a set that stays on the stack. -/
theorem answered_left (hR : Regular script B ok R) {A : SymbolSet}
    (hu : s.memo.unfinished.get? n = none)
    (hup : ∀ x u, s.memo.unfinished.get? x = some u → TransGen R x n)
    (hext : (s.memo.start n).Extends s'.memo) (hB : s'.memo.Within B)
    (hc : s'.memo.Closed script B.reply)
    (hfirst : s'.memo.FirstPass R n s.memo.count (R n) a.low)
    (hlow : a.low.below s.memo.count = true) (hp : s'.memo.part? n = some A) :
    Memo.Answered script B ok R n s.memo ⟨A, a.low⟩ s'.memo := by
  have hold := (Memo.Extends.start hu).trans hext
  -- the number is that of a set that stood below `n`, and so the two lead to each other
  obtain ⟨y, w, hw, hl, hny⟩ := hfirst.leads.old hold hlow
  have hlt : w.number < s.memo.count := by simpa [hl, Low.below] using hlow
  refine ⟨hc, hR.cycle n A (hny.trans (hup y w hw)) (hB.part hp).2, ?_, ?_, ?_⟩
  · obtain ⟨v, hv, hvnum⟩ := hfirst.self
    refine .inr ⟨v, hv, ?_⟩
    simp only [hl, Low.below, decide_eq_true_eq]
    omega
  · intro p hpn l' hl'
    exact ⟨y, w, hw, Low.number.inj (hl.symm.trans hl'), .head hpn hny⟩
  · intro x u hxu hx
    refine ⟨?_, ⟨y, w, hw, (hfirst.up x u hxu).trans hny.to_reflTransGen⟩, ?_⟩
    · by_cases hxn : x = n
      · subst hxn
        exact .refl
      · exact (hfirst.above x u hxu hxn (hold.fresh x u hxu hx)).1
    · by_cases hxn : x = n
      · subst hxn
        exact hfirst.seen
      · exact (hfirst.above x u hxu hxn (hold.fresh x u hxu hx)).2

/-- What a part of a run does in a memo that is closed so far. -/
def Explores (script : Symbol → Script ι) (B : Bounds ι) (ok : Symbol → SymbolSet → Prop)
    (R : Symbol → Symbol → Prop) : (t : Task ι) → Session σ → t.Result → Session σ → Prop
  | .ask n, s, a, s' => B.key n → (∀ x u, s.memo.unfinished.get? x = some u → TransGen R x n) →
      Memo.Answered script B ok R n s.memo a s'.memo
  | .play (some n) p sum, s, a, s' => ∀ k seen, p.Within B (B.set n) →
      p.Covers B.reply ok (R n) seen → s.memo.FirstPass R n k seen sum.low →
      s'.memo.FirstPass R n k (R n) a.low ∧ s'.memo.Closed script B.reply
  | .settle _ mark, s, _, s' => s.memo.Ready R mark →
      s.memo.Stays s'.memo ∧ (s'.memo.close mark).Closed script B.reply
  | .finish _ mark low, s, _, s' =>
      (low ≠ .settled ∨ 1 < s.memo.group.length - mark → s.memo.Ready R mark) →
      (low = .settled → s.memo.group.length - mark ≤ 1 →
        ∀ x ∈ s.memo.group.drop mark, ∀ u, s.memo.unfinished.get? x = some u →
          (script x).ClosedAt (s.memo.close mark).done.get? B.reply u.part) →
      s.memo.Stays s'.memo ∧ (s'.memo.close mark).Closed script B.reply
  | .play none .., _, _, _ | .pass .., _, _, _ => True

theorem explored (hR : Regular script B ok R)
    (hscript : ∀ n, B.key n → (script n).Within B (B.set n)) (hcalls : RepliesWithin B Calls)
    {t : Task ι} {r : t.Result} (h : Run script Calls t s r s') (hs : s.memo.Wf)
    (hB : s.memo.Within B) (hc : s.memo.Closed script B.reply) :
    Explores script B ok R t s r s' := by
  induction h with
  | known hd =>
    intro _ _
    refine ⟨hc, hR.done _ hB hc _ _ hd, .inl ⟨_, hd⟩, ?_, ?_⟩
    · intro p _ l hl
      cases hl
    · intro x u hu hx
      simp [hx] at hu
  | @reentered n s u hd hu =>
    intro _ hup
    refine ⟨hc, hR.cycle n _ (hup n u hu) (hB.unfinished n u hu).2, .inr ⟨u, hu, ?_⟩, ?_, ?_⟩
    · simp [Low.below]
    · intro p hp l hl
      exact ⟨n, u, hu, Low.number.inj hl, .single hp⟩
    · intro x v hv hx
      simp [hx] at hv
  | @left n s a s' A hd hu hplay hlow hp ih =>
    intro hn hup
    have hstart := hs.start hd hu
    have hwithin := hplay.within hscript hcalls hstart (hB.start hn) (bounded_first (hscript n hn))
    obtain ⟨hfirst, hclosed⟩ := ih hstart (hB.start hn) hc s.memo.count _ (hscript n hn)
      (hR.covers n hn) (.start (fun x u hx => (hup x u hx).to_reflTransGen) hs)
    exact answered_left hR hu hup (hplay.frame hstart).growth hwithin.1 hclosed hfirst hlow hp
  | @closed n s a s₁ s₂ s' A hd hu hplay hlow hfin hclose hA ih₁ ih₂ =>
    intro hn hup
    have hstart := hs.start hd hu
    have hwithin := hplay.within hscript hcalls hstart (hB.start hn) (bounded_first (hscript n hn))
    obtain ⟨hfirst, hclosed⟩ := ih₁ hstart (hB.start hn) hc s.memo.count _ (hscript n hn)
      (hR.covers n hn) (.start (fun x u hx => (hup x u hx).to_reflTransGen) hs)
    have hf := hplay.frame hstart
    have hold := (Memo.Extends.start hu).trans hf.growth
    have hf₂ := hfin.frame hf.wf
    have hB₂ := hfin.within hscript hcalls hf.wf hwithin.1 (T := ∅) trivial
    have hclosed₂ : (s₂.memo.close s.memo.group.length).Closed script B.reply :=
      (ih₂ hf.wf hwithin.1 hclosed (hfirst.ready hs hf.wf hold hlow)
        (closed_alone hcalls hplay hs hd hu)).2
    rw [← (Solve.close_memo hclose).1] at hclosed₂
    have hB' : s'.memo.Within B := by
      rw [(Solve.close_memo hclose).1]
      exact hB₂.1.close hf₂.wf _
    refine ⟨hclosed₂, hR.done _ hB' hclosed₂ n A hA, .inl ⟨A, hA⟩, ?_, ?_⟩
    · intro p _ l hl
      cases hl
    · intro x u hxu hx
      rw [(Solve.close_memo hclose).1] at hxu
      obtain ⟨v, hv⟩ := (hold.trans hf₂.growth).close_fresh hs hf₂.wf hxu
      simp [hx] at hv
  | @done target sum s =>
    cases target with
    | none => trivial
    | some n => exact fun k seen _ hp hfirst => ⟨hfirst.mono hp, hc⟩
  | @emit target A p sum s a s' _ ih =>
    cases target with
    | none => trivial
    | some n =>
      rintro k seen ⟨hA, hp⟩ hcovers hfirst
      have hc' : (s.memo.grow n A).Closed script B.reply := hc.congr (by rw [Memo.grow_done])
      refine ih (hs.grow n A) (hB.grow hA) hc' k seen hp hcovers ?_
      rw [Answer.join_low, Low.min_settled]
      exact hfirst.grow A
  | @ask target m p sum s a s₁ b s' hask _ ih₁ ih₂ =>
    cases target with
    | none => trivial
    | some n =>
      rintro k seen ⟨hm, hp⟩ ⟨hnm, hcovers⟩ hfirst
      have hf := hask.frame hs
      have hwithin := hask.within hscript hcalls hs hB ⟨hm, rfl⟩
      have hanswer := ih₁ hs hB hc hm fun x u hu => .tail' (hfirst.up x u hu) hnm
      have hnext := hfirst.join hf.growth hnm hanswer
      exact ih₂ hf.wf hwithin.1 hanswer.closed k _ (hp _ hwithin.2) (hcovers _ hanswer.ok) hnext
  | @call target i p sum s A around b s' hcall _ ih =>
    cases target with
    | none => trivial
    | some n =>
      rintro k seen ⟨-, hp⟩ hcovers hfirst
      have hreply := hcalls _ _ _ _ hcall
      exact ih hs hB hc k seen (hp _ hreply) (hcovers _ hreply) hfirst
  | passed => trivial
  | same => trivial
  | grew => trivial
  | @stable first mark s s' hpass _ _ =>
    intro hready
    obtain ⟨hsame, hstable⟩ :=
      hpass.pass_again hR hscript hcalls hs hB hc hready (List.Subset.refl _)
    obtain ⟨-, hm, hmembers⟩ := hstable rfl
    refine ⟨hsame, ?_⟩
    rw [hm]
    exact hc.close hs hmembers
  | @again first mark s g s₁ s' hpass _ _ _ ih =>
    intro hready
    obtain ⟨hsame, -⟩ := hpass.pass_again hR hscript hcalls hs hB hc hready (List.Subset.refl _)
    have hwithin := hpass.within hscript hcalls hs hB (T := ∅) (hB.key_of_drop hs mark)
    obtain ⟨hsame', hclosed⟩ :=
      ih (hpass.frame hs).wf hwithin.1 (hc.congr hsame.done) (hready.congr hsame)
    exact ⟨hsame.trans hsame', hclosed⟩
  | @alone first mark s hlen =>
    intro _ hmembers
    exact ⟨⟨rfl, rfl⟩, hc.close hs (hmembers rfl hlen)⟩
  | @together first mark low s s' hmany _ ih =>
    intro hready _
    exact ih hs hB hc (hready hmany)

end Run

end FirstFollow
