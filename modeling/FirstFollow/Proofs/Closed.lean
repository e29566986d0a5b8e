import FirstFollow.Proofs.Bounds
import Mathlib.Logic.Relation

/-!
When finished sets solve their equations. A finished set is closed if acting out its script on the
finished sets finds nothing new. A group that rests on itself and on finished sets only is closed by
the pass that finds nothing grown (`Run.pass_again`).
-/

namespace FirstFollow

open Relation

variable {ι σ : Type}

/-! ### Closed scripts -/

namespace Script

variable {reply : ι → SymbolSet → Prop} {D D' : Symbol → Option SymbolSet} {A A' : SymbolSet}

/-- Acted out on the sets of `D`, a script asks for no other set and finds members of `A` only. -/
def ClosedAt (D : Symbol → Option SymbolSet) (reply : ι → SymbolSet → Prop) (A : SymbolSet) :
    Script ι → Prop
  | done => True
  | fail _ => False
  | emit B p => B ⊆ A ∧ p.ClosedAt D reply A
  | ask n k => ∃ B, D n = some B ∧ (k B).ClosedAt D reply A
  | call i k => ∃ B, reply i B ∧ (k B).ClosedAt D reply A

theorem ClosedAt.mono {p : Script ι} (h : p.ClosedAt D reply A)
    (hD : ∀ n B, D n = some B → D' n = some B) (hA : A ⊆ A') : p.ClosedAt D' reply A' := by
  induction p with
  | done => trivial
  | fail e => exact h
  | emit B p ih => exact ⟨OrderedSet.subset_trans h.1 hA, ih h.2⟩
  | ask n k ih =>
    obtain ⟨B, hB, hk⟩ := h
    exact ⟨B, hD n B hB, ih B hk⟩
  | call i k ih =>
    obtain ⟨B, hB, hk⟩ := h
    exact ⟨B, hB, ih B hk⟩

/-- A script that asks for the sets in `R` only, and for all of them but those in `seen`, if the
answers to it are `ok`. -/
def Covers (reply : ι → SymbolSet → Prop) (ok : Symbol → SymbolSet → Prop) (R : Symbol → Prop) :
    Script ι → (Symbol → Prop) → Prop
  | done, seen => ∀ y, R y → seen y
  | fail _, _ => True
  | emit _ p, seen => p.Covers reply ok R seen
  | ask n k, seen => R n ∧ ∀ A, ok n A → (k A).Covers reply ok R fun y => seen y ∨ y = n
  | call i k, seen => ∀ A, reply i A → (k A).Covers reply ok R seen

end Script

/-- Every finished set is closed. -/
def Memo.Closed (script : Symbol → Script ι) (reply : ι → SymbolSet → Prop) (m : Memo) : Prop :=
  ∀ x A, m.done.get? x = some A → (script x).ClosedAt m.done.get? reply A

theorem Memo.fresh_closed (script : Symbol → Script ι) (reply : ι → SymbolSet → Prop)
    (kind : SetKind) : (Memo.fresh kind).Closed script reply := by
  simp [Memo.Closed, Memo.fresh]

namespace Run

section Results

variable [Recorder σ] {script : Symbol → Script ι} {Calls : ι → σ → SymbolSet → σ → Prop}
  {s s' : Session σ} {n : Symbol} {a r sum : Answer} {target : Option Symbol}

/-! ### Single results -/

theorem ask_of_done (h : Run script Calls (.ask n) s a s') {A : SymbolSet}
    (hA : s.memo.done.get? n = some A) : a = ⟨A, .settled⟩ ∧ s' = s := by
  cases h with
  | known hd =>
    obtain rfl := Option.some.inj (hd.symm.trans hA)
    exact ⟨rfl, rfl⟩
  | reentered hd _ | left hd _ _ _ _ | closed hd _ _ _ _ _ _ => simp [hA] at hd

theorem ask_of_unfinished (h : Run script Calls (.ask n) s a s') (hs : s.memo.Wf) {u : Unfinished}
    (hu : s.memo.unfinished.get? n = some u) :
    a = ⟨u.part, .number u.number⟩ ∧ s'.memo = s.memo := by
  cases h with
  | known hd => simp [hs.unfinished_of_done hd] at hu
  | reentered _ hu' =>
    obtain rfl := Option.some.inj (hu'.symm.trans hu)
    exact ⟨rfl, rfl⟩
  | left _ hu' _ _ _ | closed _ hu' _ _ _ _ _ => simp [hu'] at hu

theorem collects {p : Script ι} (h : Run script Calls (.play target p sum) s r s') :
    sum.set ⊆ r.set := by
  induction p generalizing sum s with
  | done => cases h; exact OrderedSet.subset_refl _
  | fail e => cases h
  | emit A p ih =>
    cases h with
    | emit h => exact fun x hx => ih h x (by simp [hx])
  | ask n k ih =>
    cases h with
    | ask _ h => exact fun x hx => ih _ h x (by simp [hx])
  | call i k ih =>
    cases h with
    | call _ h => exact ih _ h

theorem part_collects {p : Script ι} (h : Run script Calls (.play (some n) p sum) s r s')
    (hs : s.memo.Wf) {u : Unfinished} (hu : s.memo.unfinished.get? n = some u)
    (hsum : sum.set ⊆ u.part) :
    ∃ u', s'.memo.unfinished.get? n = some u' ∧ u'.number = u.number ∧ r.set ⊆ u'.part := by
  induction p generalizing sum s u with
  | done => cases h; exact ⟨u, hu, rfl, hsum⟩
  | fail e => cases h
  | emit A p ih =>
    cases h with
    | emit h =>
      have hu' : (s.memo.grow n A).unfinished.get? n = some ⟨u.number, u.part ∪ A⟩ := by
        simp [Memo.get?_grow, hu]
      refine ih (u := ⟨u.number, u.part ∪ A⟩) h (hs.grow n A) hu' ?_
      intro x hx
      rcases OrderedSet.mem_union.1 hx with hx | hx
      · exact OrderedSet.mem_union.2 (.inl (hsum x hx))
      · exact OrderedSet.mem_union.2 (.inr hx)
  | ask m k ih =>
    cases h with
    | ask hask h =>
      have hf := hask.frame hs
      exact ih _ h hf.wf (hf.keeps n u id hu) (by simpa using hsum)
  | call i k ih =>
    cases h with
    | call _ h => exact ih _ h hs hu hsum

theorem answer (h : Run script Calls (.ask n) s a s') (hs : s.memo.Wf) :
    (a.low = .settled ∧ s'.memo.done.get? n = some a.set) ∨
      ∃ l u, a.low = .number l ∧ s'.memo.unfinished.get? n = some u ∧ u.part = a.set ∧
        l ≤ u.number := by
  cases h with
  | known hd => exact .inl ⟨rfl, hd⟩
  | reentered _ hu => exact .inr ⟨_, _, rfl, hu, rfl, le_rfl⟩
  | @left n s a s' A hd hu hplay hlow hp =>
    obtain ⟨u, hu', hA⟩ := Option.map_eq_some_iff.1 hp
    have hf := hplay.frame (hs.start hd hu)
    obtain ⟨v, hv, hnum, -⟩ := hf.growth.opened n ⟨s.memo.count, ∅⟩ (by simp [Memo.get?_start])
    obtain rfl : v = u := Option.some.inj (hv.symm.trans hu')
    cases hal : a.low with
    | settled => simp [hal, Low.below] at hlow
    | number l =>
      have hlt : l < s.memo.count := by simpa [hal, Low.below] using hlow
      exact .inr ⟨l, v, rfl, hu', hA, by simp only at hnum; omega⟩
  | closed _ _ _ _ _ _ hA => exact .inl ⟨rfl, hA⟩

/-- A first pass that rests on nothing unfinished is closed. -/
theorem closed_of_settled {B : Bounds ι} (hcalls : RepliesWithin B Calls) {p : Script ι}
    (h : Run script Calls (.play target p sum) s r s') (hs : s.memo.Wf)
    (hr : r.low = .settled) : sum.low = .settled ∧ p.ClosedAt s'.memo.done.get? B.reply r.set := by
  induction p generalizing sum s with
  | done => cases h; exact ⟨hr, trivial⟩
  | fail e => cases h
  | emit A p ih =>
    cases h with
    | emit h =>
      have hgrow : (s.grow target A).memo.Wf := by
        cases target with
        | none => exact hs
        | some n => exact hs.grow n A
      obtain ⟨hsum, hp⟩ := ih h hgrow
      rw [Answer.join_low, Low.min_settled] at hsum
      exact ⟨hsum, fun x hx => h.collects x (by simp [hx]), hp⟩
  | ask m k ih =>
    cases h with
    | @ask _ _ _ _ _ a s₁ _ _ hask h =>
      have hf := hask.frame hs
      obtain ⟨hsum, hp⟩ := ih _ h hf.wf
      rw [Answer.join_low] at hsum
      have hlow : sum.low = .settled ∧ a.low = .settled := by
        cases hs : sum.low <;> cases ha : a.low <;> simp_all
      obtain ⟨-, hdone⟩ | ⟨l, u, hl, -⟩ := hask.answer hs
      · exact ⟨hlow.1, a.set, (h.frame hf.wf).growth.done _ _ hdone, hp⟩
      · simp [hl] at hlow
  | call i k ih =>
    cases h with
    | call hc h =>
      obtain ⟨hsum, hp⟩ := ih _ h hs
      exact ⟨hsum, _, hcalls _ _ _ _ hc, hp⟩

end Results

end Run

/-! ### Groups that are settled -/

variable {script : Symbol → Script ι} {Calls : ι → σ → SymbolSet → σ → Prop} {B : Bounds ι}
  {ok : Symbol → SymbolSet → Prop} {R : Symbol → Symbol → Prop}

/-- A script rests on the sets in `R`, whatever it is answered. The answers are known to be `ok`
when the set is finished, and when it rests on itself. -/
structure Regular (script : Symbol → Script ι) (B : Bounds ι) (ok : Symbol → SymbolSet → Prop)
    (R : Symbol → Symbol → Prop) : Prop where
  covers : ∀ n, B.key n → (script n).Covers B.reply ok (R n) fun _ => False
  done : ∀ m : Memo, m.Within B → m.Closed script B.reply →
    ∀ x A, m.done.get? x = some A → ok x A
  cycle : ∀ x A, TransGen R x x → A.toSet ⊆ B.set x → ok x A

/-- Above `mark` stand sets that rest on themselves, on each other and on finished sets only. -/
structure Memo.Ready (R : Symbol → Symbol → Prop) (mark : Nat) (m : Memo) : Prop where
  next : ∀ x ∈ m.group.drop mark, ∀ y, R x y →
    (∃ A, m.done.get? y = some A) ∨ y ∈ m.group.drop mark
  cycle : ∀ x ∈ m.group.drop mark, TransGen R x x

namespace Memo

variable {m m' : Memo} {mark : Nat}

/-- The stack and the finished sets are the same. -/
structure Stays (m m' : Memo) : Prop where
  group : m'.group = m.group
  done : m'.done = m.done

theorem Stays.trans {m'' : Memo} (h : m.Stays m') (h' : m'.Stays m'') : m.Stays m'' :=
  ⟨h'.group.trans h.group, h'.done.trans h.done⟩

theorem Ready.congr (h : m.Ready R mark) (hm : m.Stays m') : m'.Ready R mark := by
  constructor
  · rw [hm.group, hm.done]
    exact h.next
  · rw [hm.group]
    exact h.cycle

theorem Closed.congr {reply : ι → SymbolSet → Prop} (h : m.Closed script reply)
    (hd : m'.done = m.done) : m'.Closed script reply := by
  rw [Closed, hd]
  exact h

/-- A group is closed with closed sets if its members are closed as they stand. -/
theorem Closed.close {reply : ι → SymbolSet → Prop} (h : m.Closed script reply) (hm : m.Wf)
    (hmembers : ∀ x ∈ m.group.drop mark, ∀ u, m.unfinished.get? x = some u →
      (script x).ClosedAt (m.close mark).done.get? reply u.part) :
    (m.close mark).Closed script reply := by
  intro x A hx
  rw [hm.close_done] at hx
  split at hx
  next hmem =>
    obtain ⟨u, hu, rfl⟩ := Option.map_eq_some_iff.1 hx
    exact hmembers x hmem u hu
  next hmem =>
    exact (h x A hx).mono (fun y C hy => hm.close_done_of_done hy) (OrderedSet.subset_refl A)

end Memo

namespace Run

variable [Recorder σ] {s s' : Session σ} {mark : Nat}

/-- Acted out again, the script of a member asks for nothing new and stays with the sets that the
group would be closed with. -/
theorem play_again (hR : Regular script B ok R)
    (hcalls : RepliesWithin B Calls) {x : Symbol} {p : Script ι}
    {seen : Symbol → Prop} {sum r : Answer} (h : Run script Calls (.play none p sum) s r s')
    (hs : s.memo.Wf) (hB : s.memo.Within B) (hc : s.memo.Closed script B.reply)
    (hready : s.memo.Ready R mark) (hx : x ∈ s.memo.group.drop mark)
    (hp : p.Covers B.reply ok (R x) seen) :
    s'.memo = s.memo ∧ p.ClosedAt (s.memo.close mark).done.get? B.reply r.set := by
  induction p generalizing s sum seen with
  | done => cases h; exact ⟨rfl, trivial⟩
  | fail e => cases h
  | emit A p ih =>
    cases h with
    | emit h =>
      obtain ⟨hm, hclosed⟩ := ih h hs hB hc hready hx hp
      exact ⟨hm, fun b hb => h.collects b (by simp [hb]), hclosed⟩
  | ask y k ih =>
    cases h with
    | @ask _ _ _ _ _ a s₁ _ _ hask h =>
      obtain ⟨hxy, hk⟩ := hp
      have hanswer : s₁.memo = s.memo ∧ ok y a.set ∧
          (s.memo.close mark).done.get? y = some a.set := by
        rcases hready.next x hx y hxy with ⟨A, hA⟩ | hy
        · obtain ⟨rfl, rfl⟩ := hask.ask_of_done hA
          exact ⟨rfl, hR.done _ hB hc y A hA, hs.close_done_of_done hA⟩
        · obtain ⟨u, hu⟩ := hs.mem_drop y hy
          obtain ⟨rfl, hm⟩ := hask.ask_of_unfinished hs hu
          exact ⟨hm, hR.cycle y _ (hready.cycle y hy) (hB.unfinished y u hu).2,
            by rw [hs.close_done, if_pos hy, Memo.part?, hu]; rfl⟩
      obtain ⟨hm, hok, hdone⟩ := hanswer
      obtain ⟨hm', hclosed⟩ :=
        ih _ h (hm ▸ hs) (hm ▸ hB) (hm ▸ hc) (hm ▸ hready) (hm ▸ hx) (hk _ hok)
      rw [hm] at hm' hclosed
      exact ⟨hm', a.set, hdone, hclosed⟩
  | call i k ih =>
    cases h with
    | call hcall h =>
      obtain ⟨hm, hclosed⟩ := ih _ h hs hB hc hready hx (hp _ (hcalls _ _ _ _ hcall))
      exact ⟨hm, _, hcalls _ _ _ _ hcall, hclosed⟩

/-- A pass over members of the group leaves stack and finished sets alone. If it finds nothing
grown, the members were closed already. -/
theorem pass_again (hR : Regular script B ok R)
    (hscript : ∀ n, B.key n → (script n).Within B (B.set n)) (hcalls : RepliesWithin B Calls)
    {first : Nat} {members : List Symbol} {grown g : Bool}
    (h : Run script Calls (.pass first members grown) s g s')
    (hs : s.memo.Wf) (hB : s.memo.Within B) (hc : s.memo.Closed script B.reply)
    (hready : s.memo.Ready R mark) (hmem : members ⊆ s.memo.group.drop mark) :
    s.memo.Stays s'.memo ∧
      (g = false → grown = false ∧ s'.memo = s.memo ∧
        ∀ x ∈ members, ∀ u, s.memo.unfinished.get? x = some u →
          (script x).ClosedAt (s.memo.close mark).done.get? B.reply u.part) := by
  induction members generalizing s grown with
  | nil => cases h; exact ⟨⟨rfl, rfl⟩, fun hg => ⟨hg, rfl, by simp⟩⟩
  | cons x rest ih =>
    obtain ⟨hx, hrest⟩ := List.cons_subset.1 hmem
    have hkey : B.key x := hB.key_of_drop hs mark x hx
    have hcovers := hR.covers x hkey
    cases h with
    | same hplay hp hsub hpass =>
      obtain ⟨hm, hclosed⟩ := hplay.play_again hR hcalls hs hB hc hready hx hcovers
      obtain ⟨hsame, hstable⟩ := ih hpass (hm ▸ hs) (hm ▸ hB) (hm ▸ hc) (hm ▸ hready) (hm ▸ hrest)
      simp only [Session.note_memo, hm] at hsame hstable hp
      refine ⟨hsame, fun hg => ?_⟩
      obtain ⟨hgrown, hm', hall⟩ := hstable hg
      refine ⟨hgrown, hm', fun y hy u hu => ?_⟩
      rcases List.mem_cons.1 hy with rfl | hy
      · obtain ⟨v, hv, rfl⟩ := Option.map_eq_some_iff.1 hp
        obtain rfl : v = u := Option.some.inj (hv.symm.trans hu)
        exact hclosed.mono (fun _ _ => id) hsub
      · exact hall y hy u hu
    | @grew _ _ _ _ _ a s₁ A _ _ hplay hp hsub hpass =>
      obtain ⟨hm, -⟩ := hplay.play_again hR hcalls hs hB hc hready hx hcovers
      have hw := hplay.within hscript hcalls hs hB (bounded_again (hscript x hkey))
      have hgrown : s.memo.Stays (s₁.memo.grow x a.set) :=
        ⟨by rw [Memo.grow_group, hm], by rw [Memo.grow_done, hm]⟩
      obtain ⟨hsame, hstable⟩ := ih hpass ((hm ▸ hs : s₁.memo.Wf).grow x a.set) (hw.1.grow hw.2)
        (hc.congr hgrown.done) (hready.congr hgrown) (hgrown.group ▸ hrest)
      refine ⟨hgrown.trans hsame, fun hg => ?_⟩
      cases (hstable hg).1

end Run

end FirstFollow
