import FirstFollow.Proofs.Run

/-!
Upper bounds on what a memo may hold. If every script stays within some sets as long as its answers
do, then so do all sets of a run, the partial ones included (`Run.within`).
-/

namespace FirstFollow

namespace OrderedSet

variable {α : Type} [StrictOrder α]

/-- The members of a finite set. -/
def toSet (s : OrderedSet α) : Set α := { a | a ∈ s }

@[simp] theorem mem_toSet {s : OrderedSet α} {a : α} : a ∈ s.toSet ↔ a ∈ s := Iff.rfl

theorem toSet_inj {s t : OrderedSet α} (h : s.toSet = t.toSet) : s = t :=
  OrderedSet.ext fun a => Set.ext_iff.1 h a

@[simp] theorem toSet_empty : (∅ : OrderedSet α).toSet = ∅ := by ext; simp

@[simp] theorem toSet_singleton (a : α) : ({a} : OrderedSet α).toSet = {a} := by ext; simp

@[simp] theorem toSet_union [DecidableEq α] (s t : OrderedSet α) :
    (s ∪ t).toSet = s.toSet ∪ t.toSet := by ext; simp

@[simp] theorem toSet_erase [DecidableEq α] (s : OrderedSet α) (a : α) :
    (s.erase a).toSet = s.toSet \ {a} := by ext; simp

end OrderedSet

/-- What may be asked for and what may be answered. -/
structure Bounds (ι : Type) where
  key : Symbol → Prop
  set : Symbol → Set Symbol
  input : ι → Prop
  reply : ι → SymbolSet → Prop

/-- A script that asks within bounds and, being answered within them, emits members of `T` only and
does not fail. -/
def Script.Within {ι : Type} (B : Bounds ι) (T : Set Symbol) : Script ι → Prop
  | done => True
  | fail _ => False
  | emit A p => A.toSet ⊆ T ∧ p.Within B T
  | ask n k => B.key n ∧ ∀ A, A.toSet ⊆ B.set n → (k A).Within B T
  | call i k => B.input i ∧ ∀ A, B.reply i A → (k A).Within B T

namespace Memo

variable {ι : Type} {B : Bounds ι} {m : Memo} {n : Symbol} {A : SymbolSet}

/-- Keys only are begun, and all that is found lies within the bounds. -/
structure Within (B : Bounds ι) (m : Memo) : Prop where
  done : ∀ x A, m.done.get? x = some A → B.key x ∧ A.toSet ⊆ B.set x
  unfinished : ∀ x u, m.unfinished.get? x = some u → B.key x ∧ u.part.toSet ⊆ B.set x

theorem fresh_within (B : Bounds ι) (kind : SetKind) : (fresh kind).Within B where
  done := by simp [fresh]
  unfinished := by simp [fresh]

theorem Within.start (h : m.Within B) (hn : B.key n) : (m.start n).Within B where
  done := h.done
  unfinished := by
    intro x u hu
    rw [get?_start] at hu
    split at hu
    next hx =>
      cases hu
      subst hx
      exact ⟨hn, by simp⟩
    next => exact h.unfinished x u hu

theorem Within.grow (h : m.Within B) (hA : A.toSet ⊆ B.set n) : (m.grow n A).Within B where
  done := by simpa using h.done
  unfinished := by
    intro x u hu
    rw [get?_grow] at hu
    obtain ⟨v, hv, rfl⟩ := Option.map_eq_some_iff.1 hu
    obtain ⟨hkey, hpart⟩ := h.unfinished x v hv
    refine ⟨hkey, ?_⟩
    split
    next hx =>
      subst hx
      rw [OrderedSet.toSet_union]
      exact Set.union_subset hpart hA
    next => exact hpart

theorem Within.part (h : m.Within B) (hp : m.part? n = some A) :
    B.key n ∧ A.toSet ⊆ B.set n := by
  obtain ⟨u, hu, rfl⟩ := Option.map_eq_some_iff.1 hp
  exact h.unfinished n u hu

theorem Within.key_of_drop (h : m.Within B) (hm : m.Wf) (mark : Nat) :
    ∀ x ∈ m.group.drop mark, B.key x := by
  intro x hx
  obtain ⟨u, hu⟩ := hm.mem_drop x hx
  exact (h.unfinished x u hu).1

theorem Within.close (h : m.Within B) (hm : m.Wf) (mark : Nat) : (m.close mark).Within B where
  done := by
    intro x A hx
    rw [hm.close_done] at hx
    split at hx
    · exact h.part hx
    · exact h.done x A hx
  unfinished := by
    intro x u hu
    rw [hm.close_unfinished] at hu
    split at hu
    · cases hu
    · exact h.unfinished x u hu

end Memo

namespace Run

variable {ι σ : Type} [Recorder σ] {script : Symbol → Script ι}
  {Calls : ι → σ → SymbolSet → σ → Prop} {B : Bounds ι}

/-- A task whose own results stay in `T`. -/
def Bounded (B : Bounds ι) (T : Set Symbol) : Task ι → Prop
  | .ask n => B.key n ∧ T = B.set n
  | .play target p sum =>
    p.Within B T ∧ sum.set.toSet ⊆ T ∧ ∀ n, target = some n → T ⊆ B.set n
  | .pass _ members _ => ∀ n ∈ members, B.key n
  | .settle .. | .finish .. => True

def ResultIn (T : Set Symbol) : (t : Task ι) → t.Result → Prop
  | .ask _, a | .play .., a => a.set.toSet ⊆ T
  | .pass .., _ | .settle .., _ | .finish .., _ => True

theorem bounded_first {n : Symbol} (h : (script n).Within B (B.set n)) :
    Bounded B (B.set n) (.play (some n) (script n) ∅) := by
  refine ⟨h, by simp, ?_⟩
  rintro m ⟨⟩
  exact subset_rfl

theorem bounded_again {n : Symbol} (h : (script n).Within B (B.set n)) :
    Bounded B (B.set n) (.play none (script n) ∅) :=
  ⟨h, by simp, by simp⟩

/-- All that is called for is answered within the bounds. -/
def RepliesWithin (B : Bounds ι) (Calls : ι → σ → SymbolSet → σ → Prop) : Prop :=
  ∀ i a A a', Calls i a A a' → B.reply i A

theorem within (hscript : ∀ n, B.key n → (script n).Within B (B.set n))
    (hcalls : RepliesWithin B Calls) {t : Task ι} {s s' : Session σ} {r : t.Result}
    (h : Run script Calls t s r s') (hs : s.memo.Wf) (hB : s.memo.Within B) {T : Set Symbol}
    (ht : Bounded B T t) : s'.memo.Within B ∧ ResultIn T t r := by
  induction h generalizing T with
  | known hd =>
    obtain ⟨-, rfl⟩ := ht
    exact ⟨hB, (hB.done _ _ hd).2⟩
  | reentered _ hu =>
    obtain ⟨-, rfl⟩ := ht
    exact ⟨hB, (hB.unfinished _ _ hu).2⟩
  | left hd hu hplay _ hp ih =>
    obtain ⟨hn, rfl⟩ := ht
    have h := ih (hs.start hd hu) (hB.start hn) (bounded_first (hscript _ hn))
    exact ⟨h.1, (h.1.part hp).2⟩
  | @closed n s a s₁ s₂ s' A hd hu hplay _ hfin hc hA ih₁ ih₂ =>
    obtain ⟨hn, rfl⟩ := ht
    have hw₁ := (hplay.frame (hs.start hd hu)).wf
    have h₁ := ih₁ (hs.start hd hu) (hB.start hn) (bounded_first (hscript _ hn))
    have h₂ := ih₂ (T := ∅) hw₁ h₁.1 trivial
    have h := h₂.1.close (hfin.frame hw₁).wf s.memo.group.length
    rw [← (Solve.close_memo hc).1] at h
    exact ⟨h, (h.done _ _ hA).2⟩
  | done => exact ⟨hB, ht.2.1⟩
  | @emit target A p sum s a s' _ ih =>
    obtain ⟨⟨hA, hp⟩, hsum, htarget⟩ := ht
    have hsum' : (sum.join ⟨A, .settled⟩).set.toSet ⊆ T := by
      rw [Answer.join_set, OrderedSet.toSet_union]
      exact Set.union_subset hsum hA
    cases target with
    | none => exact ih hs hB ⟨hp, hsum', htarget⟩
    | some n =>
      exact ih (hs.grow n A) (hB.grow (hA.trans (htarget n rfl))) ⟨hp, hsum', htarget⟩
  | ask hask _ ih₁ ih₂ =>
    obtain ⟨⟨hn, hk⟩, hsum, htarget⟩ := ht
    have h₁ := ih₁ hs hB ⟨hn, rfl⟩
    exact ih₂ (hask.frame hs).wf h₁.1 ⟨hk _ h₁.2, by simpa using hsum, htarget⟩
  | call hcall _ ih =>
    obtain ⟨⟨-, hk⟩, hsum, htarget⟩ := ht
    exact ih hs hB ⟨hk _ (hcalls _ _ _ _ hcall), hsum, htarget⟩
  | passed => exact ⟨hB, trivial⟩
  | same hplay _ _ _ ih₁ ih₂ =>
    have h₁ := ih₁ hs hB (bounded_again (hscript _ (ht _ (by simp))))
    exact ih₂ (T := T) (hplay.frame hs).wf h₁.1 fun n hn => ht n (by simp [hn])
  | @grew first n rest grown s a s₁ A g s' hplay _ _ _ ih₁ ih₂ =>
    have h₁ := ih₁ hs hB (bounded_again (hscript _ (ht _ (by simp))))
    exact ih₂ (T := T) ((hplay.frame hs).wf.grow n a.set) (h₁.1.grow h₁.2)
      fun n hn => ht n (by simp [hn])
  | @stable first mark s s' _ _ ih =>
    exact ⟨(ih (T := T) hs hB (hB.key_of_drop hs mark)).1, trivial⟩
  | @again first mark s g s₁ s' hpass _ _ ih₁ ih₂ =>
    have h₁ := ih₁ (T := T) hs hB (hB.key_of_drop hs mark)
    exact ⟨(ih₂ (T := T) (hpass.frame hs).wf h₁.1 trivial).1, trivial⟩
  | alone _ => exact ⟨hB, trivial⟩
  | together _ _ ih => exact ⟨(ih (T := T) hs hB trivial).1, trivial⟩

end Run

end FirstFollow
