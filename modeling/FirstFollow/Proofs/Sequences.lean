import FirstFollow.Proofs.Changes
import FirstFollow.Proofs.Keys

/-!
FIRST of sequences that are put together. A memo may hold less than the least FIRST sets, but a
finished set stays as it is, so all that a builder answers about FIRST agrees with the sets that it
ends with (`Builder.Steady.run_fits`). What holds of a scan over any sets holds of the answers.
-/

namespace FirstFollow

/-! ### Scans -/

section

variable {F : Symbol → Set Symbol} {xs : Derivation}

/-- A sequence can vanish if and only if it is made of nonterminals that can. -/
theorem epsilon_mem_scanSet_iff (hxs : .epsilon ∉ xs) :
    .epsilon ∈ scanSet F xs ↔ ∀ s ∈ xs, s.isNonterminal ∧ .epsilon ∈ F s := by
  induction xs with
  | nil => simp [scanSet]
  | cons s rest ih =>
    obtain ⟨hs, hrest⟩ := not_or.1 (mt List.mem_cons.2 hxs)
    rw [List.forall_mem_cons, ← ih hrest]
    cases s with
    | epsilon => exact absurd rfl hs
    | _ => simp [scanSet, Symbol.isNonterminal]

/-- What cannot vanish hides all that comes after it. -/
theorem scanSet_append_of_not_mem (hε : .epsilon ∉ scanSet F xs) (ys : Derivation) :
    scanSet F (xs ++ ys) = scanSet F xs := by
  induction xs with
  | nil => exact absurd rfl hε
  | cons s rest ih =>
    cases s with
    | nonterminal name =>
      by_cases hn : .epsilon ∈ F (.nonterminal name)
      · have hrest : .epsilon ∉ scanSet F rest := fun h => hε (.inr ⟨hn, h⟩)
        simp only [List.cons_append, scanSet, ih hrest]
      · simp [scanSet, hn]
    | _ => rfl

theorem scanSet_append_of_mem (hxs : .epsilon ∉ xs) (hε : .epsilon ∈ scanSet F xs)
    (ys : Derivation) : scanSet F (xs ++ ys) = scanSet F xs \ {.epsilon} ∪ scanSet F ys := by
  induction xs with
  | nil => simp [scanSet]
  | cons s rest ih =>
    obtain ⟨-, hrest⟩ := not_or.1 (mt List.mem_cons.2 hxs)
    obtain ⟨⟨hs, hn⟩, hvanish⟩ := List.forall_mem_cons.1 ((epsilon_mem_scanSet_iff hxs).1 hε)
    obtain ⟨name, rfl⟩ := Symbol.isNonterminal_iff.1 hs
    rw [List.cons_append, scanSet, scanSet, ih hrest ((epsilon_mem_scanSet_iff hrest).2 hvanish)]
    simp only [hn, true_and, Set.ofPred_mem_eq, Set.union_sdiff_distrib, sdiff_idem,
      Set.union_assoc]

end

/-! ### Answers about FIRST -/

variable {g : Grammar} {F : Symbol → Set Symbol}

/-- A question about FIRST is answered with what `F` says. -/
def Step.FitsFirst (F : Symbol → Set Symbol) (o : Outcome) : Step → Prop
  | .first n => o.Gives (F n)
  | .sequence d => o.Gives (scanSet F d)
  | .follow _ | .every _ => True

/-- Sets that a later memo agrees with have been agreed with before. -/
theorem Memos.Changes.fits {ms ms' : Memos} {es : List Event} (h : ms.Changes es ms')
    (hms : ms.Wf) (kind : SetKind) (hF : (ms' kind).Fits F) : (ms kind).Fits F :=
  fun n A hA => hF n A (h.done hms hA)

theorem Outcome.Gives.toSet_eq {o : Outcome} {T : Set Symbol} {A : SymbolSet} (h : o.Gives T)
    (hreply : o.reply = .ok (.set A)) : A.toSet = T := by
  obtain ⟨C, hC, rfl⟩ := h
  rw [hreply] at hC
  cases hC
  rfl

namespace Builder

theorem Steady.step_fits {b : Builder} (hb : b.Steady g) {q : Step} (hq : q.AboutKeys g)
    (hF : (b.step q).2.first.Fits F) : q.FitsFirst F (b.step q).1 := by
  cases q with
  | first n =>
    obtain ⟨A, s', hstep, hA⟩ := hb.step_first hq
    rw [hstep] at hF ⊢
    exact ⟨A, rfl, hF n A hA⟩
  | sequence d =>
    obtain ⟨A, s', hstep, hA⟩ := hb.step_sequence hq
    rw [hstep] at hF ⊢
    exact ⟨A, rfl, hA F hF⟩
  | follow | every => trivial

/-- All answers of a run about FIRST agree with the sets that it ends with. -/
theorem Steady.run_fits {b : Builder} (hb : b.Steady g) (hms : b.memos.Wf) {qs : List Step}
    (hqs : ∀ q ∈ qs, q.AboutKeys g) (hF : (b.run qs).2.first.Fits F) :
    List.Forall₂ (fun q o => q.FitsFirst F o) qs (b.run qs).1 := by
  induction qs generalizing b with
  | nil => exact .nil
  | cons q qs ih =>
    have hq := hqs q (by simp)
    have hms₁ := (step_changes hms q).memos_wf hms
    -- the memo after this step is not yet the last one, but it agrees with what the last one does
    have hF₁ : (b.step q).2.first.Fits F := (run_changes hms₁ qs).fits hms₁ .first hF
    exact .cons (hb.step_fits hq hF₁) (ih (hb.step hq).1 hms₁ (fun p hp => hqs p (by simp [hp])) hF)

/-- In the run of `ps`, the question `q` gave the set `A`. -/
def Answers (b : Builder) (ps : List Step) (q : Step) (A : SymbolSet) : Prop :=
  ∃ r ∈ ps.zip (b.run ps).1, r.1 = q ∧ r.2.reply = .ok (.set A)

instance (b : Builder) (ps : List Step) (q : Step) (A : SymbolSet) :
    Decidable (b.Answers ps q A) :=
  inferInstanceAs (Decidable (∃ r ∈ _, _))

namespace Answers

variable {b : Builder} {ps : List Step} {A : SymbolSet}
  (hfits : List.Forall₂ (fun q o => q.FitsFirst F o) ps (b.run ps).1)

include hfits

theorem toSet_first {n : Symbol} (h : b.Answers ps (.first n) A) : A.toSet = F n := by
  obtain ⟨⟨q, o⟩, hr, rfl, hreply⟩ := h
  have hgives : o.Gives (F n) := List.forall₂_zip hfits hr
  exact hgives.toSet_eq hreply

theorem toSet_sequence {d : Derivation} (h : b.Answers ps (.sequence d) A) :
    A.toSet = scanSet F d := by
  obtain ⟨⟨q, o⟩, hr, rfl, hreply⟩ := h
  have hgives : o.Gives (scanSet F d) := List.forall₂_zip hfits hr
  exact hgives.toSet_eq hreply

theorem append {B C : SymbolSet} {xs ys : Derivation} (hxs : .epsilon ∉ xs)
    (hA : b.Answers ps (.sequence (xs ++ ys)) A) (hB : b.Answers ps (.sequence xs) B)
    (hC : b.Answers ps (.sequence ys) C) :
    A = if .epsilon ∈ B then B.erase .epsilon ∪ C else B := by
  have hB' := hB.toSet_sequence hfits
  apply OrderedSet.toSet_inj
  rw [hA.toSet_sequence hfits]
  split
  next hε =>
    rw [← OrderedSet.mem_toSet, hB'] at hε
    rw [scanSet_append_of_mem hxs hε, OrderedSet.toSet_union, OrderedSet.toSet_erase, hB',
      hC.toSet_sequence hfits]
  next hε =>
    rw [← OrderedSet.mem_toSet, hB'] at hε
    rw [scanSet_append_of_not_mem hε, hB']

theorem epsilon_mem_iff {xs : Derivation} {D : Symbol → SymbolSet} (hxs : .epsilon ∉ xs)
    (hA : b.Answers ps (.sequence xs) A)
    (hD : ∀ s ∈ xs, s.isNonterminal → b.Answers ps (.first s) (D s)) :
    .epsilon ∈ A ↔ ∀ s ∈ xs, s.isNonterminal ∧ .epsilon ∈ D s := by
  rw [← OrderedSet.mem_toSet, hA.toSet_sequence hfits, epsilon_mem_scanSet_iff hxs]
  refine forall₂_congr fun s hs => and_congr_right fun hn => ?_
  rw [← (hD s hs hn).toSet_first hfits, OrderedSet.mem_toSet]

end Answers

/-- On a builder that was asked about keys, in whatever modes, all further questions about keys are
answered. What a sequence begins with then follows from what its two parts begin with, whichever of
them was asked for first, and it can vanish if and only if it is made of nonterminals that can. -/
theorem sequences_append (g : Grammar) (every : Bool) {qs ps : List Step}
    (hqs : ∀ q ∈ qs, q.AboutKeys g) (hps : ∀ p ∈ ps, p.AboutKeys g) {b : Builder}
    (hb : ((new g every).run qs).2 = b) {xs : Derivation} (hxs : .epsilon ∉ xs)
    (ys : Derivation) :
    List.Forall₂ (fun p o => p.Asks g → ∃ A, o.reply = .ok (.set A)) ps (b.run ps).1 ∧
    (∀ A B C, b.Answers ps (.sequence (xs ++ ys)) A → b.Answers ps (.sequence xs) B →
      b.Answers ps (.sequence ys) C → A = if .epsilon ∈ B then B.erase .epsilon ∪ C else B) ∧
    ∀ B (D : Symbol → SymbolSet), b.Answers ps (.sequence xs) B →
      (∀ s ∈ xs, s.isNonterminal → b.Answers ps (.first s) (D s)) →
      (.epsilon ∈ B ↔ ∀ s ∈ xs, s.isNonterminal ∧ .epsilon ∈ D s) := by
  subst hb
  have hms := memos_new_wf g every
  have hsteady := ((steady_new g every).run hqs).1
  have hfits := hsteady.run_fits ((run_changes hms qs).memos_wf hms) hps (Memo.fits_sets _)
  refine ⟨(hsteady.run hps).2.imp fun p o ho hp => ?_,
    fun A B C hA hB hC => hA.append hfits hxs hB hC,
    fun B D hB hD => hB.epsilon_mem_iff hfits hxs hD⟩
  cases p with
  | every value => exact hp.elim
  | first | follow | sequence =>
    obtain ⟨A, hreply, -⟩ := ho
    exact ⟨A, hreply⟩

/-- A sequence is asked for before its parts, the first of which is `B A`. -/
def scattered : List Step :=
  [.sequence [.nonterminal "B", .nonterminal "A", .terminal "b"], .first (.nonterminal "A"),
    .sequence [.terminal "b"], .every true, .sequence [.nonterminal "B", .nonterminal "A"],
    .first (.nonterminal "B")]

/-- The answers agree with each other, although both nonterminals are left without `a`. -/
theorem sequences_append_entangled :
    (∀ q ∈ [Step.follow (.nonterminal "B")], q.AboutKeys .entangled) ∧
    (∀ p ∈ scattered, p.AboutKeys .entangled) ∧
    Symbol.epsilon ∉ [Symbol.nonterminal "B", .nonterminal "A"] ∧
    ∃ b, ((new .entangled false).run [.follow (.nonterminal "B")]).2 = b ∧
      b.Answers scattered (.sequence [.nonterminal "B", .nonterminal "A", .terminal "b"])
        {.terminal "b"} ∧
      b.Answers scattered (.sequence [.nonterminal "B", .nonterminal "A"]) {.epsilon} ∧
      b.Answers scattered (.sequence [.terminal "b"]) {.terminal "b"} ∧
      ({.terminal "b"} : SymbolSet) =
        if .epsilon ∈ ({.epsilon} : SymbolSet) then
          OrderedSet.erase {.epsilon} .epsilon ∪ {.terminal "b"}
        else {.epsilon} := by
  have hqs : ∀ q ∈ [Step.follow (.nonterminal "B")], q.AboutKeys .entangled := by decide
  have hps : ∀ p ∈ scattered, p.AboutKeys .entangled := by decide
  have hxs : Symbol.epsilon ∉ [Symbol.nonterminal "B", .nonterminal "A"] := by decide
  obtain ⟨-, happend, -⟩ :=
    sequences_append .entangled false hqs hps rfl hxs [.terminal "b"]
  have hwhole : ((new .entangled false).run [.follow (.nonterminal "B")]).2.Answers scattered
      (.sequence [.nonterminal "B", .nonterminal "A", .terminal "b"])
        {.terminal "b"} := by
    decide +kernel
  have hleft : ((new .entangled false).run [.follow (.nonterminal "B")]).2.Answers scattered
      (.sequence [.nonterminal "B", .nonterminal "A"]) {.epsilon} := by
    decide +kernel
  have hright : ((new .entangled false).run [.follow (.nonterminal "B")]).2.Answers scattered
      (.sequence [.terminal "b"]) {.terminal "b"} := by
    decide +kernel
  exact ⟨hqs, hps, hxs, _, rfl, hwhole, hleft, hright, happend _ _ _ hwhole hleft hright⟩

end Builder

end FirstFollow
