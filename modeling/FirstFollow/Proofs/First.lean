import FirstFollow.Builder
import FirstFollow.Proofs.Explored
import FirstFollow.Proofs.LeastSets
import FirstFollow.Proofs.Total

/-!
The FIRST sets that are computed. They are found for every key and hold nothing that the least sets
do not (`FirstMemo.within`), and they are the least sets if no nonterminal that can vanish begins
with itself (`FirstMemo.exact`).
-/

namespace FirstFollow

open Relation

/-! ### Scripts of scans -/

namespace Script

variable {ι : Type} {B : Bounds ι} {T : Set Symbol} {reply : ι → SymbolSet → Prop}
  {D : Symbol → Option SymbolSet} {A : SymbolSet} {F : Symbol → Set Symbol} {R : Symbol → Prop}
  {d : Derivation} {ds : List Derivation} {seen : Symbol → Prop}

theorem Covers.mono {ok : Symbol → SymbolSet → Prop} {p : Script ι} {seen' : Symbol → Prop}
    (h : p.Covers reply ok R seen) (hseen : ∀ y, seen y → seen' y) :
    p.Covers reply ok R seen' := by
  induction p generalizing seen seen' with
  | done => exact fun y hy => hseen y (h y hy)
  | fail e => trivial
  | emit A p ih => exact ih h hseen
  | ask n k ih =>
    exact ⟨h.1, fun A hA => ih A (h.2 A hA) fun y hy => hy.imp_left (hseen y)⟩
  | call i k ih => exact fun A hA => ih A (h A hA) hseen

theorem scanning_within {k : SymbolSet → Script ι} (hd : ∀ s ∈ d, s.isNonterminal → B.key s)
    (hk : ∀ C : SymbolSet, C.toSet ⊆ scanSet B.set d → (k C).Within B T) :
    (scanning d k).Within B T := by
  induction d generalizing k with
  | nil => exact hk _ (by simp [scanSet])
  | cons s rest ih =>
    cases s with
    | nonterminal name =>
      refine ⟨hd _ (by simp) rfl, fun C hC => ?_⟩
      beta_reduce
      split
      next hε =>
        refine ih (fun t ht => hd t (by simp [ht])) fun E hE => hk _ ?_
        rw [OrderedSet.toSet_union, OrderedSet.toSet_erase]
        apply Set.union_subset_union
        · exact Set.sdiff_subset_sdiff_left hC
        · exact fun a ha => ⟨hC hε, hE ha⟩
      next hε =>
        refine hk C fun a ha => .inl ⟨hC ha, ?_⟩
        rintro rfl
        exact hε ha
    | _ => exact hk _ (by simp [scanSet])

/-- A closed scan goes on with what can begin the sequence. -/
theorem scanning_closedAt {k : SymbolSet → Script ι} (h : (scanning d k).ClosedAt D reply A)
    (hF : ∀ n C, D n = some C → C.toSet = F n) :
    ∃ C : SymbolSet, C.toSet = scanSet F d ∧ (k C).ClosedAt D reply A := by
  induction d generalizing k with
  | nil =>
    refine ⟨{Symbol.epsilon}, ?_, h⟩
    simp [scanSet]
  | cons s rest ih =>
    cases s with
    | nonterminal name =>
      obtain ⟨C, hC, h⟩ := h
      have hCF := hF _ C hC
      beta_reduce at h
      split at h
      next hε =>
        obtain ⟨E, hE, hk⟩ := ih h
        refine ⟨_, ?_, hk⟩
        have hεF : .epsilon ∈ F (.nonterminal name) := hCF ▸ hε
        simp [scanSet, hCF, hE, hεF]
      next hε =>
        refine ⟨C, ?_, h⟩
        have hεF : .epsilon ∉ F (.nonterminal name) := hCF ▸ hε
        simp [scanSet, hCF, hεF]
    | _ =>
      refine ⟨_, ?_, h⟩
      simp [scanSet]

/-- Answers that are right about what can vanish. -/
def Vanishing (F : Symbol → Set Symbol) (n : Symbol) (A : SymbolSet) : Prop :=
  .epsilon ∈ A ↔ .epsilon ∈ F n

theorem scanning_covers {k : SymbolSet → Script ι} (hR : ∀ y, Starts F d y → R y)
    (hk : ∀ C, (k C).Covers reply (Vanishing F) R fun y => seen y ∨ Starts F d y) :
    (scanning d k).Covers reply (Vanishing F) R seen := by
  induction d generalizing k seen with
  | nil => exact (hk _).mono fun y hy => hy.resolve_right starts_nil
  | cons s rest ih =>
    cases s with
    | nonterminal name =>
      refine ⟨hR _ (starts_cons.2 ⟨rfl, .inl rfl⟩), fun C hC => ?_⟩
      beta_reduce
      split
      next hε =>
        have hεF := hC.1 hε
        refine ih (fun y hy => hR y (starts_cons.2 ⟨rfl, .inr ⟨hεF, hy⟩⟩)) fun E => (hk _).mono ?_
        rintro y (hy | hy)
        · exact .inl (.inl hy)
        · rcases (starts_cons.1 hy).2 with rfl | ⟨-, hy⟩
          · exact .inl (.inr rfl)
          · exact .inr hy
      next hε =>
        apply (hk C).mono
        rintro y (hy | hy)
        · exact .inl hy
        · rcases (starts_cons.1 hy).2 with rfl | ⟨hεF, -⟩
          · exact .inr rfl
          · exact absurd (hC.2 hεF) hε
    | _ =>
      apply (hk _).mono
      exact fun y hy => hy.resolve_right fun h => by simpa using (starts_cons.1 h).1

theorem alternatives_within (hd : ∀ d ∈ ds, ∀ s ∈ d, s.isNonterminal → B.key s)
    (hT : ∀ d ∈ ds, scanSet B.set d ⊆ T) : (alternatives ds).Within B T := by
  induction ds with
  | nil => trivial
  | cons d ds ih =>
    refine scanning_within (hd d (by simp)) fun C hC => ⟨hC.trans (hT d (by simp)), ?_⟩
    exact ih (fun e he => hd e (by simp [he])) fun e he => hT e (by simp [he])

theorem alternatives_closedAt (h : (alternatives ds).ClosedAt D reply A)
    (hF : ∀ n C, D n = some C → C.toSet = F n) : ∀ d ∈ ds, scanSet F d ⊆ A.toSet := by
  induction ds with
  | nil => simp
  | cons d ds ih =>
    obtain ⟨C, hC, hsub, hrest⟩ := scanning_closedAt h hF
    intro e he
    rcases List.mem_cons.1 he with rfl | he
    · exact hC ▸ hsub
    · exact ih hrest e he

theorem alternatives_covers (hR : ∀ d ∈ ds, ∀ y, Starts F d y → R y)
    (hall : ∀ y, R y → seen y ∨ ∃ d ∈ ds, Starts F d y) :
    (alternatives ds).Covers reply (Vanishing F) R seen := by
  induction ds generalizing seen with
  | nil => exact fun y hy => (hall y hy).resolve_right (by simp)
  | cons d ds ih =>
    refine scanning_covers (hR d (by simp)) fun C => ?_
    refine ih (fun e he => hR e (by simp [he])) fun y hy => ?_
    rcases hall y hy with hy | ⟨e, he, hy⟩
    · exact .inl (.inl hy)
    · rcases List.mem_cons.1 he with rfl | he
      · exact .inl (.inr hy)
      · exact .inr ⟨e, he, hy⟩

end Script

/-! ### Runs of the FIRST equation -/

/-- The finished sets are those that `F` tells. -/
def Memo.Fits (F : Symbol → Set Symbol) (m : Memo) : Prop :=
  ∀ n A, m.done.get? n = some A → A.toSet = F n

theorem Memo.Fits.of_extends {F : Symbol → Set Symbol} {m m' : Memo} (h : m'.Fits F)
    (hm : m.Extends m') : m.Fits F :=
  fun n A hA => h n A (hm.done n A hA)

/-- The finished sets, and all symbols where there is none. -/
def Memo.upper (m : Memo) (n : Symbol) : Set Symbol := {a | ∀ A, m.done.get? n = some A → a ∈ A}

theorem Memo.fits_upper (m : Memo) : m.Fits m.upper := by
  intro n A hA
  ext a
  simp [upper, hA]

/-- The sets of a map, empty where there is none. -/
def Keyed.sets (t : Keyed Symbol SymbolSet) (n : Symbol) : Set Symbol :=
  {a | ∃ A, t.get? n = some A ∧ a ∈ A}

theorem Keyed.sets_of_get? {t : Keyed Symbol SymbolSet} {n : Symbol} {A : SymbolSet}
    (hA : t.get? n = some A) : t.sets n = A.toSet := by
  ext a
  simp [sets, hA]

theorem Keyed.sets_of_not_mem {t : Keyed Symbol SymbolSet} {n : Symbol} (hn : n ∉ t) :
    t.sets n = ∅ := by
  ext a
  simp [sets, Keyed.get?_eq_none_iff.2 hn]

theorem Memo.fits_sets (m : Memo) : m.Fits m.done.sets :=
  fun _ _ hA => (Keyed.sets_of_get? hA).symm

/-- Without calls. -/
def NoCalls {σ : Type} : Empty → σ → SymbolSet → σ → Prop := nofun

def firstBounds (g : Grammar) : Bounds Empty where
  key n := n ∈ g
  set := g.firstSets
  input := nofun
  reply := nofun

variable {g : Grammar} {σ : Type} [Recorder σ] {n : Symbol} {m : Memo} {A : SymbolSet}

theorem firstScript_of_derivations {ds : List Derivation} (h : g.derivations n = .ok ds) :
    firstScript g n = .alternatives ds := by
  rw [firstScript, h]

theorem firstScript_within (hn : n ∈ g) :
    (firstScript g n).Within (firstBounds g) (g.firstSets n) := by
  obtain ⟨ds, hds⟩ := Grammar.lookup_ok rfl hn
  have hderives : ∀ d ∈ ds, g.Derives n d := fun d hd => ⟨ds, hds, hd⟩
  rw [firstScript_of_derivations hds]
  apply Script.alternatives_within
  · exact fun d hd s hs hnt => (hderives d hd).mem_of_nonterminal hs hnt
  · exact fun d hd => (hderives d hd).scanSet_subset

/-- FIRST sets that are finished and closed hold all that the least sets do. -/
theorem firstSets_subset_of_closed (hc : m.Closed (firstScript g) (firstBounds g).reply)
    (hA : m.done.get? n = some A) : g.firstSets n ⊆ A.toSet := by
  have hle : g.firstOperator m.upper ≤ m.upper := by
    rintro x a ⟨d, ⟨ds, hds, hd⟩, ha⟩ C hC
    have hclosed := hc x C hC
    rw [firstScript_of_derivations hds] at hclosed
    exact Script.alternatives_closedAt hclosed m.fits_upper d hd ha
  rw [m.fits_upper n A hA]
  exact Grammar.firstSets_least hle n

theorem first_sound (g : Grammar) : Solve.Sound (σ := σ) (firstScript g) NoCalls (firstBounds g)
    g.keys.toFinset g.symbols nofun fun _ => True where
  script _ hn := firstScript_within hn
  replies := nofun
  keys _ hn := List.mem_toFinset.2 hn
  symbols n _ := g.firstSets_subset_symbols n
  call := nofun
  record _ _ _ := trivial

/-- No more keys are still to be begun than may be begun within each other. -/
theorem Grammar.unbegun_le_depth (g : Grammar) (m : Memo) :
    (m.unbegun g.keys.toFinset).card ≤ g.budget.depth := by
  apply (m.unbegun_le_card _).trans
  apply (List.toFinset_card_le _).trans
  rw [keys, List.length_map, Keyed.length_keys, budget]

/-- Every key is answered. -/
theorem firstOf_total {s : Session σ} (hs : s.memo.Wf) (hB : s.memo.Within (firstBounds g))
    (hn : n ∈ g) : ∃ a s', firstOf g g.budget n s = (.ok a, s') ∧
      Run (firstScript g) NoCalls (.ask n) s a s' := by
  obtain ⟨a, s', hrun, hr, -⟩ := Solve.ask_total (first_sound g) g.room_lt_passes g.budget.depth n s
    ⟨hs, hB, trivial⟩ hn (g.unbegun_le_depth s.memo)
  refine ⟨a, s', ?_, hr⟩
  rw [firstOf, firstEquation_eq]
  exact hrun

/-- The memos of FIRST sets between questions. -/
inductive FirstMemo (g : Grammar) : Memo → Prop
  | fresh : FirstMemo g (.fresh .first)
  | ask {s s' : Session Trace} {n : Symbol} {a : Answer} : FirstMemo g s.memo → n ∈ g →
      Run (firstScript g) NoCalls (.ask n) s a s' → FirstMemo g s'.memo

namespace FirstMemo

theorem wf (h : FirstMemo g m) : m.Wf := by
  induction h with
  | fresh => exact Memo.fresh_wf _
  | ask _ _ hask ih => exact (hask.frame ih).wf

theorem kind_eq (h : FirstMemo g m) : m.kind = .first := by
  induction h with
  | fresh => rfl
  | ask hm _ hask ih => exact (hask.frame hm.wf).growth.kind.trans ih

theorem group_eq (h : FirstMemo g m) : m.group = [] := by
  induction h with
  | fresh => rfl
  | ask hm _ hask ih => exact (hask.settled_of_empty hm.wf ih).2.2

theorem within (h : FirstMemo g m) : m.Within (firstBounds g) := by
  induction h with
  | fresh => exact Memo.fresh_within _ _
  | ask hm hn hask ih =>
    exact (hask.within (fun _ => firstScript_within) nofun hm.wf ih ⟨hn, rfl⟩).1

theorem subset (h : FirstMemo g m) (hA : m.done.get? n = some A) : A.toSet ⊆ g.firstSets n :=
  (h.within.done n A hA).2

/-- A question about a key is answered by a finished set. -/
theorem firstOf_eq {s : Session Trace} (h : FirstMemo g s.memo) (hn : n ∈ g) :
    ∃ A s', firstOf g g.budget n s = (.ok ⟨A, .settled⟩, s') ∧ FirstMemo g s'.memo ∧
      s.memo.Extends s'.memo ∧ s'.memo.done.get? n = some A := by
  obtain ⟨⟨A, low⟩, s', hrun, hr⟩ := firstOf_total h.wf h.within hn
  obtain ⟨rfl, hdone, -⟩ := hr.settled_of_empty h.wf h.group_eq
  exact ⟨A, s', hrun, .ask h hn hr, (hr.frame h.wf).growth, hdone⟩

/-- A scan finds what the sequence can begin with, as the finished sets have it. -/
theorem scan_eq {s : Session Trace} (h : FirstMemo g s.memo) {d : Derivation}
    (hd : ∀ t ∈ d, t.isNonterminal → t ∈ g) :
    ∃ a s', scan (firstOf g g.budget) d s = (.ok a, s') ∧ FirstMemo g s'.memo ∧
      s.memo.Extends s'.memo ∧ ∀ F, s'.memo.Fits F → a.set.toSet = scanSet F d := by
  induction d generalizing s with
  | nil => exact ⟨_, s, rfl, h, .refl _, fun F _ => by simp [scanSet]⟩
  | cons t rest ih =>
    cases t with
    | nonterminal name =>
      obtain ⟨A, s₁, hrun₁, h₁, hext₁, hA⟩ := h.firstOf_eq (hd (.nonterminal name) (by simp) rfl)
      by_cases hε : Symbol.epsilon ∈ A
      · obtain ⟨b, s', hrun, h', hext, hb⟩ := ih h₁ fun t ht => hd t (by simp [ht])
        refine ⟨Answer.join ⟨A.erase .epsilon, .settled⟩ b, s', ?_, h', hext₁.trans hext,
          fun F hF => ?_⟩
        · rw [scan, Solve.bind_ok hrun₁, if_pos hε, Solve.bind_ok hrun]
          rfl
        · have hAF := (hF.of_extends hext) _ A hA
          have hεF : .epsilon ∈ F (.nonterminal name) := hAF ▸ hε
          simp [scanSet, hAF, hb F hF, hεF]
      · refine ⟨⟨A, .settled⟩, s₁, ?_, h₁, hext₁, fun F hF => ?_⟩
        · rw [scan, Solve.bind_ok hrun₁, if_neg hε]
          rfl
        · have hAF := hF _ A hA
          have hεF : .epsilon ∉ F (.nonterminal name) := hAF ▸ hε
          simp [scanSet, hAF, hεF]
    | _ => exact ⟨_, s, rfl, h, .refl _, fun F _ => by simp [scanSet]⟩

theorem firstOfSequence_eq {s : Session Trace} (h : FirstMemo g s.memo) {d : Derivation}
    (hd : ∀ t ∈ d, t.isNonterminal → t ∈ g) :
    ∃ A s', firstOfSequence g g.budget d s = (.ok A, s') ∧ FirstMemo g s'.memo ∧
      s.memo.Extends s'.memo ∧ ∀ F, s'.memo.Fits F → A.toSet = scanSet F d := by
  obtain ⟨a, s', hrun, h', hext, ha⟩ := h.scan_eq hd
  exact ⟨a.set, s', by rw [firstOfSequence, Solve.bind_ok hrun]; rfl, h', hext, ha⟩

theorem sets_subset (h : FirstMemo g m) (n : Symbol) : m.done.sets n ⊆ g.firstSets n := by
  rintro a ⟨A, hA, ha⟩
  exact h.subset hA ha

end FirstMemo

/-! ### Exact FIRST sets -/

/-- No nonterminal that can vanish begins with itself, through however many steps. -/
def Grammar.VanishingAcyclic (g : Grammar) : Prop :=
  ∀ n, .epsilon ∈ g.firstSets n → ¬ TransGen g.Begins n n

/-- Then each set rests on those that its alternatives begin with, and on all of them at once. -/
theorem first_regular (hg : g.VanishingAcyclic) : Regular (firstScript g) (firstBounds g)
    (Script.Vanishing g.firstSets) g.Begins where
  covers n hn := by
    obtain ⟨ds, hds⟩ := Grammar.lookup_ok rfl hn
    rw [firstScript_of_derivations hds]
    refine Script.alternatives_covers (fun d hd y hy => ⟨d, ⟨ds, hds, hd⟩, hy⟩) ?_
    rintro y ⟨d, ⟨ds', hds', hd⟩, hy⟩
    obtain rfl : ds = ds' := Except.ok.inj (hds.symm.trans hds')
    exact .inr ⟨d, hd, hy⟩
  done m hB hc n A hA := by
    have hsub := (hB.done n A hA).2
    exact ⟨fun hε => hsub hε, fun hε => firstSets_subset_of_closed hc hA hε⟩
  cycle n A hcycle hA :=
    ⟨fun hε => absurd hcycle (hg n (hA hε)), fun hε => absurd hcycle (hg n hε)⟩

theorem FirstMemo.closed (hg : g.VanishingAcyclic) (h : FirstMemo g m) :
    m.Closed (firstScript g) (firstBounds g).reply := by
  induction h with
  | fresh => exact Memo.fresh_closed _ _ _
  | @ask s s' n a hm hn hask ih =>
    refine (hask.explored (first_regular hg) (fun _ => firstScript_within) nofun hm.wf hm.within ih
      hn fun x u hu => ?_).closed
    simp [hm.wf.unfinished_of_empty hm.group_eq x] at hu

theorem FirstMemo.exact (hg : g.VanishingAcyclic) (h : FirstMemo g m) : m.Fits g.firstSets :=
  fun _ _ hA => (h.subset hA).antisymm (firstSets_subset_of_closed (h.closed hg) hA)

end FirstFollow
