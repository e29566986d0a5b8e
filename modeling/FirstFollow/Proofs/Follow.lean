import FirstFollow.Proofs.First

/-!
The FOLLOW sets that are computed. Whatever the FIRST sets are that are found meanwhile, FOLLOW sets
are the least ones over them (`FollowMemo.exact`): which sets a FOLLOW set rests on is settled by
finished FIRST sets only.
-/

namespace FirstFollow

open Relation

/-! ### Scripts of occurrences -/

namespace Script

variable {B : Bounds Derivation} {T : Set Symbol} {D : Symbol → Option SymbolSet} {A : SymbolSet}
  {F G : Symbol → Set Symbol} {R seen : Symbol → Prop} {n : Symbol} {o : Occurrence}
  {os : List Occurrence} {next : Script Derivation}

/-- Sequences are answered with what they can begin with. -/
def Scanned (F : Symbol → Set Symbol) (d : Derivation) (A : SymbolSet) : Prop :=
  A.toSet = scanSet F d

/-- The producer of an occurrence, if its set is asked for. -/
def Passes (F : Symbol → Set Symbol) (n : Symbol) (o : Occurrence) (y : Symbol) : Prop :=
  y = o.producer ∧ if o.suffix = [] then y ≠ n else .epsilon ∈ scanSet F o.suffix

theorem occurrence_within (hkey : B.key o.producer) (hinput : B.input o.suffix)
    (hreply : ∀ C, B.reply o.suffix C → C.toSet \ {.epsilon} ⊆ T)
    (hproducer : o.suffix = [] ∨ (∃ C, B.reply o.suffix C ∧ .epsilon ∈ C) → B.set o.producer ⊆ T)
    (hnext : next.Within B T) : (occurrence n o next).Within B T := by
  unfold occurrence
  split
  next hsuffix =>
    split
    · exact hnext
    · exact ⟨hkey, fun C hC => ⟨hC.trans (hproducer (.inl hsuffix)), hnext⟩⟩
  next hsuffix =>
    refine ⟨hinput, fun C hC => ⟨?_, ?_⟩⟩
    · rw [OrderedSet.toSet_erase]
      exact hreply C hC
    · split
      next hε =>
        exact ⟨hkey, fun E hE => ⟨hE.trans (hproducer (.inr ⟨C, hC, hε⟩)), hnext⟩⟩
      next => exact hnext

theorem occurrence_closedAt (h : (occurrence n o next).ClosedAt D (Scanned F) A)
    (hG : ∀ x C, D x = some C → C.toSet = G x) (hn : G n ⊆ A.toSet) :
    scanSet F o.suffix \ {.epsilon} ⊆ A.toSet ∧
      (o.suffix = [] ∨ .epsilon ∈ scanSet F o.suffix → G o.producer ⊆ A.toSet) ∧
      next.ClosedAt D (Scanned F) A := by
  unfold occurrence at h
  split at h
  next hsuffix =>
    have hempty : scanSet F o.suffix \ {.epsilon} ⊆ A.toSet := by simp [hsuffix, scanSet]
    split at h
    next hself => exact ⟨hempty, fun _ => hself ▸ hn, h⟩
    next =>
      obtain ⟨C, hC, hCA, hnext⟩ := h
      exact ⟨hempty, fun _ => hG _ C hC ▸ hCA, hnext⟩
  next hsuffix =>
    obtain ⟨C, hC, hCA, h⟩ := h
    have hfirst : scanSet F o.suffix \ {.epsilon} ⊆ A.toSet := by
      intro a ha
      rw [← hC] at ha
      exact hCA a (OrderedSet.mem_erase.2 ha)
    split at h
    next hε =>
      obtain ⟨E, hE, hEA, hnext⟩ := h
      exact ⟨hfirst, fun _ => hG _ E hE ▸ hEA, hnext⟩
    next hε =>
      refine ⟨hfirst, ?_, h⟩
      rintro (hnil | hεF)
      · exact absurd hnil hsuffix
      · exact absurd (hC.symm ▸ hεF : .epsilon ∈ C.toSet) hε

theorem occurrence_covers {ok : Symbol → SymbolSet → Prop} (hR : ∀ y, Passes F n o y → R y)
    (hnext : next.Covers (Scanned F) ok R fun y => seen y ∨ Passes F n o y) :
    (occurrence n o next).Covers (Scanned F) ok R seen := by
  unfold occurrence
  split
  next hsuffix =>
    split
    next hself =>
      apply hnext.mono
      rintro y (hy | ⟨rfl, hy⟩)
      · exact hy
      · rw [if_pos hsuffix] at hy
        exact absurd hself hy
    next hself =>
      refine ⟨hR _ ⟨rfl, by rwa [if_pos hsuffix]⟩, fun _ _ => hnext.mono ?_⟩
      exact fun y hy => hy.imp_right And.left
  next hsuffix =>
    intro C hC
    show (ite _ _ _ : Script Derivation).Covers _ _ _ _
    split
    next hε =>
      have hεF : .epsilon ∈ scanSet F o.suffix := hC ▸ hε
      refine ⟨hR _ ⟨rfl, by rwa [if_neg hsuffix]⟩, fun _ _ => hnext.mono ?_⟩
      exact fun y hy => hy.imp_right And.left
    next hε =>
      apply hnext.mono
      rintro y (hy | ⟨-, hy⟩)
      · exact hy
      · rw [if_neg hsuffix, ← hC] at hy
        exact absurd hy hε

theorem occurrences_within (hkey : ∀ o ∈ os, B.key o.producer)
    (hinput : ∀ o ∈ os, B.input o.suffix)
    (hreply : ∀ o ∈ os, ∀ C, B.reply o.suffix C → C.toSet \ {.epsilon} ⊆ T)
    (hproducer : ∀ o ∈ os,
      o.suffix = [] ∨ (∃ C, B.reply o.suffix C ∧ .epsilon ∈ C) → B.set o.producer ⊆ T) :
    (occurrences n os).Within B T := by
  induction os with
  | nil => trivial
  | cons o os ih =>
    refine occurrence_within (hkey o (by simp)) (hinput o (by simp)) (hreply o (by simp))
      (hproducer o (by simp)) (ih ?_ ?_ ?_ ?_)
    · exact fun o ho => hkey o (by simp [ho])
    · exact fun o ho => hinput o (by simp [ho])
    · exact fun o ho => hreply o (by simp [ho])
    · exact fun o ho => hproducer o (by simp [ho])

theorem occurrences_closedAt (h : (occurrences n os).ClosedAt D (Scanned F) A)
    (hG : ∀ x C, D x = some C → C.toSet = G x) (hn : G n ⊆ A.toSet) :
    ∀ o ∈ os, scanSet F o.suffix \ {.epsilon} ⊆ A.toSet ∧
      (o.suffix = [] ∨ .epsilon ∈ scanSet F o.suffix → G o.producer ⊆ A.toSet) := by
  induction os with
  | nil => simp
  | cons o os ih =>
    obtain ⟨hfirst, hproducer, hrest⟩ := occurrence_closedAt h hG hn
    intro o' ho'
    rcases List.mem_cons.1 ho' with rfl | ho'
    · exact ⟨hfirst, hproducer⟩
    · exact ih hrest o' ho'

theorem occurrences_covers {ok : Symbol → SymbolSet → Prop}
    (hR : ∀ o ∈ os, ∀ y, Passes F n o y → R y)
    (hall : ∀ y, R y → seen y ∨ ∃ o ∈ os, Passes F n o y) :
    (occurrences n os).Covers (Scanned F) ok R seen := by
  induction os generalizing seen with
  | nil => exact fun y hy => (hall y hy).resolve_right (by simp)
  | cons o os ih =>
    refine occurrence_covers (hR o (by simp)) (ih (fun o ho => hR o (by simp [ho])) fun y hy => ?_)
    rcases hall y hy with hy | ⟨o', ho', hy⟩
    · exact .inl (.inl hy)
    · rcases List.mem_cons.1 ho' with rfl | ho'
      · exact .inl (.inr hy)
      · exact .inr ⟨o', ho', hy⟩

end Script

/-! ### Bounds of FOLLOW sets -/

variable {g : Grammar} {every : Bool} {n : Symbol} {F : Symbol → Set Symbol} {A : SymbolSet}
  {first first' follow : Memo}

/-- FOLLOW sets, when suffixes are answered as `reply` says. -/
def followBounds (g : Grammar) (every : Bool) (set : Symbol → Set Symbol)
    (reply : Derivation → SymbolSet → Prop) : Bounds Derivation where
  key n := n ∈ g
  set := set
  input d := ∃ n o, g.Occurs every n o ∧ d = o.suffix
  reply := reply

/-- Bounds that hold while the FIRST sets are not yet known. -/
def followSymbols (g : Grammar) (every : Bool) : Bounds Derivation :=
  followBounds g every (fun _ => g.symbols) fun _ A => A.toSet ⊆ g.symbols

/-- Bounds that hold over the FIRST sets `F`. -/
def followLeast (g : Grammar) (every : Bool) (F : Symbol → Set Symbol) : Bounds Derivation :=
  followBounds g every (g.followSets every F) (Script.Scanned F)

theorem followScript_of_occurrences {os : List Occurrence} (h : g.occurrencesOf n every = .ok os) :
    followScript g (g.occurrenceIndex every) n = .emit (startSet g n) (.occurrences n os) := by
  have h' : Grammar.lookup (g.occurrenceIndex every) n = .ok os := h
  rw [followScript, h']

theorem mem_startSet {a : Symbol} : a ∈ startSet g n ↔ n = g.startSymbol ∧ a = .endMarker := by
  unfold startSet
  split <;> simp [*]

theorem occurrencesOf_ok (every : Bool) (hn : n ∈ g) : ∃ os, g.occurrencesOf n every = .ok os :=
  Grammar.lookup_ok (Keyed.keys_map _ _) hn

/-- The script of a key stays within bounds that hold of each of its occurrences. -/
theorem followScript_within_of {B : Bounds Derivation} {T : Set Symbol} (hn : n ∈ g)
    (hstart : n = g.startSymbol → .endMarker ∈ T) (hkey : ∀ m ∈ g, B.key m)
    (hinput : ∀ o, g.Occurs every n o → B.input o.suffix)
    (hreply : ∀ o, g.Occurs every n o → ∀ C, B.reply o.suffix C → C.toSet \ {.epsilon} ⊆ T)
    (hproducer : ∀ o, g.Occurs every n o →
      o.suffix = [] ∨ (∃ C, B.reply o.suffix C ∧ .epsilon ∈ C) → B.set o.producer ⊆ T) :
    (followScript g (g.occurrenceIndex every) n).Within B T := by
  obtain ⟨os, hos⟩ := occurrencesOf_ok every hn
  have hoccurs : ∀ o ∈ os, g.Occurs every n o := fun o ho => ⟨os, hos, ho⟩
  rw [followScript_of_occurrences hos]
  constructor
  · intro a ha
    obtain ⟨hn, rfl⟩ := mem_startSet.1 ha
    exact hstart hn
  · apply Script.occurrences_within
    · exact fun o ho => hkey _ (hoccurs o ho).derives.mem
    · exact fun o ho => hinput o (hoccurs o ho)
    · exact fun o ho => hreply o (hoccurs o ho)
    · exact fun o ho => hproducer o (hoccurs o ho)

theorem followScript_within_symbols (hn : n ∈ g) : (followScript g (g.occurrenceIndex every)
    n).Within (followSymbols g every) g.symbols := by
  apply followScript_within_of hn
  · exact fun _ => Finset.mem_coe.2 (Grammar.mem_symbols.2 (by simp))
  · exact fun _ hm => hm
  · exact fun o ho => ⟨n, o, ho, rfl⟩
  · exact fun o _ C hC => Set.sdiff_subset.trans hC
  · exact fun o _ _ => subset_rfl

theorem followScript_within (hn : n ∈ g) : (followScript g (g.occurrenceIndex every) n).Within
    (followLeast g every F) (g.followSets every F n) := by
  have hfixed : g.followOperator every F (g.followSets every F) n ⊆ g.followSets every F n := by
    rw [Grammar.followSets_fixed]
  apply followScript_within_of hn
  · exact fun hstart => hfixed (.inl ⟨hstart, rfl⟩)
  · exact fun _ hm => hm
  · exact fun o ho => ⟨n, o, ho, rfl⟩
  · intro o ho C hC a ha
    have hscan : C.toSet = scanSet F o.suffix := hC
    rw [hscan] at ha
    exact hfixed (.inr ⟨o, ho, .inl ha⟩)
  · intro o ho hvanish a ha
    have hproducer : o.suffix = [] ∨ .epsilon ∈ scanSet F o.suffix := by
      apply hvanish.imp_right
      rintro ⟨C, hC, hε⟩
      have hscan : C.toSet = scanSet F o.suffix := hC
      exact hscan ▸ hε
    exact hfixed (.inr ⟨o, ho, .inr ⟨hproducer, ha⟩⟩)

/-- FOLLOW of `n` is asked for FOLLOW of `y`. -/
def Grammar.FollowRests (g : Grammar) (every : Bool) (F : Symbol → Set Symbol) (n y : Symbol) :
    Prop :=
  ∃ o, g.Occurs every n o ∧ Script.Passes F n o y

/-- Over known FIRST sets a FOLLOW set rests on others whatever is known of them. -/
theorem follow_regular (g : Grammar) (every : Bool) (F : Symbol → Set Symbol) :
    Regular (followScript g (g.occurrenceIndex every)) (followLeast g every F) (fun _ _ => True)
      (g.FollowRests every F) where
  covers n hn := by
    obtain ⟨os, hos⟩ := occurrencesOf_ok every hn
    rw [followScript_of_occurrences hos]
    refine Script.occurrences_covers (fun o ho y hy => ⟨o, ⟨os, hos, ho⟩, hy⟩) ?_
    rintro y ⟨o, ⟨os', hos', ho⟩, hy⟩
    obtain rfl : os = os' := Except.ok.inj (hos.symm.trans hos')
    exact .inr ⟨o, ho, hy⟩
  done _ _ _ _ _ _ := trivial
  cycle _ _ _ _ := trivial

/-- FOLLOW sets that are finished and closed hold all that the least sets do. -/
theorem followSets_subset_of_closed
    (hc : follow.Closed (followScript g (g.occurrenceIndex every)) (Script.Scanned F))
    (hA : follow.done.get? n = some A) : g.followSets every F n ⊆ A.toSet := by
  have hle : g.followOperator every F follow.upper ≤ follow.upper := by
    rintro x a ha C hC
    have hclosed := hc x C hC
    have hx : follow.upper x ⊆ C.toSet := fun b hb => hb C hC
    rcases ha with hstart | ⟨o, ⟨os, hos, ho⟩, ha⟩
    · exact hclosed.1 a (mem_startSet.2 hstart)
    · rw [followScript_of_occurrences hos] at hclosed
      obtain ⟨hfirst, hproducer⟩ :=
        Script.occurrences_closedAt hclosed.2 follow.fits_upper hx o ho
      rcases ha with ha | ⟨hvanish, ha⟩
      · exact hfirst ha
      · exact hproducer hvanish ha
  rw [follow.fits_upper n A hA]
  exact Grammar.followSets_least hle n

/-! ### Runs of the FOLLOW equation -/

/-- What is known of a call for FIRST of a sequence. -/
def FirstCall (g : Grammar) (d : Derivation) (s : Session Trace) (A : SymbolSet)
    (s' : Session Trace) : Prop :=
  A.toSet ⊆ g.symbols ∧ s.memo.Extends s'.memo ∧
    ∀ F, s'.memo.Fits F → Script.Scanned F d A

/-- Memos of FOLLOW sets between questions, beside a memo of FIRST sets. -/
structure FollowMemo (g : Grammar) (every : Bool) (first follow : Memo) : Prop where
  wf : follow.Wf
  group_eq : follow.group = []
  within : follow.Within (followSymbols g every)
  least : ∀ F, first.Fits F → follow.Within (followLeast g every F)
  closed : ∀ F, first.Fits F →
    follow.Closed (followScript g (g.occurrenceIndex every)) (Script.Scanned F)

namespace FollowMemo

theorem fresh (g : Grammar) (every : Bool) (first : Memo) :
    FollowMemo g every first (.fresh .follow) where
  wf := Memo.fresh_wf _
  group_eq := rfl
  within := Memo.fresh_within _ _
  least _ _ := Memo.fresh_within _ _
  closed _ _ := Memo.fresh_closed _ _ _

theorem extend (h : FollowMemo g every first follow) (hfirst : first.Extends first') :
    FollowMemo g every first' follow where
  wf := h.wf
  group_eq := h.group_eq
  within := h.within
  least F hF := h.least F (hF.of_extends hfirst)
  closed F hF := h.closed F (hF.of_extends hfirst)

/-- Whatever FIRST sets are found later, FOLLOW sets are the least ones over them. -/
theorem exact (h : FollowMemo g every first follow) (hF : first.Fits F) :
    follow.Fits (g.followSets every F) := fun n A hA =>
  ((h.least F hF).done n A hA).2.antisymm (followSets_subset_of_closed (h.closed F hF) hA)

end FollowMemo

theorem Solve.within_ok {σ α : Type} {x : Solve σ α} {s : Session (Session σ)} {around : Session σ}
    {a : α} (h : x s.around = (.ok a, around)) :
    Solve.within x s = (.ok a, { s with around }) := by
  have hrun : StateT.run (ExceptT.run x) s.around = (.ok a, around) := h
  simp only [Solve.within, hrun]

/-- More may be known of calls to the inner session. -/
theorem Solve.Sound.tracks_within {ι σ : Type} [Recorder σ] {script : Symbol → Script ι}
    {Calls : ι → Session σ → SymbolSet → Session σ → Prop} {B : Bounds ι}
    {keys symbols : Finset Symbol} {x : ι → Solve σ SymbolSet} {J : Session σ → Prop}
    {Reach : Session σ → Session σ → Prop}
    (H : Sound script Calls B keys symbols (fun i => within (x i)) J)
    (hx : ∀ i a, J a → B.input i → Reach a (x i a).2) :
    Sound script (fun i a A a' => Calls i a A a' ∧ Reach a a') B keys symbols
      (fun i => within (x i)) J :=
  H.tracks fun i s A around hJ hi hrun => by
    have haround : (x i s.around).2 = around := congrArg (·.2.around) hrun
    exact haround ▸ hx i s.around hJ hi

theorem follow_call {s : Session (Session Trace)} {d : Derivation}
    (h : FirstMemo g s.around.memo) (hd : (followSymbols g every).input d) :
    ∃ A around, Solve.within (firstOfSequence g g.budget d) s = (.ok A, { s with around }) ∧
      FirstCall g d s.around A around ∧ FirstMemo g around.memo := by
  obtain ⟨x, o, ho, rfl⟩ := hd
  obtain ⟨A, around, hrun, h', hext, hA⟩ := h.firstOfSequence_eq fun t ht =>
    ho.derives.mem_of_nonterminal (ho.suffix_subset ht)
  refine ⟨A, around, Solve.within_ok hrun, ⟨?_, hext, hA⟩, h'⟩
  rw [hA _ around.memo.fits_sets]
  exact Grammar.scanSet_subset_symbols ho.derives ho.suffix_subset fun y _ =>
    (h'.sets_subset y).trans (g.firstSets_subset_symbols y)

theorem follow_sound (g : Grammar) (every : Bool) (base : Memo) :
    Solve.Sound (followScript g (g.occurrenceIndex every)) (FirstCall g) (followSymbols g every)
      g.keys.toFinset g.symbols (fun d => Solve.within (firstOfSequence g g.budget d))
      fun a => FirstMemo g a.memo ∧ base.Extends a.memo where
  script _ hn := followScript_within_symbols hn
  replies _ _ _ _ h := h.1
  keys _ hn := List.mem_toFinset.2 hn
  symbols _ _ := subset_rfl
  call d s hs hd := by
    obtain ⟨A, around, hrun, hcall, h'⟩ := follow_call hs.1 hd
    exact ⟨A, around, hrun, hcall, h', hs.2.trans hcall.2.1⟩
  record _ _ h := h

/-- Every key is answered, in a run of which as much is known as of its calls. -/
theorem Solve.Sound.followOf_total {B : Bounds Derivation} {J : Session Trace → Prop}
    {Calls : Derivation → Session Trace → SymbolSet → Session Trace → Prop}
    (H : Solve.Sound (followScript g (g.occurrenceIndex every)) Calls B g.keys.toFinset g.symbols
      (fun d => Solve.within (firstOfSequence g g.budget d)) J)
    {s : Session (Session Trace)} (hs : Solve.Good B J s) (hn : B.key n) :
    ∃ a s', followOf g (g.occurrenceIndex every) g.budget n s = (.ok a, s') ∧
      Run (followScript g (g.occurrenceIndex every)) Calls (.ask n) s a s' ∧ J s'.around := by
  obtain ⟨a, s', hrun, hr⟩ := Solve.ask_total H g.room_lt_passes g.budget.depth n s hs hn
    (g.unbegun_le_depth s.memo)
  refine ⟨a, s', ?_, hr⟩
  rw [followOf, followEquation_eq]
  exact hrun

/-- A question about a key is answered by a finished set. -/
theorem FollowMemo.followOf_eq {s : Session (Session Trace)}
    (h : FollowMemo g every s.around.memo s.memo) (hfirst : FirstMemo g s.around.memo)
    (hn : n ∈ g) :
    ∃ A s', followOf g (g.occurrenceIndex every) g.budget n s = (.ok ⟨A, .settled⟩, s') ∧
      FirstMemo g s'.around.memo ∧ FollowMemo g every s'.around.memo s'.memo ∧
      s.around.memo.Extends s'.around.memo ∧ s.memo.Extends s'.memo ∧
      s'.memo.done.get? n = some A := by
  obtain ⟨⟨A, low⟩, s', hrun, hr, hfirst', hext⟩ :=
    (follow_sound g every s.around.memo).followOf_total ⟨h.wf, h.within, hfirst, .refl _⟩ hn
  have hf := hr.frame h.wf
  obtain ⟨rfl, hdone, hgroup⟩ := hr.settled_of_empty h.wf h.group_eq
  have hwithin := hr.within (fun _ => followScript_within_symbols) (fun _ _ _ _ hc => hc.1) h.wf
    h.within (T := g.symbols) ⟨hn, rfl⟩
  -- seen from its end, the run is one over the FIRST sets that are known there
  have hleast : ∀ F, s'.around.memo.Fits F → s.around.memo.Fits F ∧
      Run (followScript g (g.occurrenceIndex every)) (fun d _ A _ => Script.Scanned F d A)
        (.ask n) s ⟨A, .settled⟩ s' := fun F hF =>
    hr.refine (P := fun a => a.memo.Fits F)
      (fun _ _ _ _ hc hF' => ⟨hF'.of_extends hc.2.1, hc.2.2 F hF'⟩) (fun _ _ => id) hF
  refine ⟨A, s', hrun, hfirst', ?_, hext, hf.growth, hdone⟩
  refine ⟨hf.wf, hgroup, hwithin.1, fun F hF => ?_, fun F hF => ?_⟩
  · obtain ⟨hF₀, hrF⟩ := hleast F hF
    exact (hrF.within (B := followLeast g every F) (fun _ => followScript_within)
      (fun _ _ _ _ hc => hc) h.wf (h.least F hF₀) ⟨hn, rfl⟩).1
  · obtain ⟨hF₀, hrF⟩ := hleast F hF
    refine (hrF.explored (follow_regular g every F) (fun _ => followScript_within)
      (fun _ _ _ _ hc => hc) h.wf (h.least F hF₀) (h.closed F hF₀) hn fun x u hu => ?_).closed
    simp [h.wf.unfinished_of_empty h.group_eq x] at hu

end FirstFollow
