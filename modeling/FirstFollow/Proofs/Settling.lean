import FirstFollow.Proofs.Keys

/-!
Groups that are settled without a look below them. The last pass over a group finds nothing new and
begins nothing. If besides no member was computed from an unfinished set below the group, then all
that it asked for is finished or belongs to the group, so the group is closed as a whole
(`Run.closed_of_contained`). A builder whose groups of FIRST sets are all settled in this way has
found the least sets (`Builder.run_exact_of_contained`).
-/

namespace FirstFollow

/-- A member of a group of `kind` was computed again and rests on an unfinished set below it. -/
def Event.reachesBelow (kind : SetKind) : Event → Bool
  | recomputed k first _ low => k = kind && low.below first
  | _ => false

/-- No member of a group of `kind` was computed from a set below it. -/
def Contained (kind : SetKind) (es : List Event) : Prop := ∀ e ∈ es, e.reachesBelow kind = false

instance (kind : SetKind) (es : List Event) : Decidable (Contained kind es) :=
  inferInstanceAs (Decidable (∀ _ ∈ es, _))

variable {ι σ : Type} {script : Symbol → Script ι} {Calls : ι → σ → SymbolSet → σ → Prop}
  {B : Bounds ι} {kind : SetKind}

/-! ### Passes that find nothing new -/

/-- The sets of `D` are the finished ones and the parts of those with the number `first` or a higher
one. -/
structure Memo.Shows (first : Nat) (D : Symbol → Option SymbolSet) (m : Memo) : Prop where
  done : ∀ x A, m.done.get? x = some A → D x = some A
  part : ∀ x u, m.unfinished.get? x = some u → first ≤ u.number → D x = some u.part

/-- What held at the end held all along, and excludes that a set below a group was looked at. -/
structure Contains [Recorder σ] (kind : SetKind) (P : σ → Prop)
    (Calls : ι → σ → SymbolSet → σ → Prop) : Prop where
  record : ∀ e a, P (Recorder.record e a) → P a
  call : ∀ i a A a', Calls i a A a' → P a' → P a
  contained : ∀ e a, P (Recorder.record e a) → e.reachesBelow kind = false

namespace Run

variable [Recorder σ] {P : σ → Prop} {s s' : Session σ} {first : Nat} {sum r : Answer}
  {D : Symbol → Option SymbolSet}

theorem holds_before (hP : Contains kind P Calls) {t : Task ι} {r : t.Result}
    (h : Run script Calls t s r s') (hs' : P s'.around) : P s.around :=
  (h.refine (fun _ _ _ _ hc h => ⟨hP.call _ _ _ _ hc h, hc⟩) hP.record hs').1

/-- Numbers that were low once stay so. -/
theorem below_collects {target : Option Symbol} {p : Script ι}
    (h : Run script Calls (.play target p sum) s r s') {i : Nat}
    (hr : r.low.below i = false) : sum.low.below i = false := by
  induction p generalizing sum s with
  | done => cases h; exact hr
  | fail e => cases h
  | emit A p ih =>
    cases h with
    | emit h => simpa using ih h
  | ask n k ih =>
    cases h with
    | ask _ h =>
      have hsum := ih _ h
      simp only [Answer.join_low, Low.below_min, Bool.or_eq_false_iff] at hsum
      exact hsum.1
  | call i k ih =>
    cases h with
    | call _ h => exact ih _ h

/-- Computed again from nothing below `first`, a script asks for what `D` shows only. -/
theorem play_contained (hcalls : RepliesWithin B Calls) {p : Script ι}
    (h : Run script Calls (.play none p sum) s r s') (hs : s.memo.Wf)
    (hr : r.low.below first = false) (hD : s'.memo.Shows first D) :
    p.ClosedAt D B.reply r.set := by
  induction p generalizing sum s with
  | done => cases h; trivial
  | fail e => cases h
  | emit A p ih =>
    cases h with
    | emit h => exact ⟨fun x hx => h.collects x (by simp [hx]), ih h hs⟩
  | ask n k ih =>
    cases h with
    | @ask _ _ _ _ _ a s₁ _ _ hask h =>
      have hf₁ := hask.frame hs
      have hf := h.frame hf₁.wf
      have hlow := h.below_collects hr
      simp only [Answer.join_low, Low.below_min, Bool.or_eq_false_iff] at hlow
      refine ⟨a.set, ?_, ih _ h hf₁.wf⟩
      obtain ⟨-, hdone⟩ | ⟨l, u, hl, hu, hpart, hle⟩ := hask.answer hs
      · exact hD.done n _ (hf.growth.done n _ hdone)
      · have hfirst : first ≤ l := by simpa [hl, Low.below] using hlow.2
        rw [← hpart]
        exact hD.part n u (hf.keeps n u (by simp [Task.touches]) hu) (hfirst.trans hle)
  | call i k ih =>
    cases h with
    | call hcall h => exact ⟨_, hcalls _ _ _ _ hcall, ih _ h hs⟩

/-- A pass that finds nothing grown leaves all unfinished sets as they are. If it looks at nothing
below `first`, its members are closed. -/
theorem pass_contained (hcalls : RepliesWithin B Calls) (hP : Contains kind P Calls)
    {members : List Symbol} {grown : Bool}
    (h : Run script Calls (.pass first members grown) s false s') (hs : s.memo.Wf)
    (hkind : s.memo.kind = kind) (hs' : P s'.around) (hD : s'.memo.Shows first D) :
    grown = false ∧ Keeps (fun _ => False) s.memo s'.memo ∧
      ∀ x ∈ members, ∀ u, s.memo.unfinished.get? x = some u →
        (script x).ClosedAt D B.reply u.part := by
  induction members generalizing s grown with
  | nil => cases h; exact ⟨rfl, .refl _ _, by simp⟩
  | cons n rest ih =>
    cases h with
    | @same _ _ _ _ _ a s₁ A _ _ hplay hp hsub hpass =>
      have hf := hplay.frame hs
      have hkind₁ : s₁.memo.kind = kind := hf.growth.kind.trans hkind
      obtain ⟨hgrown, hkeeps, hrest⟩ := ih hpass hf.wf hkind₁
      have hlow : a.low.below first = false := by
        have hevent := hP.contained _ _ (hpass.holds_before hP hs')
        simpa [Event.reachesBelow, hkind₁] using hevent
      have hall : Keeps (fun _ => False) s.memo s'.memo :=
        (hf.keeps.trans hkeeps).mono fun x u _ hx => by simp [Task.touches] at hx
      have hD₁ : s₁.memo.Shows first D :=
        ⟨fun x A hA => hD.done x A ((hpass.frame hf.wf).growth.done x A hA),
          fun x u hu => hD.part x u (hkeeps x u id hu)⟩
      refine ⟨hgrown, hall, fun x hx u hu => ?_⟩
      have hu₁ := hf.keeps x u (by simp [Task.touches]) hu
      rcases List.mem_cons.1 hx with rfl | hx
      · obtain ⟨v, hv, rfl⟩ := Option.map_eq_some_iff.1 hp
        obtain rfl : v = u := Option.some.inj (hv.symm.trans hu₁)
        exact (play_contained hcalls hplay hs hlow hD₁).mono (fun _ _ => id) hsub
      · exact hrest x hx u hu₁
    | @grew _ _ _ _ _ a s₁ A _ _ hplay hp hsub hpass =>
      have hf := hplay.frame hs
      have hgrow := (hf.growth.trans (Memo.Extends.grow s₁.memo n a.set)).kind.trans hkind
      cases (ih hpass (hf.wf.grow n a.set) hgrow).1

/-- What a part of a run comes to: closed sets, or a group that may be closed. The group stands
above all that was in `m`. -/
def ClosesWell (script : Symbol → Script ι) (B : Bounds ι) :
    (t : Task ι) → Session σ → t.Result → Session σ → Prop
  | .ask _, _, _, s' | .play .., _, _, s' | .pass .., _, _, s' => s'.memo.Closed script B.reply
  | .settle first mark, s, _, s' => ∀ m : Memo, m.Wf → m.Extends s.memo → m.count = first →
      m.group.length = mark → (s'.memo.close mark).Closed script B.reply
  | .finish first mark low, s, _, s' => ∀ m : Memo, m.Wf → m.Extends s.memo → m.count = first →
      m.group.length = mark →
      (low = .settled → s.memo.group.length - mark ≤ 1 →
        ∀ x ∈ s.memo.group.drop mark, ∀ u, s.memo.unfinished.get? x = some u →
          (script x).ClosedAt (s.memo.close mark).done.get? B.reply u.part) →
      (s'.memo.close mark).Closed script B.reply

/-- Sets that are finished in a run are closed if no member of a group was computed again from a set
below it. -/
theorem closed_of_contained (hcalls : RepliesWithin B Calls) (hP : Contains kind P Calls)
    {t : Task ι} {r : t.Result} (h : Run script Calls t s r s') (hs : s.memo.Wf)
    (hkind : s.memo.kind = kind) (hc : s.memo.Closed script B.reply) (hs' : P s'.around) :
    ClosesWell script B t s r s' := by
  induction h with
  | known _ | reentered _ _ | done | passed => exact hc
  | left hd hu _ _ _ ih => exact ih (hs.start hd hu) hkind hc hs'
  | @closed n s a s₁ s₂ s' A hd hu hplay hlow hfin hclose hA ih₁ ih₂ =>
    have hstart := hs.start hd hu
    have hf := hplay.frame hstart
    have hold := (Memo.Extends.start hu).trans hf.growth
    have hs₂ : P s₂.around := (Solve.close_memo hclose).2.reflects hP.record hs'
    have hc₁ : s₁.memo.Closed script B.reply := ih₁ hstart hkind hc (hfin.holds_before hP hs₂)
    show s'.memo.Closed script B.reply
    rw [(Solve.close_memo hclose).1]
    exact ih₂ hf.wf (hold.kind.trans hkind) hc₁ hs₂ s.memo hs hold rfl rfl
      (closed_alone hcalls hplay hs hd hu)
  | @emit target A p sum s a s' _ ih =>
    cases target with
    | none => exact ih hs hkind hc hs'
    | some n =>
      exact ih (hs.grow n A) ((Memo.grow_kind s.memo n A).trans hkind)
        (hc.congr (by rw [Session.grow, Memo.grow_done])) hs'
  | ask hask hplay ih₁ ih₂ =>
    have hf := hask.frame hs
    have hc₁ := ih₁ hs hkind hc (hplay.holds_before hP hs')
    exact ih₂ hf.wf (hf.growth.kind.trans hkind) hc₁ hs'
  | call hcall _ ih => exact ih hs hkind hc hs'
  | same hplay _ _ hpass ih₁ ih₂ =>
    have hf := hplay.frame hs
    have hc₁ := ih₁ hs hkind hc (hP.record _ _ (hpass.holds_before hP hs'))
    exact ih₂ hf.wf (hf.growth.kind.trans hkind) hc₁ hs'
  | @grew first n rest grown s a s₁ A g s' hplay _ _ hpass ih₁ ih₂ =>
    have hf := hplay.frame hs
    have hext := hf.growth.trans (Memo.Extends.grow s₁.memo n a.set)
    have hc₁ : s₁.memo.Closed script B.reply :=
      ih₁ hs hkind hc (hP.record _ _ (hpass.holds_before hP hs'))
    exact ih₂ (hf.wf.grow n a.set) (hext.kind.trans hkind)
      (hc₁.congr (by rw [Session.grow, Memo.grow_done]; rfl)) hs'
  | @stable first mark s s' hpass hlen ih =>
    rintro m hm hext rfl rfl
    have hf := hpass.frame hs
    have hgroup : s.memo.group = s'.memo.group := hf.growth.group.eq_of_length_le hlen
    have hshows : s'.memo.Shows m.count (s'.memo.close m.group.length).done.get? := by
      constructor
      · exact fun x A hA => hf.wf.close_done_of_done hA
      · intro x u hu hle
        have hmem := ((hext.trans hf.growth).drop_iff hm hf.wf).2 ⟨u, hu, hle⟩
        rw [hf.wf.close_done, if_pos hmem, Memo.part?, hu]
        rfl
    obtain ⟨-, hkeeps, hmembers⟩ := hpass.pass_contained hcalls hP hs hkind hs' hshows
    refine (ih hs hkind hc hs').close hf.wf fun x hx u hu => ?_
    rw [← hgroup] at hx
    obtain ⟨v, hv⟩ := hs.mem_drop x hx
    obtain rfl : v = u := Option.some.inj ((hkeeps x v id hv).symm.trans hu)
    exact hmembers x hx v hv
  | @again first mark s g s₁ s' hpass _ hsettle ih₁ ih₂ =>
    intro m hm hext hcount hlength
    have hf := hpass.frame hs
    have hc₁ : s₁.memo.Closed script B.reply := ih₁ hs hkind hc (hsettle.holds_before hP hs')
    exact ih₂ hf.wf (hf.growth.kind.trans hkind) hc₁ hs' m hm (hext.trans hf.growth) hcount hlength
  | @alone first mark s hlen =>
    intro m _ _ _ _ hmembers
    exact hc.close hs (hmembers rfl hlen)
  | together _ _ ih =>
    intro m hm hext hcount hlength _
    exact ih hs hkind hc hs' m hm hext hcount hlength

end Run

/-! ### FIRST sets -/

variable {g : Grammar} {n : Symbol} {d : Derivation} {m : Memo}

/-- The finished sets are closed. -/
def Memo.FirstClosed (g : Grammar) (m : Memo) : Prop :=
  m.Closed (firstScript g) (firstBounds g).reply

theorem contains_trace :
    Contains .first (fun t : Trace => Contained .first t.events) NoCalls where
  record e t h e' he' := h e' (by
    show e' ∈ (t.push e).events
    simp [he'])
  call := nofun
  contained e t h := h e (by
    show e ∈ (t.push e).events
    simp)

/-- If no group of FIRST sets was computed from a set below it up to `a'`, the same is true up to
`a`, and closed sets stay closed in between. -/
def Session.Seals (g : Grammar) (a a' : Session Trace) : Prop :=
  Contained .first a'.around.events →
    Contained .first a.around.events ∧ (a.memo.FirstClosed g → a'.memo.FirstClosed g)

namespace Session.Seals

variable {a a' a'' : Session Trace}

theorem refl (a : Session Trace) : Seals g a a := fun h => ⟨h, id⟩

theorem trans (h : Seals g a a') (h' : Seals g a' a'') : Seals g a a'' := fun hend =>
  have hmid := h' hend
  have hstart := h hmid.1
  ⟨hstart.1, hmid.2 ∘ hstart.2⟩

theorem record (e : Event) (a : Session Trace) : Seals g a (Recorder.record e a) := fun hend =>
  ⟨contains_trace.record e a.around hend, id⟩

end Session.Seals

open Session (Seals)

namespace FirstMemo

variable {s : Session Trace}

theorem firstOf_seals (h : FirstMemo g s.memo) (hn : n ∈ g) :
    Seals g s (firstOf g g.budget n s).2 := by
  obtain ⟨a, s', hrun, hr⟩ := firstOf_total h.wf h.within hn
  rw [hrun]
  intro hend
  refine ⟨hr.holds_before contains_trace hend, fun hc => ?_⟩
  exact hr.closed_of_contained nofun contains_trace h.wf h.kind_eq hc hend

theorem scan_seals (h : FirstMemo g s.memo) (hd : ∀ t ∈ d, t.isNonterminal → t ∈ g) :
    Seals g s (scan (firstOf g g.budget) d s).2 := by
  induction d generalizing s with
  | nil => exact .refl s
  | cons t rest ih =>
    cases t with
    | nonterminal name =>
      have hn : Symbol.nonterminal name ∈ g := hd _ (by simp) rfl
      have hhead := h.firstOf_seals hn
      obtain ⟨A, s₁, hrun, h₁, -⟩ := h.firstOf_eq hn
      rw [hrun] at hhead
      rw [scan, Solve.bind_ok hrun]
      split
      · have hrest : ∀ t ∈ rest, t.isNonterminal → t ∈ g := fun t ht => hd t (by simp [ht])
        have htail := ih h₁ hrest
        obtain ⟨b, s', hrun', -⟩ := h₁.scan_eq hrest
        rw [hrun'] at htail
        rw [Solve.bind_ok hrun']
        exact hhead.trans htail
      · exact hhead
    | _ => exact .refl s

theorem firstOfSequence_seals (h : FirstMemo g s.memo) (hd : ∀ t ∈ d, t.isNonterminal → t ∈ g) :
    Seals g s (firstOfSequence g g.budget d s).2 := by
  have hscan := h.scan_seals hd
  obtain ⟨a, s', hrun, -⟩ := h.scan_eq hd
  rw [hrun] at hscan
  rw [firstOfSequence, Solve.bind_ok hrun]
  exact hscan

end FirstMemo

/-! ### Questions to a builder -/

namespace Builder

variable {b : Builder} {s : Session (Session Trace)} {q : Step} {qs : List Step}

theorem followSet_seals (every : Bool) (hs : s.Steady g) (hn : n ∈ g) :
    Seals g s.around (followSet g (g.occurrenceIndex every) g.budget n s).2.around := by
  have hcall : ∀ d (a : Session Trace), FirstMemo g a.memo → (followUpper g).input d →
      Seals g a (firstOfSequence g g.budget d a).2 := by
    rintro d a hfirst ⟨x, o, ho, rfl⟩
    exact hfirst.firstOfSequence_seals fun t ht =>
      ho.derives.mem_of_nonterminal (ho.suffix_subset ht)
  obtain ⟨a, s', hrun, hr, -⟩ := ((follow_sound_upper g every).tracks_within hcall).followOf_total
    ⟨hs.wf, hs.within, hs.first⟩ hn
  rw [followSet, Solve.bind_ok hrun]
  exact hr.reaches .refl .trans (fun _ _ _ _ h => h.2) .record

/-- A step about keys finishes closed sets only. -/
theorem Steady.step_closed (hb : b.Steady g) (hq : q.AboutKeys g)
    (hend : Contained .first (b.step q).1.events) (hc : b.first.FirstClosed g) :
    (b.step q).2.first.FirstClosed g := by
  have hcompute : ∀ {x : Compute SymbolSet}, Seals g b.session.around (x b.session).2.around →
      Contained .first (b.compute x).1.events → (b.compute x).2.first.FirstClosed g :=
    fun hx hend => (hx hend).2 hc
  obtain ⟨rfl, hbudget, hs⟩ := id hb
  cases q with
  | first n =>
    unfold Builder.step at hend ⊢
    rw [hbudget] at hend ⊢
    refine hcompute ?_ hend
    have hseals := hs.first.firstOf_seals hq
    obtain ⟨A, s', hrun, -⟩ := hs.first.firstOf_eq hq
    rw [hrun] at hseals
    show Seals _ _ ((firstOf b.grammar b.grammar.budget n >>= fun a => pure a.set)
      b.session.around).2
    rw [Solve.bind_ok hrun]
    exact hseals
  | follow n =>
    unfold Builder.step at hend ⊢
    rw [hbudget] at hend ⊢
    exact hcompute (followSet_seals b.every hs hq) hend
  | sequence d =>
    unfold Builder.step at hend ⊢
    rw [hbudget] at hend ⊢
    exact hcompute (hs.first.firstOfSequence_seals hq) hend
  | every value => exact hc

/-- So does a run. -/
theorem Steady.run_closed (hb : b.Steady g) (hqs : ∀ q ∈ qs, q.AboutKeys g)
    (hend : ∀ o ∈ (b.run qs).1, Contained .first o.events) (hc : b.first.FirstClosed g) :
    (b.run qs).2.first.FirstClosed g := by
  induction qs generalizing b with
  | nil => exact hc
  | cons q qs ih =>
    have hq := hqs q (by simp)
    refine ih (hb.step hq).1 (fun p hp => hqs p (by simp [hp])) (fun o ho => hend o ?_) ?_
    · exact List.mem_cons_of_mem _ ho
    · exact hb.step_closed hq (hend _ List.mem_cons_self) hc

/-- If no member of a group of FIRST sets was computed again from an unfinished set below the group,
questions about keys leave finished FIRST sets that are the least ones. -/
theorem run_exact_of_contained (g : Grammar) (every : Bool) {qs : List Step}
    (hqs : ∀ q ∈ qs, q.AboutKeys g)
    (hend : ∀ o ∈ ((new g every).run qs).1, Contained .first o.events) :
    ∀ n A, ((new g every).run qs).2.first.done.get? n = some A → A.toSet = g.firstSets n := by
  intro n A hA
  have hfirst := ((steady_new g every).run hqs).1.session.first
  have hclosed := (steady_new g every).run_closed hqs hend (Memo.fresh_closed _ _ _)
  exact (hfirst.subset hA).antisymm (firstSets_subset_of_closed hclosed hA)

theorem run_exact_of_contained_entangled :
    (∀ q ∈ [Step.first (.nonterminal "B"), .follow (.nonterminal "A")],
      q.AboutKeys .entangled) ∧
    (∀ o ∈ ((new .entangled true).run
      [.first (.nonterminal "B"), .follow (.nonterminal "A")]).1, Contained .first o.events) ∧
    ({.epsilon, .terminal "a"} : Set Symbol) = Grammar.entangled.firstSets (.nonterminal "A") := by
  have hqs : ∀ q ∈ [Step.first (.nonterminal "B"), .follow (.nonterminal "A")],
      q.AboutKeys .entangled := by decide
  have hend : ∀ o ∈ ((new .entangled true).run
      [.first (.nonterminal "B"), .follow (.nonterminal "A")]).1, Contained .first o.events := by
    decide +kernel
  have hA : ((new .entangled true).run
      [.first (.nonterminal "B"), .follow (.nonterminal "A")]).2.first.done.get?
        (.nonterminal "A") = some (.ofList [.epsilon, .terminal "a"]) := by decide +kernel
  refine ⟨hqs, hend, ?_⟩
  rw [← run_exact_of_contained .entangled true hqs hend _ _ hA]
  ext a
  simp

/-- Asked for in the other order, `B` is computed again from `A`, which stands below its group. -/
example : ∃ o ∈ ((new .entangled true).run [.first (.nonterminal "A")]).1,
    .recomputed .first 1 (.nonterminal "B") (.number 0) ∈ o.events := by
  decide +kernel

end Builder

end FirstFollow
