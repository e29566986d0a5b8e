import FirstFollow.Proofs.Components
import FirstFollow.Proofs.Tables

/-!
The groups of FOLLOW sets in a table. FOLLOW of `n` rests on FOLLOW of `p` where `n` can end an
alternative of `p`. The groups that are closed are the components of this relation over the FIRST
sets of the table, each of them once, and those that are settled are the cyclic ones
(`Table.follow_groups`).
-/

namespace FirstFollow

variable {g : Grammar} {every : Bool} {n : Symbol} {F : Symbol → Set Symbol}

/-! ### Events of FIRST sets -/

/-- All that was taken down is of the kind of the memo. -/
structure OwnEvents (s s' : Session Trace) : Prop where
  kind_eq : s'.memo.kind = s.memo.kind
  wf : s.memo.Wf → s'.memo.Wf
  events : ∃ es, s'.around.events = s.around.events ++ es ∧
    ∀ e ∈ es, e.kind? = some s.memo.kind

theorem ownEvents_hasChanges : Solve.HasChanges (fun s => s.memo.Wf) OwnEvents where
  refl s := ⟨rfl, id, [], by simp, by simp⟩
  trans := by
    rintro s s' s'' ⟨hkind, hwf, es, he, hes⟩ ⟨hkind', hwf', es', he', hes'⟩
    refine ⟨hkind'.trans hkind, hwf' ∘ hwf, es ++ es', ?_, ?_⟩
    · rw [he', he, List.append_assoc]
    · exact List.forall_mem_append.2 ⟨hes, hkind ▸ hes'⟩
  change hc := ⟨hc.kind_eq, hc.wf, _, Trace.events_recordAll _ _, hc.events_kind⟩
  keeps h := h.wf
  wf := id

/-- The trace of a computation of FOLLOW sets. -/
def Session.events (a : Session Trace) : List Event := a.around.events

/-- Nothing was taken down that concerns the groups of FOLLOW sets. -/
def FollowIdles (a a' : Session Trace) : Prop :=
  ∃ es, a'.events = a.events ++ es ∧ ∀ e ∈ es, e.Idle .follow

theorem OwnEvents.followIdles {a a' : Session Trace} (h : OwnEvents a a')
    (hkind : a.memo.kind = .first) : FollowIdles a a' := by
  obtain ⟨es, he, hes⟩ := h.events
  refine ⟨es, he, fun e hmem => Event.idle_of_kind ?_⟩
  rw [hes e hmem, hkind]
  decide

theorem FirstMemo.firstSet_idles {s : Session (Session Trace)} (h : FirstMemo g s.around.memo)
    (n : Symbol) : FollowIdles s.around (Builder.firstSet g g.budget n s).2.around :=
  have hmoves : Solve.Moves (fun s => s.memo.Wf) OwnEvents
      (return (← firstOf g g.budget n).set : Solve Trace SymbolSet) :=
    ownEvents_hasChanges.bind (firstOf_moves ownEvents_hasChanges n)
      fun _ => ownEvents_hasChanges.pure _
  (hmoves s.around h.wf).followIdles h.kind_eq

theorem FirstMemo.firstOfSequence_idles {s : Session Trace} (h : FirstMemo g s.memo)
    (d : Derivation) : FollowIdles s (firstOfSequence g g.budget d s).2 :=
  (firstOfSequence_moves ownEvents_hasChanges d s h.wf).followIdles h.kind_eq

/-! ### Questions for FOLLOW sets -/

open Session (Tells)

theorem follow_traced (F : Symbol → Set Symbol) : Traced .follow Session.events
    fun d a A a' => Script.Scanned F d A ∧ FollowIdles a a' where
  record e a := Trace.events_push a.around e
  call _ _ _ _ h := h.2

/-- A question for a FOLLOW set tells of groups that are components over the FIRST sets that are
known in the end. -/
theorem FollowMemo.followOf_tells {s s' : Session (Session Trace)} {r : Except Error Answer}
    (h : FollowMemo g every s.around.memo s.memo) (hkind : s.memo.kind = .follow)
    (hfirst : FirstMemo g s.around.memo) (hn : n ∈ g)
    (hrun : followOf g (g.occurrenceIndex every) g.budget n s = (r, s'))
    (hF : s'.around.memo.Fits F) : Tells .follow Session.events (g.FollowRests every F) s s' := by
  have hcall : ∀ d (a : Session Trace), FirstMemo g a.memo ∧ s.around.memo.Extends a.memo →
      (followSymbols g every).input d → FollowIdles a (firstOfSequence g g.budget d a).2 :=
    fun d a ha _ => ha.1.firstOfSequence_idles d
  obtain ⟨a, s'', hrun', hr, -⟩ :=
    ((follow_sound g every s.around.memo).tracks_within hcall).followOf_total
      ⟨h.wf, h.within, hfirst, .refl _⟩ hn
  obtain rfl : s'' = s' := congrArg Prod.snd (hrun'.symm.trans hrun)
  have hback : ∀ d (a : Session Trace) A a', FirstCall g d a A a' ∧ FollowIdles a a' →
      a'.memo.Fits F → a.memo.Fits F ∧ Script.Scanned F d A ∧ FollowIdles a a' :=
    fun _ _ _ _ hc hF' => ⟨hF'.of_extends hc.1.2.1, hc.1.2.2 F hF', hc.2⟩
  obtain ⟨hF₀, hrF⟩ := hr.refine hback (fun _ _ => id) hF
  refine hrF.told (follow_regular g every F) (fun _ => followScript_within) (fun _ _ _ _ hc => hc.1)
    (follow_traced F) h.wf hkind (h.least F hF₀) (h.closed F hF₀) hn fun x u hu => ?_
  simp [h.wf.unfinished_of_empty h.group_eq x] at hu

/-- Rows of a table tell of groups that are components, and finish the FOLLOW set of each name. -/
theorem Table.rows_tells {names : List Symbol} (hnames : ∀ n ∈ names, n ∈ g)
    {s : Session (Session Trace)} (hs : s.Sound g every) (hkind : s.memo.kind = .follow) :
    ∃ rs s', rows g (g.occurrenceIndex every) g.budget names s = (.ok rs, s') ∧
      s.around.memo.Extends s'.around.memo ∧ s.memo.Extends s'.memo ∧
      (∀ n ∈ names, ∃ A, s'.memo.done.get? n = some A) ∧
      ∀ F, s'.around.memo.Fits F →
        Tells .follow Session.events (g.FollowRests every F) s s' := by
  induction names generalizing s with
  | nil => exact ⟨[], s, rfl, .refl _, .refl _, by simp, fun _ _ => .refl s⟩
  | cons n names ih =>
    have hn := hnames n (by simp)
    obtain ⟨A, around, hrun₁, hfirst, hext₁, -⟩ := Builder.firstSet_eq hs.first hn
    have hidles := hs.first.firstSet_idles n
    rw [hrun₁] at hidles
    obtain ⟨es, htrace, hes⟩ := hidles
    have hfollow := hs.follow.extend hext₁
    obtain ⟨C, s₂, hrun₂, hfirst₂, hfollow₂, hext₂, hgrowth₂, hC⟩ :=
      FollowMemo.followOf_eq (s := { s with around }) hfollow hfirst hn
    obtain ⟨rs, s', hrun, hext, hgrowth, hdone, htells⟩ := ih (fun m hm => hnames m (by simp [hm]))
      ⟨hfirst₂, hfollow₂⟩ (hgrowth₂.kind.trans hkind)
    refine ⟨(n, A, C) :: rs, s', ?_, (hext₁.trans hext₂).trans hext, hgrowth₂.trans hgrowth, ?_,
      fun F hF => ?_⟩
    · rw [rows, List.mapM_cons, bind_assoc, Solve.bind_ok hrun₁, bind_assoc, Builder.followSet,
        bind_assoc, Solve.bind_ok hrun₂, pure_bind, pure_bind]
      exact Solve.bind_ok hrun
    · rintro m hm
      rcases List.mem_cons.1 hm with rfl | hm
      · exact ⟨C, hgrowth.done m C hC⟩
      · exact hdone m hm
    · have htells₁ : Tells .follow Session.events (g.FollowRests every F) s { s with around } :=
        .of_apart htrace (fun e he => (hes e he).apart) rfl
      have htells₂ := FollowMemo.followOf_tells (s := { s with around }) hfollow hkind hfirst hn
        hrun₂ (hF.of_extends hext)
      exact (htells₁.trans htells₂).trans (htells F hF)

/-! ### Lines of a log -/

/-- The line says that a group of sets of this kind is settled. -/
def LogLine.settles (kind : SetKind) (l : LogLine) : Bool :=
  l.template = "%s settling group of %d" ∧ l.arguments.head? = some (.word kind.word)

theorem SetKind.word_inj {kind kind' : SetKind} : kind.word = kind'.word ↔ kind = kind' := by
  cases kind <;> cases kind' <;> simp [word]

theorem Event.settles_logLine {kind : SetKind} {e : Event} {l : LogLine} (h : e.logLine? = some l) :
    l.settles kind = true ↔ ∃ size, e = .settling kind size := by
  cases e <;> simp only [logLine?, Option.some.injEq, reduceCtorEq] at h <;> subst h <;>
    simp [LogLine.settles, SetKind.word_inj]

/-- The lines of a log that say that a group of sets of this kind is settled. -/
def settlingLines (kind : SetKind) (es : List Event) : List LogLine :=
  (logLines es).filter (·.settles kind)

theorem settlingLines_append (kind : SetKind) (es es' : List Event) :
    settlingLines kind (es ++ es') = settlingLines kind es ++ settlingLines kind es' := by
  simp [settlingLines, logLines]

theorem settlingLines_of_none {kind : SetKind} {es : List Event}
    (h : ∀ e ∈ es, ∀ size, e ≠ .settling kind size) : settlingLines kind es = [] := by
  refine List.filter_eq_nil_iff.2 fun l hl hsettles => ?_
  obtain ⟨e, he, hel⟩ := List.mem_filterMap.1 hl
  obtain ⟨size, rfl⟩ := (Event.settles_logLine hel).1 hsettles
  exact h _ he size rfl

theorem settlingLines_settling (kind : SetKind) (size : Nat) : settlingLines kind
    [.settling kind size] =
      [⟨.sets, "%s settling group of %d", [.word kind.word, .number size]⟩] := by
  simp [settlingLines, logLines, Event.logLine?, LogLine.settles]

open Classical in
/-- Sound stretches say once of each cyclic group that it is settled, and of no other. -/
theorem settlingLines_stretches {kind : SetKind} {R : Symbol → Symbol → Prop}
    {stretches : List Stretch} (h : ∀ st ∈ stretches, st.Sound kind R) :
    settlingLines kind (stretches.flatMap (Stretch.events kind)) =
      ((groups stretches).filter (Cyclic R ·)).map fun members =>
        ⟨.sets, "%s settling group of %d", [.word kind.word, .number members.length]⟩ := by
  induction stretches with
  | nil => rfl
  | cons st stretches ih =>
    obtain ⟨hst, hrest⟩ := List.forall_mem_cons.1 h
    rw [List.flatMap_cons, settlingLines_append, ih hrest]
    cases st with
    | apart e =>
      have hnone : settlingLines kind [e] = [] := by
        refine settlingLines_of_none fun e' he' size heq => ?_
        rw [List.mem_singleton.1 he'] at heq
        exact (heq ▸ hst : (Event.settling kind size).Apart kind) rfl
      rw [Stretch.events, hnone]
      rfl
    | group members set meanwhile =>
      obtain ⟨-, hcyclic, hidle⟩ := hst
      have hclosing : settlingLines kind (.closed kind members ::
          members.map fun n => .completed kind n (set n)) = [] :=
        settlingLines_of_none (by simp)
      rw [Stretch.events, settlingLines_append, hclosing, List.append_nil, groups_group]
      cases meanwhile with
      | none =>
        have hnot : ¬ Cyclic R members := fun hc => by simpa using hcyclic.2 hc
        rw [List.filter_cons_of_neg (by simpa using hnot)]
        rfl
      | some es =>
        have hes : settlingLines kind es = [] := by
          refine settlingLines_of_none fun e he size heq => ?_
          exact (heq ▸ hidle es rfl e he : (Event.settling kind size).Idle kind) rfl
        have hc : Cyclic R members := hcyclic.1 rfl
        rw [List.filter_cons_of_pos (by simpa using hc), List.map_cons, Stretch.settling,
          ← List.singleton_append, settlingLines_append, settlingLines_settling, hes]
        rfl

/-! ### Tables -/

open Classical in
/-- The trace of every table falls into events apart from groups of FOLLOW sets, and stretches that
tell of one such group each: its settling, during which no FOLLOW set is begun, where it is
cyclic, and its completion. The groups are the components of the relation that one FOLLOW set
rests on another over the FIRST sets of the table, and each nonterminal belongs to exactly one. The
log says once of each cyclic group that it is settled. -/
theorem Table.follow_groups (g : Grammar) (every : Bool) :
    ∃ t events stretches, build g every = (.ok t, events) ∧
      events = stretches.flatMap (Stretch.events .follow) ∧
      (∀ st ∈ stretches, st.Sound .follow (g.FollowRests every t.first.sets)) ∧
      (groups stretches).flatten.Perm g.keys ∧
      (logLines events).filter (·.settles .follow) =
        ((groups stretches).filter (Cyclic (g.FollowRests every t.first.sets) ·)).map fun members =>
          ⟨.sets, "%s settling group of %d", [.word "FOLLOW", .number members.length]⟩ := by
  obtain ⟨t, rs, s', hrun, hbuild, hs', -, -, -, hfirst, -⟩ := build_run g every
  obtain ⟨rs', s'', hrun', -, -, hdone, htells⟩ := rows_tells (fun _ hn => hn)
    (Builder.sound_new g every).session rfl
  obtain rfl : s'' = s' := congrArg Prod.snd (hrun'.symm.trans hrun)
  obtain ⟨rows, htrace, hrows, hkeys⟩ := htells t.first.sets (hfirst ▸ s''.around.memo.fits_sets)
  have hevents : s''.around.around.events = rows.flatMap (Stretch.events .follow) := htrace
  have hdoneKeys : s''.memo.done.keys = (groups rows).flatten := hkeys
  obtain ⟨stretches, hstretches⟩ : ∃ sts, sts =
      Stretch.apart (.tableBegun g.keys.length) :: rows ++ [Stretch.apart .tableComplete] :=
    ⟨_, rfl⟩
  have htell : .tableBegun g.keys.length :: s''.around.around.events ++ [.tableComplete] =
      stretches.flatMap (Stretch.events .follow) := by
    simp [hstretches, hevents, Stretch.events]
  have hsound : ∀ st ∈ stretches, st.Sound .follow (g.FollowRests every t.first.sets) := by
    rw [hstretches, List.cons_append, List.forall_mem_cons, List.forall_mem_append,
      List.forall_mem_singleton]
    exact ⟨trivial, hrows, trivial⟩
  have hgroups : groups stretches = groups rows := by
    rw [hstretches, List.cons_append, groups_apart, groups_append, groups_apart]
    exact List.append_nil _
  refine ⟨t, _, stretches, hbuild, htell, hsound, ?_, ?_⟩
  · rw [hgroups, ← hdoneKeys]
    refine (List.perm_ext_iff_of_nodup s''.memo.done.keys_nodup g.keys_nodup).2 fun n => ?_
    rw [Keyed.mem_keys_iff]
    exact ⟨fun ⟨A, hA⟩ => (hs'.follow.within.done n A hA).1, hdone n⟩
  · rw [htell]
    exact settlingLines_stretches hsound

end FirstFollow
