import FirstFollow.Proofs.FollowGroups
import FirstFollow.Proofs.Termination

/-!
What a log shows of one set. While a set is unfinished, the parts of it that are shown only grow;
once it is complete, it is shown a last time (`Memos.Changes.displayed`). So the lines of a table
that show the set of one nonterminal are parts that grow towards the set in the table, and then that
set (`Table.build_log`).
-/

namespace FirstFollow

/-! ### Events that show a set -/

/-- The event shows the set of `n`, or a part of it. -/
def Event.shows (kind : SetKind) (n : Symbol) : Event → Bool
  | reentered k m _ | completed k m _ => k = kind ∧ m = n
  | _ => false

@[simp] theorem Event.shows_reentered {kind k : SetKind} {n m : Symbol} {P : SymbolSet} :
    (reentered k m P).shows kind n = decide (k = kind ∧ m = n) := rfl

@[simp] theorem Event.shows_completed {kind k : SetKind} {n m : Symbol} {A : SymbolSet} :
    (completed k m A).shows kind n = decide (k = kind ∧ m = n) := rfl

theorem Event.kind?_of_shows {kind : SetKind} {n : Symbol} {e : Event} (h : e.shows kind n = true) :
    e.kind? = some kind := by
  cases e with
  | reentered k m P | completed k m A =>
    obtain ⟨rfl, -⟩ : k = kind ∧ m = n := by simpa using h
    rfl
  | _ => simp [shows] at h

namespace Memo

variable {m m' : Memo} {n : Symbol} {es es' : List Event} {parts : List SymbolSet}

/-- What the events `es` showed of the set of `n` in the memo: unfinished `parts`, each within the
next and within what is found by now, and in the end the finished set. -/
structure Displayed (n : Symbol) (es : List Event) (parts : List SymbolSet) (m : Memo) : Prop where
  shown : es.filter (·.shows m.kind n) =
    parts.map (.reentered m.kind n) ++ (m.done.get? n).toList.map (.completed m.kind n)
  growing : parts.Pairwise (· ⊆ ·)
  found : ∀ P ∈ parts, ∀ a ∈ P, m.Holds n a

theorem displayed_fresh (kind : SetKind) (n : Symbol) : (fresh kind).Displayed n [] [] :=
  ⟨rfl, .nil, by simp⟩

theorem Wf.holds_unfinished {u : Unfinished} {a : Symbol} (hm : m.Wf)
    (hu : m.unfinished.get? n = some u) (ha : m.Holds n a) : a ∈ u.part := by
  rcases ha with ⟨A, hA, -⟩ | ⟨v, hv, ha⟩
  · simp [hm.unfinished_of_done hA] at hu
  · obtain rfl : v = u := Option.some.inj (hv.symm.trans hu)
    exact ha

theorem Wf.holds_done {A : SymbolSet} {a : Symbol} (hm : m.Wf) (hA : m.done.get? n = some A)
    (ha : m.Holds n a) : a ∈ A := by
  rcases ha with ⟨C, hC, ha⟩ | ⟨u, hu, -⟩
  · obtain rfl : C = A := Option.some.inj (hC.symm.trans hA)
    exact ha
  · simp [hm.unfinished_of_done hA] at hu

/-- Closing a group shows the sets of its members, each once. -/
theorem Wf.closing_shown (hm : m.Wf) (mark : Nat) (n : Symbol) :
    (m.closing mark).filter (·.shows m.kind n) =
      if n ∈ m.group.drop mark then [.completed m.kind n ((m.part? n).getD ∅)] else [] := by
  have hone : (m.group.drop mark).filter (· = n) = if n ∈ m.group.drop mark then [n] else [] := by
    rw [List.filter_eq, hm.nodup_drop.count]
    split <;> rfl
  have hclosed : (Event.closed m.kind (m.group.drop mark)).shows m.kind n = false := rfl
  have hmembers : ((·.shows m.kind n) ∘ fun x => Event.completed m.kind x ((m.part? x).getD ∅)) =
      fun x => decide (x = n) := by
    funext x
    simp
  rw [hm.closing_eq, List.filter_cons_of_neg (by simp [hclosed]), List.filter_map, hmembers, hone]
  split <;> rfl

theorem Displayed.append_other (h : m.Displayed n es parts)
    (hes' : ∀ e ∈ es', e.kind? ≠ some m.kind) : m.Displayed n (es ++ es') parts where
  shown := by
    have hnone : es'.filter (·.shows m.kind n) = [] :=
      List.filter_eq_nil_iff.2 fun e he hshows => hes' e he (Event.kind?_of_shows hshows)
    rw [List.filter_append, hnone, List.append_nil, h.shown]
  growing := h.growing
  found := h.found

/-- A change that shows nothing of the set and does not complete it. -/
theorem Displayed.quiet (h : m.Displayed n es parts) (hm : m.Wf) (hc : m.Change es' m')
    (hdone : m'.done.get? n = m.done.get? n) (hes' : es'.filter (·.shows m.kind n) = []) :
    m'.Displayed n (es ++ es') parts where
  shown := by rw [hc.kind_eq, hdone, List.filter_append, hes', List.append_nil, h.shown]
  growing := h.growing
  found P hP a ha := hc.holds hm (h.found P hP a ha)

/-- One more part is shown, with all that is found by now. -/
theorem Displayed.reenter (h : m.Displayed n es parts) (hm : m.Wf) {u : Unfinished}
    (hu : m.unfinished.get? n = some u) :
    m.Displayed n (es ++ [.reentered m.kind n u.part]) (parts ++ [u.part]) where
  shown := by
    have hd : m.done.get? n = none := hm.apart n (hm.mem_group_iff.2 ⟨u, hu⟩)
    rw [List.filter_append, h.shown, hd]
    simp
  growing := by
    have hbelow : ∀ P ∈ parts, P ⊆ u.part := fun P hP a ha =>
      hm.holds_unfinished hu (h.found P hP a ha)
    exact List.pairwise_append.2 ⟨h.growing, List.pairwise_singleton _ _, by simpa using hbelow⟩
  found P hP a ha := by
    rcases List.mem_append.1 hP with hP | hP
    · exact h.found P hP a ha
    · exact .inr ⟨u, hu, List.mem_singleton.1 hP ▸ ha⟩

/-- The set is completed with all that was shown of it. -/
theorem Displayed.close (h : m.Displayed n es parts) (hm : m.Wf) {mark : Nat}
    (hn : n ∈ m.group.drop mark) : (m.close mark).Displayed n (es ++ m.closing mark) parts where
  shown := by
    obtain ⟨u, hu⟩ := hm.mem_drop n hn
    have hd : m.done.get? n = none := hm.apart n (List.drop_subset mark _ hn)
    rw [close_kind, hm.close_done, if_pos hn, List.filter_append, h.shown, hd, hm.closing_shown,
      if_pos hn]
    simp [part?, hu]
  growing := h.growing
  found P hP a ha := (Change.close mark).holds hm (h.found P hP a ha)

/-- Every change either shows nothing of the set, or one more part, or completes it. -/
theorem Displayed.change (h : m.Displayed n es parts) (hm : m.Wf) (hc : m.Change es' m') :
    ∃ parts', m'.Displayed n (es ++ es') parts' := by
  have hquiet := h.quiet hm hc
  cases hc with
  | start => exact ⟨parts, hquiet rfl rfl⟩
  | grow x A => exact ⟨parts, hquiet (by rw [grow_done]) rfl⟩
  | settling | recomputed => exact ⟨parts, hquiet rfl rfl⟩
  | @reentered x u hu =>
    by_cases hx : x = n
    · subst hx
      exact ⟨_, h.reenter hm hu⟩
    · exact ⟨parts, hquiet rfl (by simp [hx])⟩
  | close mark =>
    by_cases hn : n ∈ m.group.drop mark
    · exact ⟨parts, h.close hm hn⟩
    · exact ⟨parts, hquiet (by rw [hm.close_done, if_neg hn]) (by rw [hm.closing_shown, if_neg hn])⟩

end Memo

/-- Through whatever changes, the set of a nonterminal is shown in parts that grow, and then once as
it is finished. -/
theorem Memos.Changes.displayed {ms ms' : Memos} {es : List Event} (h : ms.Changes es ms')
    (hms : ms.Wf) {kind : SetKind} {n : Symbol} (hstart : (ms kind).Displayed n [] []) :
    ∃ parts, (ms' kind).Displayed n es parts := by
  induction h with
  | refl => exact ⟨[], hstart⟩
  | @step es es' ms' m k h hc ih =>
    obtain ⟨parts, hparts⟩ := ih
    have hms' := h.memos_wf hms
    by_cases hk : kind = k
    · subst hk
      rw [Function.update_self]
      exact hparts.change (hms'.wf kind) hc
    · rw [Function.update_of_ne hk]
      refine ⟨parts, hparts.append_other fun e he => ?_⟩
      rw [hc.events_kind e he, hms'.kind_eq, hms'.kind_eq]
      simpa using Ne.symm hk

/-! ### Lines that show a set -/

namespace LogLine

/-- The line of an unfinished set that was asked for. -/
def reentry (kind : SetKind) (n : Symbol) (part : SymbolSet) : LogLine :=
  ⟨.sets, "%s(%s) re-entered, using partial %s", [.word kind.word, .symbol n, .set part]⟩

def completion (kind : SetKind) (n : Symbol) (set : SymbolSet) : LogLine :=
  ⟨.sets, "%s(%s) = %s", [.word kind.word, .symbol n, .set set]⟩

/-- The line shows the set of `n`, or a part of it. -/
def shows (kind : SetKind) (n : Symbol) (l : LogLine) : Bool :=
  l.template ∈ ["%s(%s) re-entered, using partial %s", "%s(%s) = %s"] ∧
    l.arguments.take 2 = [.word kind.word, .symbol n]

end LogLine

theorem Event.shows_logLine {kind : SetKind} {n : Symbol} {e : Event} {l : LogLine}
    (h : e.logLine? = some l) : l.shows kind n = e.shows kind n := by
  cases e <;> simp only [logLine?, Option.some.injEq, reduceCtorEq] at h <;> subst h <;>
    simp [LogLine.shows, shows, SetKind.word_inj]

theorem Event.shows_of_silent {kind : SetKind} {n : Symbol} {e : Event} (h : e.logLine? = none) :
    e.shows kind n = false := by
  cases e <;> simp_all [logLine?, shows]

/-- The lines that show a set are those of the events that show it. -/
theorem filter_shows_logLines (kind : SetKind) (n : Symbol) (es : List Event) :
    (logLines es).filter (·.shows kind n) = logLines (es.filter (·.shows kind n)) := by
  induction es with
  | nil => rfl
  | cons e es ih =>
    cases hl : e.logLine? with
    | none =>
      have hshows : e.shows kind n = false := Event.shows_of_silent hl
      rw [logLines, List.filterMap_cons_none hl, List.filter_cons_of_neg (by simp [hshows])]
      exact ih
    | some l =>
      have hshows : l.shows kind n = e.shows kind n := Event.shows_logLine hl
      rw [logLines, List.filterMap_cons_some hl]
      cases he : e.shows kind n with
      | false =>
        rw [List.filter_cons_of_neg (by simp [hshows, he]), List.filter_cons_of_neg (by simp [he])]
        exact ih
      | true =>
        rw [List.filter_cons_of_pos (hshows.trans he), List.filter_cons_of_pos he, logLines,
          List.filterMap_cons_some hl]
        exact congrArg (l :: ·) ih

theorem logLines_shown (kind : SetKind) (n : Symbol) (parts : List SymbolSet) (A : SymbolSet) :
    logLines (parts.map (.reentered kind n) ++ [.completed kind n A]) =
      parts.map (.reentry kind n) ++ [.completion kind n A] := by
  have hlines : Event.logLine? ∘ Event.reentered kind n = some ∘ LogLine.reentry kind n := rfl
  rw [logLines, List.filterMap_append, List.filterMap_map, hlines, List.filterMap_eq_map]
  rfl

theorem Memos.Changes.speaker {ms ms' : Memos} {es : List Event} (h : ms.Changes es ms') :
    ∀ l ∈ logLines es, l.speaker = .sets := by
  have hkind : ∀ e ∈ es, ∃ kind, e.kind? = some kind := by
    induction h with
    | refl => simp
    | step k _ hc ih =>
      refine List.forall_mem_append.2 ⟨ih, fun e he => ⟨_, hc.events_kind e he⟩⟩
  intro l hl
  obtain ⟨e, he, hel⟩ := List.mem_filterMap.1 hl
  obtain ⟨kind, hk⟩ := hkind e he
  cases e <;> simp only [Event.kind?, Event.logLine?, Option.some.injEq, reduceCtorEq] at hk hel <;>
    rw [← hel]

/-! ### Tables -/

namespace Table

variable {g : Grammar} {every : Bool}

def ofKind (t : Table) : SetKind → Keyed Symbol SymbolSet
  | .first => t.first
  | .follow => t.follow

/-- Every table holds the sets that are finished in the end. -/
theorem build_done (g : Grammar) (every : Bool) : ∃ t rs s',
    rows g (g.occurrenceIndex every) g.budget g.keys (Builder.new g every).session = (.ok rs, s') ∧
    build g every =
      (.ok t, .tableBegun g.keys.length :: s'.around.around.events ++ [.tableComplete]) ∧
    ∀ kind, ∀ n ∈ g, ∃ S, (t.ofKind kind).get? n = some S ∧
      (Memos.of s'.around.memo s'.memo kind).done.get? n = some S := by
  obtain ⟨rs, s', hrun, -, -, -, hfst, hrs⟩ := rows_done (fun _ hn => hn)
    (Builder.sound_new g every).session
  refine ⟨_, rs, s', hrun, build_of_rows hrun, fun kind n hn => ?_⟩
  obtain ⟨r, hr, rfl⟩ := List.mem_map.1 (hfst ▸ hn : n ∈ rs.map Prod.fst)
  have hget : ∀ f : Symbol × SymbolSet × SymbolSet → SymbolSet,
      (Keyed.ofList (rs.map fun r => (r.1, f r))).get? r.1 = some (f r) := by
    intro f
    have hkeys : (rs.map fun r => (r.1, f r)).map Prod.fst = g.keys := by
      rw [List.map_map, ← hfst]
      rfl
    rw [Keyed.get?_eq_some_iff, Keyed.entries_ofList (hkeys ▸ g.keys_nodup)]
    exact List.mem_map_of_mem hr
  cases kind with
  | first => exact ⟨_, hget _, (hrs r hr).1⟩
  | follow => exact ⟨_, hget _, (hrs r hr).2⟩

/-- The log of every table begins and ends with the lines that say so. In between, the lines that
show the FIRST or FOLLOW set of a nonterminal are, in this order, unfinished parts of it, each
within the next, and a single completion with the set in the table, which holds them all. -/
theorem build_log (g : Grammar) (every : Bool) : ∃ t events lines,
    build g every = (.ok t, events) ∧
    logLines events =
      ⟨.sets, "building FIRST/FOLLOW table for %d nonterminals", [.number g.keys.length]⟩ ::
        lines ++ [⟨.sets, "FIRST/FOLLOW table complete", []⟩] ∧
    (∀ l ∈ lines, l.speaker = .sets) ∧
    ∀ kind, ∀ n ∈ g, ∃ parts S, (t.ofKind kind).get? n = some S ∧
      lines.filter (·.shows kind n) =
        parts.map (LogLine.reentry kind n) ++ [LogLine.completion kind n S] ∧
      (parts ++ [S]).Pairwise (· ⊆ ·) := by
  obtain ⟨t, rs, s', hrun, hbuild, hdone⟩ := build_done g every
  have hwf := Builder.memos_new_wf g every
  obtain ⟨es, hes, hchanges⟩ := rows_moves g (g.occurrenceIndex every) g.budget g.keys
    (Builder.new g every).session ⟨hwf.wf .follow, hwf.wf .first⟩
  rw [hrun] at hes hchanges
  obtain rfl : s'.around.around.events = es := hes
  refine ⟨t, _, logLines s'.around.around.events, hbuild, ?_, hchanges.speaker,
    fun kind n hn => ?_⟩
  · simp [logLines, Event.logLine?]
  · obtain ⟨S, hS, hdoneS⟩ := hdone kind n hn
    have hwf' := hchanges.memos_wf hwf
    have hfresh : ((Builder.new g every).memos kind).Displayed n [] [] := by
      cases kind <;> exact Memo.displayed_fresh _ n
    obtain ⟨parts, hparts⟩ := hchanges.displayed hwf hfresh
    refine ⟨parts, S, hS, ?_, ?_⟩
    · have hshown := hparts.shown
      rw [hwf'.kind_eq, hdoneS] at hshown
      rw [filter_shows_logLines, hshown]
      exact logLines_shown kind n parts S
    · have hwithin : ∀ P ∈ parts, P ⊆ S := fun P hP a ha =>
        (hwf'.wf kind).holds_done hdoneS (hparts.found P hP a ha)
      refine List.pairwise_append.2 ⟨hparts.growing, List.pairwise_singleton _ _, ?_⟩
      simpa using hwithin

theorem build_log_entangled :
    .nonterminal "B" ∈ Grammar.entangled ∧
    ∃ t events, ∃ lines : List LogLine, ∃ parts, build .entangled true = (.ok t, events) ∧
      logLines events =
        ⟨.sets, "building FIRST/FOLLOW table for %d nonterminals", [.number 2]⟩ ::
          lines ++ [⟨.sets, "FIRST/FOLLOW table complete", []⟩] ∧
      (t.ofKind .first).get? (.nonterminal "B") = some {Symbol.epsilon} ∧
      lines.filter (·.shows .first (.nonterminal "B")) =
        parts.map (LogLine.reentry .first (.nonterminal "B")) ++
          [LogLine.completion .first (.nonterminal "B") {Symbol.epsilon}] ∧
      (parts ++ [{Symbol.epsilon}]).Pairwise (· ⊆ ·) := by
  have hB : .nonterminal "B" ∈ Grammar.entangled := by decide
  obtain ⟨t, events, lines, hbuild, hlog, -, hkeys⟩ := build_log .entangled true
  obtain ⟨parts, S, hS, hlines, hgrowing⟩ := hkeys .first _ hB
  have hget : (build .entangled true).1.toOption.bind (·.first.get? (.nonterminal "B")) =
      some {Symbol.epsilon} := by decide +kernel
  rw [hbuild] at hget
  obtain rfl : S = {Symbol.epsilon} := Option.some.inj (hS.symm.trans hget)
  exact ⟨hB, t, events, lines, parts, hbuild, hlog, hS, hlines, hgrowing⟩

/-- `B` is asked for while nothing of its set is found, and again when it is settled. -/
example : (logLines (build .entangled true).2).filter (·.shows .first (.nonterminal "B")) =
    [.reentry .first (.nonterminal "B") ∅, .reentry .first (.nonterminal "B") {.epsilon},
      .completion .first (.nonterminal "B") {.epsilon}] := by
  decide +kernel

end Table

end FirstFollow
