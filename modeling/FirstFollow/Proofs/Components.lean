import FirstFollow.Proofs.Changes
import FirstFollow.Proofs.Explored

/-!
Groups are components. Where each set rests on others in a regular way, the sets that are completed
together are those that rest on each other (`Memo.FirstPass.component`), and a group is computed
again if and only if some member rests on a member (`Memo.FirstPass.cyclic_iff`). The trace of a run
falls into events apart from groups and stretches that tell of one group each (`Run.told`).
-/

namespace FirstFollow

open Relation

/-! ### Components -/

/-- The members are all those that lead to a member and back. -/
structure Component (R : Symbol → Symbol → Prop) (members : List Symbol) : Prop where
  nonempty : members ≠ []
  nodup : members.Nodup
  mem_iff : ∀ x ∈ members, ∀ y, y ∈ members ↔ ReflTransGen R x y ∧ ReflTransGen R y x

/-- There are several members, or one that leads to itself at once. -/
def Cyclic (R : Symbol → Symbol → Prop) (members : List Symbol) : Prop :=
  1 < members.length ∨ ∃ x ∈ members, R x x

theorem Component.cyclic {R : Symbol → Symbol → Prop} {members : List Symbol} {x : Symbol}
    (h : Component R members) (hx : x ∈ members) (hxx : TransGen R x x) : Cyclic R members := by
  obtain ⟨y, hxy, hyx⟩ := TransGen.head'_iff.1 hxx
  have hy : y ∈ members := (h.mem_iff x hx y).2 ⟨.single hxy, hyx⟩
  by_cases hlen : 1 < members.length
  · exact .inl hlen
  · have hone : ∀ z ∈ members, ∀ w ∈ members, z = w := by
      intro z hz w hw
      obtain ⟨v, rfl⟩ := List.length_eq_one_iff.1
        (Nat.le_antisymm (Nat.not_lt.1 hlen) (List.length_pos_of_mem hx))
      rw [List.mem_singleton.1 hz, List.mem_singleton.1 hw]
    exact .inr ⟨x, hx, hone y hy x hx ▸ hxy⟩

variable {ι σ : Type} {script : Symbol → Script ι} {Calls : ι → σ → SymbolSet → σ → Prop}
  {B : Bounds ι} {ok : Symbol → SymbolSet → Prop} {R : Symbol → Symbol → Prop}

/-- A closed script finds all the sets that it asks for. -/
theorem Script.ClosedAt.covered {reply : ι → SymbolSet → Prop} {D : Symbol → Option SymbolSet}
    {A : SymbolSet} {S seen : Symbol → Prop} {p : Script ι} (h : p.ClosedAt D reply A)
    (hp : p.Covers reply ok S seen) (hok : ∀ n C, D n = some C → ok n C) :
    ∀ y, S y → seen y ∨ ∃ C, D y = some C := by
  induction p generalizing seen with
  | done => exact fun y hy => .inl (hp y hy)
  | fail e => exact h.elim
  | emit A p ih => exact ih h.2 hp
  | ask n k ih =>
    obtain ⟨C, hC, hk⟩ := h
    intro y hy
    rcases ih C hk (hp.2 C (hok n C hC)) y hy with (hseen | rfl) | hdone
    · exact .inl hseen
    · exact .inr ⟨C, hC⟩
    · exact .inr hdone
  | call i k ih =>
    obtain ⟨C, hC, hk⟩ := h
    exact ih C hk (hp C hC)

namespace Memo

variable {m m' : Memo} {n x y : Symbol} {A : SymbolSet} {low : Low}

/-- What a finished set leads to is finished. -/
theorem Closed.next (hR : Regular script B ok R) (hB : m.Within B) (hc : m.Closed script B.reply)
    (hx : m.done.get? x = some A) (hxy : R x y) : ∃ C, m.done.get? y = some C :=
  ((hc x A hx).covered (hR.covers x (hB.done x A hx).1) (hR.done m hB hc) y hxy).resolve_left id

theorem Closed.leads (hR : Regular script B ok R) (hB : m.Within B) (hc : m.Closed script B.reply)
    (hx : m.done.get? x = some A) (hxy : ReflTransGen R x y) : ∃ C, m.done.get? y = some C := by
  induction hxy with
  | refl => exact ⟨A, hx⟩
  | tail _ hyz ih =>
    obtain ⟨C, hC⟩ := ih
    exact hc.next hR hB hC hyz

namespace FirstPass

variable (hR : Regular script B ok R) (hB : m'.Within B) (hc : m'.Closed script B.reply)
  (h : m'.FirstPass R n m.count (R n) low) (hm : m.Wf) (hm' : m'.Wf) (hext : m.Extends m')
  (hlow : low.below m.count = false)

include hR hB hc h hm hm' hext hlow

/-- If a first pass rests on nothing below it, what stands above the mark is one component. -/
theorem component : Component R (m'.group.drop m.group.length) := by
  have hself : n ∈ m'.group.drop m.group.length := by
    obtain ⟨u, hu, hnum⟩ := h.self
    exact (hext.drop_iff hm hm').2 ⟨u, hu, hnum.ge⟩
  have hdown := h.down hm hm' hext
  refine ⟨List.ne_nil_of_mem hself, hm'.nodup_drop, fun x hx y => ⟨fun hy => ?_, ?_⟩⟩
  · exact ⟨(h.leads_back hm' x hx).trans (hdown y hy), (h.leads_back hm' y hy).trans (hdown x hx)⟩
  · rintro ⟨hxy, hyx⟩
    have hreach : (∃ A, m'.done.get? y = some A) ∨ y ∈ m'.group.drop m.group.length := by
      clear hyx
      induction hxy with
      | refl => exact .inr hx
      | tail _ hzw ih =>
        rcases ih with ⟨C, hC⟩ | hz
        · exact .inl (hc.next hR hB hC hzw)
        · exact h.next hm hm' hext hlow _ hz _ hzw
    -- a finished `y` would lead to `x`, which is not finished
    refine hreach.resolve_left ?_
    rintro ⟨C, hC⟩
    obtain ⟨D, hD⟩ := hc.leads hR hB hC hyx
    exact hm'.not_mem_drop_of_done hD hx

/-- A component is settled if and only if one of its members leads to a member. -/
theorem cyclic_iff : Cyclic R (m'.group.drop m.group.length) ↔
    low ≠ .settled ∨ 1 < m'.group.length - m.group.length := by
  have hcomponent := h.component hR hB hc hm hm' hext hlow
  constructor
  · rintro (hlen | ⟨x, hx, hxx⟩)
    · exact .inr (by simpa using hlen)
    · left
      rintro rfl
      rcases h.rests hm hm' hext x hx x hxx with ⟨A, hA⟩ | ⟨u, -, hbelow⟩
      · exact hm'.not_mem_drop_of_done hA hx
      · simp [Low.below] at hbelow
  · intro hmany
    obtain ⟨x, hx⟩ := List.exists_mem_of_ne_nil _ hcomponent.nonempty
    exact hcomponent.cyclic hx ((h.ready hm hm' hext hlow hmany).cycle x hx)

end FirstPass

/-! ### Closing -/

theorem Wf.closing_eq (hm : m.Wf) (mark : Nat) : m.closing mark =
    .closed m.kind (m.group.drop mark) :: (m.group.drop mark).map fun n =>
      .completed m.kind n ((m.part? n).getD ∅) := by
  have hpart : ∀ n ∈ m.group.drop mark,
      (m.part? n).map (Event.completed m.kind n) =
        some (.completed m.kind n ((m.part? n).getD ∅)) := by
    intro n hn
    obtain ⟨u, hu⟩ := hm.mem_drop n hn
    simp [part?, hu]
  rw [closing, List.filterMap_congr hpart, List.filterMap_eq_map']

theorem Stays.count_eq (h : m.Stays m') (hm : m.Wf) (hm' : m'.Wf) : m'.count = m.count := by
  rw [hm.count_eq, hm'.count_eq, h.group, h.done]

end Memo

/-! ### Stretches of a trace -/

namespace Event

/-- The event has no part in closing a group of `kind`. -/
def Apart (kind : SetKind) : Event → Prop
  | settling k _ | completed k _ _ | closed k _ => k ≠ kind
  | _ => True

/-- The event besides does not begin a set of `kind`. -/
def Idle (kind : SetKind) : Event → Prop
  | settling k _ | completed k _ _ | closed k _ | entered k _ _ => k ≠ kind
  | _ => True

theorem Idle.apart {kind : SetKind} {e : Event} (h : e.Idle kind) : e.Apart kind := by
  cases e <;> trivial

theorem idle_of_kind {kind : SetKind} {e : Event} (h : e.kind? ≠ some kind) : e.Idle kind := by
  cases e <;> simp_all [Idle, kind?]

end Event

/-- A part of a trace: an event apart from groups, or all that is told of one group. If the group is
computed again, `meanwhile` are the events until it is closed. -/
inductive Stretch where
  | apart (e : Event)
  | group (members : List Symbol) (set : Symbol → SymbolSet) (meanwhile : Option (List Event))

namespace Stretch

/-- What is told of a group of this size before it is closed. -/
def settling (kind : SetKind) (size : Nat) : Option (List Event) → List Event
  | none => []
  | some meanwhile => .settling kind size :: meanwhile

def events (kind : SetKind) : Stretch → List Event
  | apart e => [e]
  | group members set meanwhile =>
    settling kind members.length meanwhile ++
      .closed kind members :: members.map fun n => .completed kind n (set n)

def group? : Stretch → Option (List Symbol)
  | apart _ => none
  | group members _ _ => some members

/-- A group is a component of `R`. It is computed again if it is cyclic, and not otherwise, and
while it is no nonterminal is begun and no other group is closed. -/
def Sound (kind : SetKind) (R : Symbol → Symbol → Prop) : Stretch → Prop
  | apart e => e.Apart kind
  | group members _ meanwhile => Component R members ∧ (meanwhile.isSome ↔ Cyclic R members) ∧
    ∀ es ∈ meanwhile, ∀ e ∈ es, e.Idle kind

end Stretch

/-- The groups of which stretches tell. -/
def groups (stretches : List Stretch) : List (List Symbol) := stretches.filterMap Stretch.group?

theorem groups_apart (e : Event) (sts : List Stretch) : groups (.apart e :: sts) = groups sts := rfl

theorem groups_group (members : List Symbol) (set : Symbol → SymbolSet)
    (meanwhile : Option (List Event)) (sts : List Stretch) :
    groups (.group members set meanwhile :: sts) = members :: groups sts := rfl

theorem groups_append (sts sts' : List Stretch) :
    groups (sts ++ sts') = groups sts ++ groups sts' :=
  List.filterMap_append

/-- A trace can be read off the surroundings of a run, and calls tell of no set of `kind`. -/
structure Traced [Recorder σ] (kind : SetKind) (trace : σ → List Event)
    (Calls : ι → σ → SymbolSet → σ → Prop) : Prop where
  record : ∀ e a, trace (Recorder.record e a) = trace a ++ [e]
  call : ∀ i a A a', Calls i a A a' → ∃ es, trace a' = trace a ++ es ∧ ∀ e ∈ es, e.Idle kind

theorem Traced.recordAll [Recorder σ] {kind : SetKind} {trace : σ → List Event}
    (h : Traced kind trace Calls) (es : List Event) (a : σ) :
    trace (Recorder.recordAll es a) = trace a ++ es := by
  induction es generalizing a with
  | nil => simp [Recorder.recordAll]
  | cons e es ih =>
    show trace (Recorder.recordAll es (Recorder.record e a)) = _
    rw [ih, h.record, List.append_assoc]
    rfl

namespace Session

variable {kind : SetKind} {trace : σ → List Event} {s s' s'' : Session σ}

/-- The trace from `s` to `s'` falls into sound stretches, and the sets that were finished are those
of their groups. -/
def Tells (kind : SetKind) (trace : σ → List Event) (R : Symbol → Symbol → Prop)
    (s s' : Session σ) : Prop :=
  ∃ stretches : List Stretch,
    trace s'.around = trace s.around ++ stretches.flatMap (Stretch.events kind) ∧
    (∀ st ∈ stretches, st.Sound kind R) ∧
    s'.memo.done.keys = s.memo.done.keys ++ (groups stretches).flatten

/-- Only idle events were taken down. -/
def Idles (kind : SetKind) (trace : σ → List Event) (s s' : Session σ) : Prop :=
  ∃ es, trace s'.around = trace s.around ++ es ∧ ∀ e ∈ es, e.Idle kind

theorem Tells.refl (s : Session σ) : Tells kind trace R s s := ⟨[], by simp [groups]⟩

theorem Tells.trans (h : Tells kind trace R s s') (h' : Tells kind trace R s' s'') :
    Tells kind trace R s s'' := by
  obtain ⟨sts, htrace, hsound, hkeys⟩ := h
  obtain ⟨sts', htrace', hsound', hkeys'⟩ := h'
  refine ⟨sts ++ sts', ?_, ?_, ?_⟩
  · rw [htrace', htrace, List.flatMap_append, List.append_assoc]
  · exact List.forall_mem_append.2 ⟨hsound, hsound'⟩
  · rw [hkeys', hkeys, groups_append, List.flatten_append, List.append_assoc]

theorem Tells.of_apart {es : List Event} (htrace : trace s'.around = trace s.around ++ es)
    (hes : ∀ e ∈ es, e.Apart kind) (hdone : s'.memo.done = s.memo.done) :
    Tells kind trace R s s' := by
  refine ⟨es.map .apart, ?_, ?_, ?_⟩
  · rw [htrace, List.flatMap_map]
    exact congrArg _ (List.flatMap_singleton' es).symm
  · exact List.forall_mem_map.2 hes
  · have hnone : groups (es.map .apart) = [] := by
      rw [groups, List.filterMap_map]
      exact List.filterMap_eq_nil_iff.2 fun _ _ => rfl
    rw [hdone, hnone, List.flatten_nil, List.append_nil]

theorem Idles.refl (s : Session σ) : Idles kind trace s s := ⟨[], by simp⟩

theorem Idles.trans (h : Idles kind trace s s') (h' : Idles kind trace s' s'') :
    Idles kind trace s s'' := by
  obtain ⟨es, htrace, hes⟩ := h
  obtain ⟨es', htrace', hes'⟩ := h'
  exact ⟨es ++ es', by rw [htrace', htrace, List.append_assoc],
    List.forall_mem_append.2 ⟨hes, hes'⟩⟩

end Session

open Session (Tells Idles)

namespace Run

variable [Recorder σ] {kind : SetKind} {trace : σ → List Event} {s s' s₁ s₂ : Session σ}
  {n : Symbol} {a : Answer}

/-! ### Runs that begin nothing -/

/-- What a part of a run takes down if it begins no nonterminal. -/
def Waits (kind : SetKind) (trace : σ → List Event) : (t : Task ι) → Session σ → Session σ → Prop
  | .finish .., _, _ => True
  | .ask _, s, s' | .play .., s, s' | .pass .., s, s' | .settle .., s, s' =>
    s'.memo.count = s.memo.count → Idles kind trace s s'

theorem waits (hT : Traced kind trace Calls) {t : Task ι} {r : t.Result}
    (h : Run script Calls t s r s') (hs : s.memo.Wf) : Waits kind trace t s s' := by
  induction h with
  | known _ | done | passed => exact fun _ => .refl _
  | reentered => exact fun _ => ⟨[_], hT.record _ _, by simp [Event.Idle]⟩
  | left hd hu hplay _ _ _ =>
    intro hcount
    have hle := (hplay.frame (hs.start hd hu)).growth.count
    simp only [Session.start_memo, Memo.start_count] at hle
    omega
  | closed hd hu hplay _ hfin hclose _ _ _ =>
    intro hcount
    have hf := hplay.frame (hs.start hd hu)
    have hle := (hf.growth.trans (hfin.frame hf.wf).growth).count
    rw [(Solve.close_memo hclose).1, Memo.close_count] at hcount
    simp only [Session.start_memo, Memo.start_count] at hle
    omega
  | @emit target A p sum s a s' _ ih =>
    cases target with
    | none => exact ih hs
    | some n => exact fun hcount => ih (hs.grow n A) (by simpa [Session.grow] using hcount)
  | ask hask hplay ih₁ ih₂ =>
    intro hcount
    have hf := hask.frame hs
    have hle := (hplay.frame hf.wf).growth.count
    have hle' := hf.growth.count
    exact (ih₁ hs (by omega)).trans (ih₂ hf.wf (by omega))
  | call hcall _ ih =>
    intro hcount
    exact Idles.trans (hT.call _ _ _ _ hcall) (ih hs hcount)
  | @same first n rest grown s a s₁ A g s' hplay _ _ hpass ih₁ ih₂ =>
    intro hcount
    have hf := hplay.frame hs
    have hle := (hpass.frame hf.wf).growth.count
    have hle' := hf.growth.count
    simp only [Session.note_memo] at hle
    have hnote : Idles kind trace s₁ (s₁.note (.recomputed · first n a.low)) :=
      ⟨[_], hT.record _ _, by simp [Event.Idle]⟩
    exact ((ih₁ hs (by omega)).trans hnote).trans (ih₂ hf.wf (by rw [Session.note_memo]; omega))
  | @grew first n rest grown s a s₁ A g s' hplay _ _ hpass ih₁ ih₂ =>
    intro hcount
    have hf := hplay.frame hs
    have hle := (hpass.frame (hf.wf.grow n a.set)).growth.count
    have hle' := hf.growth.count
    simp only [Session.grow, Session.note_memo, Memo.grow_count] at hle
    have hnote : Idles kind trace s₁
        ((s₁.note (.recomputed · first n a.low)).grow (some n) a.set) :=
      ⟨[_], hT.record _ _, by simp [Event.Idle]⟩
    refine ((ih₁ hs (by omega)).trans hnote).trans (ih₂ (hf.wf.grow n a.set) ?_)
    simp only [Session.grow, Session.note_memo, Memo.grow_count]
    omega
  | stable _ _ ih => exact ih hs
  | again hpass _ hsettle ih₁ ih₂ =>
    intro hcount
    have hf := hpass.frame hs
    have hle := (hsettle.frame hf.wf).growth.count
    have hle' := hf.growth.count
    exact (ih₁ hs (by omega)).trans (ih₂ hf.wf (by omega))
  | alone | together => trivial

/-- What is taken down until the group above `mark` may be closed. -/
theorem finish_told (hT : Traced kind trace Calls) {first mark : Nat} {low : Low}
    (h : Run script Calls (.finish first mark low) s () s') (hs : s.memo.Wf)
    (hkind : s.memo.kind = kind) (hstays : s.memo.Stays s'.memo) :
    ∃ meanwhile : Option (List Event),
      trace s'.around = trace s.around ++
        Stretch.settling kind (s.memo.group.drop mark).length meanwhile ∧
      (meanwhile.isSome ↔ low ≠ .settled ∨ 1 < s.memo.group.length - mark) ∧
      ∀ es ∈ meanwhile, ∀ e ∈ es, e.Idle kind := by
  cases h with
  | alone hlen => exact ⟨none, by simp [Stretch.settling], by simpa using hlen, by simp⟩
  | together hmany hsettle =>
    have hcount := hstays.count_eq hs (hsettle.frame hs).wf
    obtain ⟨es, htrace, hes⟩ := hsettle.waits hT hs hcount
    refine ⟨some es, ?_, by simpa using hmany, by simpa using hes⟩
    have hnote : trace (s.note (.settling · (s.memo.group.length - mark))).around =
        trace s.around ++ [.settling kind (s.memo.group.length - mark)] := by
      rw [← hkind]
      exact hT.record _ _
    rw [htrace, hnote, List.length_drop, List.append_assoc]
    rfl

/-! ### Runs that explore -/

/-- Closing a group takes down all that there is to tell of it. -/
theorem close_tells (hT : Traced kind trace Calls) {mark : Nat} {meanwhile : Option (List Event)}
    (hs : s.memo.Wf) (hkind : s.memo.kind = kind) (h : Solve.close mark s = (.ok (), s'))
    (hstays : s₁.memo.Stays s.memo) (htrace : trace s.around = trace s₁.around ++
      Stretch.settling kind (s.memo.group.drop mark).length meanwhile)
    (hcomponent : Component R (s.memo.group.drop mark))
    (hmeanwhile : meanwhile.isSome ↔ Cyclic R (s.memo.group.drop mark))
    (hidle : ∀ es ∈ meanwhile, ∀ e ∈ es, e.Idle kind) : Tells kind trace R s₁ s' := by
  rw [Solve.close_apply hs mark] at h
  cases h
  refine ⟨[.group (s.memo.group.drop mark) (fun n => (s.memo.part? n).getD ∅) meanwhile],
    ?_, ?_, ?_⟩
  · rw [hT.recordAll, htrace, hs.closing_eq, hkind, List.append_assoc, List.flatMap_singleton]
    rfl
  · exact List.forall_mem_singleton.2 ⟨hcomponent, hmeanwhile, hidle⟩
  · show (s.memo.close mark).done.keys = _
    rw [(hs.close_keys mark).2, hstays.done, groups_group, List.flatten_cons]
    exact congrArg _ (List.append_nil _).symm

/-- What a part of a run tells. All that is unfinished leads to the set that is found. -/
def Told (B : Bounds ι) (ok : Symbol → SymbolSet → Prop)
    (R : Symbol → Symbol → Prop) (kind : SetKind) (trace : σ → List Event) :
    (t : Task ι) → Session σ → Session σ → Prop
  | .ask n, s, s' => B.key n → (∀ x u, s.memo.unfinished.get? x = some u → TransGen R x n) →
      Tells kind trace R s s'
  | .play (some n) p _, s, s' => ∀ seen, p.Within B (B.set n) → p.Covers B.reply ok (R n) seen →
      (∀ x u, s.memo.unfinished.get? x = some u → ReflTransGen R x n) → Tells kind trace R s s'
  | .play none .., _, _ | .pass .., _, _ | .settle .., _, _ | .finish .., _, _ => True

/-- Where sets rest on others in a regular way, runs tell of groups that are components. -/
theorem told (hR : Regular script B ok R)
    (hscript : ∀ n, B.key n → (script n).Within B (B.set n)) (hcalls : RepliesWithin B Calls)
    (hT : Traced kind trace Calls) {t : Task ι} {r : t.Result} (h : Run script Calls t s r s')
    (hs : s.memo.Wf) (hkind : s.memo.kind = kind) (hB : s.memo.Within B)
    (hc : s.memo.Closed script B.reply) : Told B ok R kind trace t s s' := by
  have hstart : ∀ (s : Session σ) n, Tells kind trace R s (s.start n) := fun s n =>
    .of_apart (hT.record _ _) (by simp [Event.Apart]) rfl
  induction h with
  | known => exact fun _ _ => .refl _
  | reentered => exact fun _ _ => .of_apart (hT.record _ _) (by simp [Event.Apart]) rfl
  | @left n s a s' A hd hu hplay hlow hp ih =>
    intro hn hup
    have hfirst := Memo.FirstPass.start (fun x u hx => (hup x u hx).to_reflTransGen) hs
    exact (hstart s n).trans (ih (hs.start hd hu) hkind (hB.start hn) hc _ (hscript n hn)
      (hR.covers n hn) hfirst.up)
  | @closed n s a s₁ s₂ s' A hd hu hplay hlow hfin hclose hA ih _ =>
    intro hn hup
    have hwf := hs.start hd hu
    have hf := hplay.frame hwf
    have hold := (Memo.Extends.start hu).trans hf.growth
    have hwithin := (hplay.within hscript hcalls hwf (hB.start hn) (bounded_first (hscript n hn))).1
    have hbegin := Memo.FirstPass.start (fun x u hx => (hup x u hx).to_reflTransGen) hs
    obtain ⟨hfirst, hclosed⟩ := hplay.explored hR hscript hcalls hwf (hB.start hn) hc s.memo.count _
      (hscript n hn) (hR.covers n hn) hbegin
    obtain ⟨hstays, -⟩ := hfin.explored hR hscript hcalls hf.wf hwithin hclosed
      (hfirst.ready hs hf.wf hold hlow) (closed_alone hcalls hplay hs hd hu)
    obtain ⟨meanwhile, htrace, hmeanwhile, hidle⟩ :=
      hfin.finish_told hT hf.wf (hold.kind.trans hkind) hstays
    have hf₂ := hfin.frame hf.wf
    have hcomponent := hfirst.component hR hwithin hclosed hs hf.wf hold hlow
    have hcyclic := hfirst.cyclic_iff hR hwithin hclosed hs hf.wf hold hlow
    rw [← hstays.group] at htrace hcomponent hcyclic
    have hclosing := close_tells hT hf₂.wf ((hold.trans hf₂.growth).kind.trans hkind) hclose hstays
      htrace hcomponent (hmeanwhile.trans (hstays.group ▸ hcyclic.symm)) hidle
    exact ((hstart s n).trans (ih hwf hkind (hB.start hn) hc _ (hscript n hn) (hR.covers n hn)
      hbegin.up)).trans hclosing
  | @done target =>
    cases target with
    | none => trivial
    | some n => exact fun _ _ _ _ => .refl _
  | @emit target A p sum s a s' _ ih =>
    cases target with
    | none => trivial
    | some n =>
      rintro seen ⟨hA, hp⟩ hcovers hup
      have hgrow : (s.memo.grow n A).done = s.memo.done := Memo.grow_done _ _ _
      have htold := ih (hs.grow n A) ((Memo.grow_kind s.memo n A).trans hkind) (hB.grow hA)
        (hc.congr hgrow) seen hp hcovers fun x u hu => by
          obtain ⟨v, hv, -⟩ := Memo.get?_grow_number hu
          exact hup x v hv
      have hgrown : Tells kind trace R s (s.grow (some n) A) :=
        .of_apart (List.append_nil _).symm (by simp) hgrow
      exact hgrown.trans htold
  | @ask target m p sum s a s₁ b s' hask _ ih₁ ih₂ =>
    cases target with
    | none => trivial
    | some n =>
      rintro seen ⟨hm, hp⟩ ⟨hnm, hcovers⟩ hup
      have hup₁ : ∀ x u, s.memo.unfinished.get? x = some u → TransGen R x m :=
        fun x u hu => .tail' (hup x u hu) hnm
      have hf := hask.frame hs
      have hwithin := hask.within hscript hcalls hs hB ⟨hm, rfl⟩
      have hanswer := hask.explored hR hscript hcalls hs hB hc hm hup₁
      refine (ih₁ hs hkind hB hc hm hup₁).trans (ih₂ hf.wf (hf.growth.kind.trans hkind) hwithin.1
        hanswer.closed _ (hp _ hwithin.2) (hcovers _ hanswer.ok) fun x u hu => ?_)
      cases hx : s.memo.unfinished.get? x with
      | some v => exact hup x v hx
      | none =>
        obtain ⟨-, ⟨y, v, hv, hxy⟩, -⟩ := hanswer.fresh x u hu hx
        exact hxy.trans (hup y v hv)
  | @call target i p sum s A around b s' hcall _ ih =>
    cases target with
    | none => trivial
    | some n =>
      rintro seen ⟨-, hp⟩ hcovers hup
      have hreply := hcalls _ _ _ _ hcall
      obtain ⟨es, htrace, hes⟩ := hT.call _ _ _ _ hcall
      have hcalled : Tells kind trace R s { s with around } :=
        .of_apart htrace (fun e he => (hes e he).apart) rfl
      exact hcalled.trans (ih hs hkind hB hc seen (hp _ hreply) (hcovers _ hreply) hup)
  | _ => trivial

end Run

end FirstFollow
